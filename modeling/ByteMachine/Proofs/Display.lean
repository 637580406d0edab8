import ByteMachine.Proofs.Machine.Cycle
import ByteMachine.Proofs.Machine.Footprint
import ByteMachine.Proofs.Scheduler.Consistency

/-!
# Front ends that follow the notices

A front end starts with everything at zero and takes over what each notice says. It has
never seen the computer, and yet after every command it shows the registers, the memory and
the number that was last put out, and it knows the ticket of the question that is
outstanding. Some changes are made in silence: a run resets all registers, and an assembly
clears memory and writes into it. Each of them is made up for by a notice before the
command ends, also where a source is refused or an instruction fails halfway.
-/

namespace ByteMachine

/-- The latest value of everything that notices tell. -/
structure Display where
  /-- The registers. -/
  registers : RegisterFile := .zero
  /-- The bytes of memory. -/
  cells : List UInt8
  /-- The end of the program. -/
  pointer : Nat := 0
  /-- The number that was last put out. -/
  latch : Int := 0
  /-- The ticket that was last handed out. -/
  ticket : Option Ticket := none
  deriving DecidableEq, Repr

namespace Display

/-- A display in front of a memory of this size, before the first notice. -/
def blank (size : Nat) : Display := { cells := List.replicate size 0 }

/-- The display after one notice. -/
def note (v : Display) : Notice → Display
  | .register r value => { v with registers := v.registers.set r value }
  | .memory m => { v with cells := m.cells, pointer := m.pointer }
  | .output value => { v with latch := value }
  | .refused _ => v
  | .inputRequested t => { v with ticket := some t }

/-- The display after notices, one after another. -/
def follow (v : Display) (notices : List Notice) : Display := notices.foldl note v

/-- Whether a display agrees with a machine. Of the ticket only an outstanding question is
taken into account. -/
structure Shows (v : Display) (m : Machine) : Prop where
  /-- The registers agree. -/
  registers : v.registers = m.registers
  /-- The bytes of memory agree. -/
  cells : v.cells = m.memory.cells
  /-- The end of the program agrees. -/
  pointer : v.pointer = m.memory.pointer
  /-- The number that was last put out agrees. -/
  latch : v.latch = m.latch
  /-- The question that is outstanding is the one that was asked last. -/
  ticket : ∀ t, m.scheduler.outstanding = some t → v.ticket = some t

theorem follow_append (v : Display) (ns ms : List Notice) :
    v.follow (ns ++ ms) = (v.follow ns).follow ms :=
  List.foldl_append

/-- Notices of register writes are the writes themselves. -/
theorem follow_map_register (v : Display) (ws : List (Register × UInt8)) :
    v.follow (ws.map fun w => .register w.1 w.2) =
      { v with registers := v.registers.write ws } := by
  induction ws generalizing v with
  | nil => rfl
  | cons w ws ih => exact ih (v.note (.register w.1 w.2))

end Display

open Display (Shows)

variable {v : Display} {m : Machine}

/-- Where no question comes up anew, a change of the run state needs no notice. -/
theorem Display.Shows.withScheduler (h : v.Shows m) {s : Scheduler}
    (hs : ∀ t, s.outstanding = some t → m.scheduler.outstanding = some t) :
    v.Shows { m with scheduler := s } where
  registers := h.registers
  cells := h.cells
  pointer := h.pointer
  latch := h.latch
  ticket t ht := h.ticket t (hs t ht)

/-- The end of a run needs no notice. -/
theorem Display.Shows.stop (h : v.Shows m) :
    v.Shows { m with scheduler := m.scheduler.stop } := by
  apply h.withScheduler
  intro t ht
  cases ht

namespace Action

/-- An action whose notices lead every display that shows the machine before it to one
that shows the machine after it. -/
def Tells {α : Type} (x : Action α) : Prop :=
  Meets (fun m m' ns => ∀ v : Display, v.Shows m → (v.follow ns).Shows m') x

/-- What an operation is put together of tells all that it changes, also where it fails. -/
theorem tells_of_uses {o : Opcode} {α : Type} {x : Action α} (h : o.Uses x) : Tells x := by
  induction h with
  | pure | machine | register => exact fun m v hv => hv
  | bind hx hf ihx ihf =>
    refine Meets.bind ihx ihf (fun m m' ns hfirst => hfirst) ?_
    intro m m' m'' ns ns' hfirst hrest v hv
    rw [Display.follow_append]
    exact hrest _ (hfirst v hv)
  | load address =>
    intro m v hv
    unfold Action.load
    split <;> exact hv
  | @writeAll ws hws =>
    intro m v hv
    have hwritten : v.registers.write ws = m.registers.write ws :=
      congrArg (fun f => RegisterFile.write f ws) hv.registers
    have hdisplay := v.follow_map_register ws
    change (v.follow (ws.map fun w => .register w.1 w.2)).Shows _
    rw [hdisplay]
    exact ⟨hwritten, hv.cells, hv.pointer, hv.latch, hv.ticket⟩
  | store hstores address value =>
    intro m v hv
    unfold Action.store
    split
    · exact ⟨hv.registers, rfl, rfl, hv.latch, hv.ticket⟩
    · exact hv
  | putOut houtput value =>
    intro m v hv
    exact ⟨hv.registers, hv.cells, hv.pointer, rfl, hv.ticket⟩
  | sleep hsuspends timeout =>
    intro m v hv
    unfold Action.sleep
    split
    · rename_i s hs
      exact hv.withScheduler fun t ht => Scheduler.outstanding_of_sleep hs ▸ ht
    · exact hv
  | requestInput hinput =>
    intro m v hv
    exact ⟨hv.registers, hv.cells, hv.pointer, hv.latch, fun t ht => ht⟩
  | randomByte hrandom =>
    intro m v hv
    exact ⟨hv.registers, hv.cells, hv.pointer, hv.latch, hv.ticket⟩
  | halt hstop => exact fun m v hv => hv.stop

end Action

namespace Machine

/-- A cycle tells all that it changes. -/
theorem tells_cycle : Action.Tells cycle :=
  meets_cycle (fun _ _ hv => hv) fun o => Action.tells_of_uses o.uses_complete

/-- A display that follows the notices of a step shows the machine behind it, whether or
not the instruction has failed. -/
theorem shows_of_step (hv : v.Shows m) {r : Reply Machine (Except Fault Unit)}
    (hr : m.step = some r) : (v.follow r.notices).Shows r.next := by
  rcases step_cases hr with ⟨-, rfl⟩ | ⟨-, hnotices, ⟨-, hnext⟩ | ⟨fault, -, hnext⟩⟩
  · exact hv
  · rw [hnotices, hnext]
    exact tells_cycle m v hv
  · rw [hnotices, hnext]
    exact (tells_cycle m v hv).stop

end Machine

namespace Computer

variable {c : Computer}

/-- A display that follows the notices of an assembly shows what is in memory then. -/
theorem shows_of_assemble (hv : v.Shows c.machine) (source : String) :
    (v.follow (c.assemble source).notices).Shows (c.assemble source).next.machine := by
  unfold assemble
  split <;> exact ⟨hv.registers, rfl, rfl, hv.latch, hv.ticket⟩

/-- The registers are all announced at the start of a run, so that none of an earlier run
is left in a display. -/
theorem shows_of_run (hv : v.Shows c.machine) :
    (v.follow c.run.notices).Shows c.run.next.machine := by
  let registers := startRegisters c.machine.memory
  have hnotices : c.run.notices =
      ((.sp, registers.sp) :: registers.toList).map fun w => .register w.1 w.2 := rfl
  rw [hnotices, Display.follow_map_register, RegisterFile.write_cons, RegisterFile.write_toList]
  refine ⟨rfl, hv.cells, hv.pointer, hv.latch, ?_⟩
  intro t ht
  cases ht

/-- A display that follows the notices of a delivery shows the machine behind it, whether
or not the answer has been taken. -/
theorem shows_of_deliver (hv : v.Shows c.machine) (ticket : Ticket) (text : String) :
    (v.follow (c.deliver ticket text).notices).Shows (c.deliver ticket text).next.machine := by
  unfold deliver
  split
  · exact hv
  · split
    · exact hv
    · rename_i value hvalue
      have hwritten : v.registers.set .ra value = c.machine.registers.set .ra value :=
        congrArg (fun f => RegisterFile.set f .ra value) hv.registers
      refine ⟨hwritten, hv.cells, hv.pointer, hv.latch, ?_⟩
      intro t ht
      cases Scheduler.outstanding_of_wakeUp ht

/-- A display that follows the notices of a command shows the machine behind it. -/
theorem shows_of_perform (hv : v.Shows c.machine) {command : Command}
    {r : Reply Computer Answer} (hr : c.perform command = some r) :
    (v.follow r.notices).Shows r.next.machine := by
  cases performs_of_perform hr with
  | assembled source => exact shows_of_assemble hv source
  | started => exact shows_of_run hv
  | stopped => exact hv.stop
  | suspended hs => exact hv.withScheduler fun t ht => Scheduler.outstanding_of_sleep hs ▸ ht
  | woken => exact hv.withScheduler fun t ht => Scheduler.outstanding_of_wakeUp ht
  | stepped hstep => exact Machine.shows_of_step hv hstep
  | passed hs hidle => exact hv.withScheduler fun t ht => Scheduler.outstanding_of_advance hs ht
  | updated hs hrunning hstep =>
    -- the time that passes first needs no notice
    have hlater : v.Shows { c.machine with scheduler := _ } :=
      hv.withScheduler fun t ht => Scheduler.outstanding_of_advance hs ht
    exact Machine.shows_of_step hlater hstep
  | delivered ticket text => exact shows_of_deliver hv ticket text

/-- A display that follows a history of commands shows the machine behind it. -/
theorem shows_of_performAll (hv : v.Shows c.machine) {commands : List Command}
    {r : Reply Computer (List Answer)} (hr : c.performAll commands = some r) :
    (v.follow r.notices).Shows r.next.machine := by
  induction commands generalizing c v r with
  | nil =>
    cases hr
    exact hv
  | cons command commands ih =>
    obtain ⟨first, rest, hfirst, hlater, heq⟩ := performAll_cons hr
    have hrest := ih (shows_of_perform hv hfirst) hlater
    rw [heq, Display.follow_append]
    exact hrest

/-- A blank display shows a computer that has just been built. -/
theorem shows_blank {settings : Settings} {key : Random.Key}
    (hc : ofSettings settings key = .ok c) :
    (Display.blank settings.memorySize).Shows c.machine := by
  unfold ofSettings Memory.ofSize at hc
  split at hc
  · rename_i memory hmemory
    split at hmemory
    · cases hmemory
      cases hc
      refine ⟨rfl, rfl, rfl, rfl, ?_⟩
      intro t ht
      cases ht
    · cases hmemory
  · cases hc

/-- In a computer that can be reached, a text that is a byte is taken exactly for the
question that is outstanding. -/
theorem deliver_eq_ok_iff_outstanding (hc : c.Reachable) {ticket : Ticket} {text : String}
    {value : UInt8} (hvalue : Text.typedByte? text = some value) :
    (c.deliver ticket text).answer = .ok () ↔
      c.machine.scheduler.outstanding = some ticket := by
  have hcheck : (c.deliver ticket text).answer = .ok () ↔
      c.machine.scheduler.checkTicket ticket = .ok () := by
    unfold deliver
    cases c.machine.scheduler.checkTicket ticket with
    | error e => simp
    | ok u => simp [hvalue]
  rw [hcheck, Scheduler.checkTicket_eq_ok_iff]
  constructor
  · exact fun h => h.2
  · intro h
    exact ⟨(hc.consistent.question ticket h).2.1, h⟩

/-- Notices tell everything. Whatever a new computer is told to do, and whether or not it
succeeds, a display that starts at zero and follows the notices shows all registers, all
bytes of memory, the end of the program and the last output; and while the program waits
for a byte, the ticket that was last handed out is the one that an answer is taken for. -/
theorem display_follows_computer {settings : Settings} {key : Random.Key}
    (hc : ofSettings settings key = .ok c) {commands : List Command}
    {r : Reply Computer (List Answer)} (hr : c.performAll commands = some r) :
    let display := (Display.blank settings.memorySize).follow r.notices
    display.registers = r.next.machine.registers ∧
      display.cells = r.next.machine.memory.cells ∧
      display.pointer = r.next.machine.memory.pointer ∧
      display.latch = r.next.machine.latch ∧
      (r.next.isAwaitingInput = true → ∃ asked, display.ticket = some asked ∧
        ∀ ticket text value, Text.typedByte? text = some value →
          ((r.next.deliver ticket text).answer = .ok () ↔ ticket = asked)) := by
  have hshows := shows_of_performAll (shows_blank hc) hr
  refine ⟨hshows.registers, hshows.cells, hshows.pointer, hshows.latch, ?_⟩
  intro hawaiting
  obtain ⟨asked, hasked⟩ := Option.isSome_iff_exists.mp hawaiting
  have hreachable : r.next.Reachable := (Reachable.built hc).performAll hr
  refine ⟨asked, hshows.ticket asked hasked, ?_⟩
  intro ticket text value hvalue
  rw [deliver_eq_ok_iff_outstanding hreachable hvalue, hasked, Option.some.injEq, eq_comm]

/-- A program that stores, puts a number out and asks, and a source that is refused while
the question is outstanding. -/
def telling : List Command :=
  [.assemble "MOVEI RA, FE\nPUSH\nOUT 01\nIN 00", .run, .step, .step, .step, .step,
    .assemble "HALT"]

/-- After all of that a display shows the byte in the accumulator, memory cleared by the
refusal, the number and the question. -/
theorem telling_display_follows : ∃ c r, ofSettings { memorySize := 8 } 0 = .ok c ∧
    c.performAll telling = some r ∧
    ((Display.blank 8).follow r.notices).registers.ra = 0xFE ∧
    r.next.machine.registers.ra = 0xFE ∧
    r.next.machine.memory.cells = List.replicate 8 0 ∧ r.next.machine.latch = -2 ∧
    r.next.isAwaitingInput = true ∧ (r.next.deliver ⟨1, 0⟩ "2A").answer = .ok () := by
  refine ⟨_, _, rfl, rfl, ?_⟩
  obtain ⟨hregisters, hcells, -, hlatch, hasked⟩ := display_follows_computer
    (rfl : ofSettings { memorySize := 8 } 0 = .ok _) (rfl : Computer.performAll _ telling = some _)
  obtain ⟨asked, hticket, hdeliver⟩ := hasked rfl
  have heq : asked = ⟨1, 0⟩ := (Option.some.inj hticket).symm
  rw [heq] at hdeliver
  exact ⟨congrArg RegisterFile.ra hregisters, rfl, hcells.symm, hlatch.symm, rfl,
    (hdeliver ⟨1, 0⟩ "2A" 42 rfl).mpr rfl⟩

end Computer

end ByteMachine
