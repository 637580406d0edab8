import ByteMachine.Proofs.ControlFlow.Program
import ByteMachine.Proofs.Histories
import ByteMachine.Proofs.Machine.Scheduling
import ByteMachine.Proofs.Scheduler.Operations

/-!
# Disciplined programs never leave their instructions

A disciplined program is in memory unchanged as long as it runs, for none of its
operations writes there. Its program counter starts on its first instruction line, and
each operation moves it to another one: behind itself, to a label, or behind a call. Only
a return that no call came before could lead elsewhere. So whatever happens to the run
from outside, a program that runs or is suspended stands on an instruction line, and never
meets a byte that is no code.
-/

namespace ByteMachine

open Source (Line)

namespace Deed

/-- Whether a return is executed. -/
def isReturn : Deed → Bool
  | execute _ .ret => true
  | _ => false

/-- Whether the current run has executed a call, given whether it had before. -/
def called (before : Bool) : Deed → Bool
  | start => false
  | execute _ .call => true
  | _ => before

end Deed

/-- Whether no return is executed before the first call of its run. The flag tells whether
the run that goes on at the beginning has executed a call. -/
def returnsFollowCalls (called : Bool) : List Deed → Bool
  | [] => true
  | d :: ds => (!d.isReturn || called) && returnsFollowCalls (d.called called) ds

/-- The fault that an answer reports. -/
def Answer.fault? : Answer → Option Fault
  | .stepped (.error fault) => some fault
  | .updated (.error fault) => some fault
  | _ => none

/-- The fault of an instruction is reported, however it came to be executed. -/
theorem Answer.eq_error_of_fault? {result : Except Fault Unit} {fault : Fault}
    (h : (Answer.stepped result).fault? = some fault ∨
      (Answer.updated (result.map fun _ => true)).fault? = some fault) :
    result = .error fault := by
  cases result with
  | ok u => rcases h with h | h <;> cases h
  | error f => rcases h with h | h <;> cases h <;> rfl

/-- An operation goes on at its target, behind a call, nowhere, or behind itself. -/
theorem Opcode.successor_cases (o : Opcode) (f : RegisterFile) (value next : UInt8) :
    (o.branches = true ∧ o.successor f value next = value) ∨
      (o = .ret ∧ o.successor f value next = f.ret + 1) ∨ o = .stop ∨
      (o ≠ .stop ∧ o ≠ .jump ∧ o.successor f value next = next) := by
  by_cases hjumps : o.jumps f = true
  · have hbranches : o.branches = true := by
      cases o <;> first | rfl | cases hjumps
    exact .inl ⟨hbranches, if_pos hjumps⟩
  · unfold successor
    rw [if_neg hjumps]
    cases o with
    | ret => exact .inr (.inl ⟨rfl, rfl⟩)
    | stop => exact .inr (.inr (.inl rfl))
    | jump => exact absurd rfl hjumps
    | _ => exact .inr (.inr (.inr ⟨nofun, nofun, rfl⟩))

namespace Machine

variable {n : Memory} {starts : List UInt8} {called : Bool} {m : Machine} {o : Opcode}
  {value : UInt8}

/-- A machine with a program that stays on its track. -/
structure OnTrack (n : Memory) (starts : List UInt8) (called : Bool) (m : Machine) : Prop where
  /-- The program is still there. -/
  memory : m.memory = n
  /-- Unless the program is stopped, it stands at one of the addresses. -/
  pc : m.scheduler.state ≠ .stopped → m.registers.pc ∈ starts
  /-- Once it has called, it also returns to one of them. -/
  ret : m.scheduler.state ≠ .stopped → called = true → m.registers.ret + 1 ∈ starts

namespace OnTrack

/-- A change of the run state keeps a program on its track, unless it sets a stopped one
going. -/
theorem withScheduler (h : m.OnTrack n starts called) {s : Scheduler}
    (hs : s.state ≠ .stopped → m.scheduler.state ≠ .stopped) :
    OnTrack n starts called { m with scheduler := s } where
  memory := h.memory
  pc hawake := h.pc (hs hawake)
  ret hawake := h.ret (hs hawake)

/-- Time that passes keeps a program on its track. -/
theorem advance (h : m.OnTrack n starts called) {elapsed : Nat} {s : Scheduler}
    (hs : m.scheduler.advance elapsed = some s) :
    OnTrack n starts called { m with scheduler := s } := by
  refine h.withScheduler ?_
  intro hawake hstopped
  exact hawake ((Scheduler.state_advance_eq_stopped_iff hs).mpr hstopped)

/-- A program that is stopped is on any track in its memory. -/
theorem of_stopped (hmemory : m.memory = n) (hstopped : m.scheduler.state = .stopped) :
    m.OnTrack n starts called :=
  ⟨hmemory, fun hawake => absurd hstopped hawake, fun hawake => absurd hstopped hawake⟩

/-- The code of a site under the program counter is there. -/
theorem load_code (h : m.OnTrack n starts called)
    (hsite : n.Site starts m.registers.pc o value) :
    m.memory.load m.registers.pc = .ok o.code := by
  rw [h.memory]
  exact hsite.code

/-- An operation at a site that goes through keeps the program on its track. -/
theorem complete (h : m.OnTrack n starts called) (hawake : m.scheduler.state ≠ .stopped)
    (hsite : n.Site starts m.registers.pc o value) (hreturn : o = .ret → called = true)
    (hok : (Machine.complete o o.run m).outcome = .ok ()) :
    (Machine.complete o o.run m).machine.OnTrack n starts
      ((Deed.execute m.registers.pc o).called called) := by
  have hcode := h.load_code hsite
  have hvalue (hform : o.form ≠ .bare) : m.memory.load (m.registers.pc + 1) = .ok value := by
    rw [h.memory]
    exact hsite.operand hform
  have hgiven : Machine.complete o o.run m =
      Machine.complete o (o.runWith (Action.given value)) m :=
    (cycle_eq_complete hcode).symm.trans (cycle_eq_complete_given hcode hvalue)
  have hconfined := o.uses_complete.confines m
  refine ⟨(hconfined.memory hsite.reads).trans h.memory, ?_, ?_⟩
  · intro hgoes
    have hstop : o ≠ .stop := by
      intro heq
      subst heq
      exact hgoes (state_complete_stop hok)
    rw [hgiven] at hok ⊢
    rw [pc_complete hok]
    rcases o.successor_cases m.registers value
        (m.registers.pc + UInt8.ofNat o.width) with ⟨hbranches, heq⟩ | ⟨hret, heq⟩ | heq |
        ⟨-, hjump, heq⟩
    · rw [heq]
      exact hsite.target hbranches
    · rw [heq]
      exact h.ret hawake (hreturn hret)
    · exact absurd heq hstop
    · rw [heq]
      exact hsite.next hstop hjump
  · intro _ hcalled
    by_cases hcall : o = .call
    · -- what the call remembers is one short of the line behind it
      subst hcall
      have hnext := hsite.next nofun nofun
      have htwo : m.registers.pc + 1 + 1 = m.registers.pc + 2 := UInt8.add_assoc _ 1 1
      rw [hgiven] at hok ⊢
      rw [ret_complete_call hok, htwo]
      exact hnext
    · have hbefore : called = true := by
        cases o <;> first | exact hcalled | exact absurd rfl hcall
      have htarget : Register.ret ∉ .pc :: o.targets := by
        cases o <;> first | decide | exact absurd rfl hcall
      have hkept : (Machine.complete o o.run m).machine.registers.ret = m.registers.ret :=
        hconfined.register .ret htarget
      rw [hkept]
      exact h.ret hawake hbefore

/-- A step keeps a program on its track, and fails only for want of a cell. -/
theorem step (h : m.OnTrack n starts called) (htracks : n.Tracks starts)
    (hreturn : m.deed.isReturn = true → called = true)
    {r : Reply Machine (Except Fault Unit)} (hr : m.step = some r) :
    r.next.OnTrack n starts (m.deed.called called) ∧
      ∀ fault, r.answer = .error fault → ∃ e, fault = .memory e := by
  by_cases hrunning : m.scheduler.state = .running
  · have hawake : m.scheduler.state ≠ .stopped := by
      rw [hrunning]
      exact nofun
    obtain ⟨o, value, hsite⟩ := htracks.site _ (h.pc hawake)
    have hcode := h.load_code hsite
    rw [deed_of_load hrunning hcode] at hreturn ⊢
    have hconclude : conclude (Machine.complete o o.run m) = some r := by
      rw [← hr, Machine.step, if_pos hrunning, cycle_eq_complete hcode]
    unfold conclude at hconclude
    split at hconclude
    · rename_i hok
      cases hconclude
      refine ⟨h.complete hawake hsite ?_ hok, by rintro fault ⟨⟩⟩
      intro hret
      subst hret
      exact hreturn rfl
    · rename_i fault hfault
      cases hconclude
      have hconfined := o.uses_complete.confines m
      have hmemory := (hconfined.memory hsite.reads).trans h.memory
      refine ⟨of_stopped hmemory rfl, ?_⟩
      intro f hf
      cases hf
      exact o.uses_complete.memory_of_fault hfault
    · cases hconclude
  · rw [Machine.step_of_not_running hrunning] at hr
    cases hr
    rw [deed_of_not_running hrunning]
    exact ⟨h, by rintro fault ⟨⟩⟩

end OnTrack

end Machine

namespace Computer

open Machine (OnTrack)

variable {c : Computer} {n : Memory} {starts : List UInt8} {called : Bool}

/-- Whatever has been going on, a run starts on the track. -/
theorem onTrack_run (hmemory : c.machine.memory = n) (htracks : n.Tracks starts) :
    c.run.next.machine.OnTrack n starts false :=
  ⟨hmemory, fun _ => htracks.zero_mem, fun _ => nofun⟩

/-- A delivery keeps a program on its track. -/
theorem onTrack_deliver (h : c.machine.OnTrack n starts called) (ticket : Ticket)
    (text : String) : (c.deliver ticket text).next.machine.OnTrack n starts called := by
  have hwakes : c.machine.scheduler.retire.wakeUp.state ≠ .stopped →
      c.machine.scheduler.state ≠ .stopped := by
    intro hawake hstopped
    have hretired : c.machine.scheduler.retire.state = .stopped := hstopped
    exact hawake (Scheduler.state_wakeUp_of_stopped hretired)
  unfold deliver
  split
  · exact h
  · split
    · exact h
    · have hwoken := h.withScheduler hwakes
      exact ⟨hwoken.memory, hwoken.pc, hwoken.ret⟩

/-- Every command but an assembly keeps a program on its track, and fails only for want of
a cell. -/
theorem onTrack_perform (h : c.machine.OnTrack n starts called) (htracks : n.Tracks starts)
    {command : Command} (hcommand : ∀ source, command ≠ .assemble source)
    (hreturn : (c.deed command).isReturn = true → called = true)
    {r : Reply Computer Answer} (hr : c.perform command = some r) :
    r.next.machine.OnTrack n starts ((c.deed command).called called) ∧
      ∀ fault, r.answer.fault? = some fault → ∃ e, fault = .memory e := by
  cases performs_of_perform hr with
  | assembled source => exact absurd rfl (hcommand source)
  | started => exact ⟨onTrack_run h.memory htracks, nofun⟩
  | stopped => exact ⟨.of_stopped h.memory rfl, nofun⟩
  | suspended hs =>
    refine ⟨h.withScheduler ?_, nofun⟩
    intro hawake hstopped
    rw [Scheduler.eq_of_sleep hs, if_pos hstopped] at hawake
    exact hawake hstopped
  | woken =>
    refine ⟨h.withScheduler ?_, nofun⟩
    intro hawake hstopped
    exact hawake (Scheduler.state_wakeUp_of_stopped hstopped)
  | stepped hstep =>
    obtain ⟨hnext, hfaults⟩ := h.step htracks hreturn hstep
    exact ⟨hnext, fun fault hfault => hfaults fault (Answer.eq_error_of_fault? (.inl hfault))⟩
  | passed hs hidle =>
    rw [deed_update hs, Machine.deed_of_not_running hidle]
    exact ⟨h.advance hs, nofun⟩
  | updated hs hrunning hstep =>
    rw [deed_update hs] at hreturn ⊢
    obtain ⟨hnext, hfaults⟩ := (h.advance hs).step htracks hreturn hstep
    exact ⟨hnext, fun fault hfault => hfaults fault (Answer.eq_error_of_fault? (.inr hfault))⟩
  | delivered ticket text => exact ⟨onTrack_deliver h ticket text, nofun⟩

/-- All along a history in which returns follow calls, a program stays on its track. -/
theorem onTrack_performAll (htracks : n.Tracks starts) {commands : List Command}
    (hcommands : ∀ command ∈ commands, ∀ source, command ≠ .assemble source)
    (h : c.machine.OnTrack n starts called)
    (hreturns : returnsFollowCalls called (c.deeds commands) = true)
    {r : Reply Computer (List Answer)} (hr : c.performAll commands = some r) :
    (∃ later, r.next.machine.OnTrack n starts later) ∧
      ∀ answer ∈ r.answer, ∀ fault, answer.fault? = some fault → ∃ e, fault = .memory e := by
  induction commands generalizing c called r with
  | nil =>
    cases hr
    exact ⟨⟨called, h⟩, nofun⟩
  | cons command commands ih =>
    obtain ⟨first, rest, hfirst, hlater, heq⟩ := performAll_cons hr
    rw [deeds, hfirst, returnsFollowCalls, Bool.and_eq_true, Bool.or_eq_true] at hreturns
    obtain ⟨hreturn, hreturns⟩ := hreturns
    have hcalled (hreturned : (c.deed command).isReturn = true) : called = true := by
      rw [hreturned] at hreturn
      simpa using hreturn
    obtain ⟨hnext, hfaults⟩ :=
      onTrack_perform h htracks (hcommands command List.mem_cons_self) hcalled hfirst
    have hrest := ih (fun command hmem => hcommands command (List.mem_cons_of_mem _ hmem))
      hnext hreturns hlater
    rw [heq]
    refine ⟨hrest.1, ?_⟩
    intro answer hanswer
    rcases List.mem_cons.mp hanswer with rfl | hmem
    · exact hfaults
    · exact hrest.2 answer hmem

/-- Whoever assembles a disciplined source and then runs what is in memory can start, stop,
suspend, wake and answer the program in any way. As long as no return is executed before
the first call of its run, the program counter of a program that runs or is suspended is
at an instruction line, and no instruction ever turns out to be no code. -/
theorem disciplined_stays_on_instructions {m n : Memory} {source : String} {a : Artifacts}
    (hassemble : m.assemble source = (n, .ok a)) {ls : List Line}
    (hlines : Source.lines? source = some ls) (hdisciplined : Source.Disciplined ls a)
    {c : Computer} (hmemory : c.machine.memory = n) {commands : List Command}
    (hcommands : ∀ command ∈ commands, ∀ source, command ≠ .assemble source)
    (hreturns : returnsFollowCalls false (c.deeds (.run :: commands)) = true)
    {r : Reply Computer (List Answer)} (hr : c.performAll (.run :: commands) = some r) :
    (r.next.state ≠ .stopped → r.next.machine.registers.pc ∈ a.lines.map Prod.snd) ∧
      ∀ answer ∈ r.answer, ∀ address byte,
        answer.fault? ≠ some (.unknownOpcode address byte) := by
  obtain ⟨ls', hls', -, -, hlaid⟩ :=
    Layout.laid_of_assemble (Layout.memory_assemble_eq_ok_iff.mp hassemble)
  rw [hlines] at hls'
  cases hls'
  have htracks := Layout.tracks_of_laid hlaid hdisciplined
  obtain ⟨first, rest, hfirst, hlater, heq⟩ := performAll_cons hr
  cases hfirst
  have hstart : c.run.next.machine.OnTrack n (a.lines.map Prod.snd) false :=
    onTrack_run hmemory htracks
  obtain ⟨⟨later, hnext⟩, hfaults⟩ := onTrack_performAll htracks hcommands hstart hreturns hlater
  rw [heq]
  refine ⟨hnext.pc, ?_⟩
  intro answer hanswer address byte hunknown
  rcases List.mem_cons.mp hanswer with rfl | hmem
  · cases hunknown
  · obtain ⟨e, he⟩ := hfaults answer hmem _ hunknown
    cases he

/-- A program that calls a routine, which asks for a byte, and sleeps when it is back. -/
def calls : String :=
  "CALL @ask\nSLEEP 01\nJUMP @end\n@ask: IN 00\nRET\n@end: STOP"

/-- A computer that has just assembled that program. -/
def calling : Computer where
  machine := {
    memory := ⟨[17, 6, 22, 1, 11, 9, 19, 0, 18, 21], 10, by decide, by decide, by decide⟩
    scheduler := { sleepUnit := 5 }
    generator := { key := 0 } }
  settings := { memorySize := 10 }

/-- What is then done with it: its question is answered, and it goes on until it sleeps. -/
def interview : List Command := [.step, .step, .deliver ⟨1, 0⟩ "2A", .update 0, .step]

/-- Suspended after its return, that program stands on its third line. -/
theorem calling_stays_on_instructions : ∃ r, calling.performAll (.run :: interview) = some r ∧
    r.next.state = .sleeping ∧ r.next.machine.registers.pc = 4 ∧
    r.next.machine.registers.pc ∈ [0, 2, 4, 6, 8, 9] ∧
    ∀ answer ∈ r.answer, ∀ address byte, answer.fault? ≠ some (.unknownOpcode address byte) := by
  have hassemble : (Memory.zeros 10 (by decide) (by decide)).assemble calls =
      (calling.machine.memory, .ok ⟨[("ask", 6), ("end", 9)],
        [(1, 0), (2, 2), (3, 4), (4, 6), (5, 8), (6, 9)], 10⟩) := rfl
  have hlines : Source.lines? calls = some
      [⟨none, some "CALL", ⟨some (.label "ask"), none⟩, none⟩,
        ⟨none, some "SLEEP", ⟨some (.word "01"), none⟩, none⟩,
        ⟨none, some "JUMP", ⟨some (.label "end"), none⟩, none⟩,
        ⟨some "ask", some "IN", ⟨some (.word "00"), none⟩, none⟩,
        ⟨none, some "RET", {}, none⟩,
        ⟨some "end", some "STOP", {}, none⟩] := rfl
  have hcommands : ∀ command ∈ interview, ∀ source, command ≠ .assemble source := by
    simp [interview]
  have hreturns : returnsFollowCalls false (calling.deeds (.run :: interview)) = true := by
    decide +kernel
  have hrun : (calling.performAll (.run :: interview)).map
      (fun r => (r.next.state, r.next.machine.registers.pc)) = some (.sleeping, 4) := by
    decide +kernel
  obtain ⟨r, hr, hwhere⟩ := Option.map_eq_some_iff.mp hrun
  obtain ⟨hstate, hpc⟩ := Prod.mk.inj hwhere
  obtain ⟨hstays, hknown⟩ := disciplined_stays_on_instructions hassemble hlines
    (by decide +kernel) rfl hcommands hreturns hr
  have hawake : r.next.state ≠ .stopped := by
    rw [hstate]
    exact nofun
  exact ⟨r, hr, hstate, hpc, hstays hawake, hknown⟩

end Computer

end ByteMachine
