import Mathlib.Data.List.Forall2
import ByteMachine.Proofs.Machine.Scheduling

/-!
# Machines that an instruction cannot tell apart

An instruction asks the scheduler for nothing but the length of a unit of sleep, and
changes it by its operations only. So wherever two schedulers differ in a way that these
operations keep, two machines that are equal apart from them stay so over an instruction:
it has the same outcome on both, and announces the same, tickets aside. The one exception
is a clock that cuts one of the two short.
-/

namespace ByteMachine

/-- A way in which two schedulers and their tickets may differ without an instruction being
able to tell them apart. -/
structure Scheduler.Likeness where
  /-- The schedulers differ in this way only. -/
  Like : Scheduler → Scheduler → Prop
  /-- The tickets differ in this way only. -/
  Tickets : Ticket → Ticket → Prop
  /-- Like schedulers are in the same run state. -/
  state_eq : ∀ {s s'}, Like s s' → s.state = s'.state
  /-- Units of sleep have the same length. -/
  sleepUnit_eq : ∀ {s s'}, Like s s' → s.sleepUnit = s'.sleepUnit
  /-- Suspending both for the same time keeps them alike. -/
  sleep : ∀ {s s' u u' timeout}, Like s s' → s.sleep timeout = some u →
    s'.sleep timeout = some u' → Like u u'
  /-- Asking keeps them alike. -/
  awaitInput : ∀ {s s'}, Like s s' → Like s.awaitInput s'.awaitInput
  /-- The tickets that they hand out are alike. -/
  nextTicket : ∀ {s s'}, Like s s' → Tickets s.nextTicket s'.nextTicket
  /-- Ending both runs keeps them alike. -/
  stop : ∀ {s s'}, Like s s' → Like s.stop s'.stop

/-- Notices that are the same but for the ticket that they hand out. -/
inductive Notice.Like (Tickets : Ticket → Ticket → Prop) : Notice → Notice → Prop where
  /-- A notice without a ticket is like itself only. -/
  | same {n : Notice} (h : n.ticket? = none) : Like Tickets n n
  /-- Two questions are alike if their tickets are. -/
  | asked {t t' : Ticket} (h : Tickets t t') :
    Like Tickets (.inputRequested t) (.inputRequested t')

namespace Notice

variable {T : Ticket → Ticket → Prop} {ns ns' : List Notice}

/-- Notices that hand out no ticket are like themselves. -/
theorem like_of_tickets_eq_nil (h : tickets ns = []) : List.Forall₂ (Like T) ns ns := by
  have hnone : ∀ n ∈ ns, n.ticket? = none := List.filterMap_eq_nil_iff.mp h
  exact List.forall₂_same.mpr fun n hn => .same (hnone n hn)

/-- The tickets of like notices are alike, one by one. -/
theorem tickets_of_like (h : List.Forall₂ (Like T) ns ns') :
    List.Forall₂ T (tickets ns) (tickets ns') := by
  induction h with
  | nil => exact .nil
  | cons hn _ ih =>
    cases hn with
    | same hnone =>
      rw [tickets, tickets, List.filterMap_cons_none hnone, List.filterMap_cons_none hnone]
      exact ih
    | asked ht => exact .cons ht ih

/-- Where like tickets are equal, like notices are. -/
theorem eq_of_like (h : List.Forall₂ (Like Eq) ns ns') : ns = ns' := by
  induction h with
  | nil => rfl
  | cons hn _ ih =>
    rw [ih]
    cases hn with
    | same _ => rfl
    | asked ht => rw [ht]

end Notice

/-- Machines that are equal but for schedulers that are alike. -/
structure Machine.Like (L : Scheduler.Likeness) (m m' : Machine) : Prop where
  /-- Memory is the same, and so is the program in it. -/
  memory : m.memory = m'.memory
  /-- All registers are the same. -/
  registers : m.registers = m'.registers
  /-- The number that was last put out is the same. -/
  latch : m.latch = m'.latch
  /-- The random bytes to come are the same. -/
  generator : m.generator = m'.generator
  /-- The schedulers are alike. -/
  scheduler : L.Like m.scheduler m'.scheduler

/-- Replies with the same answer that leave like states and announce like notices. -/
structure Reply.Like {σ α : Type} (T : Ticket → Ticket → Prop) (S : σ → σ → Prop)
    (r r' : Reply σ α) : Prop where
  /-- The answers are the same. -/
  answer : r.answer = r'.answer
  /-- The states are alike. -/
  next : S r.next r'.next
  /-- The notices are alike, one by one. -/
  notices : List.Forall₂ (Notice.Like T) r.notices r'.notices

section

variable {α β γ δ : Type} {L : Scheduler.Likeness}

/-- Effects that have come to the same on like machines, with results that are related,
unless the clock has cut one of them short. -/
inductive Effect.Like (L : Scheduler.Likeness) (R : α → β → Prop) :
    Effect α → Effect β → Prop where
  /-- Both have gone through. -/
  | done {a : α} {b : β} {m m' : Machine} {ns ns' : List Notice} (hresult : R a b)
      (hmachine : m.Like L m') (hnotices : List.Forall₂ (Notice.Like L.Tickets) ns ns') :
      Like L R ⟨.ok a, m, ns⟩ ⟨.ok b, m', ns'⟩
  /-- Both have failed for the same reason. -/
  | failed {f : Fault} {m m' : Machine} {ns ns' : List Notice}
      (hmachine : m.Like L m') (hnotices : List.Forall₂ (Notice.Like L.Tickets) ns ns') :
      Like L R ⟨.error (.fault f), m, ns⟩ ⟨.error (.fault f), m', ns'⟩
  /-- The clock has cut the first one short. -/
  | firstCut {m : Machine} {ns : List Notice} {e : Effect β} :
      Like L R ⟨.error .clockOverflow, m, ns⟩ e
  /-- The clock has cut the second one short. -/
  | secondCut {e : Effect α} {m : Machine} {ns : List Notice} :
      Like L R e ⟨.error .clockOverflow, m, ns⟩

namespace Action

/-- Actions that come to the same on like machines, with results that are related. -/
def Alike (L : Scheduler.Likeness) (R : α → β → Prop) (x : Action α) (y : Action β) : Prop :=
  ∀ m m', m.Like L m' → (x m).Like L R (y m')

namespace Alike

theorem pure {R : α → β → Prop} {a : α} {b : β} (h : R a b) :
    Alike L R (pure a) (pure b) := by
  intro m m' hm
  exact .done h hm .nil

/-- Actions that go on alike from related results are alike. -/
theorem bind {R : α → β → Prop} {Q : γ → δ → Prop} {x : Action α} {y : Action β}
    {f : α → Action γ} {g : β → Action δ} (hx : Alike L R x y)
    (hf : ∀ a b, R a b → Alike L Q (f a) (g b)) : Alike L Q (x >>= f) (y >>= g) := by
  intro m m' hm
  have hfirst := hx m m' hm
  rw [bind_apply, bind_apply]
  generalize x m = e at hfirst
  generalize y m' = e' at hfirst
  cases hfirst with
  | failed hmachine hnotices => exact .failed hmachine hnotices
  | firstCut => exact .firstCut
  | secondCut => exact .secondCut
  | done hresult hmachine hnotices =>
    rename_i a b n n' ns ns'
    have hrest := hf a b hresult n n' hmachine
    dsimp only
    generalize f a n = e at hrest
    generalize g b n' = e' at hrest
    cases hrest with
    | done hresult hmachine hlater =>
      exact .done hresult hmachine (List.rel_append hnotices hlater)
    | failed hmachine hlater => exact .failed hmachine (List.rel_append hnotices hlater)
    | firstCut => exact .firstCut
    | secondCut => exact .secondCut

/-- What goes on with the same result on both is alike if what follows is. -/
theorem bind_same {Q : γ → δ → Prop} {x : Action α} {f : α → Action γ} {g : α → Action δ}
    (hx : Alike L Eq x x) (hf : ∀ a, Alike L Q (f a) (g a)) : Alike L Q (x >>= f) (x >>= g) := by
  refine hx.bind fun a b hab => ?_
  subst hab
  exact hf a

/-- What looks at the whole machine sees like machines. -/
theorem machine : Alike L (Machine.Like L) Action.machine Action.machine := by
  intro m m' hm
  exact .done hm hm .nil

theorem register (r : Register) : Alike L Eq (Action.register r) (Action.register r) := by
  intro m m' hm
  exact .done (congrArg (fun f => f.get r) hm.registers) hm .nil

theorem fail (f : Fault) : Alike L Eq (Action.fail f : Action α) (Action.fail f) := by
  intro m m' hm
  exact .failed hm .nil

theorem writeAll (ws : List (Register × UInt8)) :
    Alike L Eq (Action.writeAll ws) (Action.writeAll ws) := by
  intro m m' hm
  have hregisters : m.registers.write ws = m'.registers.write ws := by rw [hm.registers]
  have hmachine : Machine.Like L { m with registers := m.registers.write ws }
      { m' with registers := m'.registers.write ws } :=
    ⟨hm.memory, hregisters, hm.latch, hm.generator, hm.scheduler⟩
  exact .done rfl hmachine (Notice.like_of_tickets_eq_nil (tickets_map_register ws))

theorem write (r : Register) (value : UInt8) :
    Alike L Eq (Action.write r value) (Action.write r value) :=
  writeAll [(r, value)]

theorem increment (r : Register) (amount : UInt8) :
    Alike L Eq (Action.increment r amount) (Action.increment r amount) := by
  intro m m' hm
  unfold Action.increment
  rw [hm.registers]
  exact writeAll _ m m' hm

theorem decrement (r : Register) (amount : UInt8) :
    Alike L Eq (Action.decrement r amount) (Action.decrement r amount) :=
  increment r (0 - amount)

theorem compareWith (value : UInt8) :
    Alike L Eq (Action.compareWith value) (Action.compareWith value) := by
  intro m m' hm
  unfold Action.compareWith
  rw [hm.registers]
  exact writeAll _ m m' hm

theorem load (address : UInt8) : Alike L Eq (Action.load address) (Action.load address) := by
  intro m m' hm
  unfold Action.load
  rw [hm.memory]
  cases m'.memory.load address with
  | ok value => exact .done rfl hm .nil
  | error e => exact .failed hm .nil

theorem store (address value : UInt8) :
    Alike L Eq (Action.store address value) (Action.store address value) := by
  intro m m' hm
  unfold Action.store
  rw [hm.memory]
  cases m'.memory.store address value with
  | ok memory =>
    have hmachine : Machine.Like L { m with memory } { m' with memory } :=
      ⟨rfl, hm.registers, hm.latch, hm.generator, hm.scheduler⟩
    exact .done rfl hmachine (Notice.like_of_tickets_eq_nil rfl)
  | error e => exact .failed hm .nil

theorem operand : Alike L Eq Action.operand Action.operand :=
  (increment .pc 1).bind_same fun _ => (register .pc).bind_same fun a => load a

theorem putOut (value : UInt8) : Alike L Eq (Action.putOut value) (Action.putOut value) := by
  intro m m' hm
  have hmachine : Machine.Like L { m with latch := Word.signedByte value }
      { m' with latch := Word.signedByte value } :=
    ⟨hm.memory, hm.registers, rfl, hm.generator, hm.scheduler⟩
  exact .done rfl hmachine (Notice.like_of_tickets_eq_nil rfl)

theorem randomByte : Alike L Eq Action.randomByte Action.randomByte := by
  intro m m' hm
  unfold Action.randomByte
  rw [hm.generator]
  exact .done rfl ⟨hm.memory, hm.registers, hm.latch, rfl, hm.scheduler⟩ .nil

theorem sleep (timeout : Option Nat) :
    Alike L Eq (Action.sleep timeout) (Action.sleep timeout) := by
  intro m m' hm
  unfold Action.sleep
  cases hs : m.scheduler.sleep timeout with
  | none => exact .firstCut
  | some s =>
    cases hs' : m'.scheduler.sleep timeout with
    | none => exact .secondCut
    | some s' =>
      have hlike : L.Like s s' := L.sleep hm.scheduler hs hs'
      exact .done rfl ⟨hm.memory, hm.registers, hm.latch, hm.generator, hlike⟩ .nil

theorem requestInput : Alike L Eq Action.requestInput Action.requestInput := by
  intro m m' hm
  have hlike := L.awaitInput hm.scheduler
  have hticket := L.nextTicket hm.scheduler
  exact .done rfl ⟨hm.memory, hm.registers, hm.latch, hm.generator, hlike⟩
    (.cons (.asked hticket) .nil)

/-- Ending the run is alike on like machines. -/
theorem halt : Alike L Eq (Action.update fun m => { m with scheduler := m.scheduler.stop })
    (Action.update fun m => { m with scheduler := m.scheduler.stop }) := by
  intro m m' hm
  exact .done rfl ⟨hm.memory, hm.registers, hm.latch, hm.generator, L.stop hm.scheduler⟩ .nil

end Alike

end Action

namespace Opcode

open ByteMachine.Action (Alike)

theorem alike_jumpIf {taken taken' : Bool} (h : taken = taken') :
    Alike L Eq (jumpIf Action.operand taken) (jumpIf Action.operand taken') := by
  subst h
  refine Alike.operand.bind_same fun target => ?_
  cases taken with
  | true => exact .write .pc (target - 1)
  | false => exact .pure rfl

/-- Like machines carry out an operation alike. -/
theorem alike_run (o : Opcode) : Alike L Eq o.run o.run := by
  cases o with
  | inc => exact .increment .ra 1
  | dec => exact .decrement .ra 1
  | addi => exact Alike.operand.bind_same fun v => .increment .ra v
  | subi => exact Alike.operand.bind_same fun v => .decrement .ra v
  | comparei => exact Alike.operand.bind_same fun v => .compareWith v
  | movei => exact Alike.operand.bind_same fun v => .write .ra v
  | add =>
    exact Alike.operand.bind_same fun v => (Alike.load v).bind_same fun w => .increment .ra w
  | sub =>
    exact Alike.operand.bind_same fun v => (Alike.load v).bind_same fun w => .decrement .ra w
  | compare =>
    exact Alike.operand.bind_same fun v => (Alike.load v).bind_same fun w => .compareWith w
  | load =>
    exact Alike.operand.bind_same fun v => (Alike.load v).bind_same fun w => .write .ra w
  | store =>
    exact Alike.operand.bind_same fun v => (Alike.register .ra).bind_same fun w => .store v w
  | jump => exact alike_jumpIf rfl
  | jumpLess => exact Alike.machine.bind fun m m' hm => alike_jumpIf (by rw [hm.registers])
  | jumpGreater => exact Alike.machine.bind fun m m' hm => alike_jumpIf (by rw [hm.registers])
  | jumpEqual => exact Alike.machine.bind fun m m' hm => alike_jumpIf (by rw [hm.registers])
  | call =>
    exact (Alike.register .pc).bind_same fun pc =>
      (Alike.write .ret (pc + 1)).bind_same fun _ => alike_jumpIf rfl
  | ret => exact (Alike.register .ret).bind_same fun a => .write .pc a
  | push =>
    exact (Alike.register .sp).bind_same fun s => (Alike.register .ra).bind_same fun a =>
      (Alike.store s a).bind_same fun _ => .decrement .sp 1
  | pop =>
    refine Alike.machine.bind fun m m' hm => ?_
    rw [hm.registers, hm.memory]
    split
    · exact (Alike.increment .sp 1).bind_same fun _ =>
        (Alike.register .sp).bind_same fun s => .store s 0
    · exact .pure rfl
  | input =>
    refine Alike.operand.bind_same fun port => ?_
    split
    · exact (Alike.sleep none).bind_same fun _ => .requestInput
    · exact .pure rfl
  | output =>
    refine Alike.operand.bind_same fun port => ?_
    split
    · exact (Alike.register .ra).bind_same fun a => .putOut a
    · exact .pure rfl
  | sleep =>
    refine Alike.operand.bind_same fun units => Alike.machine.bind fun m m' hm => ?_
    rw [L.sleepUnit_eq hm.scheduler]
    exact .sleep _
  | random => exact Alike.randomByte.bind_same fun v => .write .ra v
  | stop => exact .pure rfl

end Opcode

namespace Machine

open ByteMachine.Action (Alike)

/-- Like machines have the same code under the program counter. -/
theorem alike_fetch : Alike L Eq fetch fetch := by
  refine (Alike.register .pc).bind_same fun address => (Alike.load address).bind_same fun byte => ?_
  split
  · exact .pure rfl
  · exact .fail _

/-- Like machines execute an instruction alike. -/
theorem alike_cycle : Alike L Eq cycle cycle := by
  refine alike_fetch.bind_same fun o => o.alike_run.bind_same fun _ => ?_
  cases o.control with
  | proceed => exact .increment .pc 1
  | halt => exact .halt

/-- A step of like machines has the same answer, leaves them alike and announces the same,
tickets aside. -/
theorem Like.step {m m' : Machine} (h : m.Like L m') {r r' : Reply Machine (Except Fault Unit)}
    (hr : m.step = some r) (hr' : m'.step = some r') : r.Like L.Tickets (Machine.Like L) r' := by
  have hstate := L.state_eq h.scheduler
  unfold Machine.step at hr hr'
  rw [← hstate] at hr'
  split at hr
  · rename_i hrunning
    rw [if_pos hrunning] at hr'
    have hcycle := alike_cycle (L := L) m m' h
    generalize cycle m = e at hr hcycle
    generalize cycle m' = e' at hr' hcycle
    cases hcycle with
    | done _ hmachine hnotices =>
      cases hr
      cases hr'
      exact ⟨rfl, hmachine, hnotices⟩
    | failed hmachine hnotices =>
      cases hr
      cases hr'
      have hstopped := L.stop hmachine.scheduler
      exact ⟨rfl, ⟨hmachine.memory, hmachine.registers, hmachine.latch, hmachine.generator,
        hstopped⟩, hnotices⟩
    | firstCut => cases hr
    | secondCut => cases hr'
  · rename_i hidle
    rw [if_neg hidle] at hr'
    cases hr
    cases hr'
    exact ⟨rfl, h, .nil⟩

end Machine

end

end ByteMachine
