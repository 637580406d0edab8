import ByteMachine.Proofs.Machine.Oversleep

/-!
# Counting without overflow

Three operations count with numbers that are no bytes: one takes one from the size of
memory, one multiplies the unit of sleep, and one numbers its questions. Here each of these
numbers has no value where it would be negative or too large, and the instruction then ends
without a reply. Memory is never empty, a unit of sleep that is set in milliseconds is short
enough, and as long as no program asks 2^64 questions their numbers are small enough; so a
step comes to the same as without these checks.
-/

namespace ByteMachine

namespace Checked

/-- A difference, if it is not negative. -/
def difference? (a b : Nat) : Option Nat := if b ≤ a then some (a - b) else none

/-- A duration, if there is one as long. -/
def duration? (n : Nat) : Option Nat := if n ≤ lastMoment then some n else none

/-- The next number of a counter of 64 bits. -/
def next? (n : Nat) : Option Nat := if n + 1 < UInt64.size then some (n + 1) else none

theorem difference?_of_le {a b : Nat} (h : b ≤ a) : difference? a b = some (a - b) := if_pos h

theorem duration?_of_le {n : Nat} (h : n ≤ lastMoment) : duration? n = some n := if_pos h

theorem next?_of_lt {n : Nat} (h : n + 1 < UInt64.size) : next? n = some (n + 1) := if_pos h

end Checked

namespace Action

variable {α β : Type}

/-- A value, if there is one. Otherwise there is no reply. -/
def demand (value : Option α) : Action α := fun m =>
  match value with
  | some a => ⟨.ok a, m, []⟩
  | none => ⟨.error .clockOverflow, m, []⟩

theorem demand_some_bind (a : α) (f : α → Action β) (m : Machine) :
    (demand (some a) >>= f) m = f a m := rfl

theorem machine_bind (f : Machine → Action β) (m : Machine) : (machine >>= f) m = f m m := rfl

/-- Two actions that agree behind what an action comes to agree. -/
theorem bind_congr {x : Action α} {f g : α → Action β} {m : Machine}
    (h : ∀ a m' ns, x m = ⟨.ok a, m', ns⟩ → f a m' = g a m') : (x >>= f) m = (x >>= g) m := by
  cases hx : x m with
  | mk outcome m' ns =>
    cases outcome with
    | ok a => rw [bind_ok hx, bind_ok hx, h a m' ns hx]
    | error i => rw [bind_error hx, bind_error hx]

end Action

namespace Opcode

/-- What an operation does, with its numbers checked. -/
def checkedRun : Opcode → Action Unit
  | pop => do
    let m ← Action.machine
    let top ← Action.demand (Checked.difference? m.memory.size 1)
    if m.registers.sp.toNat < top then
      Action.increment .sp 1
      Action.store (← Action.register .sp) 0
  | input => do
    let port ← Action.operand
    if port = inputPort then
      Action.sleep none
      let m ← Action.machine
      let _ ← Action.demand (Checked.next? m.scheduler.nextSequence)
      Action.requestInput
  | sleep => do
    let units ← Action.operand
    let m ← Action.machine
    let timeout ← Action.demand (Checked.duration? (m.scheduler.sleepUnit * units.toNat))
    Action.sleep (some timeout)
  | o => o.run

variable {m : Machine}

/-- Memory is never empty. -/
theorem checkedRun_pop : pop.checkedRun m = pop.run m := by
  have htop := Checked.difference?_of_le (Nat.succ_le_of_lt m.memory.cells_pos)
  rw [checkedRun, run, runWith, Action.machine_bind, Action.machine_bind, Memory.size, htop,
    Action.demand_some_bind]

/-- No sleep is longer than the longest duration if the longest is not. -/
theorem checkedRun_sleep (hunit : m.scheduler.sleepUnit * 255 ≤ lastMoment) :
    sleep.checkedRun m = sleep.run m := by
  rw [checkedRun, run, runWith]
  refine Action.bind_congr fun units m' ns hoperand => ?_
  have hscheduler : m'.scheduler = m.scheduler := by
    have hquiet := (Action.Quiet.operand m).1
    rw [hoperand] at hquiet
    exact hquiet
  have hfits : m'.scheduler.sleepUnit * units.toNat ≤ lastMoment := by
    have hunits : units.toNat ≤ 255 := Nat.le_of_lt_succ units.toNat_lt
    rw [hscheduler]
    exact Nat.le_trans (Nat.mul_le_mul_left _ hunits) hunit
  rw [Action.machine_bind, Action.machine_bind, Checked.duration?_of_le hfits,
    Action.demand_some_bind]

/-- A question has a number if it is not one too many. -/
theorem checkedRun_input
    (hcount : (input.run m).machine.scheduler.nextSequence < UInt64.size) :
    input.checkedRun m = input.run m := by
  rw [run, runWith] at hcount
  rw [checkedRun, run, runWith]
  refine Action.bind_congr fun port m' ns hoperand => ?_
  rw [Action.bind_ok hoperand] at hcount
  by_cases hport : port = inputPort
  · rw [if_pos hport, if_pos hport]
    rw [if_pos hport] at hcount
    refine Action.bind_congr fun _ m'' ns' hsleep => ?_
    rw [Action.bind_ok hsleep] at hcount
    rw [Action.machine_bind, Checked.next?_of_lt hcount, Action.demand_some_bind]
  · rw [if_neg hport, if_neg hport]

/-- The checks of an operation pass. -/
theorem checkedRun_eq {o : Opcode} (hunit : m.scheduler.sleepUnit * 255 ≤ lastMoment)
    (hcount : o = .input → (o.run m).machine.scheduler.nextSequence < UInt64.size) :
    o.checkedRun m = o.run m := by
  cases o with
  | pop => exact checkedRun_pop
  | input => exact checkedRun_input (hcount rfl)
  | sleep => exact checkedRun_sleep hunit
  | _ => rfl

end Opcode

namespace Machine

variable {m : Machine} {o : Opcode}

/-- One instruction, with its numbers checked. -/
def checkedCycle : Action Unit := do
  let opcode ← fetch
  complete opcode opcode.checkedRun

/-- One instruction of a running program, with its numbers checked. -/
def checkedStep (m : Machine) : Option (Reply Machine (Except Fault Unit)) :=
  if m.scheduler.state = .running then conclude (checkedCycle m) else some ⟨.ok (), m, []⟩

/-- The move of the program counter and the end of the run ask nothing. -/
theorem nextSequence_complete (body : Action Unit) :
    (complete o body m).machine.scheduler.nextSequence =
      (body m).machine.scheduler.nextSequence := by
  cases hbody : body m with
  | mk outcome m' ns =>
    cases outcome with
    | error i => rw [complete, Action.bind_error hbody]
    | ok u =>
      rw [complete, Action.bind_ok hbody]
      cases o.control <;> rfl

/-- What a step comes to has the questions of its cycle. -/
theorem nextSequence_conclude {e : Effect Unit} {r : Reply Machine (Except Fault Unit)}
    (h : conclude e = some r) :
    r.next.scheduler.nextSequence = e.machine.scheduler.nextSequence := by
  unfold conclude at h
  split at h <;> cases h <;> rfl

/-- An operation that is executed has the questions of the step, if it is not cut short. -/
theorem nextSequence_run {n : Nat} (hrunning : m.scheduler.state = .running)
    (hcode : m.memory.load m.registers.pc = .ok o.code) (hsleep : o ≠ .sleep)
    (hcount : ∀ r, m.step = some r → r.next.scheduler.nextSequence < n) :
    (o.run m).machine.scheduler.nextSequence < n := by
  cases hstep : m.step with
  | none =>
    have hlate := step_eq_none_iff.mp hstep
    have hsame := Opcode.eq_of_code_eq (Except.ok.inj (hcode.symm.trans hlate.code))
    exact absurd hsame hsleep
  | some r =>
    have hconclude : conclude (complete o o.run m) = some r := by
      rw [← cycle_eq_complete hcode, ← hstep, step, if_pos hrunning]
    rw [← nextSequence_complete (o := o), ← nextSequence_conclude hconclude]
    exact hcount r hstep

/-- The checks of a step pass, if a unit of sleep is short enough and the step does not ask
one question too many. -/
theorem checkedStep_eq (hunit : m.scheduler.sleepUnit * 255 ≤ lastMoment)
    (hcount : ∀ r, m.step = some r → r.next.scheduler.nextSequence < UInt64.size) :
    m.checkedStep = m.step := by
  unfold checkedStep
  by_cases hrunning : m.scheduler.state = .running
  · have hstep : m.step = conclude (cycle m) := if_pos hrunning
    rw [if_pos hrunning, hstep]
    rcases m.fetch_cases with ⟨-, fault, hfetch⟩ | ⟨o, hcode, hfetch⟩
    · rw [checkedCycle, cycle, Action.bind_error hfetch, Action.bind_error hfetch]
    · have hrun : o.checkedRun m = o.run m := by
        refine Opcode.checkedRun_eq hunit fun hinput => ?_
        have hsleep : o ≠ .sleep := by
          rw [hinput]
          decide
        exact nextSequence_run hrunning hcode hsleep hcount
      rw [checkedCycle, cycle, Action.bind_ok hfetch, Action.bind_ok hfetch, complete, complete,
        Action.bind_apply, Action.bind_apply, hrun]
  · rw [if_neg hrunning, step, if_neg hrunning]

end Machine

end ByteMachine
