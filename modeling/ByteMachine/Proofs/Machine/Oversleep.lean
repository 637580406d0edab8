import ByteMachine.Proofs.Machine.Cycle
import ByteMachine.Proofs.Machine.Footprint
import ByteMachine.Proofs.Machine.Successor
import ByteMachine.Proofs.Scheduler.Clock

/-!
# Sleeping beyond the last moment

The only part of an instruction that may be cut short by the clock is a suspension for a
while, and only one operation has it. So a step has no reply exactly if that operation is
under the program counter of a running program, its operand can be read, and the sleep
would end after the last moment.
-/

namespace ByteMachine

namespace Action

variable {α β : Type}

/-- An action that the clock does not cut short. -/
def Timeless (x : Action α) : Prop := ∀ m, (x m).outcome ≠ .error .clockOverflow

theorem Timeless.bind {x : Action α} {f : α → Action β} (hx : Timeless x)
    (hf : ∀ a, Timeless (f a)) : Timeless (x >>= f) :=
  fun m => outcome_bind_ne (hx m) hf

/-- A suspension without end has no moment that could be too late. -/
theorem timeless_sleep_none : Timeless (sleep none) := by
  intro m
  unfold sleep
  split
  · exact nofun
  · rename_i hnone
    obtain ⟨-, t, ht, -⟩ := Scheduler.sleep_eq_none_iff.mp hnone
    cases ht

end Action

namespace Opcode

open ByteMachine.Action (Timeless)

variable {o : Opcode}

/-- What an operation is put together of is cut short only by a suspension. -/
theorem timeless_of_uses {α : Type} {x : Action α} (h : o.Uses x) (hinput : o ≠ .input)
    (hsleep : o ≠ .sleep) : Timeless x := by
  induction h with
  | bind hx hf ihx ihf => exact ihx.bind ihf
  | load address =>
    intro m
    unfold Action.load
    split <;> exact nofun
  | store hstores address value =>
    intro m
    unfold Action.store
    split <;> exact nofun
  | sleep hsuspends timeout => exact absurd hsuspends (not_or.mpr ⟨hinput, hsleep⟩)
  | randomByte hrandom =>
    intro m
    have hdrawn : (Action.randomByte m).outcome = .ok m.generator.nextByte.1 := rfl
    rw [hdrawn]
    exact nofun
  | pure | machine | register | writeAll | putOut | requestInput | halt => exact fun m => nofun

/-- Every operation but one is never cut short by the clock. -/
theorem timeless_run (hsleep : o ≠ .sleep) : Timeless o.run := by
  by_cases hinput : o = .input
  · subst hinput
    -- what every operation has is none of its suspension
    have hoperand : Timeless Action.operand :=
      timeless_of_uses (o := .stop) .operand nofun nofun
    refine hoperand.bind fun port => ?_
    split
    · exact Action.timeless_sleep_none.bind fun _ m => nofun
    · exact fun m => nofun
  · exact timeless_of_uses o.uses_run hinput hsleep

end Opcode

namespace Machine

open ByteMachine.Action (Timeless given)

variable {m : Machine} {o : Opcode}

/-- A running program is about to sleep beyond the last moment. -/
structure Oversleeps (m : Machine) : Prop where
  /-- The program runs. -/
  running : m.scheduler.state = .running
  /-- The code under the program counter is that of a sleep. -/
  code : m.memory.load m.registers.pc = .ok Opcode.sleep.code
  /-- The sleep has an operand, and with as many units ends after the last moment. -/
  late : ∃ units : UInt8, m.memory.load (m.registers.pc + 1) = .ok units ∧
    lastMoment < m.scheduler.clock + m.scheduler.sleepUnit * units.toNat

/-- Behind an operation that is not cut short, neither is the move of the program counter. -/
theorem timeless_complete {body : Action Unit} (h : Timeless body) :
    Timeless (complete o body) := by
  refine h.bind fun _ => ?_
  cases o.control <;> exact fun m => nofun

/-- A sleep whose operand cannot be read fails. -/
theorem complete_sleep_of_error {e : MemoryError}
    (h : m.memory.load (m.registers.pc + 1) = .error e) :
    (complete .sleep Opcode.sleep.run m).outcome = .error (.fault (.memory e)) := by
  have hrun : Opcode.sleep.run m =
      ⟨.error (.fault (.memory e)), m.advanced, [.register .pc (m.registers.pc + 1)]⟩ := by
    rw [Opcode.run, Opcode.runWith, Action.bind_error (Action.operand_eq_error h)]
  rw [complete, Action.bind_error hrun]

/-- A sleep of a running program whose operand can be read is cut short exactly if it would
end after the last moment. -/
theorem complete_sleep_iff {units : UInt8} (hrunning : m.scheduler.state = .running) :
    (complete .sleep (Opcode.sleep.runWith (given units)) m).outcome = .error .clockOverflow ↔
      lastMoment < m.scheduler.clock + m.scheduler.sleepUnit * units.toNat := by
  have hsleep : Opcode.sleep.runWith (given units) m =
      ⟨(Action.sleep (some (m.scheduler.sleepUnit * units.toNat)) m.advanced).outcome,
        (Action.sleep (some (m.scheduler.sleepUnit * units.toNat)) m.advanced).machine,
        [.register .pc (m.registers.pc + 1)] ++
          (Action.sleep (some (m.scheduler.sleepUnit * units.toNat)) m.advanced).notices⟩ := by
    rw [Opcode.runWith, Action.bind_ok (Action.given_apply units m)]
    rfl
  have hnone : m.scheduler.sleep (some (m.scheduler.sleepUnit * units.toNat)) = none ↔
      lastMoment < m.scheduler.clock + m.scheduler.sleepUnit * units.toNat := by
    rw [Scheduler.sleep_eq_none_iff, hrunning]
    simp
  rw [← hnone, complete, Action.bind_apply, hsleep]
  have hscheduler : m.advanced.scheduler = m.scheduler := rfl
  rw [Action.sleep, hscheduler]
  cases m.scheduler.sleep (some (m.scheduler.sleepUnit * units.toNat)) with
  | none => simp
  | some s => simp [Opcode.control, Action.increment, Action.writeAll]

/-- A step has no reply exactly if a running program would sleep beyond the last moment. -/
theorem step_eq_none_iff : m.step = none ↔ m.Oversleeps := by
  have hconclude (e : Effect Unit) : conclude e = none ↔ e.outcome = .error .clockOverflow := by
    unfold conclude
    split <;> simp_all
  constructor
  · intro hnone
    unfold step at hnone
    split at hnone
    · rename_i hrunning
      rw [hconclude] at hnone
      rcases m.cycle_cases with ⟨-, fault, hcycle⟩ | ⟨o, hcode, hcycle⟩
      · rw [hcycle] at hnone
        cases hnone
      · by_cases hsleep : o = .sleep
        · subst hsleep
          refine ⟨hrunning, hcode, ?_⟩
          cases hunits : m.memory.load (m.registers.pc + 1) with
          | ok units =>
            rw [cycle_eq_complete_given hcode fun _ => hunits, complete_sleep_iff hrunning] at hnone
            exact ⟨units, rfl, hnone⟩
          | error e =>
            rw [hcycle, complete_sleep_of_error hunits] at hnone
            cases hnone
        · rw [hcycle] at hnone
          exact absurd hnone (timeless_complete (Opcode.timeless_run hsleep) m)
    · cases hnone
  · rintro ⟨hrunning, hcode, units, hunits, hlate⟩
    rw [step, if_pos hrunning, hconclude, cycle_eq_complete_given hcode fun _ => hunits,
      complete_sleep_iff hrunning]
    exact hlate

end Machine

end ByteMachine
