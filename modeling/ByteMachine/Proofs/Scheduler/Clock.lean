import ByteMachine.Proofs.Histories
import ByteMachine.Proofs.Machine.Scheduling
import ByteMachine.Proofs.Scheduler.Operations

/-!
# The last moment of the clock

A moment on the clock is counted from now in two places: where time passes, and where a
program that is not stopped is suspended for a while. Both have no result exactly if the
moment is later than the last one. Nothing else moves the clock, so in every computer that
can be reached it is at its last moment at the latest.
-/

namespace ByteMachine

namespace Scheduler

variable {s s' : Scheduler} {elapsed : Nat} {timeout : Option Nat}

/-- A moment is not on the clock exactly if it is later than the last one. -/
theorem moment?_eq_none_iff {later : Nat} :
    s.moment? later = none ↔ lastMoment < s.clock + later := by
  unfold moment?
  split
  · simp only [reduceCtorEq, false_iff]
    omega
  · simp only [true_iff]
    omega

/-- Time cannot pass exactly if the clock would pass its last moment. -/
theorem advance_eq_none_iff : s.advance elapsed = none ↔ lastMoment < s.clock + elapsed := by
  rw [advance, Option.map_eq_none_iff, moment?_eq_none_iff]

/-- A program cannot be suspended exactly if it is not stopped and would sleep beyond the
last moment. -/
theorem sleep_eq_none_iff :
    s.sleep timeout = none ↔
      s.state ≠ .stopped ∧ ∃ t, timeout = some t ∧ lastMoment < s.clock + t := by
  unfold sleep
  split
  · rename_i hstopped
    simp [hstopped]
  · rename_i hgoing
    cases timeout with
    | none => simp
    | some t => simpa [moment?_eq_none_iff] using fun _ => hgoing

/-- The clock does not pass its last moment. -/
theorem clock_le_of_advance (h : s.advance elapsed = some s') : s'.clock ≤ lastMoment := by
  have hfits : ¬lastMoment < s.clock + elapsed := by
    rw [← advance_eq_none_iff, h]
    exact nofun
  rw [(sameNumbers_of_advance h).clock]
  exact Nat.not_lt.mp hfits

/-- What an instruction does to the run state takes no time. -/
theorem Moves.clock_eq {ts : List Ticket} (h : s.Moves s' ts) : s'.clock = s.clock := by
  cases h with
  | stay => rfl
  | suspend hs => exact (sameNumbers_of_sleep hs).clock
  | @ask s' hs =>
    have hasked : s'.awaitInput.clock = s'.clock := rfl
    rw [hasked, (sameNumbers_of_sleep hs).clock]

end Scheduler

/-- A step takes no time. -/
theorem Machine.clock_of_step {m : Machine} {r : Reply Machine (Except Fault Unit)}
    (hr : m.step = some r) : r.next.scheduler.clock = m.scheduler.clock := by
  obtain ⟨s, hmoves, hs | hs⟩ := settles_of_step hr
  · rw [hs]
    exact hmoves.clock_eq
  · rw [hs]
    exact hmoves.clock_eq

namespace Computer

variable {c : Computer}

/-- A delivery takes no time and counts nothing. -/
theorem sameNumbers_deliver (c : Computer) (ticket : Ticket) (text : String) :
    c.machine.scheduler.SameNumbers (c.deliver ticket text).next.machine.scheduler := by
  unfold deliver
  split
  · exact ⟨rfl, rfl, rfl, rfl⟩
  · split
    · exact ⟨rfl, rfl, rfl, rfl⟩
    · have hwoken := Scheduler.sameNumbers_wakeUp c.machine.scheduler.retire
      exact ⟨hwoken.clock, hwoken.generation, hwoken.nextSequence, hwoken.sleepUnit⟩

/-- In every computer that can be reached, the clock is at its last moment at the latest. -/
theorem Reachable.clock_le (hc : c.Reachable) : c.machine.scheduler.clock ≤ lastMoment := by
  induction hc with
  | built h =>
    rw [scheduler_of_ofSettings h]
    exact Nat.zero_le _
  | @performed c command r hc hr ih =>
    cases performs_of_perform hr with
    | assembled source =>
      rw [← c.scheduler_assemble source] at ih
      exact ih
    | started => exact ih
    | stopped => exact ih
    | suspended hs => exact le_of_eq_of_le (Scheduler.sameNumbers_of_sleep hs).clock ih
    | woken => exact le_of_eq_of_le (Scheduler.sameNumbers_wakeUp _).clock ih
    | stepped hstep => exact le_of_eq_of_le (Machine.clock_of_step hstep) ih
    | passed hs hidle => exact Scheduler.clock_le_of_advance hs
    | updated hs hrunning hstep =>
      exact le_of_eq_of_le (Machine.clock_of_step hstep) (Scheduler.clock_le_of_advance hs)
    | delivered ticket text => exact le_of_eq_of_le (c.sameNumbers_deliver ticket text).clock ih

end Computer

end ByteMachine
