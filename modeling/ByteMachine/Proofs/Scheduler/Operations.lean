import ByteMachine.Scheduler

/-!
# What the operations of the scheduler come to

A program that is suspended sleeps until a moment that is counted from now, or without
end. Time that passes moves the clock and wakes the program up exactly if a timed sleep
does not last longer. So a program that runs after some time has either been running
before or has just been woken, and in every other case nothing but the clock has moved.
An answer is taken for the outstanding ticket, if that is of the current run.
-/

namespace ByteMachine

variable {s s' : Scheduler} {elapsed : Nat}

/-- A moment is on the clock if it is not later than the last one. -/
theorem Scheduler.moment?_eq_some {later moment : Nat} (h : s.moment? later = some moment) :
    moment = s.clock + later := by
  unfold moment? at h
  split at h
  · exact (Option.some.inj h).symm
  · cases h

/-- A stopped program is left alone, any other sleeps for as long as it is told to. -/
theorem Scheduler.eq_of_sleep {timeout : Option Nat} (h : s.sleep timeout = some s') :
    s' = if s.state = .stopped then s
      else { s with state := .sleeping, wakeAt := timeout.map fun t => s.clock + t } := by
  unfold sleep at h
  split at h
  · rename_i hstopped
    rw [if_pos hstopped]
    exact (Option.some.inj h).symm
  · rename_i hgoing
    rw [if_neg hgoing]
    cases timeout with
    | none => exact (Option.some.inj h).symm
    | some t =>
      obtain ⟨moment, hmoment, heq⟩ := Option.map_eq_some_iff.mp h
      rw [← heq, moment?_eq_some hmoment, Option.map_some]

/-- A suspension without end always has a result. -/
theorem Scheduler.sleep_none_eq (s : Scheduler) :
    s.sleep none =
      some (if s.state = .stopped then s else { s with state := .sleeping, wakeAt := none }) := by
  unfold sleep
  split
  · rename_i hstopped
    rw [if_pos hstopped]
  · rename_i hgoing
    rw [if_neg hgoing]

/-- A suspended program goes on without a timer and without a question, any other is left
alone. -/
theorem Scheduler.wakeUp_eq (s : Scheduler) :
    s.wakeUp = if s.state = .sleeping
      then { s with state := .running, wakeAt := none, outstanding := none } else s := by
  unfold wakeUp
  split
  · rename_i hsleeping
    rw [if_pos hsleeping]
  · rename_i hawake
    rw [if_neg hawake]

/-- Waking up does not set a stopped program going. -/
theorem Scheduler.state_wakeUp_of_stopped (h : s.state = .stopped) :
    s.wakeUp.state = .stopped := by
  have hidle : s.state ≠ .sleeping := by
    rw [h]
    exact nofun
  rw [wakeUp_eq, if_neg hidle]
  exact h

/-- An answer that is taken sets a suspended program going, with nothing left of the
suspension. -/
theorem Scheduler.retire_wakeUp_of_sleeping (h : s.state = .sleeping) :
    s.retire.wakeUp = { s with state := .running, wakeAt := none, outstanding := none } := by
  have hretired : s.retire.state = .sleeping := h
  rw [wakeUp_eq, if_pos hretired]
  rfl

/-- Time passes, and wakes the program up exactly if a timed sleep does not last longer. -/
theorem Scheduler.eq_of_advance (h : s.advance elapsed = some s') :
    s' = if (s.timeToWake.any fun left => left ≤ elapsed) = true
      then wakeUp { s with clock := s.clock + elapsed }
      else { s with clock := s.clock + elapsed } := by
  obtain ⟨now, hnow, rfl⟩ := Option.map_eq_some_iff.mp h
  have hclock : now = s.clock + elapsed := moment?_eq_some hnow
  subst hclock
  have hleft (moment : Nat) : moment - s.clock ≤ elapsed ↔ moment ≤ s.clock + elapsed := by
    omega
  obtain ⟨state, clock, wakeAt, generation, nextSequence, outstanding, sleepUnit⟩ := s
  cases wakeAt with
  | none => cases state <;> rfl
  | some moment => cases state <;> simp [isDue, wakeUp, timeToWake, hleft]

/-- Time that passes neither stops a program nor starts a stopped one. -/
theorem Scheduler.state_advance_eq_stopped_iff (h : s.advance elapsed = some s') :
    s'.state = .stopped ↔ s.state = .stopped := by
  rw [eq_of_advance h]
  split
  · obtain ⟨state, clock, wakeAt, generation, nextSequence, outstanding, sleepUnit⟩ := s
    cases state <;> simp [wakeUp]
  · rfl

/-- A program that runs after some time has been running, or has just been woken. -/
theorem Scheduler.eq_wakeUp_of_advance (h : s.advance elapsed = some s')
    (hrunning : s'.state = .running) : s' = { s.wakeUp with clock := s.clock + elapsed } := by
  rw [eq_of_advance h] at hrunning ⊢
  obtain ⟨state, clock, wakeAt, generation, nextSequence, outstanding, sleepUnit⟩ := s
  split
  · cases state <;> rfl
  · rename_i hearly
    rw [if_neg hearly] at hrunning
    have hstate : state = .running := hrunning
    rw [hstate]
    rfl

/-- Where a program does not run after some time, only the clock has moved. -/
theorem Scheduler.eq_of_advance_of_not_running (h : s.advance elapsed = some s')
    (hidle : s'.state ≠ .running) : s' = { s with clock := s.clock + elapsed } := by
  rw [eq_of_advance h] at hidle ⊢
  split
  · rename_i hdue
    rw [if_pos hdue, wakeUp_eq] at hidle
    rw [wakeUp_eq]
    by_cases hsleeping : s.state = .sleeping
    · rw [if_pos hsleeping] at hidle
      exact absurd rfl hidle
    · rw [if_neg hsleeping]
  · rfl

/-- Schedulers with the same clock, the same counters and the same unit of sleep. -/
structure Scheduler.SameNumbers (s s' : Scheduler) : Prop where
  /-- It is the same moment. -/
  clock : s'.clock = s.clock
  /-- As many runs have begun. -/
  generation : s'.generation = s.generation
  /-- As many questions have been asked. -/
  nextSequence : s'.nextSequence = s.nextSequence
  /-- A unit of sleep is as long. -/
  sleepUnit : s'.sleepUnit = s.sleepUnit

/-- A suspension takes no time and counts nothing. -/
theorem Scheduler.sameNumbers_of_sleep {timeout : Option Nat} (h : s.sleep timeout = some s') :
    s.SameNumbers s' := by
  rw [eq_of_sleep h]
  split <;> exact ⟨rfl, rfl, rfl, rfl⟩

/-- Waking up takes no time and counts nothing. -/
theorem Scheduler.sameNumbers_wakeUp (s : Scheduler) : s.SameNumbers s.wakeUp := by
  rw [wakeUp_eq]
  split <;> exact ⟨rfl, rfl, rfl, rfl⟩

/-- Time that passes moves the clock and counts nothing. -/
theorem Scheduler.sameNumbers_of_advance (h : s.advance elapsed = some s') :
    SameNumbers { s with clock := s.clock + elapsed } s' := by
  rw [eq_of_advance h]
  split
  · exact sameNumbers_wakeUp _
  · exact ⟨rfl, rfl, rfl, rfl⟩

/-- A suspension leaves the question alone. -/
theorem Scheduler.outstanding_of_sleep {timeout : Option Nat} (h : s.sleep timeout = some s') :
    s'.outstanding = s.outstanding := by
  rw [eq_of_sleep h]
  split <;> rfl

/-- Waking up brings no question. -/
theorem Scheduler.outstanding_of_wakeUp {t : Ticket} (ht : s.wakeUp.outstanding = some t) :
    s.outstanding = some t := by
  rw [wakeUp_eq] at ht
  split at ht
  · cases ht
  · exact ht

/-- Time that passes brings no question. -/
theorem Scheduler.outstanding_of_advance (h : s.advance elapsed = some s') {t : Ticket}
    (ht : s'.outstanding = some t) : s.outstanding = some t := by
  rw [eq_of_advance h] at ht
  split at ht
  · exact outstanding_of_wakeUp (s := { s with clock := s.clock + elapsed }) ht
  · exact ht

/-- Time that passes raises no question. -/
theorem Scheduler.outstanding_eq_none_of_advance (h : s.advance elapsed = some s')
    (hnone : s.outstanding = none) : s'.outstanding = none := by
  rw [Option.eq_none_iff_forall_ne_some]
  intro t ht
  have hsome := outstanding_of_advance h ht
  rw [hnone] at hsome
  cases hsome

/-- Whether an answer is taken is whether the ticket is of this run and outstanding. -/
theorem Scheduler.checkTicket_eq_ok_iff {t : Ticket} :
    s.checkTicket t = .ok () ↔ t.generation = s.generation ∧ s.outstanding = some t := by
  unfold checkTicket
  by_cases hgeneration : t.generation = s.generation
  · rw [if_neg (not_not_intro hgeneration)]
    cases hasked : s.outstanding with
    | none => simp
    | some asked =>
      by_cases heq : asked = t
      · simp [heq, hgeneration]
      · simp [heq]
  · rw [if_pos hgeneration]
    simp [hgeneration]

end ByteMachine
