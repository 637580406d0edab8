import ByteMachine.Proofs.Scheduler.Clock

/-!
# Counting runs and questions

The number of a run goes up with every run and at no other time. The number of the next
question goes up with every question, and goes back with a run. So neither of them is ever
larger than the number of runs or questions of the whole history.
-/

namespace ByteMachine

/-- The counters have gone up by a number of runs, and by a number of questions at most. -/
structure Scheduler.Counts (s s' : Scheduler) (runs questions : Nat) : Prop where
  /-- Every run is counted. -/
  runs : s'.generation = s.generation + runs
  /-- No more questions are counted than there were. -/
  questions : s'.nextSequence ≤ s.nextSequence + questions

namespace Scheduler

variable {s s' s'' : Scheduler}

namespace Counts

theorem refl (s : Scheduler) : s.Counts s 0 0 := ⟨rfl, Nat.le_refl _⟩

/-- Where the numbers are the same, nothing has been counted. -/
theorem of_sameNumbers (h : s.SameNumbers s') : s.Counts s' 0 0 :=
  ⟨h.generation, Nat.le_of_eq h.nextSequence⟩

theorem mono {runs questions questions' : Nat} (h : s.Counts s' runs questions)
    (hle : questions ≤ questions') : s.Counts s' runs questions' :=
  ⟨h.runs, Nat.le_trans h.questions (Nat.add_le_add_left hle _)⟩

theorem trans {runs runs' questions questions' : Nat} (h : s.Counts s' runs questions)
    (h' : s'.Counts s'' runs' questions') :
    s.Counts s'' (runs + runs') (questions + questions') := by
  have hruns := h.runs
  have hruns' := h'.runs
  have hquestions := h.questions
  have hquestions' := h'.questions
  constructor <;> omega

/-- Time that passes counts nothing. -/
theorem of_advance {elapsed : Nat} (h : s.advance elapsed = some s') : s.Counts s' 0 0 := by
  have hnumbers := sameNumbers_of_advance h
  exact ⟨hnumbers.generation, Nat.le_of_eq hnumbers.nextSequence⟩

/-- An instruction counts the questions that it asks. -/
theorem of_moves {ts : List Ticket} (h : s.Moves s' ts) : s.Counts s' 0 ts.length := by
  cases h with
  | stay => exact .refl s
  | suspend hs => exact .of_sameNumbers (sameNumbers_of_sleep hs)
  | @ask s' hs =>
    have hasked : s'.Counts s'.awaitInput 0 1 := ⟨rfl, Nat.le_refl _⟩
    exact (of_sameNumbers (sameNumbers_of_sleep hs)).trans hasked

end Counts

end Scheduler

/-- A step counts the questions that it asks. -/
theorem Machine.counts_of_step {m : Machine} {r : Reply Machine (Except Fault Unit)}
    (hr : m.step = some r) :
    m.scheduler.Counts r.next.scheduler 0 (tickets r.notices).length := by
  obtain ⟨s, hmoves, hs | hs⟩ := settles_of_step hr
  · rw [hs]
    exact .of_moves hmoves
  · rw [hs]
    have hcounts := Scheduler.Counts.of_moves hmoves
    exact ⟨hcounts.runs, hcounts.questions⟩

namespace Computer

variable {c : Computer}

/-- A command counts its run and its questions. -/
theorem counts_of_perform {command : Command} {r : Reply Computer Answer}
    (hr : c.perform command = some r) :
    c.machine.scheduler.Counts r.next.machine.scheduler ([command].count .run)
      (tickets r.notices).length := by
  cases performs_of_perform hr with
  | assembled source =>
    have hcounts : c.machine.scheduler.Counts (c.assemble source).next.machine.scheduler 0 0 := by
      rw [scheduler_assemble]
      exact .refl c.machine.scheduler
    exact hcounts.mono (Nat.zero_le _)
  | started => exact ⟨rfl, Nat.zero_le _⟩
  | stopped => exact ⟨rfl, Nat.le_refl _⟩
  | suspended hs => exact .of_sameNumbers (Scheduler.sameNumbers_of_sleep hs)
  | woken => exact .of_sameNumbers (Scheduler.sameNumbers_wakeUp _)
  | stepped hstep => exact Machine.counts_of_step hstep
  | passed hs hidle => exact .of_advance hs
  | updated hs hrunning hstep =>
    have hcounts := (Scheduler.Counts.of_advance hs).trans (Machine.counts_of_step hstep)
    rw [Nat.zero_add, Nat.zero_add] at hcounts
    exact hcounts
  | delivered ticket text =>
    have hcounts := Scheduler.Counts.of_sameNumbers (c.sameNumbers_deliver ticket text)
    exact hcounts.mono (Nat.zero_le _)

/-- A history counts its runs and its questions. -/
theorem counts_of_performAll {commands : List Command} {r : Reply Computer (List Answer)}
    (hr : c.performAll commands = some r) :
    c.machine.scheduler.Counts r.next.machine.scheduler (commands.count .run)
      (tickets r.notices).length := by
  induction commands generalizing c r with
  | nil =>
    cases hr
    exact .refl c.machine.scheduler
  | cons command commands ih =>
    obtain ⟨first, rest, hfirst, hlater, heq⟩ := performAll_cons hr
    have hcounts := (counts_of_perform hfirst).trans (ih hlater)
    rw [← List.count_append, List.singleton_append, ← List.length_append,
      ← tickets_append] at hcounts
    rw [heq]
    exact hcounts

end Computer

end ByteMachine
