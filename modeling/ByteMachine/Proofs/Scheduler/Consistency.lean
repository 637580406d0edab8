import ByteMachine.Proofs.Histories
import ByteMachine.Proofs.Machine.Scheduling
import ByteMachine.Proofs.Scheduler.Operations

/-!
# Timers and questions of suspended programs only

Run state, clock, timer and outstanding question are kept in separate fields, and each
operation changes some of them. In every computer that can be reached they agree: only a
suspended program has a timer or a question, a timer never lies in the past, and an
outstanding question is the latest one of the current run. So the time that a sleep still
lasts is a true difference, and whatever answer is taken sets the program going.
-/

namespace ByteMachine

/-- A scheduler whose timer and question agree with its run state and its counters. -/
structure Scheduler.Consistent (s : Scheduler) : Prop where
  /-- Only a suspended program has a timer, which is not over before now. -/
  timer : ∀ moment, s.wakeAt = some moment → s.state = .sleeping ∧ s.clock ≤ moment
  /-- Only a suspended program has a question, which is the latest one of this run. -/
  question : ∀ t, s.outstanding = some t →
    s.state = .sleeping ∧ t.generation = s.generation ∧ t.sequence + 1 = s.nextSequence

namespace Scheduler

variable {s s' : Scheduler}

/-- With neither a timer nor a question nothing can disagree. -/
theorem consistent_of_none (htimer : s.wakeAt = none) (hquestion : s.outstanding = none) :
    s.Consistent := by
  constructor
  · intro moment hmoment
    rw [htimer] at hmoment
    cases hmoment
  · intro t ht
    rw [hquestion] at ht
    cases ht

namespace Consistent

/-- A program that is not suspended has neither a timer nor a question. -/
theorem none_of_awake (h : s.Consistent) (hawake : s.state ≠ .sleeping) :
    s.wakeAt = none ∧ s.outstanding = none := by
  constructor
  · rw [Option.eq_none_iff_forall_ne_some]
    intro moment hmoment
    exact hawake (h.timer moment hmoment).1
  · rw [Option.eq_none_iff_forall_ne_some]
    intro t ht
    exact hawake (h.question t ht).1

/-- What is left of a sleep and the moment now add up to the moment when it ends. -/
theorem clock_add_left (h : s.Consistent) {left : Nat} (hleft : s.timeToWake = some left) :
    s.wakeAt = some (s.clock + left) := by
  obtain ⟨moment, hmoment, hdifference⟩ := Option.map_eq_some_iff.mp hleft
  have hlater := (h.timer moment hmoment).2
  have hsum : s.clock + left = moment := by omega
  rw [hmoment, hsum]

theorem start (s : Scheduler) : s.start.Consistent := consistent_of_none rfl rfl

theorem stop (s : Scheduler) : s.stop.Consistent := consistent_of_none rfl rfl

/-- A suspension sets a timer that lies ahead, or takes it away, and keeps the question. -/
theorem sleep (h : s.Consistent) {timeout : Option Nat} (hs : s.sleep timeout = some s') :
    s'.Consistent := by
  rw [eq_of_sleep hs]
  split
  · exact h
  · constructor
    · intro moment hmoment
      obtain ⟨t, -, hsum⟩ := Option.map_eq_some_iff.mp hmoment
      have hlater : s.clock ≤ moment := by omega
      exact ⟨rfl, hlater⟩
    · intro t ht
      exact ⟨rfl, (h.question t ht).2⟩

/-- Waking up takes away the timer and the question of a suspended program, and no other
program has one. -/
theorem wakeUp (h : s.Consistent) : s.wakeUp.Consistent := by
  rw [wakeUp_eq]
  split
  · exact consistent_of_none rfl rfl
  · exact h

/-- Time that passes reaches a timer only by ending it. -/
theorem advance (h : s.Consistent) {elapsed : Nat} (hs : s.advance elapsed = some s') :
    s'.Consistent := by
  rw [eq_of_advance hs]
  split
  · rename_i hdue
    have hsleeping : s.state = .sleeping := by
      obtain ⟨left, hleft, -⟩ := (Option.any_eq_true _ _).mp hdue
      exact (h.timer _ (h.clock_add_left hleft)).1
    rw [wakeUp_eq, if_pos hsleeping]
    exact consistent_of_none rfl rfl
  · rename_i hearly
    constructor
    · intro moment hmoment
      have hleft : s.timeToWake = some (moment - s.clock) := by
        rw [timeToWake, hmoment, Option.map_some]
      rw [hleft, Option.any_some, decide_eq_true_eq] at hearly
      have hlater : s.clock + elapsed ≤ moment := by omega
      exact ⟨(h.timer moment hmoment).1, hlater⟩
    · exact h.question

/-- A suspended program that asks has the new question outstanding. -/
theorem awaitInput (h : s.Consistent) (hsleeping : s.state = .sleeping) :
    s.awaitInput.Consistent := by
  constructor
  · exact h.timer
  · intro t ht
    have hlatest : s.nextTicket = t := Option.some.inj ht
    rw [← hlatest]
    exact ⟨hsleeping, rfl, rfl⟩

/-- Whatever an instruction of a running program does to the run state keeps it. -/
theorem moves (h : s.Consistent) (hrunning : s.state = .running) {ts : List Ticket}
    (hmoves : s.Moves s' ts) : s'.Consistent := by
  cases hmoves with
  | stay => exact h
  | suspend hs => exact h.sleep hs
  | ask hs => exact (h.sleep hs).awaitInput (sleep_of_running hrunning hs)

/-- An answer that is taken finds the program suspended. -/
theorem sleeping_of_checkTicket (h : s.Consistent) {t : Ticket}
    (ht : s.checkTicket t = .ok ()) : s.state = .sleeping :=
  (h.question t (checkTicket_eq_ok_iff.mp ht).2).1

end Consistent

end Scheduler

namespace Computer

open Scheduler (Consistent)

variable {c : Computer}

/-- A step keeps a scheduler consistent, whether it goes through, ends the run or fails. -/
theorem consistent_step {m : Machine} (h : m.scheduler.Consistent)
    {r : Reply Machine (Except Fault Unit)} (hr : m.step = some r) :
    r.next.scheduler.Consistent := by
  by_cases hrunning : m.scheduler.state = .running
  · obtain ⟨s, hmoves, hs | hs⟩ := Machine.settles_of_step hr
    · rw [hs]
      exact h.moves hrunning hmoves
    · rw [hs]
      exact Consistent.stop s
  · rw [Machine.step_of_not_running hrunning] at hr
    cases hr
    exact h

/-- A delivery keeps a scheduler consistent, and leaves the program running if the answer
is taken. -/
theorem consistent_deliver (h : c.machine.scheduler.Consistent) (ticket : Ticket)
    (text : String) :
    (c.deliver ticket text).next.machine.scheduler.Consistent ∧
      ((c.deliver ticket text).answer = .ok () →
        (c.deliver ticket text).next.state = .running) := by
  unfold deliver
  cases hcheck : c.machine.scheduler.checkTicket ticket with
  | error e => exact ⟨h, nofun⟩
  | ok u =>
    dsimp only
    cases Text.typedByte? text with
    | none => exact ⟨h, nofun⟩
    | some value =>
      have hwoken := Scheduler.retire_wakeUp_of_sleeping (h.sleeping_of_checkTicket hcheck)
      dsimp only [state]
      rw [hwoken]
      exact ⟨Scheduler.consistent_of_none rfl rfl, fun _ => rfl⟩

/-- Every command keeps a scheduler consistent. -/
theorem consistent_perform (h : c.machine.scheduler.Consistent) {command : Command}
    {r : Reply Computer Answer} (hr : c.perform command = some r) :
    r.next.machine.scheduler.Consistent := by
  cases performs_of_perform hr with
  | assembled source =>
    rw [← c.scheduler_assemble source] at h
    exact h
  | started => exact Consistent.start c.machine.scheduler
  | stopped => exact Consistent.stop c.machine.scheduler
  | suspended hs => exact h.sleep hs
  | woken => exact h.wakeUp
  | stepped hstep => exact consistent_step h hstep
  | passed hs hidle => exact h.advance hs
  | updated hs hrunning hstep =>
    -- first time passes, then there is a step
    exact consistent_step (h.advance hs) hstep
  | delivered ticket text => exact (consistent_deliver h ticket text).1

/-- The scheduler of every computer that can be reached is consistent. -/
theorem Reachable.consistent (hc : c.Reachable) : c.machine.scheduler.Consistent := by
  induction hc with
  | built h =>
    rw [scheduler_of_ofSettings h]
    exact Scheduler.consistent_of_none rfl rfl
  | performed hc hr ih => exact consistent_perform ih hr

/-- In every computer that can be reached, timer and question agree with the run state: a
timer or a question is there only while the program is suspended, the timer is not over
before now, so that the time left and the clock add up to it, and the question is the
latest one of the current run. A program that runs or is stopped has neither, a program
that waits for input is suspended, and an answer that is taken always sets it going. -/
theorem reachable_suspension_consistent (hc : c.Reachable) :
    c.machine.scheduler.Consistent ∧
      (∀ left, c.timeToWake = some left →
        c.machine.scheduler.wakeAt = some (c.machine.scheduler.clock + left)) ∧
      (c.state ≠ .sleeping → c.machine.scheduler.wakeAt = none ∧ c.timeToWake = none ∧
        c.machine.scheduler.outstanding = none ∧ c.isAwaitingInput = false) ∧
      (c.isAwaitingInput = true → c.state = .sleeping) ∧
      ∀ ticket text, (c.deliver ticket text).answer = .ok () →
        (c.deliver ticket text).next.state = .running := by
  have hconsistent := hc.consistent
  refine ⟨hconsistent, ?_, ?_, ?_, ?_⟩
  · intro left hleft
    exact hconsistent.clock_add_left hleft
  · intro hawake
    obtain ⟨htimer, hquestion⟩ := hconsistent.none_of_awake hawake
    have hleft : c.timeToWake = none := by
      rw [timeToWake, Scheduler.timeToWake, htimer, Option.map_none]
    have hawaiting : c.isAwaitingInput = false := by
      rw [isAwaitingInput, Scheduler.isAwaitingInput, hquestion, Option.isSome_none]
    exact ⟨htimer, hleft, hquestion, hawaiting⟩
  · intro hawaiting
    obtain ⟨t, ht⟩ := Option.isSome_iff_exists.mp hawaiting
    exact (hconsistent.question t ht).1
  · intro ticket text
    exact (consistent_deliver hconsistent ticket text).2

/-- A program that asks for a byte and is then suspended for a while by someone else. -/
def suspending : List Command := [.assemble "IN 00", .run, .step, .sleep (some 5)]

/-- That program has both a timer and a question, and an answer ends them both. -/
theorem suspending_consistent : ∃ c r, ofSettings { memorySize := 2 } 0 = .ok c ∧
    c.performAll suspending = some r ∧ r.next.Reachable ∧ r.next.timeToWake = some 5 ∧
    r.next.isAwaitingInput = true ∧ r.next.state = .sleeping ∧
    (r.next.deliver ⟨1, 0⟩ "2A").next.state = .running := by
  refine ⟨_, _, rfl, rfl, ?_⟩
  have hreachable := Reachable.performAll
    (.built (rfl : ofSettings { memorySize := 2 } 0 = .ok _))
    (rfl : Computer.performAll _ suspending = some _)
  obtain ⟨-, -, -, hsleeping, hrunning⟩ := reachable_suspension_consistent hreachable
  exact ⟨hreachable, rfl, rfl, hsleeping rfl, hrunning ⟨1, 0⟩ "2A" rfl⟩

end Computer

end ByteMachine
