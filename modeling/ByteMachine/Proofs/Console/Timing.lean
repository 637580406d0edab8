import Mathlib.Algebra.Order.BigOperators.Group.Finset
import ByteMachine.Proofs.Console.Course
import ByteMachine.Proofs.Pacing
import ByteMachine.Proofs.Report

/-!
# A session keeps to the course of its program

Whatever times pass, a session does what its program does without a clock. Turn by turn it is
where the program can get to, but for the clock and for how long a sleep still lasts, and it has
written what has happened on the way. Only when so much time has passed that the clock may not
count any further, a session may end without its program.
-/

namespace ByteMachine

namespace Computer

variable {c d : Computer}

namespace SameButTime

/-- Computers that are equal but for their times are in the same run state. -/
theorem state_eq (h : c.SameButTime d) : c.state = d.state :=
  Scheduler.SameButTime.state h.machine.scheduler

theorem outstanding_eq (h : c.SameButTime d) :
    c.machine.scheduler.outstanding = d.machine.scheduler.outstanding :=
  Scheduler.SameButTime.outstanding h.machine.scheduler

/-- No time can be seen in a snapshot. -/
theorem snapshot_eq (h : c.SameButTime d) : c.snapshot = d.snapshot := by
  rw [h.eq_retimed]
  rfl

/-- What an instruction will put out and ask does not depend on the time. -/
theorem eventsOf_eq (h : c.SameButTime d) :
    Console.eventsOf c.machine = Console.eventsOf d.machine := by
  rw [h.eq_retimed]
  rfl

theorem answered (h : c.SameButTime d) (value : UInt8) :
    (c.answered value).SameButTime (d.answered value) := by
  have hs : c.machine.scheduler.SameButTime d.machine.scheduler := h.machine.scheduler
  have hregisters :
      (c.answered value).machine.registers = (d.answered value).machine.registers := by
    rw [Computer.answered, Computer.answered, h.machine.registers]
  exact ⟨⟨h.machine.memory, hregisters, h.machine.latch, h.machine.generator,
    ⟨rfl, hs.generation, hs.nextSequence, rfl, hs.sleepUnit, rfl⟩⟩, h.settings, h.artifacts⟩

theorem stop (h : c.SameButTime d) : c.stop.next.SameButTime d.stop.next :=
  h.withScheduler (Scheduler.Likeness.timing.stop h.machine.scheduler)

/-- Time that passes without waking a program up changes no more than the times. -/
theorem passed (h : c.SameButTime d) {elapsed : Nat} {later : Scheduler}
    (hs : c.machine.scheduler.advance elapsed = some later) (hidle : later.state ≠ .running) :
    (c.withScheduler later).SameButTime d := by
  rw [Scheduler.eq_of_advance_of_not_running hs hidle]
  exact h.withScheduler (Scheduler.SameButTime.withClock h.machine.scheduler _ _)

/-- Where a program runs after some time, so does the other one when it has been woken. -/
theorem awake (h : c.SameButTime d) {elapsed : Nat} {later : Scheduler}
    (hs : c.machine.scheduler.advance elapsed = some later) (hrunning : later.state = .running) :
    (c.withScheduler later).SameButTime d.wakeUp.next := by
  rw [Scheduler.eq_wakeUp_of_advance hs hrunning]
  exact h.withScheduler ((Scheduler.SameButTime.wakeUp h.machine.scheduler).withClock _ _)

/-- Where the clock is not ahead, an instruction goes through as well, and does the same. -/
theorem exists_step (h : c.SameButTime d)
    (hclock : d.machine.scheduler.clock ≤ c.machine.scheduler.clock)
    {r : Reply Machine (Except Fault Unit)} (hr : c.machine.step = some r) :
    ∃ r', d.machine.step = some r' ∧ r'.answer = r.answer ∧
      SameButTime { c with machine := r.next } { d with machine := r'.next } ∧
      r'.next.scheduler.clock ≤ r.next.scheduler.clock := by
  cases hr' : d.machine.step with
  | none =>
    exfalso
    -- a sleep that lasts too long from here would last too long from there
    obtain ⟨hrunning, hcode, units, hunits, hlate⟩ := Machine.step_eq_none_iff.mp hr'
    have hunit : c.machine.scheduler.sleepUnit = d.machine.scheduler.sleepUnit :=
      Scheduler.SameButTime.sleepUnit h.machine.scheduler
    have hover : c.machine.Oversleeps := by
      refine ⟨h.state_eq.trans hrunning, ?_, units, ?_, ?_⟩
      · rw [h.machine.memory, h.machine.registers]
        exact hcode
      · rw [h.machine.memory, h.machine.registers]
        exact hunits
      · rw [hunit]
        omega
    rw [Machine.step_eq_none_iff.mpr hover] at hr
    cases hr
  | some r' =>
    have hlike := h.machine.step hr hr'
    refine ⟨r', rfl, hlike.answer.symm, ⟨hlike.next, h.settings, h.artifacts⟩, ?_⟩
    rw [Machine.clock_of_step hr, Machine.clock_of_step hr']
    exact hclock

end SameButTime

/-- An update comes to nothing only when more than half of the time has passed that the clock
can count, for no sleep lasts as long as the other half. -/
theorem late_of_update_eq_none (hc : c.Reachable) {elapsed : Nat} (h : c.update elapsed = none) :
    lastMoment < 2 * (c.machine.scheduler.clock + elapsed) := by
  cases hs : c.machine.scheduler.advance elapsed with
  | none =>
    have hlate := Scheduler.advance_eq_none_iff.mp hs
    omega
  | some later =>
    rw [update, hs, Option.bind_some] at h
    split at h
    · have hstep : (c.withScheduler later).machine.step = none :=
        Option.map_eq_none_iff.mp (Option.map_eq_none_iff.mp h)
      obtain ⟨-, -, units, -, hlate⟩ := Machine.step_eq_none_iff.mp hstep
      have hnumbers := Scheduler.sameNumbers_of_advance hs
      have hclock : later.clock = c.machine.scheduler.clock + elapsed := hnumbers.clock
      have hunit : later.sleepUnit = milliseconds c.settings.sleepUnitMs :=
        hnumbers.sleepUnit.trans hc.accounted.sleepUnit
      have hlongest : later.sleepUnit * units.toNat ≤ later.sleepUnit * 255 :=
        Nat.mul_le_mul_left _ (Nat.le_of_lt_succ units.toNat_lt)
      have hmilliseconds := c.settings.sleepUnitMs.toNat_lt
      have hmoment : lastMoment < later.clock + later.sleepUnit * units.toNat := hlate
      unfold milliseconds at hunit
      unfold lastMoment UInt64.size at hmoment ⊢
      omega
    · cases h

/-- A program that runs after some time has been running, or has been asleep with a timer. -/
theorem isSome_wakeAt_of_advance {elapsed : Nat} {later : Scheduler}
    (hs : c.machine.scheduler.advance elapsed = some later) (hrunning : later.state = .running)
    (hsleeping : c.state = .sleeping) : c.machine.scheduler.wakeAt.isSome = true := by
  rw [Option.isSome_iff_ne_none]
  intro hnone
  have hstate : c.machine.scheduler.state = .sleeping := hsleeping
  rw [Scheduler.eq_of_advance hs, Scheduler.timeToWake, hnone] at hrunning
  rw [Option.map_none, Option.any_none, if_neg Bool.false_ne_true] at hrunning
  dsimp only at hrunning
  rw [hstate] at hrunning
  cases hrunning

/-- An instruction that a running program executes is the next move of the program without a
clock. -/
theorem SameButTime.exists_move {c d : Computer} (h : c.SameButTime d)
    (hrunning : c.state = .running)
    (hclock : d.machine.scheduler.clock ≤ c.machine.scheduler.clock)
    {r : Reply Machine (Except Fault Unit)} (hr : c.machine.step = some r)
    (lines : List String) :
    ∃ d', Console.move? d lines = some (.ofAnswer (Console.eventsOf c.machine) d' lines r.answer) ∧
      SameButTime { c with machine := r.next } d' ∧
      d'.machine.scheduler.clock ≤ r.next.scheduler.clock := by
  obtain ⟨r', hr', hanswer, hnext, hbehind⟩ := h.exists_step hclock hr
  refine ⟨_, ?_, hnext, hbehind⟩
  have hstate : d.state = .running := h.state_eq.symm.trans hrunning
  rw [Console.move?, hstate]
  dsimp only
  rw [Console.stepMove?, step, hr', Option.map_some, Option.map_some, hanswer, ← h.eventsOf_eq]

end Computer

namespace Console

/-- A session is where a program without a clock is, when so much time has passed. -/
structure Session.Keeps (s : Session) (ticket : Option Ticket) (dump : Bool) (now : Nat)
    (d : Computer) : Prop where
  /-- It has no question to put, and this one is outstanding. -/
  awaits : s.Awaits ticket
  /-- Whether there will be a snapshot is settled. -/
  dump : s.dump = dump
  /-- All the time has passed on its clock. -/
  clock : s.computer.machine.scheduler.clock = now
  /-- Its computer is that of the program but for the times. -/
  same : s.computer.SameButTime d
  /-- The clock of the program is not ahead. -/
  behind : d.machine.scheduler.clock ≤ now

/-- A stage at which a session is where a program without a clock is. -/
inductive Stage.Keeps (dump : Bool) (now : Nat) (d : Computer) : Stage → Prop where
  /-- Time passes, and nothing has been asked. -/
  | idle {s : Session} (h : s.Keeps none dump now d) : Keeps dump now d (.awaitTime s)
  /-- A question has been asked, and is put to the user. -/
  | waiting {s : Session} {ticket : Ticket} (h : s.Keeps (some ticket) dump now d) :
    Keeps dump now d (.awaitLine s ticket)

/-- What a turn, or several in a row, may come to if a program without a clock was there before,
and so much time has passed after it. -/
inductive Turn.Follows (d : Computer) (lines : List String) (dump : Bool) (now : Nat) :
    Turn → List String → Prop where
  /-- The session is where the program gets to, and has written what has happened. -/
  | goOn {happened : List Event} {d' : Computer} {left : List String} {stage : Stage}
      (hleads : Leads d lines happened d' left) (hstage : stage.Keeps dump now d') :
    Follows d lines dump now ⟨happened.flatMap Event.writes, stage⟩ left
  /-- The session ends as the program does. -/
  | finish {events : List Event} {ending : Ending} {left : List String}
      (hruns : Runs d lines events ending) :
    Follows d lines dump now
      ⟨events.flatMap Event.writes ++ ending.closing dump, .finished ending.code⟩ left
  /-- The clock does not count any further. -/
  | late {writes : List Write} {left : List String} (hlate : lastMoment < 2 * now) :
    Follows d lines dump now ⟨writes, .finished 101⟩ left

namespace Turn.Follows

/-- More may have happened in front of a turn, if it has been written as well. -/
theorem after {turn : Turn} {c d : Computer} {lines left left' : List String} {dump : Bool}
    {now : Nat} {happened : List Event} (h : turn.Follows d left dump now left')
    (hleads : Leads c lines happened d left) :
    (turn.after (happened.flatMap Event.writes)).Follows c lines dump now left' := by
  cases h with
  | goOn hrest hstage =>
    rw [Turn.after, ← List.flatMap_append]
    exact .goOn (hleads.trans hrest) hstage
  | finish hruns =>
    rw [Turn.after, ← List.append_assoc, ← List.flatMap_append]
    exact .finish (hleads hruns)
  | late hlate => exact .late hlate

end Turn.Follows

namespace Session

variable {s : Session} {d : Computer} {dump : Bool} {now : Nat} {lines : List String}

/-- A session that ends has the snapshot of the program to show. -/
theorem finish_eq (hdump : s.dump = dump) (hsame : s.computer.SameButTime d) (code : Nat) :
    s.finish code = ⟨Ending.closing { computer := d } dump, .finished code⟩ := by
  rw [finish, hdump, hsame.snapshot_eq]
  rfl

/-- A session with no question to put goes on, or ends if the program has stopped. -/
theorem Keeps.next_follows (h : s.Keeps none dump now d) (lines : List String) :
    s.next.Follows d lines dump now lines := by
  by_cases hstopped : s.computer.state = .stopped
  · have hruns := runs_of_stopped (h.same.state_eq.symm.trans hstopped) lines
    rw [next, if_pos hstopped, finish_eq h.dump h.same]
    exact .finish hruns
  · rw [next, if_neg hstopped, h.awaits.parked]
    exact .goOn (.refl d lines) (.idle h)

/-- A line, or the end of the input, is what the program goes on with. -/
theorem Keeps.answer_follows {ticket : Ticket} (h : s.Keeps (some ticket) dump now d)
    (lines : List String) :
    (s.answer ticket lines.head?).Follows d lines dump now lines.tail := by
  have hquestion := h.same.outstanding_eq.symm.trans h.awaits.outstanding
  have hsleeping : d.state = .sleeping := by
    rw [← h.same.state_eq]
    exact (h.awaits.reachable.consistent.question ticket h.awaits.outstanding).1
  have hmove := move?_of_outstanding hsleeping hquestion lines
  cases lines with
  | nil =>
    have hend := finish_eq (s := { s with computer := s.computer.stop.next }) h.dump h.same.stop 0
    rw [List.head?_nil, answer, hend]
    exact .finish (.finish hmove)
  | cons line lines =>
    rw [List.head?_cons, List.tail_cons, h.awaits.answer_some]
    rw [answerMove] at hmove
    cases htyped : Text.typedByte? line with
    | none =>
      rw [htyped] at hmove
      exact .goOn (leads_of_move? hmove) (.waiting h)
    | some value =>
      rw [htyped] at hmove
      have hawaits : Awaits { s with computer := s.computer.answered value } none :=
        ⟨h.awaits.reachable_answered htyped, h.awaits.parked, rfl⟩
      exact .goOn (leads_of_move? hmove)
        (.idle ⟨hawaits, h.dump, h.clock, h.same.answered value, h.behind⟩)

/-- When an instruction has gone through, the session goes on where the program does. -/
theorem follows_of_step {c w d' : Computer} {m : Machine}
    {r : Reply Machine (Except Fault Unit)} (hparked : s.parked = none) (hdump : s.dump = dump)
    (hc : c.Reachable) (hquestion : m.scheduler.outstanding = none) (hr : m.step = some r)
    (hmachine : c.machine = r.next) (hclock : c.machine.scheduler.clock = now)
    (hsame : c.SameButTime d') (hbehind : d'.machine.scheduler.clock ≤ now)
    (hleads : Leads w lines (eventsOf m) d' lines) :
    ((s.follow c r.notices).next.after (r.notices.filterMap show?)).Follows w lines dump now
      lines := by
  have hasked := outstanding_of_step hquestion hr
  rw [← hmachine] at hasked
  have hkeeps (ticket : Option Ticket) (hticket : c.machine.scheduler.outstanding = ticket) :
      Keeps { s with computer := c } ticket dump now d' :=
    ⟨⟨hc, hparked, hticket⟩, hdump, hclock, hsame, hbehind⟩
  rw [next_of_step hparked hc hquestion hr hmachine]
  by_cases hasks : m.asks = true
  · rw [if_pos hasks] at hasked ⊢
    exact .goOn hleads (.waiting (hkeeps _ hasked))
  · rw [if_neg hasks] at hasked ⊢
    exact ((hkeeps none hasked).next_follows lines).after hleads

/-- When an instruction has failed, the session ends as the program does. -/
theorem follows_of_fault {c w d' : Computer} {m : Machine}
    {r : Reply Machine (Except Fault Unit)} {fault : Fault} (hdump : s.dump = dump)
    (hquestion : m.scheduler.outstanding = none) (hr : m.step = some r)
    (hfault : r.answer = .error fault) (hsame : c.SameButTime d')
    (hruns : Runs w lines (eventsOf m) ⟨d', some fault⟩) :
    (((s.follow c r.notices).finish 1).after (r.notices.filterMap show? ++
      [report ("execution failed: " ++ fault.message)])).Follows w lines dump now lines := by
  have hend := finish_eq (s := s.follow c r.notices) hdump hsame 1
  rw [hend, (events_of_fault hquestion hr hfault).2, Turn.after, List.append_assoc]
  exact .finish hruns

/-- If time wakes a program up, the program without a clock gets to where it is awake. -/
theorem Keeps.leads_awake (h : s.Keeps none dump now d) {elapsed : Nat} {later : Scheduler}
    (hs : s.computer.machine.scheduler.advance elapsed = some later)
    (hrunning : later.state = .running) (lines : List String) :
    Leads d lines [] d.wakeUp.next lines := by
  have hquestion : d.machine.scheduler.outstanding = none :=
    h.same.outstanding_eq.symm.trans h.awaits.outstanding
  refine leads_wakeUp hquestion (fun hsleeping => ?_) lines
  rw [← Scheduler.SameButTime.timer h.same.machine.scheduler]
  exact Computer.isSome_wakeAt_of_advance hs hrunning (h.same.state_eq.trans hsleeping)

/-- Time that passes does not take a session off the course: either nothing happens, or the
program is awake and executes an instruction. -/
theorem Keeps.pass_follows (h : s.Keeps none dump now d) (elapsed : Nat) (lines : List String) :
    (s.pass elapsed).Follows d lines dump (now + elapsed) lines := by
  cases hr : s.computer.update elapsed with
  | none =>
    have hlate := Computer.late_of_update_eq_none h.awaits.reachable hr
    rw [h.clock] at hlate
    rw [pass, hr]
    exact .late hlate
  | some r =>
    have hreachable := h.awaits.reachable.updated hr
    obtain ⟨later, hs, hcases⟩ := Computer.update_cases hr
    have hclock : later.clock = now + elapsed := by
      rw [← h.clock]
      exact (Scheduler.sameNumbers_of_advance hs).clock
    have hbehind : d.machine.scheduler.clock ≤ now + elapsed := Nat.le_add_right_of_le h.behind
    have hquestion : later.outstanding = none :=
      Scheduler.outstanding_eq_none_of_advance hs h.awaits.outstanding
    rw [pass, hr]
    rcases hcases with ⟨hidle, rfl⟩ | ⟨hrunning, r', hr', rfl⟩
    · have hkeeps : (s.follow (s.computer.withScheduler later) []).Keeps none dump
          (now + elapsed) d :=
        ⟨⟨hreachable, h.awaits.parked, hquestion⟩, h.dump, hclock, h.same.passed hs hidle, hbehind⟩
      exact hkeeps.next_follows lines
    · -- the program is awake now, and so is the one without a clock, some time later
      have hsame := h.same.awake hs hrunning
      have hleads := h.leads_awake hs hrunning lines
      have hwoken : d.wakeUp.next.machine.scheduler.clock = d.machine.scheduler.clock :=
        (Scheduler.sameNumbers_wakeUp _).clock
      have hahead : d.wakeUp.next.machine.scheduler.clock ≤ later.clock := by
        rw [hwoken, hclock]
        exact hbehind
      have hdone : r'.next.scheduler.clock = now + elapsed :=
        (Machine.clock_of_step hr').trans hclock
      obtain ⟨d', hmove, hnext, hbehind'⟩ := hsame.exists_move hrunning hahead hr' lines
      rw [hdone] at hbehind'
      cases hresult : r'.answer with
      | ok u =>
        rw [hresult] at hmove
        exact follows_of_step h.awaits.parked h.dump hreachable hquestion hr' rfl hdone hnext
          hbehind' (hleads.trans (leads_of_move? hmove))
      | error fault =>
        rw [hresult] at hmove
        exact follows_of_fault h.dump hquestion hr' hresult hnext (hleads (.finish hmove))

end Session

namespace Play

open Finset (range)

variable {p : Play} {elapsed : Nat → Nat} {d : Computer} {dump : Bool}

/-- One turn more follows the program, with the time that has passed until then. -/
theorem exists_follows (h : p.stage.Keeps dump (∑ i ∈ range p.updates, elapsed i) d) :
    ∃ turn : Turn, (p.next elapsed).writes = p.writes ++ turn.writes ∧
      (p.next elapsed).stage = turn.stage ∧ (p.next elapsed).updates ≤ p.updates + 1 ∧
      turn.Follows d p.lines dump (∑ i ∈ range (p.next elapsed).updates, elapsed i)
        (p.next elapsed).lines := by
  obtain ⟨updates, writes, events, stage, left⟩ := p
  cases h with
  | idle hkeeps =>
    have hfollows := hkeeps.pass_follows (elapsed updates) left
    rw [← Finset.sum_range_succ] at hfollows
    exact ⟨_, rfl, rfl, Nat.le_refl _, hfollows⟩
  | waiting hkeeps => exact ⟨_, rfl, rfl, Nat.le_succ _, hkeeps.answer_follows left⟩

/-- The outcome of a session is that of the course of its program, unless more than half of the
time has passed that the clock can count. -/
theorem outcome_of_keeps (h : p.stage.Keeps dump (∑ i ∈ range p.updates, elapsed i) d)
    {turns : Nat} {o : Outcome} (ho : ((next elapsed)^[turns] p).outcome? = some o) :
    (o.code = 101 ∧ lastMoment < 2 * ∑ i ∈ range (p.updates + turns), elapsed i) ∨
      ∃ events ending, Runs d p.lines events ending ∧ o =
        ⟨ending.code, p.writes ++ (events.flatMap Event.writes ++ ending.closing dump)⟩ := by
  -- by induction on the turns, where the program gets from one computer to the next beside them
  induction turns generalizing p d with
  | zero =>
    exfalso
    obtain ⟨updates, writes, events, stage, left⟩ := p
    cases h <;> cases ho
  | succ turns ih =>
    rw [Function.iterate_succ_apply] at ho
    obtain ⟨turn, hwrites, hstage, hupdates, hfollows⟩ := exists_follows h
    have htotal {n : Nat} (hn : n ≤ p.updates + (turns + 1)) :
        2 * ∑ i ∈ range n, elapsed i ≤ 2 * ∑ i ∈ range (p.updates + (turns + 1)), elapsed i :=
      Nat.mul_le_mul_left 2 (Finset.sum_le_sum_of_subset (Finset.range_mono hn))
    cases hfollows with
    | @goOn happened d' left stage hleads hkeeps =>
      have hnext : (p.next elapsed).stage = stage := hstage
      rw [← hnext] at hkeeps
      rcases ih hkeeps ho with ⟨hcode, hlate⟩ | ⟨events, ending, hruns, rfl⟩
      · exact .inl ⟨hcode, hlate.trans_le (htotal (by omega))⟩
      · refine .inr ⟨_, ending, hleads hruns, ?_⟩
        rw [hwrites, List.flatMap_append, List.append_assoc, List.append_assoc]
    | finish hruns =>
      rw [iterate_next_of_finished hstage, outcome?, hstage, hwrites] at ho
      cases ho
      exact .inr ⟨_, _, hruns, rfl⟩
    | late hlate =>
      rw [iterate_next_of_finished hstage, outcome?, hstage] at ho
      cases ho
      exact .inl ⟨rfl, hlate.trans_le (htotal (by omega))⟩

end Play

end Console

end ByteMachine
