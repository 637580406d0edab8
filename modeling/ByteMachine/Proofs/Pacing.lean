import ByteMachine.Proofs.Histories
import ByteMachine.Proofs.Machine.Likeness
import ByteMachine.Proofs.Scheduler.Operations

/-!
# Programs do not notice how time is sliced

Whoever updates a computer decides into which pieces time is cut. An update that executes
nothing has moved the clock and nothing else; and a timer runs out only in the update that
then executes an instruction. So two series of updates that execute equally many
instructions give the same results and the same notices, and leave computers that differ
in their clocks and in the time that a sleep still lasts, and in nothing else.
-/

namespace ByteMachine

/-- Schedulers that are equal but for the clock and the moment when a timed sleep ends. -/
structure Scheduler.SameButTime (s s' : Scheduler) : Prop where
  /-- They are in the same run state. -/
  state : s.state = s'.state
  /-- There have been equally many runs. -/
  generation : s.generation = s'.generation
  /-- The current run has asked equally many questions. -/
  nextSequence : s.nextSequence = s'.nextSequence
  /-- The same question is outstanding. -/
  outstanding : s.outstanding = s'.outstanding
  /-- Units of sleep have the same length. -/
  sleepUnit : s.sleepUnit = s'.sleepUnit
  /-- There is a timer in both or in neither. -/
  timer : s.wakeAt.isSome = s'.wakeAt.isSome

namespace Scheduler.SameButTime

variable {s s' s'' : Scheduler}

theorem refl (s : Scheduler) : s.SameButTime s := ⟨rfl, rfl, rfl, rfl, rfl, rfl⟩

theorem symm (h : s.SameButTime s') : s'.SameButTime s :=
  ⟨h.state.symm, h.generation.symm, h.nextSequence.symm, h.outstanding.symm, h.sleepUnit.symm,
    h.timer.symm⟩

theorem trans (h : s.SameButTime s') (h' : s'.SameButTime s'') : s.SameButTime s'' :=
  ⟨h.state.trans h'.state, h.generation.trans h'.generation,
    h.nextSequence.trans h'.nextSequence, h.outstanding.trans h'.outstanding,
    h.sleepUnit.trans h'.sleepUnit, h.timer.trans h'.timer⟩

/-- The clock is one of the times that may differ. -/
theorem withClock (h : s.SameButTime s') (clock clock' : Nat) :
    SameButTime { s with clock } { s' with clock := clock' } :=
  ⟨h.state, h.generation, h.nextSequence, h.outstanding, h.sleepUnit, h.timer⟩

theorem sleep (h : s.SameButTime s') {timeout : Option Nat} {u u' : Scheduler}
    (hu : s.sleep timeout = some u) (hu' : s'.sleep timeout = some u') : u.SameButTime u' := by
  have htimer : (timeout.map fun t => s.clock + t).isSome =
      (timeout.map fun t => s'.clock + t).isSome := by
    rw [Option.isSome_map, Option.isSome_map]
  rw [eq_of_sleep hu, eq_of_sleep hu', h.state]
  split
  · exact h
  · exact ⟨rfl, h.generation, h.nextSequence, h.outstanding, h.sleepUnit, htimer⟩

theorem wakeUp (h : s.SameButTime s') : s.wakeUp.SameButTime s'.wakeUp := by
  rw [wakeUp_eq, wakeUp_eq, h.state]
  split
  · exact ⟨rfl, h.generation, h.nextSequence, rfl, h.sleepUnit, rfl⟩
  · exact h

end Scheduler.SameButTime

/-- An instruction cannot tell what the time is. -/
def Scheduler.Likeness.timing : Scheduler.Likeness where
  Like := SameButTime
  Tickets := Eq
  state_eq := fun h => h.state
  sleepUnit_eq := fun h => h.sleepUnit
  sleep := fun h hu hu' => h.sleep hu hu'
  awaitInput := by
    intro s s' h
    have hticket : s.nextTicket = s'.nextTicket := by
      rw [Scheduler.nextTicket, Scheduler.nextTicket, h.generation, h.nextSequence]
    have hnext : s.nextSequence + 1 = s'.nextSequence + 1 := by rw [h.nextSequence]
    exact ⟨h.state, h.generation, hnext, congrArg some hticket, h.sleepUnit, h.timer⟩
  nextTicket := by
    intro s s' h
    rw [Scheduler.nextTicket, Scheduler.nextTicket, h.generation, h.nextSequence]
  stop := fun h => ⟨rfl, h.generation, h.nextSequence, rfl, h.sleepUnit, rfl⟩

open Scheduler.Likeness (timing)

/-- Whether an answer reports an update that executed an instruction, with a fault or
without. -/
def Answer.executed : Answer → Bool
  | .updated (.ok executed) => executed
  | .updated (.error _) => true
  | _ => false

namespace Computer

/-- A computer with another clock and another moment when a timed sleep ends. -/
def retimed (c : Computer) (clock : Nat) (wakeAt : Option Nat) : Computer :=
  c.withScheduler { c.machine.scheduler with clock, wakeAt }

/-- Computers that are equal but for the clock and the moment when a timed sleep ends. -/
structure SameButTime (c d : Computer) : Prop where
  /-- The machines are equal but for these times. -/
  machine : c.machine.Like timing d.machine
  /-- The settings are the same. -/
  settings : c.settings = d.settings
  /-- The same is known about the program. -/
  artifacts : c.artifacts = d.artifacts

variable {c d : Computer}

namespace SameButTime

theorem refl (c : Computer) : c.SameButTime c :=
  ⟨⟨rfl, rfl, rfl, rfl, Scheduler.SameButTime.refl _⟩, rfl, rfl⟩

theorem symm (h : c.SameButTime d) : d.SameButTime c :=
  ⟨⟨h.machine.memory.symm, h.machine.registers.symm, h.machine.latch.symm,
    h.machine.generator.symm, Scheduler.SameButTime.symm h.machine.scheduler⟩, h.settings.symm,
    h.artifacts.symm⟩

theorem trans {e : Computer} (h : c.SameButTime d) (h' : d.SameButTime e) : c.SameButTime e :=
  ⟨⟨h.machine.memory.trans h'.machine.memory, h.machine.registers.trans h'.machine.registers,
    h.machine.latch.trans h'.machine.latch, h.machine.generator.trans h'.machine.generator,
    Scheduler.SameButTime.trans h.machine.scheduler h'.machine.scheduler⟩,
    h.settings.trans h'.settings, h.artifacts.trans h'.artifacts⟩

/-- Schedulers that are equal but for their times may take each other's place. -/
theorem withScheduler (h : c.SameButTime d) {s s' : Scheduler} (hs : s.SameButTime s') :
    (c.withScheduler s).SameButTime (d.withScheduler s') :=
  ⟨⟨h.machine.memory, h.machine.registers, h.machine.latch, h.machine.generator, hs⟩,
    h.settings, h.artifacts⟩

/-- One of the two is the other one with its own times. -/
theorem eq_retimed (h : c.SameButTime d) :
    c = d.retimed c.machine.scheduler.clock c.machine.scheduler.wakeAt := by
  have hs : c.machine.scheduler.SameButTime d.machine.scheduler := h.machine.scheduler
  have hscheduler : c.machine.scheduler = { d.machine.scheduler with
      clock := c.machine.scheduler.clock, wakeAt := c.machine.scheduler.wakeAt } :=
    Scheduler.ext hs.state rfl rfl hs.generation hs.nextSequence hs.outstanding hs.sleepUnit
  have hmachine : c.machine = (d.retimed c.machine.scheduler.clock
      c.machine.scheduler.wakeAt).machine := Machine.ext h.machine.memory h.machine.registers
    h.machine.latch hscheduler h.machine.generator
  exact Computer.ext hmachine h.settings h.artifacts

end SameButTime

/-- An update that executes nothing announces nothing and moves nothing but the clock. -/
theorem update_of_not_executed {elapsed : Nat} {r : Reply Computer Answer}
    (hr : c.perform (.update elapsed) = some r) (hidle : r.answer.executed = false) :
    r.notices = [] ∧ r.next.SameButTime c := by
  cases performs_of_perform hr with
  | passed hs hstate =>
    rename_i s
    have hclock := Scheduler.eq_of_advance_of_not_running hs hstate
    have hsame : s.SameButTime c.machine.scheduler := by
      rw [hclock]
      exact (Scheduler.SameButTime.refl _).withClock _ _
    exact ⟨rfl, (SameButTime.refl c).withScheduler hsame⟩
  | updated hs hrunning hstep =>
    rename_i s r
    exfalso
    obtain ⟨answer, next, notices⟩ := r
    cases answer <;> cases hidle

/-- Updates that execute an instruction give the same result and the same notices,
whatever time has passed for each of them, and leave the same but for the times. -/
theorem update_of_executed (h : c.SameButTime d) {elapsed elapsed' : Nat}
    {r r' : Reply Computer Answer} (hr : c.perform (.update elapsed) = some r)
    (hr' : d.perform (.update elapsed') = some r') (hexecuted : r.answer.executed = true)
    (hexecuted' : r'.answer.executed = true) :
    r.answer = r'.answer ∧ r.notices = r'.notices ∧ r.next.SameButTime r'.next := by
  cases performs_of_perform hr with
  | passed => cases hexecuted
  | updated hs hrunning hstep =>
    rename_i s p
    cases performs_of_perform hr' with
    | passed => cases hexecuted'
    | updated hs' hrunning' hstep' =>
      rename_i s' p'
      -- both programs run now, so each either has been running or has just been woken
      have hsame : s.SameButTime s' := by
        rw [Scheduler.eq_wakeUp_of_advance hs hrunning,
          Scheduler.eq_wakeUp_of_advance hs' hrunning']
        exact (Scheduler.SameButTime.wakeUp h.machine.scheduler).withClock _ _
      have hlike := (h.withScheduler hsame).machine.step hstep hstep'
      have hanswer : Answer.updated (p.answer.map fun _ => true) =
          Answer.updated (p'.answer.map fun _ => true) := by
        rw [hlike.answer]
      exact ⟨hanswer, Notice.eq_of_like hlike.notices, hlike.next, h.settings, h.artifacts⟩

/-- A series of updates that execute nothing moves nothing but the clock. -/
theorem updates_of_none_executed {es : List Nat} {r : Reply Computer (List Answer)}
    (hr : c.performAll (es.map .update) = some r)
    (hnone : r.answer.filter Answer.executed = []) :
    r.notices = [] ∧ r.next.SameButTime c := by
  induction es generalizing c r with
  | nil =>
    cases hr
    exact ⟨rfl, SameButTime.refl c⟩
  | cons e es ih =>
    obtain ⟨first, rest, hfirst, hrest, rfl⟩ := performAll_cons hr
    have hall := List.filter_eq_nil_iff.mp hnone
    have hidle : first.answer.executed = false := by
      simpa using hall first.answer List.mem_cons_self
    have hlater : rest.answer.filter Answer.executed = [] :=
      List.filter_eq_nil_iff.mpr fun a ha => hall a (List.mem_cons_of_mem _ ha)
    obtain ⟨hquiet, hsame⟩ := update_of_not_executed hfirst hidle
    obtain ⟨hquiet', hsame'⟩ := ih hrest hlater
    dsimp only
    rw [hquiet, hquiet']
    exact ⟨rfl, hsame'.trans hsame⟩

/-- A series of updates that executes something comes, after some time, to the first update
that does. -/
theorem updates_of_executed {es : List Nat} {r : Reply Computer (List Answer)}
    {answer : Answer} {answers : List Answer} (hr : c.performAll (es.map .update) = some r)
    (hfilter : r.answer.filter Answer.executed = answer :: answers) :
    ∃ (d : Computer) (e : Nat) (fs : List Nat) (first : Reply Computer Answer)
      (rest : Reply Computer (List Answer)), d.SameButTime c ∧
      d.perform (.update e) = some first ∧
      first.answer.executed = true ∧ first.answer = answer ∧
      first.next.performAll (fs.map .update) = some rest ∧
      rest.answer.filter Answer.executed = answers ∧
      r.notices = first.notices ++ rest.notices ∧ r.next = rest.next := by
  induction es generalizing c r with
  | nil =>
    cases hr
    cases hfilter
  | cons e es ih =>
    obtain ⟨first, rest, hfirst, hrest, rfl⟩ := performAll_cons hr
    cases hexecuted : first.answer.executed with
    | true =>
      rw [List.filter_cons_of_pos hexecuted] at hfilter
      obtain ⟨hanswer, hanswers⟩ := List.cons.inj hfilter
      exact ⟨c, e, es, first, rest, SameButTime.refl c, hfirst, hexecuted, hanswer, hrest,
        hanswers, rfl, rfl⟩
    | false =>
      have hneg : ¬first.answer.executed = true := by
        rw [hexecuted]
        exact Bool.false_ne_true
      rw [List.filter_cons_of_neg hneg] at hfilter
      obtain ⟨hquiet, hsame⟩ := update_of_not_executed hfirst hexecuted
      obtain ⟨d, e', fs, first', rest', hd, hfound⟩ := ih hrest hfilter
      dsimp only
      rw [hquiet, List.nil_append]
      exact ⟨d, e', fs, first', rest', hd.trans hsame, hfound⟩

/-- Computers that are equal but for their times stay so over two series of updates that
execute equally many instructions, which give the same results and the same notices. -/
theorem updates_alike (h : c.SameButTime d) {es fs : List Nat}
    {r s : Reply Computer (List Answer)} (hr : c.performAll (es.map .update) = some r)
    (hs : d.performAll (fs.map .update) = some s)
    (hcount : (r.answer.filter Answer.executed).length =
      (s.answer.filter Answer.executed).length) :
    r.answer.filter Answer.executed = s.answer.filter Answer.executed ∧
      r.notices = s.notices ∧ r.next.SameButTime s.next := by
  -- by induction on the instructions that are executed, each of them found in both series
  generalize hanswers : r.answer.filter Answer.executed = answers at hcount ⊢
  generalize hanswers' : s.answer.filter Answer.executed = answers' at hcount ⊢
  induction answers generalizing c d es fs r s answers' with
  | nil =>
    have hnil : answers' = [] := List.length_eq_zero_iff.mp hcount.symm
    obtain ⟨hquiet, hsame⟩ := updates_of_none_executed hr hanswers
    obtain ⟨hquiet', hsame'⟩ := updates_of_none_executed hs (hanswers'.trans hnil)
    rw [hquiet, hquiet', hnil]
    exact ⟨rfl, rfl, (hsame.trans h).trans hsame'.symm⟩
  | cons answer answers ih =>
    cases answers' with
    | nil => cases hcount
    | cons answer' answers' =>
      obtain ⟨c', e, es', first, rest, hc', hfirst, hexecuted, hanswer, hrest, hlater,
        hnotices, hnext⟩ := updates_of_executed hr hanswers
      obtain ⟨d', f, fs', first', rest', hd', hfirst', hexecuted', hanswer', hrest', hlater',
        hnotices', hnext'⟩ := updates_of_executed hs hanswers'
      have hsame : c'.SameButTime d' := (hc'.trans h).trans hd'.symm
      obtain ⟨heq, hnoted, hthen⟩ :=
        update_of_executed hsame hfirst hfirst' hexecuted hexecuted'
      have hlength : answers.length = answers'.length := Nat.succ.inj hcount
      obtain ⟨heqs, hnotedLater, hend⟩ := ih hthen hrest hrest' hlater answers' hlater' hlength
      have hhead : answer = answer' := (hanswer.symm.trans heq).trans hanswer'
      rw [hnotices, hnotices', hnext, hnext', hnoted, hnotedLater, hhead, heqs]
      exact ⟨rfl, rfl, hend⟩

/-- However time is sliced into updates, a program computes, shows and asks the same: two
series of updates of one computer that execute equally many instructions have the same
results of these instructions and the same notices, and the computers afterwards are equal
but for their clocks and for the moments when a timed sleep ends. -/
theorem updates_independent_of_slicing {es fs : List Nat}
    {r s : Reply Computer (List Answer)} (hr : c.performAll (es.map .update) = some r)
    (hs : c.performAll (fs.map .update) = some s)
    (hcount : r.answer.countP Answer.executed = s.answer.countP Answer.executed) :
    r.answer.filter Answer.executed = s.answer.filter Answer.executed ∧
      r.notices = s.notices ∧ (∃ clock wakeAt, r.next = s.next.retimed clock wakeAt) ∧
      r.next.timeToWake.isSome = s.next.timeToWake.isSome := by
  rw [List.countP_eq_length_filter, List.countP_eq_length_filter] at hcount
  obtain ⟨hanswers, hnotices, hsame⟩ := updates_alike (SameButTime.refl c) hr hs hcount
  refine ⟨hanswers, hnotices, ⟨_, _, hsame.eq_retimed⟩, ?_⟩
  have htimer := hsame.machine.scheduler.timer
  simp only [timeToWake, Scheduler.timeToWake, Option.isSome_map]
  exact htimer

/-- A program that waits for a byte, with its number and its end still to come, when someone
else has suspended it for a while. -/
def interrupted : Computer where
  machine := {
    memory := ⟨[19, 0, 20, 1, 21], 5, by decide, by decide, by decide⟩
    registers := { pc := 2, sp := 4 }
    scheduler := {
      state := .sleeping, wakeAt := some 5, generation := 1, nextSequence := 1
      outstanding := some ⟨1, 0⟩, sleepUnit := 0 }
    generator := { key := 0 } }
  settings := { memorySize := 5 }

/-- Two updates and four updates of that program end the suspension, drop the question and
then execute the same two instructions. -/
theorem interrupted_independent_of_slicing : ∃ r s,
    interrupted.performAll ([5, 0].map .update) = some r ∧
    interrupted.performAll ([2, 2, 1, 0].map .update) = some s ∧
    r.answer.countP Answer.executed = 2 ∧ s.answer.countP Answer.executed = 2 ∧
    r.notices = s.notices ∧ ∃ clock wakeAt, r.next = s.next.retimed clock wakeAt := by
  have htwo : (interrupted.performAll ([5, 0].map .update)).map
      (fun r => r.answer.countP Answer.executed) = some 2 := by decide +kernel
  have hfour : (interrupted.performAll ([2, 2, 1, 0].map .update)).map
      (fun s => s.answer.countP Answer.executed) = some 2 := by decide +kernel
  obtain ⟨r, hr, hcount⟩ := Option.map_eq_some_iff.mp htwo
  obtain ⟨s, hs, hcount'⟩ := Option.map_eq_some_iff.mp hfour
  obtain ⟨-, hnotices, hnext, -⟩ :=
    updates_independent_of_slicing hr hs (hcount.trans hcount'.symm)
  exact ⟨r, s, hr, hs, hcount, hcount', hnotices, hnext⟩

end Computer

end ByteMachine
