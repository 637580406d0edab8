import ByteMachine.Proofs.Histories
import ByteMachine.Proofs.Machine.Likeness
import ByteMachine.Proofs.Scheduler.Operations

/-!
# A restart leaves nothing of earlier runs

Two computers that hold the same program, with the same random bytes to come and the same
number put out, may have a very different past. Once both are started they cannot be told
apart: whatever they are then asked for, they answer, show and ask the same. Only the
numbers of their runs differ, by as much as they did before, so a front end has to name a
question by its place among those that have been asked since the start.
-/

namespace ByteMachine

/-- What a front end asks a computer for. It answers a question by its place among those
that have been asked since it began to listen. -/
inductive Call where
  /-- Assemble a source. -/
  | assemble (source : String)
  /-- Start the program. -/
  | run
  /-- End the run. -/
  | stop
  /-- Suspend the program, for some nanoseconds or until it is woken. -/
  | sleep (timeout : Option Nat)
  /-- Let a suspended program go on. -/
  | wakeUp
  /-- Execute one instruction. -/
  | step
  /-- Let some nanoseconds pass and execute one instruction. -/
  | update (elapsed : Nat)
  /-- Answer the question with this place, from zero. -/
  | answer (index : Nat) (text : String)
  deriving DecidableEq, Repr

/-- The command of a call, once its question is looked up among the tickets handed out so
far. There is none for a question that has not been asked. -/
def Call.command? (asked : List Ticket) : Call → Option Command
  | assemble source => some (.assemble source)
  | run => some .run
  | stop => some .stop
  | sleep timeout => some (.sleep timeout)
  | wakeUp => some .wakeUp
  | step => some .step
  | update elapsed => some (.update elapsed)
  | answer index text => asked[index]?.map fun ticket => .deliver ticket text

namespace Computer

/-- Carries out a call. -/
def attend (c : Computer) (asked : List Ticket) (call : Call) : Option (Reply Computer Answer) :=
  (call.command? asked).bind c.perform

/-- Carries out calls in order, with the tickets handed out so far, and gives the reply to
each of them. -/
def attendAll (c : Computer) (asked : List Ticket) :
    List Call → Option (List (Reply Computer Answer))
  | [] => some []
  | call :: calls =>
    (c.attend asked call).bind fun r =>
      (r.next.attendAll (asked ++ tickets r.notices) calls).map fun rs => r :: rs

end Computer

/-- Tickets with the same place in their runs, whose runs have the same number when the
first computer counts its runs from one number and the second from another. -/
structure Ticket.Renumbered (g g' : Nat) (t t' : Ticket) : Prop where
  /-- The runs correspond. -/
  generation : t.generation + g' = t'.generation + g
  /-- The places are the same. -/
  sequence : t.sequence = t'.sequence

/-- Corresponding tickets are equal where those that they correspond to are. -/
theorem Ticket.Renumbered.eq_iff {g g' : Nat} {t t' u u' : Ticket} (ht : t.Renumbered g g' t')
    (hu : u.Renumbered g g' u') : t = u ↔ t' = u' := by
  obtain ⟨generation, sequence⟩ := t
  obtain ⟨generation', sequence'⟩ := t'
  obtain ⟨hgeneration, hsequence⟩ := ht
  obtain ⟨hgenerationU, hsequenceU⟩ := hu
  dsimp only at hgeneration hsequence
  constructor
  · intro h
    subst h
    have hsame : generation' = u'.generation := by
      dsimp only at hgenerationU
      omega
    rw [hsame, ← hsequence]
    exact congrArg (Ticket.mk u'.generation) hsequenceU
  · intro h
    subst h
    have hsame : generation = u.generation := by
      dsimp only at hgenerationU
      omega
    rw [hsame, hsequence]
    exact congrArg (Ticket.mk u.generation) hsequenceU.symm

/-- Schedulers that differ in their clocks, and in the numbers of their runs by as much as
two given numbers do. -/
structure Scheduler.Renumbered (g g' : Nat) (s s' : Scheduler) : Prop where
  /-- They are in the same run state. -/
  state : s.state = s'.state
  /-- A timed sleep lasts as long in both. -/
  timeToWake : s.timeToWake = s'.timeToWake
  /-- The current runs correspond. -/
  generation : s.generation + g' = s'.generation + g
  /-- The current run has asked equally many questions. -/
  nextSequence : s.nextSequence = s'.nextSequence
  /-- The outstanding questions correspond. -/
  outstanding : Option.Rel (Ticket.Renumbered g g') s.outstanding s'.outstanding
  /-- Units of sleep have the same length. -/
  sleepUnit : s.sleepUnit = s'.sleepUnit

namespace Scheduler.Renumbered

variable {g g' : Nat} {s s' u u' : Scheduler} {t t' : Ticket}

/-- A new run leaves nothing of the last one but its number. -/
theorem start (hgeneration : s.generation + g' = s'.generation + g)
    (hsleepUnit : s.sleepUnit = s'.sleepUnit) : s.start.Renumbered g g' s'.start := by
  have hnext : s.generation + 1 + g' = s'.generation + 1 + g := by omega
  exact ⟨rfl, rfl, hnext, rfl, .none, hsleepUnit⟩

theorem stop (h : s.Renumbered g g' s') : s.stop.Renumbered g g' s'.stop :=
  ⟨rfl, rfl, h.generation, h.nextSequence, .none, h.sleepUnit⟩

/-- A sleep lasts as long from now, whatever the time is. -/
theorem sleep (h : s.Renumbered g g' s') {timeout : Option Nat}
    (hu : s.sleep timeout = some u) (hu' : s'.sleep timeout = some u') :
    u.Renumbered g g' u' := by
  have hleft (clock : Nat) :
      (timeout.map fun t => clock + t).map (fun moment => moment - clock) = timeout := by
    rw [Option.map_map]
    have hid : (fun moment => moment - clock) ∘ (fun t => clock + t) = id := by
      funext t
      simp only [Function.comp_apply, id_eq]
      omega
    rw [hid, Option.map_id_fun, id_eq]
  rw [eq_of_sleep hu, eq_of_sleep hu', h.state]
  split
  · exact h
  · exact ⟨rfl, (hleft s.clock).trans (hleft s'.clock).symm, h.generation, h.nextSequence,
      h.outstanding, h.sleepUnit⟩

theorem wakeUp (h : s.Renumbered g g' s') : s.wakeUp.Renumbered g g' s'.wakeUp := by
  rw [wakeUp_eq, wakeUp_eq, h.state]
  split
  · exact ⟨rfl, rfl, h.generation, h.nextSequence, .none, h.sleepUnit⟩
  · exact h

/-- The same time passes for both, and ends a sleep in both or in neither. -/
theorem advance (h : s.Renumbered g g' s') {elapsed : Nat} (hu : s.advance elapsed = some u)
    (hu' : s'.advance elapsed = some u') : u.Renumbered g g' u' := by
  have hleft (s : Scheduler) : Scheduler.timeToWake { s with clock := s.clock + elapsed } =
      s.timeToWake.map fun left => left - elapsed := by
    simp only [Scheduler.timeToWake, Option.map_map]
    congr 1
    funext moment
    simp only [Function.comp_apply]
    omega
  have hlater : Renumbered g g' { s with clock := s.clock + elapsed }
      { s' with clock := s'.clock + elapsed } := by
    refine ⟨h.state, ?_, h.generation, h.nextSequence, h.outstanding, h.sleepUnit⟩
    rw [hleft, hleft, h.timeToWake]
  rw [eq_of_advance hu, eq_of_advance hu', h.timeToWake]
  split
  · exact hlater.wakeUp
  · exact hlater

theorem nextTicket (h : s.Renumbered g g' s') :
    s.nextTicket.Renumbered g g' s'.nextTicket :=
  ⟨h.generation, h.nextSequence⟩

theorem awaitInput (h : s.Renumbered g g' s') :
    s.awaitInput.Renumbered g g' s'.awaitInput := by
  have hnext : s.nextSequence + 1 = s'.nextSequence + 1 := by rw [h.nextSequence]
  exact ⟨h.state, h.timeToWake, h.generation, hnext, .some h.nextTicket, h.sleepUnit⟩

theorem retire (h : s.Renumbered g g' s') : s.retire.Renumbered g g' s'.retire :=
  ⟨h.state, h.timeToWake, h.generation, h.nextSequence, .none, h.sleepUnit⟩

/-- Both are waiting for input, or neither is. -/
theorem isAwaitingInput (h : s.Renumbered g g' s') :
    s.isAwaitingInput = s'.isAwaitingInput := by
  have hquestion := h.outstanding
  unfold Scheduler.isAwaitingInput
  cases hs : s.outstanding <;> cases hs' : s'.outstanding <;> rw [hs, hs'] at hquestion <;>
    first | rfl | cases hquestion

/-- Corresponding tickets are taken alike, and refused for the same reason. -/
theorem checkTicket (h : s.Renumbered g g' s') (ht : t.Renumbered g g' t') :
    s.checkTicket t = s'.checkTicket t' := by
  have hcurrent : t.generation ≠ s.generation ↔ t'.generation ≠ s'.generation := by
    have hticket := ht.generation
    have hrun := h.generation
    omega
  have hquestion := h.outstanding
  unfold Scheduler.checkTicket
  by_cases hstale : t.generation ≠ s.generation
  · rw [if_pos hstale, if_pos (hcurrent.mp hstale)]
  · rw [if_neg hstale, if_neg (fun hne => hstale (hcurrent.mpr hne))]
    cases hs : s.outstanding with
    | none =>
      rw [hs] at hquestion
      cases hs' : s'.outstanding with
      | none => rfl
      | some asked' =>
        rw [hs'] at hquestion
        cases hquestion
    | some asked =>
      rw [hs] at hquestion
      cases hs' : s'.outstanding with
      | none =>
        rw [hs'] at hquestion
        cases hquestion
      | some asked' =>
        rw [hs'] at hquestion
        obtain ⟨hasked⟩ := hquestion
        dsimp only
        simp only [hasked.eq_iff ht]

end Scheduler.Renumbered

/-- An instruction cannot tell how many runs there have been, nor what the time is. -/
def Scheduler.Likeness.numbering (g g' : Nat) : Scheduler.Likeness where
  Like := Scheduler.Renumbered g g'
  Tickets := Ticket.Renumbered g g'
  state_eq := fun h => h.state
  sleepUnit_eq := fun h => h.sleepUnit
  sleep := fun h hu hu' => h.sleep hu hu'
  awaitInput := fun h => h.awaitInput
  nextTicket := fun h => h.nextTicket
  stop := fun h => h.stop

open Scheduler.Likeness (numbering)

namespace Computer

/-- Computers that a restart makes the same: they have the same program in memory, the same
random bytes to come, units of sleep of the same length, and have put out the same number
last. -/
structure SameProgram (c d : Computer) : Prop where
  /-- All cells are the same, and so is the end of the program. -/
  memory : c.machine.memory = d.machine.memory
  /-- The same is known about the program. -/
  artifacts : c.artifacts = d.artifacts
  /-- The random bytes to come are the same. -/
  generator : c.machine.generator = d.machine.generator
  /-- The number that was last put out is the same. -/
  latch : c.machine.latch = d.machine.latch
  /-- Units of sleep have the same length. -/
  sleepUnit : c.machine.scheduler.sleepUnit = d.machine.scheduler.sleepUnit

/-- Computers that run alike, with runs that are numbered differently. -/
structure Twin (g g' : Nat) (c d : Computer) : Prop where
  /-- The machines are equal, but for clocks and numbers of runs. -/
  machine : c.machine.Like (numbering g g') d.machine
  /-- The same is known about the program. -/
  artifacts : c.artifacts = d.artifacts

variable {c d : Computer} {g g' : Nat}

/-- Replies that leave twins with the same answer and corresponding notices. -/
abbrev TwinReplies {α : Type} (g g' : Nat) (r s : Reply Computer α) : Prop :=
  r.Like (Ticket.Renumbered g g') (Twin g g') s

/-- Starting two computers with the same program makes them twins, whatever they have done
before. -/
theorem SameProgram.run (h : c.SameProgram d)
    (hgeneration : c.machine.scheduler.generation + g' = d.machine.scheduler.generation + g) :
    TwinReplies g g' c.run d.run := by
  have hscheduler : (numbering g g').Like c.machine.scheduler.start d.machine.scheduler.start :=
    Scheduler.Renumbered.start hgeneration h.sleepUnit
  have hregisters : startRegisters c.machine.memory = startRegisters d.machine.memory := by
    rw [h.memory]
  have hnotices : c.run.notices = d.run.notices := by
    simp only [Computer.run, hregisters]
  refine ⟨rfl, ⟨⟨h.memory, hregisters, h.latch, h.generator, hscheduler⟩, h.artifacts⟩, ?_⟩
  rw [← hnotices]
  exact Notice.like_of_tickets_eq_nil rfl

namespace Twin

theorem sameProgram (h : Twin g g' c d) : c.SameProgram d :=
  ⟨h.machine.memory, h.artifacts, h.machine.generator, h.machine.latch,
    h.machine.scheduler.sleepUnit⟩

/-- Schedulers that differ in clocks and numbers of runs only keep twins alike. -/
theorem withScheduler (h : Twin g g' c d) {s s' : Scheduler} (hs : s.Renumbered g g' s') :
    Twin g g' (c.withScheduler s) (d.withScheduler s') :=
  ⟨⟨h.machine.memory, h.machine.registers, h.machine.latch, h.machine.generator, hs⟩,
    h.artifacts⟩

/-- Twins assemble a source alike. -/
theorem assemble (h : Twin g g' c d) (source : String) :
    TwinReplies g g' (c.assemble source) (d.assemble source) := by
  unfold Computer.assemble
  rw [h.machine.memory]
  cases d.machine.memory.assemble source with
  | mk memory result =>
    cases result with
    | ok artifacts =>
      exact ⟨rfl, ⟨⟨rfl, h.machine.registers, h.machine.latch, h.machine.generator,
        h.machine.scheduler⟩, rfl⟩, Notice.like_of_tickets_eq_nil rfl⟩
    | error error =>
      exact ⟨rfl, ⟨⟨rfl, h.machine.registers, h.machine.latch, h.machine.generator,
        h.machine.scheduler⟩, rfl⟩, Notice.like_of_tickets_eq_nil rfl⟩

/-- Twins execute an instruction alike. -/
theorem step (h : Twin g g' c d) {r s : Reply Computer (Except Fault Unit)}
    (hr : c.step = some r) (hs : d.step = some s) : TwinReplies g g' r s := by
  obtain ⟨r', hr', rfl⟩ := Option.map_eq_some_iff.mp hr
  obtain ⟨s', hs', rfl⟩ := Option.map_eq_some_iff.mp hs
  have hlike := h.machine.step hr' hs'
  exact ⟨hlike.answer, ⟨hlike.next, h.artifacts⟩, hlike.notices⟩

/-- Twins come through an update alike. -/
theorem update (h : Twin g g' c d) {elapsed : Nat} {r s : Reply Computer (Except Fault Bool)}
    (hr : c.update elapsed = some r) (hs : d.update elapsed = some s) :
    TwinReplies g g' r s := by
  obtain ⟨u, hu, hcases⟩ := update_cases hr
  obtain ⟨u', hu', hcases'⟩ := update_cases hs
  have hlater : u.Renumbered g g' u' := Scheduler.Renumbered.advance h.machine.scheduler hu hu'
  have htwin := h.withScheduler hlater
  rw [← hlater.state] at hcases'
  obtain ⟨hidle, rfl⟩ | ⟨hrunning, r', hr', rfl⟩ := hcases
  · obtain ⟨-, rfl⟩ | ⟨hrunning, -⟩ := hcases'
    · exact ⟨rfl, htwin, .nil⟩
    · exact absurd hrunning hidle
  · obtain ⟨hidle, -⟩ | ⟨-, s', hs', rfl⟩ := hcases'
    · exact absurd hrunning hidle
    · have hlike := htwin.machine.step hr' hs'
      refine ⟨?_, ⟨hlike.next, h.artifacts⟩, hlike.notices⟩
      rw [hlike.answer]

/-- Twins take, or refuse, answers to corresponding tickets alike. -/
theorem deliver (h : Twin g g' c d) {t t' : Ticket} (ht : t.Renumbered g g' t')
    (text : String) : TwinReplies g g' (c.deliver t text) (d.deliver t' text) := by
  have hscheduler : c.machine.scheduler.Renumbered g g' d.machine.scheduler :=
    h.machine.scheduler
  unfold Computer.deliver
  rw [hscheduler.checkTicket ht]
  cases d.machine.scheduler.checkTicket t' with
  | error e => exact ⟨rfl, h, .nil⟩
  | ok u =>
    dsimp only
    cases Text.typedByte? text with
    | none => exact ⟨rfl, h, .nil⟩
    | some value =>
      have hregisters : c.machine.registers.set .ra value = d.machine.registers.set .ra value := by
        rw [h.machine.registers]
      exact ⟨rfl, ⟨⟨h.machine.memory, hregisters, h.machine.latch, h.machine.generator,
        hscheduler.retire.wakeUp⟩, h.artifacts⟩, Notice.like_of_tickets_eq_nil rfl⟩

/-- A different form of the answers does not matter. -/
theorem mapAnswer {α : Type} {r s : Reply Computer α} (h : TwinReplies g g' r s)
    (f : α → Answer) : TwinReplies g g' (r.mapAnswer f) (s.mapAnswer f) :=
  ⟨congrArg f h.answer, h.next, h.notices⟩

/-- Twins reply alike to every call, as long as the tickets that they have handed out
correspond one by one. -/
theorem attend (h : Twin g g' c d) {asked asked' : List Ticket}
    (hasked : List.Forall₂ (Ticket.Renumbered g g') asked asked') {call : Call}
    {r s : Reply Computer Answer} (hr : c.attend asked call = some r)
    (hs : d.attend asked' call = some s) : TwinReplies g g' r s := by
  have hscheduler : c.machine.scheduler.Renumbered g g' d.machine.scheduler :=
    h.machine.scheduler
  cases call with
  | assemble source =>
    cases hr
    cases hs
    exact mapAnswer (h.assemble source) .assembled
  | run =>
    cases hr
    cases hs
    exact mapAnswer (h.sameProgram.run hscheduler.generation) _
  | stop =>
    cases hr
    cases hs
    exact ⟨rfl, h.withScheduler hscheduler.stop, .nil⟩
  | sleep timeout =>
    obtain ⟨r', hr', rfl⟩ := Option.map_eq_some_iff.mp hr
    obtain ⟨s', hs', rfl⟩ := Option.map_eq_some_iff.mp hs
    obtain ⟨u, hu, rfl⟩ := Option.map_eq_some_iff.mp hr'
    obtain ⟨u', hu', rfl⟩ := Option.map_eq_some_iff.mp hs'
    exact ⟨rfl, h.withScheduler (hscheduler.sleep hu hu'), .nil⟩
  | wakeUp =>
    cases hr
    cases hs
    exact ⟨rfl, h.withScheduler hscheduler.wakeUp, .nil⟩
  | step =>
    obtain ⟨r', hr', rfl⟩ := Option.map_eq_some_iff.mp hr
    obtain ⟨s', hs', rfl⟩ := Option.map_eq_some_iff.mp hs
    exact mapAnswer (h.step hr' hs') .stepped
  | update elapsed =>
    obtain ⟨r', hr', rfl⟩ := Option.map_eq_some_iff.mp hr
    obtain ⟨s', hs', rfl⟩ := Option.map_eq_some_iff.mp hs
    exact mapAnswer (h.update hr' hs') .updated
  | answer index text =>
    obtain ⟨command, hcommand, hr⟩ := Option.bind_eq_some_iff.mp hr
    obtain ⟨command', hcommand', hs⟩ := Option.bind_eq_some_iff.mp hs
    obtain ⟨t, ht, rfl⟩ := Option.map_eq_some_iff.mp hcommand
    obtain ⟨t', ht', rfl⟩ := Option.map_eq_some_iff.mp hcommand'
    cases hr
    cases hs
    obtain ⟨hlt, rfl⟩ := List.getElem?_eq_some_iff.mp ht
    obtain ⟨hlt', rfl⟩ := List.getElem?_eq_some_iff.mp ht'
    have hticket : asked[index].Renumbered g g' asked'[index] := hasked.get hlt hlt'
    exact mapAnswer (h.deliver hticket text) .delivered

/-- Twins reply alike to a whole series of calls. -/
theorem attendAll (h : Twin g g' c d) {asked asked' : List Ticket}
    (hasked : List.Forall₂ (Ticket.Renumbered g g') asked asked') {calls : List Call}
    {rs ss : List (Reply Computer Answer)} (hr : c.attendAll asked calls = some rs)
    (hs : d.attendAll asked' calls = some ss) : List.Forall₂ (TwinReplies g g') rs ss := by
  induction calls generalizing c d asked asked' rs ss with
  | nil =>
    cases hr
    cases hs
    exact .nil
  | cons call calls ih =>
    obtain ⟨r, hfirst, hrest⟩ := Option.bind_eq_some_iff.mp hr
    obtain ⟨rs', hrs, rfl⟩ := Option.map_eq_some_iff.mp hrest
    obtain ⟨s, hfirst', hrest'⟩ := Option.bind_eq_some_iff.mp hs
    obtain ⟨ss', hss, rfl⟩ := Option.map_eq_some_iff.mp hrest'
    have hreply := h.attend hasked hfirst hfirst'
    have htickets := List.rel_append hasked (Notice.tickets_of_like hreply.notices)
    exact .cons hreply (ih hreply.next htickets hrs hss)

end Twin

/-- Replies that a front end can tell apart by nothing but the numbers of runs in tickets. -/
structure Indistinct (g g' : Nat) (r s : Reply Computer Answer) : Prop where
  /-- The answers are the same. -/
  answer : r.answer = s.answer
  /-- The notices are the same, one by one, with corresponding tickets. -/
  notices : List.Forall₂ (Notice.Like (Ticket.Renumbered g g')) r.notices s.notices
  /-- The program is in the same run state. -/
  state : r.next.state = s.next.state
  /-- A timed sleep lasts as long. -/
  timeToWake : r.next.timeToWake = s.next.timeToWake
  /-- The program waits for input in both or in neither. -/
  isAwaitingInput : r.next.isAwaitingInput = s.next.isAwaitingInput
  /-- The registers are the same. -/
  registers : r.next.machine.registers = s.next.machine.registers
  /-- Memory is the same. -/
  memory : r.next.machine.memory = s.next.machine.memory
  /-- The number in the output latch is the same. -/
  latch : r.next.machine.latch = s.next.machine.latch

/-- Replies that leave twins are indistinct. -/
theorem indistinct_of_twinReplies {r s : Reply Computer Answer} (h : TwinReplies g g' r s) :
    Indistinct g g' r s :=
  have hscheduler : r.next.machine.scheduler.Renumbered g g' s.next.machine.scheduler :=
    h.next.machine.scheduler
  ⟨h.answer, h.notices, hscheduler.state, hscheduler.timeToWake, hscheduler.isAwaitingInput,
    h.next.machine.registers, h.next.machine.memory, h.next.machine.latch⟩

/-- A restart leaves nothing of earlier runs. Computers with the same program, whatever
their registers, their run states, clocks, timers and questions and the numbers of their
runs, reply alike to a start and to any calls after it: the same answers, the same notices,
the same run states and times left. The questions that they ask correspond one by one, with
the same places in their runs. -/
theorem run_leaves_no_residue (h : c.SameProgram d) {calls : List Call}
    {rs ss : List (Reply Computer Answer)} (hr : c.attendAll [] (.run :: calls) = some rs)
    (hs : d.attendAll [] (.run :: calls) = some ss) :
    List.Forall₂
        (Indistinct c.machine.scheduler.generation d.machine.scheduler.generation) rs ss ∧
      List.Forall₂
        (Ticket.Renumbered c.machine.scheduler.generation d.machine.scheduler.generation)
        (rs.flatMap fun r => tickets r.notices) (ss.flatMap fun s => tickets s.notices) := by
  obtain ⟨r, hfirst, hrest⟩ := Option.bind_eq_some_iff.mp hr
  obtain ⟨rs', hrs, rfl⟩ := Option.map_eq_some_iff.mp hrest
  obtain ⟨s, hfirst', hrest'⟩ := Option.bind_eq_some_iff.mp hs
  obtain ⟨ss', hss, rfl⟩ := Option.map_eq_some_iff.mp hrest'
  cases hfirst
  cases hfirst'
  have hstart := Twin.mapAnswer (h.run (Nat.add_comm _ _)) fun _ => Answer.done
  have hlater := hstart.next.attendAll (Notice.tickets_of_like hstart.notices) hrs hss
  have hall := List.Forall₂.cons hstart hlater
  constructor
  · exact hall.imp fun _ _ hreply => indistinct_of_twinReplies hreply
  · exact List.rel_flatMap hall fun _ _ hreply => Notice.tickets_of_like hreply.notices

/-- A new computer with a program that asks for a byte and puts it out. -/
def fresh : Computer where
  machine := {
    memory := ⟨[19, 0, 20, 1], 4, by decide, by decide, by decide⟩
    scheduler := { sleepUnit := 0 }
    generator := { key := 0 } }
  settings := { memorySize := 4 }
  artifacts := some ⟨[], [(1, 0), (2, 2)], 4⟩

/-- A computer with that program that waits for its fourth byte in its seventh run, and has
been suspended for a while by someone else. -/
def used : Computer where
  machine := {
    fresh.machine with
    registers := { ra := 42, pc := 2, sp := 1, ret := 9, z := 1, c := 1 }
    scheduler := {
      state := .sleeping, clock := 40, wakeAt := some 50, generation := 7, nextSequence := 4
      outstanding := some ⟨7, 3⟩, sleepUnit := 0 } }
  settings := { memorySize := 4, stepIntervalMs := 1 }
  artifacts := fresh.artifacts

/-- A start and a restart, with an answer in time, one that is too late, and one that comes
while the program is suspended for a while. -/
def conversation : List Call :=
  [.run, .step, .answer 0 "2A", .step, .run, .step, .answer 0 "07", .sleep (some 5), .update 4,
    .answer 1 "07", .step]

/-- Both computers come through that conversation alike, with the tickets of their own
runs. -/
theorem used_leaves_no_residue : ∃ rs ss, fresh.attendAll [] conversation = some rs ∧
    used.attendAll [] conversation = some ss ∧ List.Forall₂ (Indistinct 0 7) rs ss ∧
    (rs.flatMap fun r => tickets r.notices) = [⟨1, 0⟩, ⟨2, 0⟩] ∧
    (ss.flatMap fun s => tickets s.notices) = [⟨8, 0⟩, ⟨9, 0⟩] := by
  have hfresh : (fresh.attendAll [] conversation).map
      (fun rs => rs.flatMap fun r => tickets r.notices) = some [⟨1, 0⟩, ⟨2, 0⟩] := by
    decide +kernel
  have hused : (used.attendAll [] conversation).map
      (fun ss => ss.flatMap fun s => tickets s.notices) = some [⟨8, 0⟩, ⟨9, 0⟩] := by
    decide +kernel
  obtain ⟨rs, hr, htickets⟩ := Option.map_eq_some_iff.mp hfresh
  obtain ⟨ss, hs, htickets'⟩ := Option.map_eq_some_iff.mp hused
  have hsame : fresh.SameProgram used := ⟨rfl, rfl, rfl, rfl, rfl⟩
  obtain ⟨hreplies, -⟩ := run_leaves_no_residue hsame hr hs
  exact ⟨rs, ss, hr, hs, hreplies, htickets, htickets'⟩

end Computer

end ByteMachine
