import ByteMachine.Proofs.Scheduler.Clock
import ByteMachine.Proofs.Scheduler.Consistency

/-!
# A stopped computer waits for its next run

However a run has ended, its timer and its question have ended with it. So nothing is left
that could set the program going, and until the next assembly or run every command only
lets its time pass: nothing is executed or announced, no answer is taken, and the next run
finds no timer.
-/

namespace ByteMachine

/-- Whether a command neither loads a program nor starts one. -/
def Command.isPassive : Command → Bool
  | .assemble _ | .run => false
  | _ => true

/-- How much time passes with a command. -/
def Command.elapsed : Command → Nat
  | .update elapsed => elapsed
  | _ => 0

/-- A stopped scheduler in which nothing is left of any run. -/
structure Scheduler.AtRest (s : Scheduler) : Prop where
  /-- No program runs. -/
  stopped : s.state = .stopped
  /-- There is no timer. -/
  timer : s.wakeAt = none
  /-- There is no question. -/
  question : s.outstanding = none

namespace Scheduler

variable {s : Scheduler} {elapsed : Nat}

/-- The scheduler when some time has passed and nothing else has happened. -/
def later (s : Scheduler) (elapsed : Nat) : Scheduler := { s with clock := s.clock + elapsed }

theorem later_later (s : Scheduler) (elapsed elapsed' : Nat) :
    (s.later elapsed).later elapsed' = s.later (elapsed + elapsed') := by
  unfold later
  rw [Nat.add_assoc]

namespace AtRest

theorem later (h : s.AtRest) (elapsed : Nat) : (s.later elapsed).AtRest :=
  ⟨h.stopped, h.timer, h.question⟩

/-- No program can be stopped. -/
theorem stop_eq (h : s.AtRest) : s.stop = s := by
  obtain ⟨state, clock, wakeAt, generation, nextSequence, outstanding, sleepUnit⟩ := s
  obtain ⟨rfl, rfl, rfl⟩ := h
  rfl

/-- No program can be suspended. -/
theorem sleep_eq (h : s.AtRest) (timeout : Option Nat) : s.sleep timeout = some s := by
  unfold sleep
  rw [h.stopped]

/-- No program can be woken. -/
theorem wakeUp_eq (h : s.AtRest) : s.wakeUp = s := by
  unfold wakeUp
  rw [h.stopped]

/-- No answer is taken. -/
theorem checkTicket_eq (h : s.AtRest) (t : Ticket) :
    s.checkTicket t = .error (if t.generation = s.generation then .notAwaiting else .stale) := by
  unfold checkTicket
  rw [h.question]
  by_cases hgeneration : t.generation = s.generation
  · rw [if_neg (not_not_intro hgeneration), if_pos hgeneration]
  · rw [if_pos hgeneration, if_neg hgeneration]

/-- Time passes, and no sleep ends. -/
theorem advance_eq (h : s.AtRest) (hfits : s.clock + elapsed ≤ lastMoment) :
    s.advance elapsed = some (s.later elapsed) := by
  have hnow : s.moment? elapsed = some (s.clock + elapsed) := if_pos hfits
  have hlater : (s.later elapsed).isDue = false := by
    unfold isDue
    rw [(h.later elapsed).stopped]
  rw [advance, hnow, Option.map_some]
  exact congrArg some (if_neg (Bool.eq_false_iff.mp hlater))

end AtRest

end Scheduler

namespace Computer

variable {c : Computer}

/-- The computer when some time has passed and nothing else has happened. -/
def later (c : Computer) (elapsed : Nat) : Computer :=
  c.withScheduler (c.machine.scheduler.later elapsed)

/-- What a stopped computer answers to a command that is passive. -/
def idleAnswer (c : Computer) : Command → Answer
  | .step => .stepped (.ok ())
  | .update _ => .updated (.ok false)
  | .deliver ticket _ =>
    .delivered (.error
      (if ticket.generation = c.machine.scheduler.generation then .notAwaiting else .stale))
  | _ => .done

theorem later_later (c : Computer) (elapsed elapsed' : Nat) :
    (c.later elapsed).later elapsed' = c.later (elapsed + elapsed') :=
  congrArg c.withScheduler (c.machine.scheduler.later_later elapsed elapsed')

/-- Time that passes does not change the answers. -/
theorem idleAnswer_later (c : Computer) (elapsed : Nat) :
    (c.later elapsed).idleAnswer = c.idleAnswer := by
  funext command
  cases command <;> rfl

/-- A stopped computer that can be reached is at rest, whatever has stopped it. -/
theorem Reachable.atRest (hc : c.Reachable) (hstopped : c.state = .stopped) :
    c.machine.scheduler.AtRest := by
  have hawake : c.machine.scheduler.state ≠ .sleeping := by
    rw [show c.machine.scheduler.state = .stopped from hstopped]
    exact nofun
  obtain ⟨htimer, hquestion⟩ := hc.consistent.none_of_awake hawake
  exact ⟨hstopped, htimer, hquestion⟩

/-- At rest, a passive command has a reply exactly if its time can pass, and does nothing
but let it pass. -/
theorem perform_of_atRest (h : c.machine.scheduler.AtRest)
    (hclock : c.machine.scheduler.clock ≤ lastMoment) {command : Command}
    (hpassive : command.isPassive = true) :
    c.perform command =
      if c.machine.scheduler.clock + command.elapsed ≤ lastMoment
      then some ⟨c.idleAnswer command, c.later command.elapsed, []⟩ else none := by
  have hidle : c.machine.scheduler.state ≠ .running := by
    rw [h.stopped]
    exact nofun
  -- no other command than an update takes time
  have hnow {timeless : Command} (htime : timeless.elapsed = 0) {r : Reply Computer Answer} :
      (if c.machine.scheduler.clock + timeless.elapsed ≤ lastMoment then some r else none) =
        some r := by
    have hfits : c.machine.scheduler.clock + timeless.elapsed ≤ lastMoment := by
      rw [htime]
      exact hclock
    exact if_pos hfits
  cases command with
  | assemble source => cases hpassive
  | run => cases hpassive
  | stop =>
    rw [hnow rfl, perform, stop, h.stop_eq]
    rfl
  | sleep timeout =>
    rw [hnow rfl, perform, sleep, h.sleep_eq]
    rfl
  | wakeUp =>
    rw [hnow rfl, perform, wakeUp, h.wakeUp_eq]
    rfl
  | step =>
    rw [hnow rfl, perform, step, Machine.step_of_not_running hidle]
    rfl
  | update elapsed =>
    rw [Command.elapsed, perform, update]
    split
    · rename_i hfits
      rw [h.advance_eq hfits, Option.bind_some]
      exact congrArg _ (if_neg hidle)
    · rename_i hlate
      rw [Scheduler.advance_eq_none_iff.mpr (Nat.not_le.mp hlate)]
      rfl
  | deliver ticket text =>
    rw [hnow rfl, perform, deliver, h.checkTicket_eq]
    rfl

/-- At rest, a history of passive commands has a reply exactly if all its time can pass,
and does nothing but let it pass. -/
theorem performAll_of_atRest (h : c.machine.scheduler.AtRest)
    (hclock : c.machine.scheduler.clock ≤ lastMoment) {commands : List Command}
    (hpassive : ∀ command ∈ commands, command.isPassive = true) :
    c.performAll commands =
      if c.machine.scheduler.clock + (commands.map Command.elapsed).sum ≤ lastMoment
      then some ⟨commands.map c.idleAnswer, c.later (commands.map Command.elapsed).sum, []⟩
      else none := by
  induction commands generalizing c with
  | nil =>
    have hnow : c.machine.scheduler.clock + 0 ≤ lastMoment := hclock
    rw [List.map_nil, List.sum_nil, if_pos hnow]
    rfl
  | cons command commands ih =>
    have hfirst := perform_of_atRest h hclock (hpassive command List.mem_cons_self)
    rw [performAll, hfirst, List.map_cons, List.sum_cons, List.map_cons]
    by_cases hfits : c.machine.scheduler.clock + command.elapsed ≤ lastMoment
    · -- the computer is at rest afterwards, and its clock has moved on
      have hrest := ih (c := c.later command.elapsed) (h.later _) hfits
        fun command hmem => hpassive command (List.mem_cons_of_mem _ hmem)
      have hsum : (c.later command.elapsed).machine.scheduler.clock =
          c.machine.scheduler.clock + command.elapsed := rfl
      rw [if_pos hfits, Option.bind_some, hrest, hsum, idleAnswer_later, later_later,
        Nat.add_assoc]
      split <;> rfl
    · have hlate : ¬c.machine.scheduler.clock +
          (command.elapsed + (commands.map Command.elapsed).sum) ≤ lastMoment := by
        omega
      rw [if_neg hfits, if_neg hlate]
      rfl

/-- A history that leaves a stopped computer as it is, but for its clock. -/
structure Undisturbed (c : Computer) (commands : List Command)
    (r : Reply Computer (List Answer)) : Prop where
  /-- Nothing is announced. -/
  notices : r.notices = []
  /-- No program runs. -/
  stopped : r.next.state = .stopped
  /-- The registers are the same. -/
  registers : r.next.machine.registers = c.machine.registers
  /-- Memory is the same. -/
  memory : r.next.machine.memory = c.machine.memory
  /-- What has been put out is the same. -/
  latch : r.next.machine.latch = c.machine.latch
  /-- The random generator has not moved. -/
  generator : r.next.machine.generator = c.machine.generator
  /-- The report on the program is the same. -/
  artifacts : r.next.artifacts = c.artifacts
  /-- No update executes an instruction. -/
  updates : ∀ (k : Nat) elapsed, commands[k]? = some (.update elapsed) →
    r.answer[k]? = some (.updated (.ok false))
  /-- No answer is taken. -/
  deliveries : ∀ (k : Nat) ticket text, commands[k]? = some (.deliver ticket text) →
    ∃ e, r.answer[k]? = some (.delivered (.error e))
  /-- There is no timer. -/
  timer : r.next.timeToWake = none
  /-- There is no question. -/
  question : r.next.isAwaitingInput = false
  /-- The next run begins without a timer. -/
  restart : r.next.run.next.timeToWake = none

/-- Nothing but time passes at rest. -/
theorem undisturbed_later (h : c.machine.scheduler.AtRest) (commands : List Command)
    (elapsed : Nat) : c.Undisturbed commands ⟨commands.map c.idleAnswer, c.later elapsed, []⟩ where
  notices := rfl
  stopped := h.stopped
  registers := rfl
  memory := rfl
  latch := rfl
  generator := rfl
  artifacts := rfl
  updates k elapsed hk := by
    rw [List.getElem?_map, hk]
    rfl
  deliveries k ticket text hk := by
    rw [List.getElem?_map, hk]
    exact ⟨_, rfl⟩
  timer := by
    rw [timeToWake, Scheduler.timeToWake, later, withScheduler, (h.later _).timer,
      Option.map_none]
  question := by
    rw [isAwaitingInput, Scheduler.isAwaitingInput, later, withScheduler, (h.later _).question,
      Option.isSome_none]
  restart := rfl

/-- A computer that can be reached and is stopped, however it has come to that, stays
stopped until the next assembly or run. All other commands have replies exactly as long as
the clock does not pass its last moment, and they leave everything but the clock as it is. -/
theorem stopped_is_absorbing (hc : c.Reachable) (hstopped : c.state = .stopped)
    {commands : List Command} (hpassive : ∀ command ∈ commands, command.isPassive = true) :
    c.performAll commands =
        (if c.machine.scheduler.clock + (commands.map Command.elapsed).sum ≤ lastMoment
        then some ⟨commands.map c.idleAnswer, c.later (commands.map Command.elapsed).sum, []⟩
        else none) ∧
      ∀ r, c.performAll commands = some r → c.Undisturbed commands r := by
  have hrest := hc.atRest hstopped
  have heq := performAll_of_atRest hrest hc.clock_le hpassive
  refine ⟨heq, ?_⟩
  intro r hr
  rw [heq] at hr
  split at hr
  · cases hr
    exact undisturbed_later hrest commands _
  · cases hr

/-- A program that is stopped while it waits for a byte and a timer runs as well. -/
def cutShort : List Command :=
  [.assemble "IN 00", .run, .step, .sleep (some 5), .stop]

/-- What might wake it up again: its timer, its question, or a call. -/
def wakeUpCalls : List Command :=
  [.update 7, .deliver ⟨1, 0⟩ "2A", .wakeUp, .sleep (some 3), .update 3, .step]

/-- The program stays stopped, and its question is refused. -/
theorem cutShort_stays_stopped : ∃ c r s, ofSettings { memorySize := 2 } 0 = .ok c ∧
    c.performAll cutShort = some r ∧ r.next.performAll wakeUpCalls = some s ∧
    s.next.state = .stopped ∧ s.next.machine.scheduler.clock = 10 ∧ s.notices = [] ∧
    s.answer = [.updated (.ok false), .delivered (.error .notAwaiting), .done, .done,
      .updated (.ok false), .stepped (.ok ())] ∧
    s.next.run.next.timeToWake = none := by
  refine ⟨_, _, _, rfl, rfl, rfl, ?_⟩
  have hreachable := Reachable.performAll
    (.built (rfl : ofSettings { memorySize := 2 } 0 = .ok _))
    (rfl : Computer.performAll _ cutShort = some _)
  have hpassive : ∀ command ∈ wakeUpCalls, command.isPassive = true := by decide
  have hkept := (stopped_is_absorbing hreachable rfl hpassive).2
  have hundisturbed := hkept _ rfl
  exact ⟨hundisturbed.stopped, rfl, hundisturbed.notices, rfl, hundisturbed.restart⟩

end Computer

end ByteMachine
