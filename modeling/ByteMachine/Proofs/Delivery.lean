import ByteMachine.Proofs.Scheduler.Consistency

/-!
# Answers that are taken or refused as a whole

An answer names a ticket and brings a text. The ticket is judged first, and only for the one
that is outstanding the text is read. An answer that is refused leaves no trace at all, so
the question stays open for the next one. An answer that is taken finds the program
suspended, because only then can a question be outstanding: it sets the accumulator and the
program going, ends a timer, and does nothing else.
-/

namespace ByteMachine

/-- The byte that the text of an answer stands for, or that it stands for none. -/
def readAnswer (text : String) : Except InputError UInt8 :=
  match Text.typedByte? text with
  | none => .error (.invalidHex text)
  | some value => .ok value

namespace Scheduler

variable {s : Scheduler} {ticket : Ticket} {text : String}

/-- What becomes of an answer: it is refused for a reason, or taken as a byte. A ticket that
is of another run or not the outstanding one is stale, whatever the text is. -/
def verdict (s : Scheduler) (ticket : Ticket) (text : String) : Except InputError UInt8 :=
  if ticket.generation ≠ s.generation ∨ s.outstanding.any (· ≠ ticket) = true then
    .error .stale
  else if s.outstanding = none then .error .notAwaiting
  else readAnswer text

/-- The scheduler when an answer to this ticket has been taken. -/
def accept (s : Scheduler) (ticket : Ticket) : Except InputError Scheduler :=
  (s.checkTicket ticket).map fun _ => s.retire

/-- The text is read where the ticket passes. -/
theorem verdict_eq (s : Scheduler) (ticket : Ticket) (text : String) :
    s.verdict ticket text = (s.checkTicket ticket).bind fun _ => readAnswer text := by
  unfold verdict checkTicket
  by_cases hgeneration : ticket.generation = s.generation
  · cases hasked : s.outstanding with
    | none => simp [hgeneration, Except.bind]
    | some asked => by_cases heq : asked = ticket <;> simp [hgeneration, heq, Except.bind]
  · simp [hgeneration, Except.bind]

/-- What is taken is the byte of the text, for a ticket that passes. -/
theorem verdict_eq_ok_iff {value : UInt8} :
    s.verdict ticket text = .ok value ↔
      s.checkTicket ticket = .ok () ∧ Text.typedByte? text = some value := by
  rw [verdict_eq]
  cases s.checkTicket ticket with
  | error e => simp [Except.bind]
  | ok u =>
    unfold readAnswer
    cases Text.typedByte? text <;> simp [Except.bind]

end Scheduler

namespace Computer

variable {c : Computer}

/-- The computer when a byte has been taken as the answer to its question. -/
def answered (c : Computer) (value : UInt8) : Computer :=
  { c with machine := { c.machine with
      registers := { c.machine.registers with ra := value }
      scheduler := { c.machine.scheduler with
        state := .running, wakeAt := none, outstanding := none } } }

/-- Nothing changes if the ticket is checked once more when the text has been read. -/
theorem deliver_eq_rechecked (c : Computer) (ticket : Ticket) (text : String) :
    c.deliver ticket text =
      match c.machine.scheduler.verdict ticket text with
      | .error e => ⟨.error e, c, []⟩
      | .ok value =>
        match c.machine.scheduler.accept ticket with
        | .error e => ⟨.error e, c, []⟩
        | .ok s =>
          ⟨.ok (), { c with machine := { c.machine with
            registers := c.machine.registers.set .ra value, scheduler := s.wakeUp } },
            [.register .ra value]⟩ := by
  rw [deliver, Scheduler.verdict_eq, Scheduler.accept]
  cases c.machine.scheduler.checkTicket ticket with
  | error e => rfl
  | ok u =>
    unfold readAnswer
    cases Text.typedByte? text <;> rfl

/-- An answer that is taken finds the program suspended, and sets it going. -/
theorem deliver_of_verdict (hc : c.Reachable) (ticket : Ticket) (text : String) :
    c.deliver ticket text =
      match c.machine.scheduler.verdict ticket text with
      | .error e => ⟨.error e, c, []⟩
      | .ok value => ⟨.ok (), c.answered value, [.register .ra value]⟩ := by
  rw [deliver_eq_rechecked]
  cases hverdict : c.machine.scheduler.verdict ticket text with
  | error e => rfl
  | ok value =>
    have hcheck := (Scheduler.verdict_eq_ok_iff.mp hverdict).1
    have haccept : c.machine.scheduler.accept ticket = .ok c.machine.scheduler.retire := by
      rw [Scheduler.accept, hcheck, Except.map]
    have hwoken :=
      Scheduler.retire_wakeUp_of_sleeping (hc.consistent.sleeping_of_checkTicket hcheck)
    rw [haccept]
    dsimp only
    rw [hwoken]
    rfl

/-- Whatever the history, an answer does what the verdict on it says, and no more. It is
stale if its ticket is of another run, or if another one is outstanding; otherwise not
awaited if no ticket is outstanding; otherwise no byte if its text is none; and for each of
these reasons it is refused with the whole computer as it was and without a notice. In the
one case that is left the accumulator becomes the byte, which is announced, timer and question
are gone, and the program runs. So a question survives every answer that is refused: the next
good one is taken. -/
theorem deliver_judges_ticket_first (hc : c.Reachable) (ticket : Ticket) (text : String) :
    (c.deliver ticket text =
      match c.machine.scheduler.verdict ticket text with
      | .error e => ⟨.error e, c, []⟩
      | .ok value => ⟨.ok (), c.answered value, [.register .ra value]⟩) ∧
    ∀ asked good value, c.machine.scheduler.outstanding = some asked →
      Text.typedByte? good = some value → (c.deliver ticket text).answer ≠ .ok () →
      (c.deliver ticket text).next.deliver asked good =
        ⟨.ok (), c.answered value, [.register .ra value]⟩ := by
  refine ⟨deliver_of_verdict hc ticket text, ?_⟩
  intro asked good value hasked hgood hrefused
  have hsame : (c.deliver ticket text).next = c := by
    rw [deliver_of_verdict hc ticket text] at hrefused ⊢
    cases hverdict : c.machine.scheduler.verdict ticket text with
    | error e => rfl
    | ok value =>
      rw [hverdict] at hrefused
      exact absurd rfl hrefused
  have hgeneration := (hc.consistent.question asked hasked).2.1
  have hverdict : c.machine.scheduler.verdict asked good = .ok value :=
    Scheduler.verdict_eq_ok_iff.mpr
      ⟨Scheduler.checkTicket_eq_ok_iff.mpr ⟨hgeneration, hasked⟩, hgood⟩
  rw [hsame, deliver_of_verdict hc, hverdict]

/-- A suspended program with a timer and a question refuses a ticket of another run and a
text that is no byte, and takes the answer that comes then. -/
theorem suspending_judges_ticket_first : ∃ c r, ofSettings { memorySize := 2 } 0 = .ok c ∧
    c.performAll suspending = some r ∧
    r.next.deliver ⟨0, 0⟩ "2A" = ⟨.error .stale, r.next, []⟩ ∧
    r.next.deliver ⟨1, 0⟩ "2G" = ⟨.error (.invalidHex "2G"), r.next, []⟩ ∧
    (r.next.deliver ⟨1, 0⟩ "2G").next.deliver ⟨1, 0⟩ "2A" =
      ⟨.ok (), r.next.answered 0x2A, [.register .ra 0x2A]⟩ := by
  obtain ⟨c, r, hc, hr, hstale, hinvalid, hasked⟩ :
      ∃ c r, ofSettings { memorySize := 2 } 0 = .ok c ∧ c.performAll suspending = some r ∧
        r.next.machine.scheduler.verdict ⟨0, 0⟩ "2A" = .error .stale ∧
        r.next.machine.scheduler.verdict ⟨1, 0⟩ "2G" = .error (.invalidHex "2G") ∧
        r.next.machine.scheduler.outstanding = some ⟨1, 0⟩ :=
    ⟨_, _, rfl, rfl, rfl, rfl, rfl⟩
  have hreachable := (Reachable.built hc).performAll hr
  have hold := (deliver_judges_ticket_first hreachable ⟨0, 0⟩ "2A").1
  obtain ⟨hbad, hsurvives⟩ := deliver_judges_ticket_first hreachable ⟨1, 0⟩ "2G"
  rw [hstale] at hold
  rw [hinvalid] at hbad
  have hrefused : (r.next.deliver ⟨1, 0⟩ "2G").answer ≠ .ok () := by
    rw [hbad]
    exact nofun
  exact ⟨c, r, hc, hr, hold, hbad, hsurvives ⟨1, 0⟩ "2A" 0x2A hasked rfl hrefused⟩

end Computer

end ByteMachine
