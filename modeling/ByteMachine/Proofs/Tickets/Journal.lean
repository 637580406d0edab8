import ByteMachine.Computer.Command
import ByteMachine.Proofs.Machine.Scheduling

/-!
# Journals of questions

A journal records what a history of commands has done about questions: which tickets were
handed out and which were answered, and every run, stop and waking in between. It is kept
beside the computer and read off what the commands show to the outside. A ticket is live
in a journal if it is the last one that was handed out and nothing since has put an end
to it.
-/

namespace ByteMachine

/-- What may happen around a question. -/
inductive Event where
  /-- A question is asked and its ticket handed out. -/
  | issued (ticket : Ticket)
  /-- An answer to this ticket is taken. -/
  | answered (ticket : Ticket)
  /-- An answer to this ticket is refused. -/
  | refused (ticket : Ticket)
  /-- Someone wakes the program, or a timed sleep is over. -/
  | woken
  /-- Someone stops the program, or an instruction does. -/
  | stopped
  /-- A run begins. -/
  | started
  /-- Someone suspends the program. -/
  | suspended
  /-- A source is assembled, or refused. -/
  | assembled
  deriving DecidableEq, Repr

/-- Whether an event puts an end to the question that was asked before it. -/
def Event.ends : Event → Bool
  | issued _ | answered _ | woken | stopped | started => true
  | refused _ | suspended | assembled => false

/-- The ticket that an event hands out. -/
def Event.issued? : Event → Option Ticket
  | issued ticket => some ticket
  | _ => none

/-- The ticket that an event takes an answer to. -/
def Event.answered? : Event → Option Ticket
  | answered ticket => some ticket
  | _ => none

/-- The tickets that were handed out, in order. -/
def issuedTickets (journal : List Event) : List Ticket := journal.filterMap Event.issued?

/-- The tickets that were answered, in order. -/
def answeredTickets (journal : List Event) : List Ticket := journal.filterMap Event.answered?

/-- A ticket that was handed out in a journal, with nothing behind it that ends it. -/
def Live (journal : List Event) (ticket : Ticket) : Prop :=
  ∃ earlier later, journal = earlier ++ .issued ticket :: later ∧
    ∀ e ∈ later, e.ends = false

namespace Computer

/-- The events of an instruction: the tickets that it hands out, and the end of the run. -/
def instructionEvents (before after : RunState) (notices : List Notice) : List Event :=
  (tickets notices).map .issued ++
    if before ≠ .stopped ∧ after = .stopped then [.stopped] else []

/-- Whether a timed sleep is over once this much time has passed. -/
def expires (c : Computer) (elapsed : Nat) : Bool := c.timeToWake.any fun left => left ≤ elapsed

/-- The events of a command, given the computer and the reply. -/
def events (c : Computer) (command : Command) (r : Reply Computer Answer) : List Event :=
  match command with
  | .assemble _ => [.assembled]
  | .run => [.started]
  | .stop => [.stopped]
  | .sleep _ => [.suspended]
  | .wakeUp => [.woken]
  | .step => instructionEvents c.state r.next.state r.notices
  | .update elapsed =>
    (if c.expires elapsed then [.woken] else []) ++
      instructionEvents c.state r.next.state r.notices
  | .deliver ticket _ =>
    match r.answer with
    | .delivered (.ok ()) => [.answered ticket]
    | _ => [.refused ticket]

/-- The journal of commands that are carried out in order, up to one without a reply. -/
def journal (c : Computer) : List Command → List Event
  | [] => []
  | command :: commands =>
    match c.perform command with
    | some r => c.events command r ++ r.next.journal commands
    | none => []

end Computer

theorem issuedTickets_append (journal later : List Event) :
    issuedTickets (journal ++ later) = issuedTickets journal ++ issuedTickets later :=
  List.filterMap_append

theorem answeredTickets_append (journal later : List Event) :
    answeredTickets (journal ++ later) = answeredTickets journal ++ answeredTickets later :=
  List.filterMap_append

/-- What ends nothing hands out nothing and answers nothing. -/
theorem Event.eq_none_of_not_ends {e : Event} (h : e.ends = false) :
    e.issued? = none ∧ e.answered? = none := by
  cases e <;> first | exact ⟨rfl, rfl⟩ | cases h

namespace Live

variable {journal : List Event} {ticket : Ticket} {e : Event}

/-- Nothing is live in an empty journal. -/
theorem not_nil : ¬Live [] ticket := by
  rintro ⟨earlier, later, h, -⟩
  cases earlier <;> cases h

/-- A ticket is live behind an event if it is handed out there, or if it was live before
and the event does not end it. -/
theorem append_singleton_iff :
    Live (journal ++ [e]) ticket ↔
      e = .issued ticket ∨ (Live journal ticket ∧ e.ends = false) := by
  constructor
  · rintro ⟨earlier, later, heq, hlater⟩
    rcases List.eq_nil_or_concat later with rfl | ⟨later, last, rfl⟩
    · obtain ⟨-, hlast⟩ := List.append_inj' heq rfl
      exact .inl (List.cons.inj hlast).1
    · rw [List.concat_eq_append] at heq hlater
      rw [← List.cons_append, ← List.append_assoc] at heq
      obtain ⟨hjournal, hlast⟩ := List.append_inj' heq rfl
      obtain ⟨rfl, -⟩ := List.cons.inj hlast
      refine .inr ⟨⟨earlier, later, hjournal, ?_⟩, ?_⟩
      · exact fun e he => hlater e (List.mem_append_left _ he)
      · exact hlater _ (List.mem_append_right _ List.mem_cons_self)
  · rintro (rfl | ⟨⟨earlier, later, rfl, hlater⟩, hends⟩)
    · exact ⟨journal, [], rfl, fun e he => absurd he List.not_mem_nil⟩
    · refine ⟨earlier, later ++ [e], ?_, ?_⟩
      · rw [List.append_assoc, List.cons_append]
      · intro f hf
        rcases List.mem_append.mp hf with hf | hf
        · exact hlater f hf
        · rw [List.mem_singleton.mp hf]
          exact hends

/-- A live ticket has been handed out. -/
theorem mem_issued (h : Live journal ticket) : ticket ∈ issuedTickets journal := by
  obtain ⟨earlier, later, rfl, -⟩ := h
  rw [issuedTickets_append]
  exact List.mem_append_right _ List.mem_cons_self

end Live

end ByteMachine
