import Mathlib.Data.List.Nodup
import ByteMachine.Proofs.Tickets.Journal

/-!
# The question protocol of the scheduler

The scheduler keeps one ticket at most, and this is the one that is live in the journal.
What ties it to the journal is kept by every operation: all tickets that were handed out
are older than the next one, so the next one is new, and a program with a question
outstanding is suspended, so that waking it up always drops the question.
-/

namespace ByteMachine

/-- A scheduler that agrees with a journal of what has happened so far. -/
structure Scheduler.Agrees (s : Scheduler) (journal : List Event) : Prop where
  /-- Every ticket that was handed out comes before the next one. -/
  older : ∀ t ∈ issuedTickets journal,
    t.generation < s.generation ∨
      (t.generation = s.generation ∧ t.sequence < s.nextSequence)
  /-- No ticket was handed out twice. -/
  issued_nodup : (issuedTickets journal).Nodup
  /-- No ticket was answered twice. -/
  answered_nodup : (answeredTickets journal).Nodup
  /-- Only tickets that were handed out were answered. -/
  answered_issued : ∀ t ∈ answeredTickets journal,
    t ∈ issuedTickets journal
  /-- The outstanding ticket is the one that is live. -/
  outstanding_iff : ∀ t, s.outstanding = some t ↔ Live journal t
  /-- The outstanding ticket is of this run, is not answered yet, and the program waits. -/
  waiting : ∀ t, s.outstanding = some t →
    s.state = .sleeping ∧ t.generation = s.generation ∧
      t ∉ answeredTickets journal

namespace Scheduler

variable {s : Scheduler} {journal : List Event}

/-- At the start there are no questions. -/
theorem agrees_nil (sleepUnit : Nat) : Agrees { sleepUnit } [] := by
  refine ⟨nofun, List.nodup_nil, List.nodup_nil, nofun, ?_, nofun⟩
  intro t
  exact ⟨nofun, fun h => absurd h Live.not_nil⟩

namespace Agrees

/-- A scheduler that waits for the same ticket, with the same counters, agrees as well. -/
theorem congr (h : s.Agrees journal) {s' : Scheduler} (hgeneration : s'.generation = s.generation)
    (hsequence : s'.nextSequence = s.nextSequence) (houtstanding : s'.outstanding = s.outstanding)
    (hstate : s.state = .sleeping → s'.state = .sleeping) : s'.Agrees journal := by
  refine ⟨?_, h.issued_nodup, h.answered_nodup, h.answered_issued, ?_, ?_⟩
  · rw [hgeneration, hsequence]
    exact h.older
  · rw [houtstanding]
    exact h.outstanding_iff
  · intro t ht
    rw [houtstanding] at ht
    obtain ⟨hsleeping, hcurrent, hopen⟩ := h.waiting t ht
    rw [hgeneration]
    exact ⟨hstate hsleeping, hcurrent, hopen⟩

/-- An event that hands out nothing and answers nothing keeps what it does not end. -/
theorem event (h : s.Agrees journal) {s' : Scheduler} {e : Event} (hissues : e.issued? = none)
    (hanswers : e.answered? = none)
    (hage : s.generation < s'.generation ∨
      (s'.generation = s.generation ∧ s'.nextSequence = s.nextSequence))
    (houtstanding : ∀ t, s'.outstanding = some t ↔ s.outstanding = some t ∧ e.ends = false)
    (hwaiting : ∀ t, s'.outstanding = some t →
      s'.state = .sleeping ∧ s'.generation = s.generation) :
    s'.Agrees (journal ++ [e]) := by
  have hissued : issuedTickets (journal ++ [e]) = issuedTickets journal := by
    simp [issuedTickets, hissues]
  have hanswered : answeredTickets (journal ++ [e]) = answeredTickets journal := by
    simp [answeredTickets, hanswers]
  refine ⟨?_, ?_, ?_, ?_, ?_, ?_⟩
  · intro t ht
    rw [hissued] at ht
    have hold := h.older t ht
    rcases hage with hlater | ⟨hgeneration, hsequence⟩
    · omega
    · rw [hgeneration, hsequence]
      exact hold
  · rw [hissued]
    exact h.issued_nodup
  · rw [hanswered]
    exact h.answered_nodup
  · rw [hissued, hanswered]
    exact h.answered_issued
  · intro t
    rw [houtstanding, h.outstanding_iff, Live.append_singleton_iff]
    constructor
    · exact .inr
    · rintro (rfl | hlive)
      · cases hissues
      · exact hlive
  · intro t ht
    obtain ⟨hstate, hgeneration⟩ := hwaiting t ht
    obtain ⟨-, hcurrent, hopen⟩ := h.waiting t ((houtstanding t).mp ht).1
    rw [hanswered]
    exact ⟨hstate, hcurrent.trans hgeneration.symm, hopen⟩

/-- An event that ends nothing may be noted beside a scheduler that stays as it is. -/
theorem note (h : s.Agrees journal) {e : Event} (hends : e.ends = false) :
    s.Agrees (journal ++ [e]) := by
  obtain ⟨hissues, hanswers⟩ := Event.eq_none_of_not_ends hends
  refine h.event hissues hanswers (.inr ⟨rfl, rfl⟩) ?_ ?_
  · exact fun t => ⟨fun ht => ⟨ht, hends⟩, And.left⟩
  · exact fun t ht => ⟨(h.waiting t ht).1, rfl⟩

/-- After an event that ends every question, a scheduler that waits for nothing agrees. -/
theorem finish (h : s.Agrees journal) {s' : Scheduler} {e : Event} (hends : e.ends = true)
    (hissues : e.issued? = none) (hanswers : e.answered? = none)
    (hage : s.generation < s'.generation ∨
      (s'.generation = s.generation ∧ s'.nextSequence = s.nextSequence))
    (hnone : s'.outstanding = none) : s'.Agrees (journal ++ [e]) := by
  refine h.event hissues hanswers hage ?_ ?_
  · intro t
    rw [hnone, hends]
    exact ⟨nofun, fun hopen => nomatch hopen.2⟩
  · intro t ht
    rw [hnone] at ht
    cases ht

/-- Starting a run ends every question, and all tickets are of earlier runs. -/
theorem start (h : s.Agrees journal) : s.start.Agrees (journal ++ [.started]) :=
  h.finish rfl rfl rfl (.inl (Nat.lt_succ_self _)) rfl

theorem stop (h : s.Agrees journal) : s.stop.Agrees (journal ++ [.stopped]) :=
  h.finish rfl rfl rfl (.inr ⟨rfl, rfl⟩) rfl

/-- Waking a program up ends its question. One that does not sleep has none. -/
theorem wakeUp (h : s.Agrees journal) : s.wakeUp.Agrees (journal ++ [.woken]) := by
  unfold Scheduler.wakeUp
  split
  · exact h.finish rfl rfl rfl (.inr ⟨rfl, rfl⟩) rfl
  · rename_i hstate
    refine h.finish rfl rfl rfl (.inr ⟨rfl, rfl⟩) ?_
    rw [Option.eq_none_iff_forall_ne_some]
    exact fun t ht => hstate (h.waiting t ht).1

/-- Suspending a program leaves its question open. -/
theorem sleep (h : s.Agrees journal) {timeout : Option Nat} {s' : Scheduler}
    (hs : s.sleep timeout = some s') : s'.Agrees journal := by
  unfold Scheduler.sleep at hs
  split at hs
  · cases hs
    exact h
  · split at hs
    · cases hs
      exact h.congr rfl rfl rfl fun _ => rfl
    · obtain ⟨moment, -, rfl⟩ := Option.map_eq_some_iff.mp hs
      exact h.congr rfl rfl rfl fun _ => rfl

/-- Asking hands out a ticket that is new. -/
theorem awaitInput (h : s.Agrees journal) (hstate : s.state = .sleeping) :
    s.awaitInput.Agrees (journal ++ [.issued s.nextTicket]) := by
  have hissued : issuedTickets (journal ++ [.issued s.nextTicket]) =
      issuedTickets journal ++ [s.nextTicket] := issuedTickets_append journal _
  have hanswered : answeredTickets (journal ++ [.issued s.nextTicket]) =
      answeredTickets journal := by
    rw [answeredTickets_append]
    exact List.append_nil _
  have hnew : s.nextTicket ∉ issuedTickets journal := by
    intro hmem
    rcases h.older _ hmem with hlt | ⟨-, hlt⟩
    · exact Nat.lt_irrefl _ hlt
    · exact Nat.lt_irrefl _ hlt
  refine ⟨?_, ?_, ?_, ?_, ?_, ?_⟩
  · intro t ht
    rw [hissued] at ht
    rcases List.mem_append.mp ht with ht | ht
    · rcases h.older t ht with hlt | ⟨hgeneration, hlt⟩
      · exact .inl hlt
      · exact .inr ⟨hgeneration, Nat.lt_succ_of_lt hlt⟩
    · rw [List.mem_singleton.mp ht]
      exact .inr ⟨rfl, Nat.lt_succ_self _⟩
  · rw [hissued, ← List.concat_eq_append]
    exact h.issued_nodup.concat hnew
  · rw [hanswered]
    exact h.answered_nodup
  · rw [hissued, hanswered]
    exact fun t ht => List.mem_append_left _ (h.answered_issued t ht)
  · intro t
    rw [Live.append_singleton_iff]
    constructor
    · intro ht
      cases ht
      exact .inl rfl
    · rintro (heq | ⟨-, hopen⟩)
      · cases heq
        rfl
      · cases hopen
  · intro t ht
    cases ht
    rw [hanswered]
    exact ⟨hstate, rfl, fun hmem => hnew (h.answered_issued _ hmem)⟩

/-- An answer to the outstanding ticket is the only one to it, and ends the question. -/
theorem answer (h : s.Agrees journal) {t : Ticket} (ht : s.outstanding = some t) :
    s.retire.wakeUp.Agrees (journal ++ [.answered t]) := by
  obtain ⟨hstate, -, hopen⟩ := h.waiting t ht
  have hwoken : s.retire.wakeUp =
      { s with state := .running, wakeAt := none, outstanding := none } := by
    simp [Scheduler.wakeUp, retire, hstate]
  have hissued : issuedTickets (journal ++ [.answered t]) = issuedTickets journal := by
    rw [issuedTickets_append]
    exact List.append_nil _
  have hanswered : answeredTickets (journal ++ [.answered t]) = answeredTickets journal ++ [t] :=
    answeredTickets_append journal _
  have hmem : t ∈ issuedTickets journal := ((h.outstanding_iff t).mp ht).mem_issued
  rw [hwoken]
  refine ⟨?_, ?_, ?_, ?_, ?_, nofun⟩
  · rw [hissued]
    exact h.older
  · rw [hissued]
    exact h.issued_nodup
  · rw [hanswered, ← List.concat_eq_append]
    exact h.answered_nodup.concat hopen
  · intro u hu
    rw [hanswered] at hu
    rw [hissued]
    rcases List.mem_append.mp hu with hu | hu
    · exact h.answered_issued u hu
    · rw [List.mem_singleton.mp hu]
      exact hmem
  · intro u
    rw [Live.append_singleton_iff]
    constructor
    · exact nofun
    · rintro (heq | ⟨-, hends⟩)
      · cases heq
      · cases hends

end Agrees

end Scheduler

end ByteMachine
