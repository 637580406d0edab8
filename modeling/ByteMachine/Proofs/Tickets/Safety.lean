import ByteMachine.Proofs.Scheduler.Operations
import ByteMachine.Proofs.Tickets.Protocol

/-!
# Safety of the question protocol

Whatever commands a computer carries out, in whatever order and with whatever tickets,
its scheduler agrees with the journal. So the tickets that it hands out are all
different, an answer is taken exactly for the ticket that is live, and no ticket is
answered twice.
-/

namespace ByteMachine

open Scheduler (Agrees)

namespace Scheduler.Agrees

variable {s s' : Scheduler} {journal : List Event}

/-- A move of a running program is noted by the tickets that it hands out. -/
theorem moves (h : s.Agrees journal) (hrunning : s.state = .running) {ts : List Ticket}
    (hmoves : s.Moves s' ts) : s'.Agrees (journal ++ ts.map .issued) := by
  cases hmoves with
  | stay =>
    rw [List.map_nil, List.append_nil]
    exact h
  | suspend hs =>
    rw [List.map_nil, List.append_nil]
    exact h.sleep hs
  | ask hs => exact (h.sleep hs).awaitInput (Scheduler.sleep_of_running hrunning hs)

/-- Time that passes is noted only where it wakes the program up. -/
theorem advance (h : s.Agrees journal) {elapsed : Nat} (hs : s.advance elapsed = some s') :
    s'.Agrees (journal ++
      if (s.timeToWake.any fun left => left ≤ elapsed) = true then [.woken] else []) := by
  have hlater : Agrees { s with clock := s.clock + elapsed } journal := h.congr rfl rfl rfl id
  rw [Scheduler.eq_of_advance hs]
  split
  · exact hlater.wakeUp
  · rw [List.append_nil]
    exact hlater

/-- Whether an answer is taken is whether the ticket is the outstanding one. -/
theorem checkTicket_iff (h : s.Agrees journal) (t : Ticket) :
    s.checkTicket t = .ok () ↔ Live journal t := by
  rw [← h.outstanding_iff, Scheduler.checkTicket_eq_ok_iff]
  constructor
  · exact And.right
  · intro ht
    exact ⟨(h.waiting t ht).2.1, ht⟩

end Scheduler.Agrees

namespace Computer

variable {c : Computer} {journal : List Event}

/-- An instruction that does not end the run is noted by its tickets. -/
theorem instructionEvents_of_not {before after : RunState} {notices : List Notice}
    (h : ¬(before ≠ .stopped ∧ after = .stopped)) :
    instructionEvents before after notices = (tickets notices).map .issued := by
  rw [instructionEvents, if_neg h, List.append_nil]

/-- A step of a machine is noted by its events. -/
theorem agrees_machine_step {m : Machine} (h : m.scheduler.Agrees journal)
    {r : Reply Machine (Except Fault Unit)} (hr : m.step = some r) :
    r.next.scheduler.Agrees
      (journal ++ instructionEvents m.scheduler.state r.next.scheduler.state r.notices) := by
  by_cases hrunning : m.scheduler.state = .running
  · obtain ⟨s, hmoves, hs | hs⟩ := Machine.settles_of_step hr
    · have hne := hmoves.state_ne_stopped hrunning
      rw [hs, instructionEvents_of_not fun hend => hne hend.2]
      exact h.moves hrunning hmoves
    · have hended : m.scheduler.state ≠ .stopped ∧ r.next.scheduler.state = .stopped := by
        rw [hrunning, hs]
        exact ⟨nofun, rfl⟩
      rw [instructionEvents, if_pos hended, hs, ← List.append_assoc]
      exact (h.moves hrunning hmoves).stop
  · rw [Machine.step_of_not_running hrunning] at hr
    cases hr
    rw [instructionEvents_of_not fun hend => hend.1 hend.2]
    exact (List.append_nil journal).symm ▸ h

/-- A step of a computer is noted by its events. -/
theorem agrees_step (h : c.machine.scheduler.Agrees journal)
    {r : Reply Computer (Except Fault Unit)} (hr : c.step = some r) :
    r.next.machine.scheduler.Agrees
      (journal ++ instructionEvents c.state r.next.state r.notices) := by
  obtain ⟨r', hr', rfl⟩ := Option.map_eq_some_iff.mp hr
  exact agrees_machine_step h hr'

/-- An update is noted by its events: perhaps a waking, and then those of a step. -/
theorem agrees_update (h : c.machine.scheduler.Agrees journal) {elapsed : Nat}
    {r : Reply Computer (Except Fault Bool)} (hr : c.update elapsed = some r) :
    r.next.machine.scheduler.Agrees (journal ++
      ((if c.expires elapsed then [.woken] else []) ++
        instructionEvents c.state r.next.state r.notices)) := by
  obtain ⟨s, hs, hrest⟩ := Option.bind_eq_some_iff.mp hr
  have hstopped := Scheduler.state_advance_eq_stopped_iff hs
  have hlater : (c.withScheduler s).machine.scheduler.Agrees
      (journal ++ if c.expires elapsed then [.woken] else []) := h.advance hs
  rw [← List.append_assoc]
  dsimp only at hrest
  split at hrest
  · rename_i hrunning
    obtain ⟨r', hr', rfl⟩ := Option.map_eq_some_iff.mp hrest
    have hsame : instructionEvents c.state r'.next.state r'.notices =
        instructionEvents s.state r'.next.state r'.notices := by
      have hbefore : c.state ≠ .stopped ↔ s.state ≠ .stopped := not_congr hstopped.symm
      simp only [instructionEvents, hbefore]
    dsimp only
    rw [hsame]
    exact agrees_step hlater hr'
  · cases hrest
    have hsame : ¬(c.state ≠ .stopped ∧ s.state = .stopped) :=
      fun hend => hend.1 (hstopped.mp hend.2)
    have hevents : instructionEvents c.state s.state [] = [] := instructionEvents_of_not hsame
    have hstate : (c.withScheduler s).state = s.state := rfl
    dsimp only
    rw [hstate, hevents, List.append_nil]
    exact hlater

/-- An answer is taken exactly for the live ticket. -/
theorem deliver_eq_ok_iff (h : c.machine.scheduler.Agrees journal) (ticket : Ticket)
    {text : String} {value : UInt8} (hvalue : Text.typedByte? text = some value) :
    (c.deliver ticket text).answer = .ok () ↔ Live journal ticket := by
  rw [← h.checkTicket_iff]
  unfold deliver
  cases hcheck : c.machine.scheduler.checkTicket ticket with
  | error e => exact ⟨nofun, nofun⟩
  | ok u =>
    dsimp only
    rw [hvalue]

/-- A delivery is noted by its event. -/
theorem agrees_deliver (h : c.machine.scheduler.Agrees journal) (ticket : Ticket) (text : String) :
    (c.deliver ticket text).next.machine.scheduler.Agrees (journal ++
      c.events (.deliver ticket text) ((c.deliver ticket text).mapAnswer .delivered)) := by
  have hrefused : c.machine.scheduler.Agrees (journal ++ [.refused ticket]) := h.note rfl
  unfold deliver
  cases hcheck : c.machine.scheduler.checkTicket ticket with
  | error e => exact hrefused
  | ok u =>
    dsimp only
    cases Text.typedByte? text with
    | none => exact hrefused
    | some value =>
      have hlive := (h.checkTicket_iff ticket).mp hcheck
      exact h.answer ((h.outstanding_iff ticket).mpr hlive)

/-- Every command keeps the agreement, with its events noted. -/
theorem agrees_perform (h : c.machine.scheduler.Agrees journal) {command : Command}
    {r : Reply Computer Answer} (hr : c.perform command = some r) :
    r.next.machine.scheduler.Agrees (journal ++ c.events command r) := by
  cases command with
  | assemble source =>
    cases hr
    have hkeep : (c.assemble source).next.machine.scheduler = c.machine.scheduler := by
      unfold assemble
      split <;> rfl
    have hnoted : c.machine.scheduler.Agrees (journal ++ [.assembled]) := h.note rfl
    rw [← hkeep] at hnoted
    exact hnoted
  | run =>
    cases hr
    exact h.start
  | stop =>
    cases hr
    exact h.stop
  | sleep timeout =>
    obtain ⟨r', hr', rfl⟩ := Option.map_eq_some_iff.mp hr
    obtain ⟨s, hs, rfl⟩ := Option.map_eq_some_iff.mp hr'
    exact (h.sleep hs).note rfl
  | wakeUp =>
    cases hr
    exact h.wakeUp
  | step =>
    obtain ⟨r', hr', rfl⟩ := Option.map_eq_some_iff.mp hr
    exact agrees_step h hr'
  | update elapsed =>
    obtain ⟨r', hr', rfl⟩ := Option.map_eq_some_iff.mp hr
    exact agrees_update h hr'
  | deliver ticket text =>
    cases hr
    exact agrees_deliver h ticket text

/-- A history of commands keeps the agreement, with its journal noted. -/
theorem agrees_performAll (h : c.machine.scheduler.Agrees journal) {commands : List Command}
    {r : Reply Computer (List Answer)} (hr : c.performAll commands = some r) :
    r.next.machine.scheduler.Agrees (journal ++ c.journal commands) := by
  induction commands generalizing c journal r with
  | nil =>
    cases hr
    rw [Computer.journal, List.append_nil]
    exact h
  | cons command commands ih =>
    obtain ⟨first, hfirst, hrest⟩ := Option.bind_eq_some_iff.mp hr
    obtain ⟨rest, hlater, rfl⟩ := Option.map_eq_some_iff.mp hrest
    have hagrees := ih (agrees_perform h hfirst) hlater
    rw [List.append_assoc] at hagrees
    rw [Computer.journal, hfirst]
    exact hagrees

/-- The tickets of a command's notices are those that its events hand out. -/
theorem issuedTickets_events {command : Command} {r : Reply Computer Answer}
    (hr : c.perform command = some r) :
    issuedTickets (c.events command r) = tickets r.notices := by
  have hmap (ts : List Ticket) : issuedTickets (ts.map .issued) = ts := by
    induction ts with
    | nil => rfl
    | cons t ts ih => exact congrArg (t :: ·) ih
  have hinstruction (before after : RunState) (ns : List Notice) :
      issuedTickets (instructionEvents before after ns) = tickets ns := by
    rw [instructionEvents, issuedTickets_append, hmap]
    split <;> exact List.append_nil _
  cases command with
  | assemble source =>
    cases hr
    unfold assemble
    split <;> rfl
  | run =>
    cases hr
    rfl
  | stop =>
    cases hr
    rfl
  | sleep timeout =>
    obtain ⟨r', hr', rfl⟩ := Option.map_eq_some_iff.mp hr
    obtain ⟨s, -, rfl⟩ := Option.map_eq_some_iff.mp hr'
    rfl
  | wakeUp =>
    cases hr
    rfl
  | step => exact hinstruction c.state r.next.state r.notices
  | update elapsed =>
    have hwoken : issuedTickets (if c.expires elapsed then [Event.woken] else []) = [] := by
      split <;> rfl
    rw [events, issuedTickets_append, hwoken, hinstruction, List.nil_append]
  | deliver ticket text =>
    cases hr
    unfold deliver
    split
    · rfl
    · split <;> rfl

/-- The tickets that a history hands out are those that its journal notes. -/
theorem issuedTickets_journal {commands : List Command} {r : Reply Computer (List Answer)}
    (hr : c.performAll commands = some r) :
    issuedTickets (c.journal commands) = tickets r.notices := by
  induction commands generalizing c r with
  | nil =>
    cases hr
    rfl
  | cons command commands ih =>
    obtain ⟨first, hfirst, hrest⟩ := Option.bind_eq_some_iff.mp hr
    obtain ⟨rest, hlater, rfl⟩ := Option.map_eq_some_iff.mp hrest
    rw [journal, hfirst, tickets_append]
    dsimp only
    rw [issuedTickets_append, issuedTickets_events hfirst, ih hlater]

/-- Whatever a new computer is told to do, and in whatever order, the tickets that it hands
out are all different. A byte that is typed for a ticket is then taken exactly if this
ticket was handed out last, with no answer taken since, no waking, no stop and no new
run. No ticket is answered twice, and only tickets that were handed out are answered. -/
theorem tickets_safe {settings : Settings} {key : Random.Key} {c : Computer}
    (hc : Computer.ofSettings settings key = .ok c) {commands : List Command}
    {r : Reply Computer (List Answer)} (hr : c.performAll commands = some r) :
    (tickets r.notices).Nodup ∧
      (∀ ticket text value, Text.typedByte? text = some value →
        ((r.next.deliver ticket text).answer = .ok () ↔ Live (c.journal commands) ticket)) ∧
      (answeredTickets (c.journal commands)).Nodup ∧
      ∀ t ∈ answeredTickets (c.journal commands), t ∈ tickets r.notices := by
  have hstart : c.machine.scheduler.Agrees [] := by
    unfold ofSettings at hc
    split at hc
    · cases hc
      exact Scheduler.agrees_nil settings.sleepUnit
    · cases hc
  have hagrees := agrees_performAll hstart hr
  rw [List.nil_append] at hagrees
  have hissued := issuedTickets_journal hr
  refine ⟨?_, ?_, hagrees.answered_nodup, ?_⟩
  · rw [← hissued]
    exact hagrees.issued_nodup
  · exact fun ticket text value hvalue => deliver_eq_ok_iff hagrees ticket hvalue
  · rw [← hissued]
    exact hagrees.answered_issued

/-- A program that asks twice, with a timed sleep and a wrong ticket in between. -/
def asking : List Command :=
  [.assemble "IN 00\nIN 00", .run, .step, .deliver ⟨1, 0⟩ "07", .step, .sleep (some 5),
    .deliver ⟨1, 0⟩ "07"]

/-- The second ticket of that program is taken, and the first one is not taken again. -/
theorem asking_tickets_safe : ∃ c r, Computer.ofSettings { memorySize := 4 } 0 = .ok c ∧
    c.performAll asking = some r ∧ tickets r.notices = [⟨1, 0⟩, ⟨1, 1⟩] ∧
    (r.next.deliver ⟨1, 1⟩ "2A").answer = .ok () := by
  refine ⟨_, _, rfl, rfl, rfl, ?_⟩
  obtain ⟨-, hlive, -⟩ := tickets_safe
    (rfl : Computer.ofSettings { memorySize := 4 } 0 = .ok _)
    (rfl : Computer.performAll _ asking = some _)
  refine (hlive ⟨1, 1⟩ "2A" 42 rfl).mpr ?_
  exact ⟨[.assembled, .started, .issued ⟨1, 0⟩, .answered ⟨1, 0⟩],
    [.suspended, .refused ⟨1, 0⟩], rfl, by decide⟩

end Computer

end ByteMachine
