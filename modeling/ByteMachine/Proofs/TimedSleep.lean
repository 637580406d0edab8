import ByteMachine.Proofs.Effects
import ByteMachine.Proofs.Machine.Suspension
import ByteMachine.Proofs.Stopped

/-!
# A timed sleep lasts as long as it is told to

A sleep ends at a moment on the clock, and time that passes adds up: it makes no difference
whether it passes at once or in parts. So updates of a sleeping program only let time pass
until they come to the length of its sleep, and the one that does wakes the program up and
executes one instruction. A sleep without a length does not end by itself.
-/

namespace ByteMachine

/-- For how long a deed of this machine suspends the program, if it does: for as many units as
its operand says, or without end to wait for a byte. -/
def Deed.suspension? (m : Machine) : Deed → Option (Option Nat)
  | execute _ .sleep =>
    m.operand?.map fun units => some (m.scheduler.sleepUnit * units.toNat)
  | execute _ .input => if Opcode.input.asks m then some none else none
  | _ => none

/-- For how long a command suspends the program, if it does. -/
def Computer.suspension? (c : Computer) (command : Command) : Option (Option Nat) :=
  match command with
  | .sleep timeout => if c.state = .stopped then none else some timeout
  | _ => (c.deed command).suspension? c.machine

namespace Scheduler

variable {s : Scheduler} {timeout : Option Nat} {t elapsed : Nat}

/-- A program that sleeps from now for so long, or without end. -/
structure Asleep (s : Scheduler) (timeout : Option Nat) : Prop where
  /-- It is suspended. -/
  state : s.state = .sleeping
  /-- It wakes up that much later. -/
  wakeAt : s.wakeAt = timeout.map fun t => s.clock + t

/-- A sleep is over at its moment, and then a program is suspended that has a timer. -/
theorem isDue_eq_true_iff :
    s.isDue = true ↔ s.state = .sleeping ∧ ∃ moment, s.wakeAt = some moment ∧ moment ≤ s.clock := by
  obtain ⟨state, clock, wakeAt, generation, nextSequence, outstanding, sleepUnit⟩ := s
  cases state <;> cases wakeAt <;> simp [isDue]

/-- The scheduler with a sleep ended if it is over. -/
def settled (s : Scheduler) : Scheduler := if s.isDue then s.wakeUp else s

/-- Time that can pass ends a sleep that is over then, and does nothing else. -/
theorem advance_eq (hfits : s.clock + elapsed ≤ lastMoment) :
    s.advance elapsed = some (s.later elapsed).settled := by
  have hnow : s.moment? elapsed = some (s.clock + elapsed) := if_pos hfits
  rw [advance, hnow]
  rfl

theorem clock_settled (s : Scheduler) : s.settled.clock = s.clock := by
  unfold settled
  split
  · exact (sameNumbers_wakeUp s).clock
  · rfl

/-- A sleep that is over does not last any longer when more time passes. -/
theorem settled_later (s : Scheduler) (elapsed : Nat) :
    (s.settled.later elapsed).settled = (s.later elapsed).settled := by
  by_cases hdue : s.isDue = true
  · obtain ⟨hsleeping, moment, hmoment, hover⟩ := isDue_eq_true_iff.mp hdue
    have hlater : (s.later elapsed).isDue = true :=
      isDue_eq_true_iff.mpr ⟨hsleeping, moment, hmoment, Nat.le_add_right_of_le hover⟩
    have hwoken : s.wakeUp.later elapsed = (s.later elapsed).wakeUp := by
      rw [wakeUp_eq, wakeUp_eq, if_pos hsleeping]
      exact (if_pos hsleeping).symm
    have hawake : (s.later elapsed).wakeUp.isDue = false := by
      rw [Bool.eq_false_iff]
      intro h
      have hstate : (s.later elapsed).state = .sleeping := hsleeping
      have hrunning := (isDue_eq_true_iff.mp h).1
      rw [wakeUp_eq, if_pos hstate] at hrunning
      cases hrunning
    rw [settled, settled, settled, if_pos hdue, if_pos hlater, hwoken, hawake]
    rfl
  · rw [settled, settled, if_neg hdue]
    rfl

/-- Two times that pass one after another are their sum. -/
theorem advance_advance (s : Scheduler) (elapsed elapsed' : Nat) :
    (s.advance elapsed).bind (fun s' => s'.advance elapsed') =
      s.advance (elapsed + elapsed') := by
  have hclock : (s.later elapsed).settled.clock = s.clock + elapsed := clock_settled _
  by_cases hfits : s.clock + elapsed ≤ lastMoment
  · rw [advance_eq hfits, Option.bind_some]
    by_cases hall : s.clock + (elapsed + elapsed') ≤ lastMoment
    · rw [advance_eq hall, advance_eq (by omega), settled_later, later_later]
    · rw [advance_eq_none_iff.mpr (by omega), advance_eq_none_iff.mpr (by omega)]
  · rw [advance_eq_none_iff.mpr (by omega), advance_eq_none_iff.mpr (by omega)]
    rfl

namespace Asleep

/-- The sleep is over as soon as it has lasted for its length. -/
theorem isDue_later (h : s.Asleep timeout) :
    (s.later elapsed).isDue = true ↔ ∃ t, timeout = some t ∧ t ≤ elapsed := by
  have hstate : (s.later elapsed).state = .sleeping := h.state
  have hwake : (s.later elapsed).wakeAt = timeout.map fun t => s.clock + t := h.wakeAt
  have hnow : (s.later elapsed).clock = s.clock + elapsed := rfl
  rw [isDue_eq_true_iff, hwake, hnow]
  cases timeout with
  | none => simp
  | some t => simp [hstate]

/-- Until then, the rest of it is still to come. -/
theorem later (h : s.Asleep timeout) (hrest : ∀ t, timeout = some t → elapsed ≤ t) :
    (s.later elapsed).Asleep (timeout.map fun t => t - elapsed) := by
  refine ⟨h.state, ?_⟩
  have hwake : (s.later elapsed).wakeAt = timeout.map fun t => s.clock + t := h.wakeAt
  have hnow : (s.later elapsed).clock = s.clock + elapsed := rfl
  rw [hwake, hnow]
  cases timeout with
  | none => rfl
  | some t =>
    have hle := hrest t rfl
    rw [Option.map_some, Option.map_some, Option.map_some, Option.some_inj]
    omega

/-- How long the sleep lasts can be asked for. -/
theorem timeToWake_eq (h : s.Asleep timeout) : s.timeToWake = timeout := by
  rw [timeToWake, h.wakeAt, Option.map_map]
  cases timeout with
  | none => rfl
  | some t => exact congrArg some (Nat.add_sub_cancel_left s.clock t)

end Asleep

end Scheduler

namespace Computer

variable {c : Computer} {timeout : Option Nat} {t : Nat}

/-- An update of a sleeping program lets time pass, as long as the sleep is not over then. -/
theorem perform_update_of_early (h : c.machine.scheduler.Asleep timeout) {elapsed : Nat}
    (hfits : c.machine.scheduler.clock + elapsed ≤ lastMoment)
    (hearly : ∀ t, timeout = some t → elapsed < t) :
    c.perform (.update elapsed) = some ⟨.updated (.ok false), c.later elapsed, []⟩ := by
  have hdue : ¬(c.machine.scheduler.later elapsed).isDue = true := by
    rw [h.isDue_later]
    rintro ⟨t, ht, hle⟩
    have hlt := hearly t ht
    omega
  have hasleep : (c.machine.scheduler.later elapsed).state ≠ .running := by
    rw [(h.later fun t ht => Nat.le_of_lt (hearly t ht)).state]
    exact nofun
  rw [perform, update, Scheduler.advance_eq hfits, Scheduler.settled, if_neg hdue,
    Option.bind_some, if_neg hasleep]
  rfl

/-- The update with which it is over wakes the program up and executes an instruction. -/
theorem perform_update_of_due (h : c.machine.scheduler.Asleep (some t)) {elapsed : Nat}
    (hfits : c.machine.scheduler.clock + elapsed ≤ lastMoment) (hdue : t ≤ elapsed) :
    (c.later elapsed).wakeUp.next.state = .running ∧
      c.perform (.update elapsed) = (c.later elapsed).wakeUp.next.step.map fun r =>
        ⟨.updated (r.answer.map fun _ => true), r.next, r.notices⟩ := by
  have hover := h.isDue_later.mpr ⟨t, rfl, hdue⟩
  have hstate : (c.machine.scheduler.later elapsed).state = .sleeping := h.state
  have hrunning : (c.machine.scheduler.later elapsed).wakeUp.state = .running := by
    rw [Scheduler.wakeUp_eq, if_pos hstate]
  refine ⟨hrunning, ?_⟩
  rw [perform, update, Scheduler.advance_eq hfits, Scheduler.settled, if_pos hover,
    Option.bind_some, if_pos hrunning, Option.map_map]
  rfl

/-- Updates of a sleeping program let time pass, as long as the sleep is not over then. -/
theorem performAll_updates_of_early {es : List Nat} (h : c.machine.scheduler.Asleep timeout)
    (hfits : c.machine.scheduler.clock + es.sum ≤ lastMoment)
    (hearly : ∀ t, timeout = some t → es.sum < t) :
    c.performAll (es.map .update) =
      some ⟨es.map fun _ => .updated (.ok false), c.later es.sum, []⟩ := by
  induction es generalizing c timeout with
  | nil => rfl
  | cons e es ih =>
    rw [List.sum_cons] at hfits hearly ⊢
    have hbefore (t : Nat) (ht : timeout = some t) : e < t := by
      have hlt := hearly t ht
      omega
    have hfirst : c.perform (.update e) = some ⟨.updated (.ok false), c.later e, []⟩ :=
      perform_update_of_early h (by omega) hbefore
    have hasleep : (c.later e).machine.scheduler.Asleep (timeout.map fun t => t - e) :=
      h.later fun t ht => Nat.le_of_lt (hbefore t ht)
    have hclock : (c.later e).machine.scheduler.clock = c.machine.scheduler.clock + e := rfl
    have hrest : (c.later e).performAll (es.map .update) =
        some ⟨es.map fun _ => .updated (.ok false), (c.later e).later es.sum, []⟩ := by
      refine ih hasleep (by omega) ?_
      intro left hleft
      obtain ⟨t, ht, rfl⟩ := Option.map_eq_some_iff.mp hleft
      have hlt := hearly t ht
      omega
    rw [List.map_cons, performAll, hfirst, Option.bind_some, hrest, later_later]
    rfl

/-- A sleep for so long, or without end, that has just begun. -/
structure SleepsFor (c : Computer) (timeout : Option Nat) : Prop where
  /-- As long as it lasts, updates let time pass and nothing else. -/
  early : ∀ es : List Nat, c.machine.scheduler.clock + es.sum ≤ lastMoment →
    (∀ t, timeout = some t → es.sum < t) →
    c.performAll (es.map .update) =
        some ⟨es.map fun _ => .updated (.ok false), c.later es.sum, []⟩ ∧
      (c.later es.sum).state = .sleeping ∧
      (c.later es.sum).timeToWake = timeout.map fun t => t - es.sum
  /-- The first update with which it is over wakes the program up and executes an
  instruction. -/
  due : ∀ (es : List Nat) (e t : Nat), timeout = some t → es = [] ∨ es.sum < t →
    t ≤ es.sum + e → c.machine.scheduler.clock + (es.sum + e) ≤ lastMoment →
    (c.later (es.sum + e)).wakeUp.next.state = .running ∧
      c.performAll ((es ++ [e]).map .update) =
        (c.later (es.sum + e)).wakeUp.next.step.map fun r =>
          ⟨(es.map fun _ => .updated (.ok false)) ++ [.updated (r.answer.map fun _ => true)],
            r.next, r.notices⟩

/-- Updates of a sleeping program do what the length of its sleep says. -/
theorem sleepsFor_of_asleep (h : c.machine.scheduler.Asleep timeout) : c.SleepsFor timeout where
  early es hfits hearly := by
    have hasleep : (c.later es.sum).machine.scheduler.Asleep (timeout.map fun t => t - es.sum) :=
      h.later fun t ht => Nat.le_of_lt (hearly t ht)
    exact ⟨performAll_updates_of_early h hfits hearly, hasleep.state, hasleep.timeToWake_eq⟩
  due es e t ht hfirst hover hfits := by
    subst ht
    have hle : es.sum ≤ t := by
      rcases hfirst with rfl | hlt
      · exact Nat.zero_le t
      · exact Nat.le_of_lt hlt
    have hslept : c.performAll (es.map .update) =
        some ⟨es.map fun _ => .updated (.ok false), c.later es.sum, []⟩ := by
      rcases hfirst with rfl | hlt
      · rfl
      · exact performAll_updates_of_early h (by omega) fun t' ht' => Option.some.inj ht' ▸ hlt
    have hasleep : (c.later es.sum).machine.scheduler.Asleep (some (t - es.sum)) :=
      h.later fun t' ht' => Option.some.inj ht' ▸ hle
    have hclock : (c.later es.sum).machine.scheduler.clock =
        c.machine.scheduler.clock + es.sum := rfl
    obtain ⟨hrunning, hwoken⟩ := perform_update_of_due hasleep (by omega)
      (Nat.sub_le_iff_le_add'.mpr hover)
    rw [later_later] at hrunning hwoken
    refine ⟨hrunning, ?_⟩
    rw [List.map_append, performAll_append, hslept, Option.bind_some, List.map_singleton,
      performAll_singleton, hwoken, Option.map_map, Option.map_map]
    rfl

end Computer

/-- A step that suspends the program does so for as long as its operation says. -/
theorem Machine.asleep_of_step {m : Machine} {address : UInt8} {o : Opcode}
    (hdeed : m.deed = .execute address o) {timeout : Option Nat}
    (h : (Deed.execute address o).suspension? m = some timeout)
    {r : Reply Machine (Except Fault Unit)} (hr : m.step = some r) :
    r.next.scheduler.Asleep timeout := by
  cases o with
  | sleep =>
    obtain ⟨units, hunits, rfl⟩ := Option.map_eq_some_iff.mp h
    rw [scheduler_of_step hdeed hr (answer_of_operand hdeed hr rfl nofun hunits),
      Opcode.schedule_sleep, hunits]
    exact ⟨rfl, rfl⟩
  | input =>
    obtain ⟨hasks, hnone⟩ := Option.ite_none_right_eq_some.mp h
    cases hnone
    rw [scheduler_of_step hdeed hr (answer_of_asks hdeed hr hasks), Opcode.schedule_input,
      if_pos hasks]
    exact ⟨rfl, rfl⟩
  | _ => cases h

namespace Computer

variable {c : Computer} {timeout : Option Nat}

/-- A command that suspends the program does so for as long as it says. -/
theorem asleep_of_perform {command : Command} (h : c.suspension? command = some timeout)
    {r : Reply Computer Answer} (hr : c.perform command = some r) :
    r.next.machine.scheduler.Asleep timeout := by
  have hexecuted (h : (c.deed command).suspension? c.machine = some timeout) :
      r.next.machine.scheduler.Asleep timeout := by
    cases hdeed : c.deed command with
    | rest | start =>
      rw [hdeed] at h
      cases h
    | execute address o =>
      obtain ⟨s, hunit, hlater, hperform⟩ := perform_of_execute hdeed
      rw [hperform] at hr
      obtain ⟨r', hstep, rfl⟩ := Option.map_eq_some_iff.mp hr
      have hsame : (Deed.execute address o).suspension? (c.withScheduler s).machine =
          some timeout := by
        rw [← h, hdeed]
        cases o with
        | sleep =>
          rw [Deed.suspension?, Deed.suspension?, ← hunit]
          rfl
        | _ => rfl
      exact Machine.asleep_of_step hlater hsame hstep
  cases command with
  | sleep length =>
    obtain ⟨hgoing, hlength⟩ := Option.ite_none_left_eq_some.mp h
    cases hlength
    cases performs_of_perform hr with
    | suspended hs =>
      have hstate : c.machine.scheduler.state ≠ .stopped := hgoing
      rw [Scheduler.eq_of_sleep hs, if_neg hstate]
      exact ⟨rfl, rfl⟩
  | _ => exact hexecuted h

/-- However time is sliced into updates, a sleep that has just begun lasts exactly as long as
it is told to, be it by an operation or from outside. Until its length is reached, updates do
nothing but let time pass, and what is left of the sleep can be asked for; the update that
reaches it wakes the program up and executes one instruction. A sleep without a length is ended
by no updates at all. For time that passes in two parts passes as a whole. -/
theorem sleep_lasts_exactly {command : Command} (h : c.suspension? command = some timeout)
    {r : Reply Computer Answer} (hr : c.perform command = some r) :
    r.next.SleepsFor timeout ∧
      ∀ (s : Scheduler) (elapsed elapsed' : Nat),
        (s.advance elapsed).bind (fun s' => s'.advance elapsed') =
          s.advance (elapsed + elapsed') :=
  ⟨sleepsFor_of_asleep (asleep_of_perform h hr), Scheduler.advance_advance⟩

/-- A program that sleeps for two units of five nanoseconds and then takes one from zero. -/
def dozing : Computer where
  machine := {
    memory := ⟨[22, 2, 8], 3, by decide, by decide, by decide⟩
    registers := { sp := 2 }
    scheduler := { state := .running, generation := 1, sleepUnit := 5 }
    generator := { key := 0 } }
  settings := { memorySize := 3 }

/-- Two updates leave three nanoseconds of its sleep. With the third one they are over, and it
executes the instruction behind. -/
theorem dozing_lasts_exactly : ∃ r s t u, dozing.suspension? .step = some (some 10) ∧
    dozing.perform .step = some r ∧ r.next.performAll ([3, 4].map .update) = some s ∧
    s.next.timeToWake = some 3 ∧ (r.next.later 12).wakeUp.next.step = some t ∧
    t.next.machine.registers.ra = 255 ∧
    r.next.performAll (([3, 4] ++ [5]).map .update) = some u ∧ u.next = t.next := by
  obtain ⟨r, t, hsuspends, hr, ht, hra, hclock⟩ : ∃ r t,
      dozing.suspension? .step = some (some 10) ∧ dozing.perform .step = some r ∧
      (r.next.later 12).wakeUp.next.step = some t ∧ t.next.machine.registers.ra = 255 ∧
      r.next.machine.scheduler.clock = 0 :=
    ⟨_, _, rfl, rfl, rfl, rfl, rfl⟩
  have hsleeps := (sleep_lasts_exactly hsuspends hr).1
  have hfits {elapsed : Nat} (h : elapsed ≤ 12) :
      r.next.machine.scheduler.clock + elapsed ≤ lastMoment := by
    have hlong : 12 ≤ lastMoment := by decide
    omega
  obtain ⟨hearly, -, hleft⟩ := hsleeps.early [3, 4] (hfits (by decide)) (by decide)
  obtain ⟨-, hdue⟩ := hsleeps.due [3, 4] 5 10 rfl (.inr (by decide)) (by decide)
    (hfits (by decide))
  rw [show [3, 4].sum + 5 = 12 from rfl, ht] at hdue
  exact ⟨r, _, t, _, hsuspends, hr, hearly, hleft, ht, hra, hdue, rfl⟩

end Computer

end ByteMachine
