import ByteMachine.Proofs.Checked.Indexing
import ByteMachine.Proofs.Checked.Instructions
import ByteMachine.Proofs.Report
import ByteMachine.Proofs.Scheduler.Counters

/-!
# Only the clock can run over

A command is carried out here with everything checked that it counts, indexes or cuts to a
byte, and has no reply where one of these goes wrong. As long as there are fewer than 2^64
runs and questions, a computer that can be reached passes every check but one: a moment
may be later than the last one of the clock. That happens where so much time passes, or
where a program that is not stopped is suspended for so long, from outside or by its own
instruction, and nowhere else.
-/

namespace ByteMachine.Computer

variable {c : Computer}

/-- Assembles a source, with the second pass by index. -/
def checkedAssemble (c : Computer) (source : String) :
    Option (Reply Computer (Except AssemblyError Artifacts)) :=
  (Assembly.checkedAssemble c.machine.memory source).map fun
    | .ok (memory, artifacts) =>
      ⟨.ok artifacts, { c with machine := { c.machine with memory }, artifacts := some artifacts },
        [.memory memory]⟩
    | .error failure =>
      let cleared := failure.memory.clear
      ⟨.error failure.error,
        { c with machine := { c.machine with memory := cleared }, artifacts := none },
        [.refused failure.error, .memory cleared]⟩

/-- Starts the program, with the top of memory and the number of the run checked. -/
def checkedRun (c : Computer) : Option (Reply Computer Unit) := do
  let top ← Checked.difference? c.machine.memory.size 1
  let sp ← Checked.byte? top
  let generation ← Checked.next? c.machine.scheduler.generation
  let registers := RegisterFile.zero.set .sp sp
  let scheduler := { c.machine.scheduler.start with generation }
  return ⟨(), { c with machine := { c.machine with registers, scheduler } },
    .register .sp registers.sp :: registers.toList.map fun r => .register r.1 r.2⟩

/-- Executes one instruction, with its numbers checked. -/
def checkedStep (c : Computer) : Option (Reply Computer (Except Fault Unit)) :=
  c.machine.checkedStep.map fun r => ⟨r.answer, { c with machine := r.next }, r.notices⟩

/-- Lets time pass and executes one instruction, with its numbers checked. -/
def checkedUpdate (c : Computer) (elapsed : Nat) : Option (Reply Computer (Except Fault Bool)) :=
  (c.machine.scheduler.advance elapsed).bind fun s =>
    let later := c.withScheduler s
    if s.state = .running then
      later.checkedStep.map fun r => ⟨r.answer.map fun _ => true, r.next, r.notices⟩
    else some ⟨.ok false, later, []⟩

/-- Carries out a command with everything checked. What the remaining commands count are
moments only, which are checked anyway. -/
def checkedPerform (c : Computer) : Command → Option (Reply Computer Answer)
  | .assemble source => (c.checkedAssemble source).map (·.mapAnswer .assembled)
  | .run => c.checkedRun.map (·.mapAnswer fun _ => .done)
  | .step => c.checkedStep.map (·.mapAnswer .stepped)
  | .update elapsed => (c.checkedUpdate elapsed).map (·.mapAnswer .updated)
  | command => c.perform command

/-- At this moment, the instruction under the program counter would sleep beyond the last
one. -/
def SleepsBeyond (c : Computer) (now : Nat) : Prop :=
  c.machine.memory.load c.machine.registers.pc = .ok Opcode.sleep.code ∧
    ∃ units : UInt8, c.machine.memory.load (c.machine.registers.pc + 1) = .ok units ∧
      lastMoment < now + c.settings.sleepUnit * units.toNat

/-- A command counts a moment that is later than the last one. -/
def Overruns (c : Computer) : Command → Prop
  | .update elapsed =>
    lastMoment < c.machine.scheduler.clock + elapsed ∨
      ∃ s, c.machine.scheduler.advance elapsed = some s ∧ s.state = .running ∧
        c.SleepsBeyond (c.machine.scheduler.clock + elapsed)
  | .step => c.state = .running ∧ c.SleepsBeyond c.machine.scheduler.clock
  | .sleep (some t) => c.state ≠ .stopped ∧ lastMoment < c.machine.scheduler.clock + t
  | _ => False

/-- No sleep of a program is longer than the longest duration. -/
theorem Accounted.sleepUnit_mul_le (h : c.Accounted) :
    c.machine.scheduler.sleepUnit * 255 ≤ lastMoment := by
  have hunit := c.settings.sleepUnitMs.toNat_lt
  rw [h.sleepUnit, Settings.sleepUnit, milliseconds, lastMoment]
  unfold UInt64.size
  omega

/-- No write of the assembler is out of range. -/
theorem checkedAssemble_eq (c : Computer) (source : String) :
    c.checkedAssemble source = some (c.assemble source) := by
  rw [checkedAssemble, Assembly.checkedAssemble_eq, Option.map_some, assemble, Memory.assemble]
  cases Assembly.assemble c.machine.memory source with
  | ok result => rfl
  | error failure => rfl

/-- The top of memory is a byte, and a run has a number if it is not one too many. -/
theorem checkedRun_eq (hcount : c.machine.scheduler.generation + 1 < UInt64.size) :
    c.checkedRun = some c.run := by
  have hpos : 1 ≤ c.machine.memory.size := c.machine.memory.cells_pos
  have hsize : c.machine.memory.size ≤ 256 := c.machine.memory.cells_le
  have htop : c.machine.memory.size - 1 < UInt8.size := by
    unfold UInt8.size
    omega
  rw [checkedRun, Checked.difference?_of_le hpos, Option.bind_eq_bind, Option.bind_some,
    Checked.byte?_of_lt htop, Option.bind_eq_bind, Option.bind_some, Checked.next?_of_lt hcount]
  rfl

/-- The checks of a step pass, if it does not ask one question too many. -/
theorem checkedStep_eq (h : c.Accounted)
    (hcount : ∀ r, c.step = some r → r.next.machine.scheduler.nextSequence < UInt64.size) :
    c.checkedStep = c.step := by
  have hstep : c.machine.checkedStep = c.machine.step := by
    refine Machine.checkedStep_eq h.sleepUnit_mul_le fun r hr => ?_
    exact hcount ⟨r.answer, { c with machine := r.next }, r.notices⟩ (by rw [step, hr]; rfl)
  rw [checkedStep, hstep, step]

/-- The checks of a command pass, if it does not begin one run or ask one question too
many. -/
theorem checkedPerform_eq (h : c.Accounted) {command : Command}
    (hrun : command = .run → c.machine.scheduler.generation + 1 < UInt64.size)
    (hquestion : ∀ r, c.perform command = some r →
      r.next.machine.scheduler.nextSequence < UInt64.size) :
    c.checkedPerform command = c.perform command := by
  cases command with
  | assemble source =>
    rw [checkedPerform, checkedAssemble_eq]
    rfl
  | run =>
    rw [checkedPerform, checkedRun_eq (hrun rfl)]
    rfl
  | step =>
    have hstep : c.checkedStep = c.step := by
      refine checkedStep_eq h fun r hr => ?_
      exact hquestion (r.mapAnswer .stepped) (by rw [perform, hr]; rfl)
    rw [checkedPerform, hstep]
    rfl
  | update elapsed =>
    have hupdate : c.checkedUpdate elapsed = c.update elapsed := by
      unfold checkedUpdate update
      cases hs : c.machine.scheduler.advance elapsed with
      | none => rfl
      | some s =>
        rw [Option.bind_some, Option.bind_some]
        dsimp only
        split
        · rename_i hrunning
          have hlater := SameLoad.withScheduler c (Scheduler.sameNumbers_of_advance hs).sleepUnit
          rw [checkedStep_eq (hlater.accounted h)]
          intro r hr
          refine hquestion ⟨.updated (r.answer.map fun _ => true), r.next, r.notices⟩ ?_
          rw [perform, update, hs, Option.bind_some]
          dsimp only
          rw [if_pos hrunning, hr]
          rfl
        · rfl
    rw [checkedPerform, hupdate]
    rfl
  | stop => rfl
  | sleep timeout => rfl
  | wakeUp => rfl
  | deliver ticket text => rfl

/-- A step after some time has no reply exactly if the program runs then and would sleep
beyond the last moment. -/
theorem step_eq_none_iff (h : c.Accounted) {s : Scheduler}
    (hs : s.sleepUnit = c.machine.scheduler.sleepUnit) :
    (c.withScheduler s).step = none ↔ s.state = .running ∧ c.SleepsBeyond s.clock := by
  have hunit : c.settings.sleepUnit = s.sleepUnit := by
    rw [hs, h.sleepUnit]
  rw [step, Option.map_eq_none_iff, Machine.step_eq_none_iff, SleepsBeyond, hunit]
  constructor
  · rintro ⟨hrunning, hcode, hlate⟩
    exact ⟨hrunning, hcode, hlate⟩
  · rintro ⟨hrunning, hcode, hlate⟩
    exact ⟨hrunning, hcode, hlate⟩

/-- A command has no reply exactly if it counts a moment that is later than the last one. -/
theorem perform_eq_none_iff (h : c.Accounted) {command : Command} :
    c.perform command = none ↔ c.Overruns command := by
  cases command with
  | step =>
    rw [perform, Option.map_eq_none_iff]
    exact step_eq_none_iff h rfl
  | update elapsed =>
    rw [perform, Option.map_eq_none_iff, update, Overruns]
    cases hs : c.machine.scheduler.advance elapsed with
    | none =>
      have hlate := Scheduler.advance_eq_none_iff.mp hs
      simp [hlate]
    | some s =>
      have hintime : ¬lastMoment < c.machine.scheduler.clock + elapsed := by
        rw [← Scheduler.advance_eq_none_iff, hs]
        intro hnone
        cases hnone
      have hstep := step_eq_none_iff h (Scheduler.sameNumbers_of_advance hs).sleepUnit
      rw [(Scheduler.sameNumbers_of_advance hs).clock] at hstep
      rw [Option.bind_some]
      dsimp only
      split
      · rw [Option.map_eq_none_iff, hstep]
        simp [hintime]
      · rename_i hidle
        simp [hintime, hidle]
  | sleep timeout =>
    rw [perform, Option.map_eq_none_iff, sleep, Option.map_eq_none_iff,
      Scheduler.sleep_eq_none_iff]
    cases timeout with
    | none => simp [Overruns]
    | some t => simp [Overruns, state]
  | assemble | run | stop | wakeUp | deliver =>
    constructor
    · intro hnone
      cases hnone
    · intro hoverruns
      cases hoverruns

/-- Whatever a computer has carried out, with fewer than 2^64 runs and questions so far and
in the next command, that command passes all checks, so that it is out of range nowhere and
no number of it is too large or negative, unless it counts a moment that is later than the
last one, and then it has no reply. A listing passes its checks without exception, and no
sleep of a program is longer than the longest duration. -/
theorem fails_exactly_on_overrun {settings : Settings} {key : Random.Key}
    (hc : ofSettings settings key = .ok c) {commands : List Command}
    {r : Reply Computer (List Answer)} (hr : c.performAll commands = some r) {command : Command}
    (hruns : (commands ++ [command]).count .run < UInt64.size)
    (hquestions : ∀ r', r.next.perform command = some r' →
      (tickets (r.notices ++ r'.notices)).length < UInt64.size) :
    r.next.checkedPerform command = r.next.perform command ∧
      (r.next.checkedPerform command = none ↔ r.next.Overruns command) ∧
      r.next.machine.memory.checkedLines = some r.next.listing ∧
      ∀ units : UInt8, r.next.machine.scheduler.sleepUnit * units.toNat ≤ lastMoment := by
  have haccounted := (Reachable.performAll (.built hc) hr).accounted
  have hcounts := counts_of_performAll hr
  have hgeneration : c.machine.scheduler.generation = 0 := by
    rw [scheduler_of_ofSettings hc]
  have hsequence : c.machine.scheduler.nextSequence = 0 := by
    rw [scheduler_of_ofSettings hc]
  have hperform : r.next.checkedPerform command = r.next.perform command := by
    refine checkedPerform_eq haccounted ?_ ?_
    · intro hrun
      have hcounted := hcounts.runs
      rw [hrun, List.count_append, List.count_singleton_self] at hruns
      omega
    · intro r' hr'
      have hbound := hquestions r' hr'
      have hcounted := (hcounts.trans (counts_of_perform hr')).questions
      rw [tickets_append, List.length_append] at hbound
      omega
  refine ⟨hperform, ?_, r.next.machine.memory.checkedLines_eq, ?_⟩
  · rw [hperform]
    exact perform_eq_none_iff haccounted
  · intro units
    have hunits : units.toNat ≤ 255 := Nat.le_of_lt_succ units.toNat_lt
    exact Nat.le_trans (Nat.mul_le_mul_left _ hunits) haccounted.sleepUnit_mul_le

/-- A program that sleeps as long as it can, started five nanoseconds before the last
moment. -/
def lateStart : List Command :=
  [.update 18446744073709551615999999994, .assemble "SLEEP FF", .run]

/-- The computer that it has been started in, with the longest unit of sleep that can be
set. -/
def late : Computer where
  machine := {
    memory := ⟨[22, 255], 2, by decide, by decide, by decide⟩
    registers := { sp := 1 }
    scheduler := {
      state := .running, clock := 18446744073709551615999999994, generation := 1
      sleepUnit := milliseconds 18446744073709551615 }
    generator := { key := 0 } }
  settings := { memorySize := 2, sleepUnitMs := 18446744073709551615 }
  artifacts := some ⟨[], [(1, 0)], 2⟩

/-- Its step has no reply, but a suspension that ends at the last moment has one. -/
theorem lateStart_fails : ∃ c answer notices, ofSettings late.settings 0 = .ok c ∧
    c.performAll lateStart = some ⟨answer, late, notices⟩ ∧ late.checkedPerform .step = none ∧
    late.checkedPerform (.sleep (some 5)) ≠ none := by
  obtain ⟨c, hc, answer, notices, hr, htickets⟩ : ∃ c, ofSettings late.settings 0 = .ok c ∧
      ∃ answer notices, c.performAll lateStart = some ⟨answer, late, notices⟩ ∧
        tickets notices = [] :=
    ⟨_, rfl, _, _, rfl, rfl⟩
  have hlate : late.Overruns .step := ⟨rfl, rfl, 255, rfl, by decide⟩
  have hintime : ¬late.Overruns (.sleep (some 5)) := fun h => absurd h.2 (by decide)
  have hnone : late.perform .step = none :=
    (perform_eq_none_iff (Reachable.performAll (.built hc) hr).accounted).mpr hlate
  obtain ⟨-, hstep, -⟩ := fails_exactly_on_overrun hc hr
    (by decide : (lateStart ++ [Command.step]).count Command.run < UInt64.size) (by
      intro r' hr'
      cases hnone.symm.trans hr')
  obtain ⟨-, hsleep, -⟩ := fails_exactly_on_overrun hc hr
    (by decide : (lateStart ++ [Command.sleep (some 5)]).count Command.run < UInt64.size) (by
      intro r' hr'
      cases performs_of_perform hr' with
      | suspended hs =>
        rw [tickets_append, htickets]
        exact (by decide : 0 < UInt64.size))
  exact ⟨c, answer, notices, hc, hr, hstep.mpr hlate, fun h => hintime (hsleep.mp h)⟩

end ByteMachine.Computer
