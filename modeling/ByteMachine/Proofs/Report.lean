import ByteMachine.Proofs.Histories
import ByteMachine.Proofs.Layout.Order
import ByteMachine.Proofs.Loading
import ByteMachine.Proofs.Machine.Fixtures

/-!
# Reports that stay true

A computer keeps the report on its program apart from the memory that it is about. Loading
a source replaces both, or empties memory and drops the report, and nothing else touches
the report or the end of the program, although a running program may write over all of it.
So memory is always as large as the settings say, and a report, where there is one, agrees
with where the program ends.
-/

namespace ByteMachine.Computer

variable {c : Computer}

/-- A computer that is as its settings say, with a report that agrees with memory, or with
no report and no program. -/
structure Accounted (c : Computer) : Prop where
  /-- Memory is as large as it is set. -/
  size : c.machine.memory.size = c.settings.memorySize
  /-- A unit of sleep is as long as it is set. -/
  sleepUnit : c.machine.scheduler.sleepUnit = c.settings.sleepUnit
  /-- Without a report there is no program. -/
  empty : c.artifacts = none → c.machine.memory.pointer = 0
  /-- A report agrees with memory. -/
  report : ∀ a, c.artifacts = some a → a.Describes c.machine.memory

/-- What no command but an assembly changes: the fixtures of the machine, the report and the
settings. -/
structure SameLoad (c d : Computer) : Prop where
  /-- Memory is as large, and the program ends at the same cell. -/
  fixtures : c.machine.SameFixtures d.machine
  /-- The report is the same. -/
  artifacts : d.artifacts = c.artifacts
  /-- The settings are the same. -/
  settings : d.settings = c.settings

namespace SameLoad

theorem refl (c : Computer) : c.SameLoad c := ⟨.refl c.machine, rfl, rfl⟩

theorem trans {d e : Computer} (h : c.SameLoad d) (h' : d.SameLoad e) : c.SameLoad e :=
  ⟨h.fixtures.trans h'.fixtures, h'.artifacts.trans h.artifacts, h'.settings.trans h.settings⟩

/-- A change of the run state that keeps the unit of sleep keeps the rest as well. -/
theorem withScheduler (c : Computer) {s : Scheduler}
    (hs : s.sleepUnit = c.machine.scheduler.sleepUnit) : c.SameLoad (c.withScheduler s) :=
  ⟨.withScheduler c.machine hs, rfl, rfl⟩

/-- A computer that agrees with its report and settings goes on doing so. -/
theorem accounted {d : Computer} (h : c.SameLoad d) (hc : c.Accounted) : d.Accounted where
  size := by rw [h.settings, h.fixtures.size, hc.size]
  sleepUnit := by rw [h.settings, h.fixtures.sleepUnit, hc.sleepUnit]
  empty hnone := by
    rw [h.fixtures.pointer]
    exact hc.empty (h.artifacts.symm.trans hnone)
  report a ha := by
    have hdescribes := hc.report a (h.artifacts.symm.trans ha)
    refine ⟨?_, hdescribes.labels, hdescribes.increasing, hdescribes.first, hdescribes.inside⟩
    rw [h.fixtures.pointer, hdescribes.length]

end SameLoad

/-- A delivery keeps what has been loaded, whether or not the answer is taken. -/
theorem sameLoad_deliver (c : Computer) (ticket : Ticket) (text : String) :
    c.SameLoad (c.deliver ticket text).next := by
  unfold deliver
  split
  · exact .refl c
  · split
    · exact .refl c
    · exact ⟨⟨rfl, rfl, (Scheduler.sameNumbers_wakeUp _).sleepUnit⟩, rfl, rfl⟩

/-- Every command but an assembly keeps what has been loaded. -/
theorem sameLoad_of_perform {command : Command} (hcommand : ∀ source, command ≠ .assemble source)
    {r : Reply Computer Answer} (hr : c.perform command = some r) : c.SameLoad r.next := by
  cases performs_of_perform hr with
  | assembled source => exact absurd rfl (hcommand source)
  | started => exact ⟨⟨rfl, rfl, rfl⟩, rfl, rfl⟩
  | stopped => exact .withScheduler c rfl
  | suspended hs => exact .withScheduler c (Scheduler.sameNumbers_of_sleep hs).sleepUnit
  | woken => exact .withScheduler c (Scheduler.sameNumbers_wakeUp _).sleepUnit
  | stepped hstep => exact ⟨Machine.sameFixtures_of_step hstep, rfl, rfl⟩
  | passed hs hidle => exact .withScheduler c (Scheduler.sameNumbers_of_advance hs).sleepUnit
  | updated hs hrunning hstep =>
    -- first time passes, then there is a step
    have hlater := SameLoad.withScheduler c (Scheduler.sameNumbers_of_advance hs).sleepUnit
    exact hlater.trans ⟨Machine.sameFixtures_of_step hstep, rfl, rfl⟩
  | delivered ticket text => exact sameLoad_deliver c ticket text

/-- A history without an assembly keeps what has been loaded. -/
theorem sameLoad_of_performAll {commands : List Command}
    (hcommands : ∀ command ∈ commands, ∀ source, command ≠ .assemble source)
    {r : Reply Computer (List Answer)} (hr : c.performAll commands = some r) :
    c.SameLoad r.next := by
  induction commands generalizing c r with
  | nil =>
    cases hr
    exact .refl c
  | cons command commands ih =>
    obtain ⟨first, rest, hfirst, hlater, heq⟩ := performAll_cons hr
    have hkept := sameLoad_of_perform (hcommands command List.mem_cons_self) hfirst
    have hrest := ih (fun command hmem => hcommands command (List.mem_cons_of_mem _ hmem)) hlater
    rw [heq]
    exact hkept.trans hrest

/-- An assembly leaves a report that agrees with memory, or neither report nor program. -/
theorem accounted_assemble (hc : c.Accounted) (source : String) :
    (c.assemble source).next.Accounted := by
  cases h : c.machine.memory.assemble source with
  | mk n result =>
    cases result with
    | error e =>
      rw [assemble_of_error h]
      exact ⟨(Memory.size_clear _).trans hc.size, hc.sleepUnit, fun _ => rfl, nofun⟩
    | ok a =>
      have hsize := c.machine.memory.size_assemble source
      rw [h] at hsize
      have hdescribes := Layout.describes_of_assemble (Layout.memory_assemble_eq_ok_iff.mp h)
      rw [assemble_of_ok h]
      refine ⟨hsize.trans hc.size, hc.sleepUnit, nofun, ?_⟩
      intro a' ha
      cases ha
      exact hdescribes

/-- Every command keeps a computer as its settings and its report say. -/
theorem accounted_perform (hc : c.Accounted) {command : Command} {r : Reply Computer Answer}
    (hr : c.perform command = some r) : r.next.Accounted := by
  by_cases hassemble : ∃ source, command = .assemble source
  · obtain ⟨source, rfl⟩ := hassemble
    cases hr
    exact accounted_assemble hc source
  · have hcommand (source : String) : command ≠ .assemble source :=
      fun heq => hassemble ⟨source, heq⟩
    exact (sameLoad_of_perform hcommand hr).accounted hc

/-- A new computer has no program and no report. -/
theorem accounted_of_ofSettings {settings : Settings} {key : Random.Key}
    (h : ofSettings settings key = .ok c) : c.Accounted := by
  unfold ofSettings Memory.ofSize at h
  split at h
  · rename_i memory hmemory
    split at hmemory
    · cases hmemory
      cases h
      exact ⟨List.length_replicate, rfl, fun _ => rfl, nofun⟩
    · cases hmemory
  · cases h

/-- Every computer that can be reached is as its settings and its report say. -/
theorem Reachable.accounted (hc : c.Reachable) : c.Accounted := by
  induction hc with
  | built h => exact accounted_of_ofSettings h
  | performed hc hr ih => exact accounted_perform ih hr

/-- In every computer that can be reached, memory has as many cells as are set, between one
and 256, and the program ends inside. Either there is no report, and no program, or the
report agrees with memory: its length is that of the program, its labels are not behind
the end, and its lines begin at zero and follow one another in front of the end. However
the program then runs and whatever it writes, nothing but another assembly moves the end
of the program or changes the report. -/
theorem report_agrees_with_memory (hc : c.Reachable) :
    c.machine.memory.size = c.settings.memorySize ∧ 1 ≤ c.machine.memory.size ∧
      c.machine.memory.size ≤ 256 ∧ c.machine.memory.pointer ≤ c.machine.memory.size ∧
      ((c.artifacts = none ∧ c.machine.memory.pointer = 0) ∨
        ∃ a, c.artifacts = some a ∧ a.Describes c.machine.memory) ∧
      ∀ commands r, (∀ command ∈ commands, ∀ source, command ≠ .assemble source) →
        c.performAll commands = some r →
        r.next.machine.memory.pointer = c.machine.memory.pointer ∧
          r.next.artifacts = c.artifacts := by
  have haccounted := hc.accounted
  refine ⟨haccounted.size, c.machine.memory.cells_pos, c.machine.memory.cells_le,
    c.machine.memory.pointer_le, ?_, ?_⟩
  · cases hartifacts : c.artifacts with
    | none => exact .inl ⟨rfl, haccounted.empty hartifacts⟩
    | some a => exact .inr ⟨a, rfl, haccounted.report a hartifacts⟩
  · intro commands r hcommands hr
    have hkept := sameLoad_of_performAll hcommands hr
    exact ⟨hkept.fixtures.pointer, hkept.artifacts⟩

/-- A program that writes over its own first byte, with a label behind its end. -/
def selfWriting : List Command := [.assemble "@x: MOVE 00, RA\nJUMP @x\n@end:", .run]

/-- The code that it has written over is no longer there, but its report still agrees with
where it ends. -/
theorem selfWriting_report_agrees : ∃ c r s, ofSettings { memorySize := 4 } 0 = .ok c ∧
    c.performAll selfWriting = some r ∧ r.next.performAll [.step] = some s ∧
    r.next.machine.memory.cells = [2, 0, 11, 0] ∧ s.next.machine.memory.cells = [0, 0, 11, 0] ∧
    r.next.artifacts = some ⟨[("x", 0), ("end", 4)], [(1, 0), (2, 2)], 4⟩ ∧
    s.next.artifacts = r.next.artifacts ∧ s.next.machine.memory.pointer = 4 ∧
    ∃ a, r.next.artifacts = some a ∧ a.Describes r.next.machine.memory := by
  refine ⟨_, _, _, rfl, rfl, rfl, rfl, rfl, rfl, ?_⟩
  have hreachable := Reachable.performAll
    (.built (rfl : ofSettings { memorySize := 4 } 0 = .ok _))
    (rfl : Computer.performAll _ selfWriting = some _)
  obtain ⟨-, -, -, -, hreport, hkept⟩ := report_agrees_with_memory hreachable
  obtain ⟨hpointer, hartifacts⟩ := hkept [.step] _ (by simp) rfl
  rcases hreport with ⟨hnone, -⟩ | hdescribes
  · cases hnone
  · exact ⟨hartifacts, hpointer, hdescribes⟩

end ByteMachine.Computer
