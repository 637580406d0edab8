import ByteMachine.Proofs.Machine.Cycle
import ByteMachine.Proofs.Machine.Footprint
import ByteMachine.Proofs.Scheduler.Operations

/-!
# What no instruction changes

An instruction may write any cell and change most of the run state, but it never makes
memory larger or smaller, never moves the end of the program, and never changes how long a
unit of sleep is. So what has been fixed when a computer was built, or when its program was
loaded, stays fixed however the program runs.
-/

namespace ByteMachine

/-- Machines that agree in what no instruction changes. -/
structure Machine.SameFixtures (m m' : Machine) : Prop where
  /-- Memory has as many cells. -/
  size : m'.memory.size = m.memory.size
  /-- The program ends at the same cell. -/
  pointer : m'.memory.pointer = m.memory.pointer
  /-- A unit of sleep is as long. -/
  sleepUnit : m'.scheduler.sleepUnit = m.scheduler.sleepUnit

namespace Machine

open ByteMachine.Action (Meets)

variable {m m' m'' : Machine}

namespace SameFixtures

theorem refl (m : Machine) : m.SameFixtures m := ⟨rfl, rfl, rfl⟩

theorem trans (h : m.SameFixtures m') (h' : m'.SameFixtures m'') : m.SameFixtures m'' :=
  ⟨h'.size.trans h.size, h'.pointer.trans h.pointer, h'.sleepUnit.trans h.sleepUnit⟩

/-- A change of the run state that keeps the unit of sleep keeps the rest as well. -/
theorem withScheduler (m : Machine) {s : Scheduler}
    (hs : s.sleepUnit = m.scheduler.sleepUnit) : m.SameFixtures { m with scheduler := s } :=
  ⟨rfl, rfl, hs⟩

/-- Writing a cell makes memory neither larger nor smaller. -/
theorem store {memory : Memory} {address value : UInt8}
    (h : m.memory.store address value = .ok memory) : m.SameFixtures { m with memory } := by
  unfold Memory.store at h
  split at h
  · cases h
    exact ⟨Memory.size_setCell _ _ _, rfl, rfl⟩
  · cases h

end SameFixtures

/-- What an operation is put together of keeps the fixtures. -/
theorem sameFixtures_of_uses {o : Opcode} {α : Type} {x : Action α} (h : o.Uses x) :
    Meets (fun m m' _ => m.SameFixtures m') x := by
  induction h with
  | pure | machine | register | writeAll | putOut | randomByte =>
    exact fun m => ⟨rfl, rfl, rfl⟩
  | bind hx hf ihx ihf =>
    exact ihx.bind ihf (fun m m' _ hfirst => hfirst) fun m m' m'' _ _ hfirst hrest =>
      hfirst.trans hrest
  | load address =>
    intro m
    unfold Action.load
    split <;> exact .refl m
  | store hstores address value =>
    intro m
    unfold Action.store
    split
    · rename_i memory hmemory
      exact .store hmemory
    · exact .refl m
  | sleep hsuspends timeout =>
    intro m
    unfold Action.sleep
    split
    · rename_i s hs
      exact .withScheduler m (Scheduler.sameNumbers_of_sleep hs).sleepUnit
    · exact .refl m
  | requestInput hinput => exact fun m => .withScheduler m rfl
  | halt hstop => exact fun m => .withScheduler m rfl

/-- A step keeps the fixtures, whether or not the instruction fails. -/
theorem sameFixtures_of_step {r : Reply Machine (Except Fault Unit)} (hr : m.step = some r) :
    m.SameFixtures r.next := by
  have hcycle : m.SameFixtures (cycle m).machine :=
    meets_cycle (fun m => .refl m) (fun o => sameFixtures_of_uses o.uses_complete) m
  rcases step_cases hr with ⟨-, rfl⟩ | ⟨-, -, ⟨-, hnext⟩ | ⟨fault, -, hnext⟩⟩
  · exact .refl m
  · rw [hnext]
    exact hcycle
  · rw [hnext]
    exact hcycle.trans (.withScheduler _ rfl)

end Machine

end ByteMachine
