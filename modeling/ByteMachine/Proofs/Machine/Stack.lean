import ByteMachine.Proofs.Machine.Action
import ByteMachine.Proofs.Memory

/-!
# The stack

The stack grows downwards from the top of memory, and its pointer is a byte that wraps
around. A push needs the cell under the pointer. A drop never fails: it moves the pointer
only where that leads to a cell, and takes a pointer at the top of memory or above it for
that of an empty stack. So a drop behind a push undoes it, with the cell left at zero,
unless the push has used the lowest cell. Then the pointer has wrapped around to 255, which
is not below the top of any memory, and the drop does nothing.
-/

namespace ByteMachine

namespace Machine

/-- A machine that has put its accumulator on the stack. -/
def pushed (m : Machine) : Machine :=
  { m with
    memory := m.memory.setCell m.registers.sp.toNat m.registers.ra
    registers := m.registers.set .sp (m.registers.sp - 1) }

/-- A machine that has dropped the top of its stack. -/
def popped (m : Machine) : Machine :=
  { m with
    memory := m.memory.setCell (m.registers.sp + 1).toNat 0
    registers := m.registers.set .sp (m.registers.sp + 1) }

/-- Dropping what has just been pushed leaves zero in its cell and all else as it was. -/
theorem popped_pushed (m : Machine) :
    m.pushed.popped = { m with memory := m.memory.setCell m.registers.sp.toNat 0 } := by
  have hback : m.pushed.registers.sp + 1 = m.registers.sp := UInt8.sub_add_cancel ..
  rw [popped, hback]
  apply Machine.ext
  · exact Memory.setCell_setCell ..
  · apply RegisterFile.ext <;> rfl
  · rfl
  · rfl
  · rfl

end Machine

namespace Opcode

variable {m : Machine}

/-- A push onto a cell that exists goes through. -/
theorem run_push_of_lt (h : m.registers.sp.toNat < m.memory.size) :
    push.run m = ⟨.ok (), m.pushed,
      [.memory m.pushed.memory, .register .sp (m.registers.sp - 1)]⟩ := by
  have hsp : Action.register .sp m = ⟨.ok m.registers.sp, m, []⟩ := rfl
  have hra : Action.register .ra m = ⟨.ok m.registers.ra, m, []⟩ := rfl
  have hstore : Action.store m.registers.sp m.registers.ra m =
      ⟨.ok (), { m with memory := m.pushed.memory }, [.memory m.pushed.memory]⟩ :=
    Action.store_of_lt h _
  have hmove : Action.decrement .sp 1 { m with memory := m.pushed.memory } =
      ⟨.ok (), m.pushed, [.register .sp (m.registers.sp - 1)]⟩ := by
    have hdown : m.registers.sp - 1 = m.registers.sp + (0 - 1) := by
      rw [UInt8.zero_sub, UInt8.sub_eq_add_neg]
    rw [Action.decrement, Action.increment_apply (by decide), Machine.pushed, hdown]
    rfl
  exact Action.bind_eq hsp (Action.bind_eq hra (Action.bind_eq hstore hmove))

/-- A push beyond memory fails, with nothing done. -/
theorem run_push_of_le (h : m.memory.size ≤ m.registers.sp.toNat) :
    push.run m =
      ⟨.error (.fault (.memory (.outOfBounds m.registers.sp.toNat m.memory.size))), m, []⟩ := by
  have hsp : Action.register .sp m = ⟨.ok m.registers.sp, m, []⟩ := rfl
  have hra : Action.register .ra m = ⟨.ok m.registers.ra, m, []⟩ := rfl
  exact Action.bind_eq hsp
    (Action.bind_eq hra (Action.bind_error (Action.store_of_size_le h _)))

/-- A drop below the top of memory goes through. -/
theorem run_pop_of_lt (h : m.registers.sp.toNat < m.memory.size - 1) :
    pop.run m = ⟨.ok (), m.popped,
      [.register .sp (m.registers.sp + 1), .memory m.popped.memory]⟩ := by
  have hmachine : Action.machine m = ⟨.ok m, m, []⟩ := rfl
  let moved : Machine := { m with registers := m.registers.set .sp (m.registers.sp + 1) }
  have hmove : Action.increment .sp 1 m =
      ⟨.ok (), moved, [.register .sp (m.registers.sp + 1)]⟩ :=
    Action.increment_apply (by decide) 1 m
  have hsp : Action.register .sp moved = ⟨.ok (m.registers.sp + 1), moved, []⟩ := rfl
  have hup : (m.registers.sp + 1).toNat < moved.memory.size := by
    have hle : m.memory.size ≤ 256 := m.memory.cells_le
    have hsize : moved.memory.size = m.memory.size := rfl
    rw [UInt8.toNat_add, UInt8.toNat_one, hsize]
    omega
  have hstore : Action.store (m.registers.sp + 1) 0 moved =
      ⟨.ok (), m.popped, [.memory m.popped.memory]⟩ :=
    Action.store_of_lt hup 0
  refine Action.bind_eq hmachine ?_
  rw [if_pos h]
  exact Action.bind_eq hmove (Action.bind_eq hsp hstore)

/-- A drop at the top of memory or above it does nothing. -/
theorem run_pop_of_le (h : m.memory.size - 1 ≤ m.registers.sp.toNat) :
    pop.run m = ⟨.ok (), m, []⟩ := by
  have hmachine : Action.machine m = ⟨.ok m, m, []⟩ := rfl
  refine Action.bind_eq hmachine ?_
  rw [if_neg (Nat.not_lt.mpr h)]
  rfl

/-- A drop never fails. -/
theorem outcome_run_pop (m : Machine) : (pop.run m).outcome = .ok () := by
  by_cases h : m.registers.sp.toNat < m.memory.size - 1
  · rw [run_pop_of_lt h]
  · rw [run_pop_of_le (Nat.not_lt.mp h)]

/-- A push goes through exactly if there is a cell under the stack pointer. -/
theorem outcome_run_push_iff :
    (push.run m).outcome = .ok () ↔ m.registers.sp.toNat < m.memory.size := by
  by_cases h : m.registers.sp.toNat < m.memory.size
  · rw [run_push_of_lt h]
    simp [h]
  · rw [run_push_of_le (Nat.not_lt.mp h)]
    simp [h]

/-- A drop behind a push that has gone through never fails. It undoes the push, as if zero
had been stored in the cell and nothing else had been done, unless the push has used the
lowest cell. Then the stack pointer stays at 255, as the push has left it, and so does all
else. -/
theorem pop_undoes_push (h : (push.run m).outcome = .ok ()) :
    let between := (push.run m).machine
    (pop.run between).outcome = .ok () ∧
      (m.registers.sp ≠ 0 → ∃ n, m.memory.store m.registers.sp 0 = .ok n ∧
        (pop.run between).machine = { m with memory := n }) ∧
      (m.registers.sp = 0 →
        between.registers.sp = 255 ∧ pop.run between = ⟨.ok (), between, []⟩) := by
  have hcell := outcome_run_push_iff.mp h
  have hsize : m.pushed.memory.size = m.memory.size := Memory.size_setCell ..
  rw [run_push_of_lt hcell]
  refine ⟨outcome_run_pop _, ?_, ?_⟩
  · intro hsp
    have hbelow : m.pushed.registers.sp.toNat < m.pushed.memory.size - 1 := by
      have hmoved : m.pushed.registers.sp = m.registers.sp - 1 := rfl
      have hpos : m.registers.sp.toNat ≠ 0 := fun hzero => hsp (UInt8.toNat_inj.mp hzero)
      rw [hsize, hmoved, UInt8.toNat_sub, UInt8.toNat_one]
      omega
    refine ⟨m.memory.setCell m.registers.sp.toNat 0, ?_, ?_⟩
    · rw [Memory.store, if_pos hcell]
    · rw [run_pop_of_lt hbelow]
      exact m.popped_pushed
  · intro hsp
    have hwrapped : m.pushed.registers.sp = 255 := by
      have hmoved : m.pushed.registers.sp = m.registers.sp - 1 := rfl
      rw [hmoved, hsp]
      rfl
    refine ⟨hwrapped, run_pop_of_le ?_⟩
    have hle : m.memory.size ≤ 256 := m.memory.cells_le
    have hlast : (255 : UInt8).toNat = 255 := rfl
    rw [hsize, hwrapped, hlast]
    omega

/-- A running machine with so many cells and this stack pointer, and a number to push. -/
def stacking (cells : List UInt8) (pos : 0 < cells.length) (le : cells.length ≤ maxMemorySize)
    (sp : UInt8) : Machine where
  memory := ⟨cells, 0, pos, le, Nat.zero_le _⟩
  registers := { ra := 42, sp }
  scheduler := { state := .running, sleepUnit := 0 }
  generator := { key := 0 }

/-- From the top of a memory of two cells the stack pointer comes back. -/
theorem stacking_pop_undoes_push :
    let m := stacking [15, 16] (by decide) (by decide) 1
    (push.run m).outcome = .ok () ∧ (push.run m).machine.registers.sp = 0 ∧
      (pop.run (push.run m).machine).machine.registers = m.registers ∧
      (pop.run (push.run m).machine).machine.memory.cells = [15, 0] := by
  have hpushed : (push.run (stacking [15, 16] (by decide) (by decide) 1)).outcome = .ok () := rfl
  obtain ⟨-, hundone, -⟩ := pop_undoes_push hpushed
  obtain ⟨n, hn, hmachine⟩ := hundone (by decide)
  cases hn
  have hregisters := congrArg Machine.registers hmachine
  have hcells := congrArg (fun m => m.memory.cells) hmachine
  exact ⟨hpushed, rfl, hregisters, hcells⟩

/-- In a memory of one cell, where a run begins with the stack pointer at zero, it does not
come back, and neither is the cell left at zero: the push has used the lowest cell. -/
theorem stacking_pop_keeps_push :
    let m := stacking [15] (by decide) (by decide) 0
    let n := (pop.run (push.run m).machine).machine
    (push.run m).outcome = .ok () ∧ n.registers.sp ≠ m.registers.sp ∧ n.registers.sp = 255 ∧
      n.memory.load m.registers.sp = .ok 42 :=
  ⟨rfl, by decide, rfl, rfl⟩

end Opcode

end ByteMachine
