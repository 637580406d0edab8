import ByteMachine.Proofs.Effects

/-!
# The stack of a whole run

A run begins with an empty stack, a push makes the stack deeper by one cell, and a drop takes
one cell off it, if there is one. As long as it has never been deeper than one cell less than
memory, nothing but its depth says where the stack pointer is: the cells that have been pushed
and not been dropped lie at the top of memory, the latest one lowest, and the pointer is right
below them. It does not matter what the program does besides, and what happens to the run from
outside.
-/

namespace ByteMachine

namespace Deed

/-- How deep the stack is behind a deed, if it was so deep before. Nothing is dropped from an
empty stack. -/
def depth (before : Nat) : Deed → Nat
  | start => 0
  | execute _ .push => before + 1
  | execute _ .pop => before - 1
  | _ => before

/-- The cells on the stack behind a deed, the latest first, if these were there before. A push
takes the one under the stack pointer. -/
def stacked (sp : UInt8) (before : List UInt8) : Deed → List UInt8
  | start => []
  | execute _ .push => sp :: before
  | execute _ .pop => before.tail
  | _ => before

theorem length_stacked (sp : UInt8) (before : List UInt8) (d : Deed) :
    (d.stacked sp before).length = d.depth before.length := by
  unfold stacked depth
  split
  · rfl
  · rfl
  · exact List.length_tail
  · rfl

/-- Operations that neither push nor drop leave the stack as it is. -/
theorem stacked_of_ne {sp address : UInt8} {before : List UInt8} {o : Opcode} (hpush : o ≠ .push)
    (hpop : o ≠ .pop) : (execute address o).stacked sp before = before := by
  cases o <;> first | rfl | contradiction

end Deed

/-- How deep the stack is behind deeds, if it was empty before. -/
def stackDepth (ds : List Deed) : Nat := ds.foldl Deed.depth 0

/-- The cells on the stack behind commands, the latest first, if these were there before. -/
def Computer.stacked (c : Computer) (before : List UInt8) (commands : List Command) :
    List UInt8 :=
  c.noted (fun m cells d => d.stacked m.registers.sp cells) before commands

namespace Machine

/-- The cells of the stack lie at the top of memory, and the stack pointer is below them. -/
structure Stacks (size : Nat) (cells : List UInt8) (m : Machine) : Prop where
  /-- Memory has so many cells. -/
  memory : m.memory.size = size
  /-- The stack pointer leaves room for the stack above it. -/
  pointer : m.registers.sp.toNat + cells.length + 1 = size
  /-- The stack takes the highest cells, the latest one lowest. -/
  layout : cells.map UInt8.toNat = List.range' (size - cells.length) cells.length

variable {m : Machine} {size : Nat} {cells : List UInt8} {address : UInt8}
  {r : Reply Machine (Except Fault Unit)}

namespace Stacks

/-- The stack is where it was if memory is as large and the stack pointer has not moved. -/
theorem congr (h : m.Stacks size cells) {m' : Machine} (hsize : m'.memory.size = m.memory.size)
    (hsp : m'.registers.sp = m.registers.sp) : m'.Stacks size cells where
  memory := hsize.trans h.memory
  pointer := by
    rw [hsp]
    exact h.pointer
  layout := h.layout

/-- A push below an incomplete stack makes it deeper. -/
theorem pushed (h : m.Stacks size cells) (hroom : cells.length + 1 ≤ size - 1) :
    m.pushed.advanced.Stacks size (m.registers.sp :: cells) := by
  have hpointer := h.pointer
  have hmoved : m.pushed.advanced.registers.sp = m.registers.sp - 1 := rfl
  have hdown : (m.registers.sp - 1).toNat + 1 = m.registers.sp.toNat := by
    have hlt := m.registers.sp.toNat_lt
    rw [UInt8.toNat_sub, UInt8.toNat_one]
    omega
  refine ⟨(Memory.size_setCell ..).trans h.memory, ?_, ?_⟩
  · rw [hmoved, List.length_cons]
    omega
  · have hcell : m.registers.sp.toNat = size - (cells.length + 1) := by omega
    have hnext : size - (cells.length + 1) + 1 = size - cells.length := by omega
    rw [List.map_cons, h.layout, List.length_cons, List.range'_succ, hcell, hnext]

/-- A drop from a stack that is not empty makes it less deep. -/
theorem popped {cell : UInt8} (h : m.Stacks size (cell :: cells)) :
    m.popped.advanced.Stacks size cells := by
  have hpointer := h.pointer
  have hcells := h.layout
  rw [List.length_cons] at hpointer hcells
  have hmoved : m.popped.advanced.registers.sp = m.registers.sp + 1 := rfl
  have hup : (m.registers.sp + 1).toNat = m.registers.sp.toNat + 1 := by
    have hle : m.memory.size ≤ 256 := m.memory.cells_le
    have hsize := h.memory
    rw [UInt8.toNat_add, UInt8.toNat_one]
    omega
  refine ⟨(Memory.size_setCell ..).trans h.memory, ?_, ?_⟩
  · rw [hmoved, hup]
    omega
  · have hnext : size - (cells.length + 1) + 1 = size - cells.length := by omega
    rw [List.map_cons, List.range'_succ, hnext] at hcells
    exact (List.cons.inj hcells).2

/-- A push goes through as long as there is room. -/
theorem step_push (h : m.Stacks size cells) (hdeed : m.deed = .execute address .push) :
    ∃ ns, m.step = some ⟨.ok (), m.pushed.advanced, ns⟩ := by
  have hcell : m.registers.sp.toNat < m.memory.size := by
    have hpointer := h.pointer
    have hsize := h.memory
    omega
  exact ⟨_, step_of_run hdeed rfl (Opcode.run_push_of_lt hcell)⟩

/-- A drop takes the latest cell off the stack. -/
theorem step_pop {cell : UInt8} (h : m.Stacks size (cell :: cells))
    (hdeed : m.deed = .execute address .pop) :
    ∃ ns, m.step = some ⟨.ok (), m.popped.advanced, ns⟩ := by
  have hbelow : m.registers.sp.toNat < m.memory.size - 1 := by
    have hpointer := h.pointer
    have hsize := h.memory
    rw [List.length_cons] at hpointer
    omega
  exact ⟨_, step_of_run hdeed rfl (Opcode.run_pop_of_lt hbelow)⟩

/-- A drop from an empty stack only moves the program counter on. -/
theorem step_pop_nil (h : m.Stacks size []) (hdeed : m.deed = .execute address .pop) :
    ∃ ns, m.step = some ⟨.ok (), m.advanced, ns⟩ := by
  have htop : m.memory.size - 1 ≤ m.registers.sp.toNat := by
    have hpointer := h.pointer
    have hsize := h.memory
    rw [List.length_nil] at hpointer
    omega
  exact ⟨_, step_of_run hdeed rfl (Opcode.run_pop_of_le htop)⟩

/-- A step keeps the stack at the top of memory, as long as there is room. -/
theorem step (h : m.Stacks size cells) {o : Opcode} (hdeed : m.deed = .execute address o)
    (hroom : ((Deed.execute address o).stacked m.registers.sp cells).length ≤ size - 1)
    (hr : m.step = some r) :
    r.next.Stacks size ((Deed.execute address o).stacked m.registers.sp cells) := by
  by_cases hpush : o = .push
  · subst hpush
    obtain ⟨ns, hstep⟩ := h.step_push hdeed
    cases hstep.symm.trans hr
    exact h.pushed hroom
  by_cases hpop : o = .pop
  · subst hpop
    cases cells with
    | nil =>
      obtain ⟨ns, hstep⟩ := h.step_pop_nil hdeed
      cases hstep.symm.trans hr
      exact h.congr rfl rfl
    | cons cell cells =>
      obtain ⟨ns, hstep⟩ := h.step_pop hdeed
      cases hstep.symm.trans hr
      exact h.popped
  · have hsp : Register.sp ∉ Register.pc :: o.targets := by
      intro hmem
      have htarget := Opcode.sp_mem_targets_iff.mp ((List.mem_cons.mp hmem).resolve_left nofun)
      simp [hpush, hpop] at htarget
    rw [Deed.stacked_of_ne hpush hpop]
    exact h.congr (sameFixtures_of_step hr).size ((confined_of_step hdeed hr).1 _ hsp)

end Stacks

end Machine

namespace Computer

open Machine (Stacks)

variable {c : Computer} {size : Nat} {cells : List UInt8}

/-- A run begins with an empty stack. -/
theorem stacks_run (c : Computer) : c.run.next.machine.Stacks c.machine.memory.size [] := by
  have hpos : 0 < c.machine.memory.size := c.machine.memory.cells_pos
  have hle : c.machine.memory.size ≤ 256 := c.machine.memory.cells_le
  have hsp : c.run.next.machine.registers.sp = UInt8.ofNat (c.machine.memory.size - 1) := rfl
  refine ⟨rfl, ?_, rfl⟩
  rw [hsp, UInt8.toNat_ofNat', List.length_nil]
  omega

/-- A command keeps the stack at the top of memory, as long as there is room. -/
theorem stacks_of_perform (h : c.machine.Stacks size cells) {command : Command}
    (hroom : ((c.deed command).stacked c.machine.registers.sp cells).length ≤ size - 1)
    {r : Reply Computer Answer} (hr : c.perform command = some r) :
    r.next.machine.Stacks size ((c.deed command).stacked c.machine.registers.sp cells) := by
  cases hdeed : c.deed command with
  | rest => exact h.congr (size_of_perform hr) (get_of_rest hdeed hr (s := .sp) nofun)
  | start =>
    cases eq_run_of_start hdeed
    cases hr
    have hrun := c.stacks_run
    rw [h.memory] at hrun
    exact hrun
  | execute address o =>
    rw [hdeed] at hroom
    obtain ⟨s, -, hexecuted, hperform⟩ := perform_of_execute hdeed
    rw [hperform] at hr
    obtain ⟨r', hstep, rfl⟩ := Option.map_eq_some_iff.mp hr
    have hlater : (c.withScheduler s).machine.Stacks size cells := h.congr rfl rfl
    exact hlater.step hexecuted hroom hstep

/-- Whole histories keep the stack at the top of memory, as long as it has never been too
deep, and it is as deep as their deeds say. -/
theorem stacks_of_performAll (h : c.machine.Stacks size cells) {commands : List Command}
    (hroom : ∀ k ≤ commands.length,
      ((c.deeds commands).take k).foldl Deed.depth cells.length ≤ size - 1)
    {r : Reply Computer (List Answer)} (hr : c.performAll commands = some r) :
    r.next.machine.Stacks size (c.stacked cells commands) ∧
      (c.stacked cells commands).length = (c.deeds commands).foldl Deed.depth cells.length := by
  induction commands generalizing c cells r with
  | nil =>
    cases hr
    exact ⟨h, rfl⟩
  | cons command commands ih =>
    obtain ⟨first, rest, hfirst, hlater, heq⟩ := performAll_cons hr
    have hdepth := (c.deed command).length_stacked c.machine.registers.sp cells
    rw [deeds, hfirst] at hroom
    rw [deeds, hfirst, List.foldl_cons, ← hdepth, stacked, noted_cons hfirst, heq]
    have hnext : ((c.deed command).stacked c.machine.registers.sp cells).length ≤ size - 1 := by
      rw [hdepth]
      exact hroom 1 (Nat.succ_le_succ (Nat.zero_le _))
    have hlaterRoom : ∀ k ≤ commands.length, ((first.next.deeds commands).take k).foldl Deed.depth
        ((c.deed command).stacked c.machine.registers.sp cells).length ≤ size - 1 := by
      intro k hk
      rw [hdepth]
      exact hroom (k + 1) (Nat.succ_le_succ hk)
    have hrest := ih (stacks_of_perform h hnext hfirst) hlaterRoom hlater
    exact hrest

/-- What the depth of its stack says about a computer, with the cells of the stack given. -/
structure KeepsStack (c : Computer) (size depth : Nat) (cells : List UInt8) : Prop where
  /-- Memory has so many cells. -/
  memory : c.machine.memory.size = size
  /-- The stack pointer is right below the stack, which is at the top of memory. -/
  pointer : c.machine.registers.sp.toNat = size - 1 - depth
  /-- The stack takes as many of the highest cells as it is deep, the latest one lowest. -/
  layout : cells.map UInt8.toNat = List.range' (size - depth) depth
  /-- A push that leaves room below it goes through. It puts the accumulator below the stack. -/
  push : ∀ command address, c.deed command = .execute address .push → depth < size - 1 →
    ∃ r, c.perform command = some r ∧ r.answer = command.report (.ok ()) ∧
      r.next.machine.memory =
        c.machine.memory.setCell (size - 1 - depth) c.machine.registers.ra
  /-- A drop from a stack that is not empty goes through. It leaves zero in the latest cell. -/
  pop : ∀ command address, c.deed command = .execute address .pop → 0 < depth →
    ∃ cell r, cells.head? = some cell ∧ cell.toNat = size - depth ∧
      c.perform command = some r ∧ r.answer = command.report (.ok ()) ∧
      r.next.machine.memory = c.machine.memory.setCell (size - depth) 0
  /-- A drop from an empty stack changes neither memory nor a register that is not the program
  counter. -/
  empty : ∀ command address, c.deed command = .execute address .pop → depth = 0 →
    ∃ r, c.perform command = some r ∧ r.answer = command.report (.ok ()) ∧
      r.next.machine.memory = c.machine.memory ∧
      ∀ s ≠ Register.pc, r.next.machine.registers.get s = c.machine.registers.get s

/-- A stack at the top of memory says all this. -/
theorem keepsStack_of_stacks (h : c.machine.Stacks size cells) :
    c.KeepsStack size cells.length cells := by
  have hlater (s : Scheduler) : (c.withScheduler s).machine.Stacks size cells := h.congr rfl rfl
  have hpointer := h.pointer
  have hle : c.machine.memory.size ≤ 256 := c.machine.memory.cells_le
  have hsize := h.memory
  constructor
  case memory => exact h.memory
  case pointer => omega
  case layout => exact h.layout
  case push =>
    intro command address hdeed hroom
    obtain ⟨s, r, hr, hanswer, hnext⟩ := perform_of_step (·.pushed.advanced) hdeed
      fun s => (hlater s).step_push
    have hcell : c.machine.registers.sp.toNat = size - 1 - cells.length := by omega
    refine ⟨r, hr, hanswer, ?_⟩
    rw [hnext, ← hcell]
    rfl
  case pop =>
    intro command address hdeed hdeep
    cases cells with
    | nil => cases hdeep
    | cons cell cells =>
      obtain ⟨s, r, hr, hanswer, hnext⟩ := perform_of_step (·.popped.advanced) hdeed
        fun s => (hlater s).step_pop
      have hcells := h.layout
      rw [List.map_cons, List.length_cons, List.range'_succ] at hcells
      have hup : (c.machine.registers.sp + 1).toNat = size - (cells.length + 1) := by
        rw [List.length_cons] at hpointer
        rw [UInt8.toNat_add, UInt8.toNat_one]
        omega
      refine ⟨cell, r, rfl, (List.cons.inj hcells).1, hr, hanswer, ?_⟩
      rw [hnext, List.length_cons, ← hup]
      rfl
  case empty =>
    intro command address hdeed hempty
    cases List.eq_nil_of_length_eq_zero hempty
    obtain ⟨s, r, hr, hanswer, hnext⟩ := perform_of_step (·.advanced) hdeed
      fun s => (hlater s).step_pop_nil
    refine ⟨r, hr, hanswer, ?_, ?_⟩
    · rw [hnext]
      rfl
    · intro s hpc
      rw [hnext]
      exact RegisterFile.get_set_of_ne _ hpc _

/-- From the beginning of a run on, whatever has been in the computer before, whatever program
it runs and whatever happens to the run besides: as long as the stack has never been deeper than
one cell less than memory, the stack pointer is where the depth of the stack says, pushes and
drops go through, and they write the cells that its depth says. -/
theorem run_keeps_stack {commands : List Command} {r : Reply Computer (List Answer)}
    (hr : c.run.next.performAll commands = some r)
    (hroom : ∀ k ≤ commands.length,
      stackDepth ((c.run.next.deeds commands).take k) ≤ c.machine.memory.size - 1) :
    r.next.KeepsStack c.machine.memory.size (stackDepth (c.run.next.deeds commands))
      (c.run.next.stacked [] commands) := by
  obtain ⟨hstacks, hdepth⟩ := stacks_of_performAll c.stacks_run hroom hr
  have hkept := keepsStack_of_stacks hstacks
  rw [hdepth] at hkept
  exact hkept

/-- A computer with five cells that has loaded a program that pushes once and drops twice. -/
def pushingOnce : Computer :=
  ({ machine := {
      memory := .zeros 5 (by decide) (by decide)
      scheduler := { sleepUnit := 0 }
      generator := { key := 0 } }
     settings := { memorySize := 5 } } : Computer).assemble "DEC\nPUSH\nPOP\nPOP" |>.next

/-- The push has gone to the highest cell, the first drop clears it, though a sleep has come in
between, and the second one leaves memory as it is. -/
theorem pushingOnce_keeps_stack : ∃ r s t,
    pushingOnce.run.next.performAll [.step, .step, .sleep (some 2)] = some r ∧
    r.next.perform (.update 2) = some s ∧ s.next.perform .step = some t ∧
    r.next.machine.registers.sp.toNat = 3 ∧ s.next.machine.registers.sp.toNat = 4 ∧
    s.next.machine.memory = r.next.machine.memory.setCell 4 0 ∧
    t.next.machine.memory = s.next.machine.memory := by
  obtain ⟨r, u, hr, hu⟩ : ∃ r u,
      pushingOnce.run.next.performAll [.step, .step, .sleep (some 2)] = some r ∧
      pushingOnce.run.next.performAll [.step, .step, .sleep (some 2), .update 2] = some u :=
    ⟨_, _, rfl, rfl⟩
  have hpushed := run_keeps_stack hr (by decide +kernel)
  have hdropped := run_keeps_stack hu (by decide +kernel)
  obtain ⟨-, s, -, -, hs, -, hcleared⟩ := hpushed.pop (.update 2) 2 (by cases hr; rfl) (by decide)
  have hsame : u.next = s.next := by
    cases hr
    cases hu
    cases hs
    rfl
  rw [hsame] at hdropped
  obtain ⟨t, ht, -, hkept, -⟩ :=
    hdropped.empty .step 3 (by cases hr; cases hs; rfl) (by decide +kernel)
  exact ⟨r, s, t, hr, hs, ht, hpushed.pointer, hdropped.pointer, hcleared, hkept⟩

end Computer

end ByteMachine
