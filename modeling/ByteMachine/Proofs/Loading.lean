import ByteMachine.Computer
import ByteMachine.Proofs.Layout.Assembled

/-!
# Loading a program, as a whole or not at all

Assembling clears memory and then writes into it, and may be refused in either pass with a
program half written. A computer that loads a source never shows any of that. Where the
source is refused, memory is as if it had just been built, and nothing of the earlier
program or of the new one is left; where it is taken, memory and report are those of the
layout. Registers, run state and random bytes are not concerned, whatever the computer was
doing.
-/

namespace ByteMachine

namespace Assembly

variable {α β : Type} {memory : α → Memory} {size : Nat}

/-- A stage of assembling that leaves a memory of this size, whether it goes on or refuses
the source. -/
inductive KeepsSize (memory : α → Memory) (size : Nat) : Except Failure α → Prop where
  /-- It goes on with this memory. -/
  | goesOn {a : α} (h : (memory a).size = size) : KeepsSize memory size (.ok a)
  /-- It refuses the source with this memory. -/
  | refuses {f : Failure} (h : f.memory.size = size) : KeepsSize memory size (.error f)

namespace KeepsSize

theorem bind {memory' : β → Memory} {x : Except Failure α} {f : α → Except Failure β}
    (hx : KeepsSize memory size x)
    (hf : ∀ a, (memory a).size = size → KeepsSize memory' size (f a)) :
    KeepsSize memory' size (x >>= f) := by
  cases hx with
  | goesOn h => exact hf _ h
  | refuses h => exact .refuses h

/-- A stage for each item of a list keeps the size if every one of them does. -/
theorem foldlM {f : α → β → Except Failure α}
    (hf : ∀ a b, (memory a).size = size → KeepsSize memory size (f a b)) (bs : List β) {a : α}
    (ha : (memory a).size = size) : KeepsSize memory size (bs.foldlM f a) := by
  induction bs generalizing a with
  | nil => exact .goesOn ha
  | cons b bs ih =>
    rw [List.foldlM_cons]
    exact (hf a b ha).bind fun a' ha' => ih ha'

variable {d : Draft}

theorem here (h : d.memory.size = size) (line : Nat) :
    KeepsSize (fun _ => d.memory) size (d.here line) := by
  unfold Draft.here
  split
  · exact .goesOn h
  · exact .refuses h

theorem appendByte (h : d.memory.size = size) (line : Nat) (value : UInt8) :
    KeepsSize Draft.memory size (d.appendByte line value) := by
  unfold Draft.appendByte
  split
  · rename_i m hm
    exact .goesOn ((Memory.size_of_append hm).trans h)
  · exact .refuses h

theorem appendCell (h : d.memory.size = size) (line : Nat) (cell : Cell) :
    KeepsSize Draft.memory size (d.appendCell line cell) := by
  cases cell with
  | byte value => exact appendByte h line value
  | literal text =>
    rw [Draft.appendCell]
    split
    · exact appendByte h line _
    · exact .refuses h
  | address label =>
    rw [Draft.appendCell]
    refine appendByte ?_ line 0
    exact h

theorem defineLabel (h : d.memory.size = size) (line : Nat) (label : Option String) :
    KeepsSize Draft.memory size (d.defineLabel line label) := by
  cases label with
  | none => exact .goesOn h
  | some name => exact (here h line).bind fun address haddress => .goesOn haddress

theorem appendInstruction (h : d.memory.size = size) (line : Nat) (text : List Char)
    (mnemonic : String) (operands : Source.Operands) :
    KeepsSize Draft.memory size (d.appendInstruction line text mnemonic operands) := by
  unfold Draft.appendInstruction
  split
  · exact .refuses h
  · split
    · exact .refuses h
    · rename_i cells hcells
      refine (here h line).bind fun address haddress => ?_
      exact foldlM (fun d cell hd => appendCell hd line cell) cells haddress

theorem readLine (h : d.memory.size = size) (line : Nat × List Char) :
    KeepsSize Draft.memory size (d.readLine line) := by
  unfold Draft.readLine
  split
  · exact .refuses h
  · rename_i parts hparts
    refine (defineLabel h line.1 parts.label).bind fun d' hd' => ?_
    split
    · exact .goesOn hd'
    · exact appendInstruction hd' line.1 line.2 _ parts.operands

theorem applyPatch {labels : List (String × UInt8)} {m : Memory} (h : m.size = size)
    (p : Patch) : KeepsSize id size (Draft.applyPatch labels m p) := by
  unfold Draft.applyPatch
  split
  · exact .refuses h
  · split
    · rename_i n hn
      exact .goesOn ((Memory.size_of_patch hn).trans h)
    · exact .refuses h

/-- Assembling keeps the size of memory, also where it is refused halfway. -/
theorem assemble (m : Memory) (source : String) :
    KeepsSize Prod.fst m.size (Assembly.assemble m source) := by
  have hclear : m.clear.size = m.size := m.size_clear
  refine (foldlM (fun d line hd => readLine hd line) _ hclear).bind fun d hd => ?_
  have hresolve : KeepsSize id m.size d.resolve :=
    foldlM (fun n p hn => applyPatch hn p) d.patches hd
  exact hresolve.bind fun n hn => .goesOn hn

end KeepsSize

/-- What assembling comes to depends on nothing in memory but its size. -/
theorem assemble_clear (m : Memory) (source : String) :
    assemble m.clear source = assemble m source := by
  have hclear : m.clear.clear = m.clear := Memory.clear_eq_of_size_eq m.size_clear
  rw [assemble, firstPass, hclear]
  rfl

end Assembly

namespace Memory

theorem assemble_clear (m : Memory) (source : String) :
    m.clear.assemble source = m.assemble source := by
  rw [assemble, Assembly.assemble_clear, assemble]

/-- The assembler keeps the size of memory, whatever it comes to. -/
theorem size_assemble (m : Memory) (source : String) : (m.assemble source).1.size = m.size := by
  have hkeeps := Assembly.KeepsSize.assemble m source
  unfold assemble
  cases h : Assembly.assemble m source with
  | ok r =>
    rw [h] at hkeeps
    cases hkeeps with
    | goesOn hsize => exact hsize
  | error f =>
    rw [h] at hkeeps
    cases hkeeps with
    | refuses hsize => exact hsize

end Memory

namespace Computer

/-- An empty program has an empty listing. -/
theorem listing_eq_nil {c : Computer} (h : c.machine.memory.pointer = 0) : c.listing = [] := by
  rw [listing, Memory.program, h, List.take_zero]
  rfl

/-- A source that is refused leaves memory as it was built, and no report. -/
theorem assemble_of_error {c : Computer} {source : String} {n : Memory} {e : AssemblyError}
    (h : c.machine.memory.assemble source = (n, .error e)) :
    c.assemble source =
      ⟨.error e,
        { c with
          machine := { c.machine with memory := c.machine.memory.clear }, artifacts := none },
        [.refused e, .memory c.machine.memory.clear]⟩ := by
  have hsize : n.size = c.machine.memory.size := by
    have hkept := c.machine.memory.size_assemble source
    rw [h] at hkept
    exact hkept
  unfold assemble
  rw [h, ← Memory.clear_eq_of_size_eq hsize]

/-- A source that is taken leaves the assembled memory and its report. -/
theorem assemble_of_ok {c : Computer} {source : String} {n : Memory} {a : Artifacts}
    (h : c.machine.memory.assemble source = (n, .ok a)) :
    c.assemble source =
      ⟨.ok a, { c with machine := { c.machine with memory := n }, artifacts := some a },
        [.memory n]⟩ := by
  unfold assemble
  rw [h]

/-- Loading a source is all or nothing, whatever a computer is doing. It comes to what
assembling the source in a new memory of the same size comes to. If the source is refused,
memory is that new memory, with no program to list and no report, and the error and the
cleared memory are announced. If it is taken, memory holds the layout of its lines, labels
in place, and the report is kept; only the finished memory is announced. Either way
registers, output, run state with clock, timer and question, and random bytes stay. -/
theorem load_all_or_nothing (c : Computer) (source : String) :
    ∃ fresh, Memory.ofSize c.machine.memory.size = .ok fresh ∧
      let loaded := c.assemble source
      let machine := loaded.next.machine
      loaded.answer = (fresh.assemble source).2 ∧
      (∀ e, loaded.answer = .error e →
        machine.memory = fresh ∧
          machine.memory.cells = List.replicate c.machine.memory.size 0 ∧
          machine.memory.pointer = 0 ∧ loaded.next.artifacts = none ∧ loaded.next.listing = [] ∧
          loaded.notices = [.refused e, .memory machine.memory]) ∧
      (∀ a, loaded.answer = .ok a →
        machine.memory = (fresh.assemble source).1 ∧
          (∃ ls, Source.lines? source = some ls ∧
            Layout.Laid c.machine.memory.size ls machine.memory a) ∧
          loaded.next.artifacts = some a ∧ loaded.notices = [.memory machine.memory]) ∧
      loaded.next.settings = c.settings ∧ machine.registers = c.machine.registers ∧
      machine.latch = c.machine.latch ∧ machine.scheduler = c.machine.scheduler ∧
      machine.generator = c.machine.generator := by
  refine ⟨c.machine.memory.clear, c.machine.memory.ofSize_size, ?_⟩
  rw [Memory.assemble_clear]
  cases h : c.machine.memory.assemble source with
  | mk n result =>
    cases result with
    | error e =>
      rw [assemble_of_error h]
      refine ⟨rfl, ?_, nofun, rfl, rfl, rfl, rfl, rfl⟩
      intro e' he
      cases he
      exact ⟨rfl, rfl, rfl, rfl, listing_eq_nil rfl, rfl⟩
    | ok a =>
      rw [assemble_of_ok h]
      refine ⟨rfl, nofun, ?_, rfl, rfl, rfl, rfl, rfl⟩
      intro a' ha
      cases ha
      obtain ⟨ls, hls, -, -, hlaid⟩ :=
        Layout.laid_of_assemble (Layout.memory_assemble_eq_ok_iff.mp h)
      exact ⟨rfl, ⟨ls, hls, hlaid⟩, rfl, rfl⟩

end Computer

end ByteMachine
