import Mathlib
import ByteMachine.Snapshot
import ByteMachine.Proofs.Register

/-!
# What a snapshot holds

A snapshot holds the run state of a computer, its registers in the one order in which they are
listed, all bytes of memory and the number in the output latch, and nothing else. The text that
spreads it over many lines leaves nothing of this out: it can be cut into its lines again, the
lines into the parts of the record, and the line of a register into its name and its value. So
what is printed of two computers is the same exactly if they agree in all four.
-/

namespace ByteMachine

namespace Snapshot

/-- Whether a snapshot shows a computer. -/
structure Shows (s : Snapshot) (c : Computer) : Prop where
  /-- The run state is that of the computer. -/
  state : s.state = c.state
  /-- All registers are there, in the order in which they are listed. -/
  names : s.registers.map Prod.fst = [.ra, .pc, .sp, .ret, .z, .c, .n]
  /-- Beside each register stands its value. -/
  values : ∀ r ∈ s.registers, r.2 = c.machine.registers.get r.1
  /-- There is one byte for each cell. -/
  size : s.memory.length = c.machine.memory.size
  /-- It is the byte that can be loaded from there. -/
  cells : ∀ address value : UInt8,
    s.memory[address.toNat]? = some value ↔ c.machine.memory.load address = .ok value
  /-- The number is the one in the output latch. -/
  output : s.output = c.machine.latch

section Shows

variable {s : Snapshot} {c : Computer}

/-- The snapshot of a computer shows it. -/
theorem shows_snapshot (c : Computer) : c.snapshot.Shows c where
  state := rfl
  names := rfl
  values r hr := by
    obtain ⟨name, -, rfl⟩ := List.mem_map.mp hr
    rfl
  size := rfl
  cells address value := Memory.load_eq_ok_iff.symm
  output := rfl

/-- Names and values make up the list of all registers. -/
theorem Shows.registers_eq (h : s.Shows c) : s.registers = c.machine.registers.toList := by
  have hpairs : s.registers.map (fun r => (r.1, c.machine.registers.get r.1)) = s.registers := by
    calc s.registers.map (fun r => (r.1, c.machine.registers.get r.1))
        = s.registers.map (fun r => r) :=
          List.map_congr_left fun r hr => Prod.ext rfl (h.values r hr).symm
      _ = s.registers := List.map_id' _
  have hnames := congrArg (List.map fun r => (r, c.machine.registers.get r)) h.names
  rw [List.map_map] at hnames
  exact hpairs.symm.trans hnames

/-- Every cell is addressed by a byte, so that what can be loaded makes up all of memory. -/
theorem Shows.memory_eq (h : s.Shows c) : s.memory = c.machine.memory.cells := by
  have hlength : s.memory.length = c.machine.memory.cells.length := h.size
  have hsize : c.machine.memory.cells.length ≤ 256 := c.machine.memory.cells_le
  apply List.ext_getElem?
  intro i
  by_cases hi : i < 256
  · have haddress : (UInt8.ofNat i).toNat = i := UInt8.toNat_ofNat_of_lt' hi
    apply Option.ext
    intro value
    have hcell := h.cells (UInt8.ofNat i) value
    rw [Memory.load_eq_ok_iff, haddress] at hcell
    exact hcell
  · rw [List.getElem?_eq_none (by omega), List.getElem?_eq_none (by omega)]

/-- A snapshot shows a computer exactly if it is the snapshot of that computer: what it shows is
all that it holds. -/
theorem shows_iff : s.Shows c ↔ s = c.snapshot := by
  constructor
  · intro h
    obtain ⟨state, registers, memory, output⟩ := s
    obtain rfl : state = c.state := h.state
    obtain rfl : registers = c.machine.registers.toList := h.registers_eq
    obtain rfl : memory = c.machine.memory.cells := h.memory_eq
    obtain rfl : output = c.machine.latch := h.output
    rfl
  · rintro rfl
    exact shows_snapshot c

end Shows

section Text

/-- A list of parts that do not hold a mark is found again when they have been joined by it. -/
theorem eq_of_intercalate_eq {α : Type} [BEq α] [LawfulBEq α] {mark : α} {xs ys : List (List α)}
    (hxs : ∀ x ∈ xs, mark ∉ x) (hys : ∀ y ∈ ys, mark ∉ y) (hne : xs ≠ []) (hne' : ys ≠ [])
    (h : [mark].intercalate xs = [mark].intercalate ys) : xs = ys := by
  rw [← List.splitOn_intercalate mark hxs hne, h, List.splitOn_intercalate mark hys hne']

/-- Whether a character is not in a text. -/
def Lacks (mark : Char) (text : String) : Prop := mark ∉ text.toList

instance (mark : Char) (text : String) : Decidable (Lacks mark text) :=
  inferInstanceAs (Decidable (mark ∉ text.toList))

variable {mark : Char}

theorem lacks_append {text text' : String} :
    Lacks mark (text ++ text') ↔ Lacks mark text ∧ Lacks mark text' := by
  rw [Lacks, String.toList_append, List.mem_append, not_or]
  rfl

/-- A text in which every character is of some kind lacks all others. -/
theorem lacks_of_all {p : Char → Bool} {text : String} (hall : text.toList.all p = true)
    (hmark : p mark = false) : Lacks mark text := by
  intro hmem
  rw [List.all_eq_true.mp hall mark hmem] at hmark
  cases hmark

/-- A number consists of digits. -/
theorem lacks_toString_nat (hmark : mark.isDigit = false) (n : Nat) : Lacks mark (toString n) := by
  apply lacks_of_all _ hmark
  rw [List.all_eq_true]
  intro c hc
  have hdigits : c ∈ Nat.toDigits 10 n := Nat.toList_repr ▸ hc
  exact Nat.isDigit_of_mem_toDigits (by decide) (by decide) hdigits

/-- In front of its digits a number may have a sign. -/
theorem lacks_toString_int (hmark : mark.isDigit = false) (hsign : mark ≠ '-') (i : Int) :
    Lacks mark (toString i) := by
  cases i with
  | ofNat n => exact lacks_toString_nat hmark n
  | negSucc n =>
    have htext : toString (Int.negSucc n) = "-" ++ toString (n + 1) := rfl
    rw [htext, lacks_append]
    exact ⟨fun h => hsign (List.mem_singleton.mp h), lacks_toString_nat hmark (n + 1)⟩

/-- The name of a register consists of letters. -/
theorem lacks_registerName (hmark : mark.isAlpha = false) (r : Register) :
    Lacks mark (registerName r) := by
  refine lacks_of_all ?_ hmark
  cases r <;> rfl

/-- So does the name of a run state. -/
theorem lacks_name (hmark : mark.isAlpha = false) (state : RunState) : Lacks mark state.name := by
  refine lacks_of_all ?_ hmark
  cases state <;> rfl

theorem registerName_injective : Function.Injective registerName := by
  intro r r' h
  cases r <;> cases r' <;> first | rfl | exact absurd h (by decide)

theorem name_injective : Function.Injective RunState.name := by
  intro state state' h
  cases state <;> cases state' <;> first | rfl | exact absurd h (by decide)

/-- An item of a list, on a line of its own. -/
def itemLine (item : String) : String := "        " ++ item ++ ","

/-- The line that ends a list. -/
def closingLine : String := "    ],"

/-- The lines of the text, up to the end of the registers, up to the end of memory, and behind. -/
def parts (s : Snapshot) : List (List String) :=
  ["(" :: ("    state: " ++ s.state.name ++ ",") :: "    registers: [" ::
      (s.registers.map (registerItem " ")).map itemLine,
    "    memory: [" :: s.memoryItems.map itemLine,
    ["    output: " ++ toString s.output ++ ",", ")"]]

/-- All lines of the text. -/
def lines (s : Snapshot) : List String := [closingLine].intercalate s.parts

theorem itemLines_append_ne_nil (items : List String) (line : String) (rest : List String) :
    items.map itemLine ++ line :: rest ≠ [] :=
  List.append_ne_nil_of_right_ne_nil _ (List.cons_ne_nil _ _)

/-- Lines of items in front of other lines. -/
theorem intercalate_itemLines (items : List String) (line : String) (rest : List String) :
    "\n".intercalate (items.map itemLine ++ line :: rest) =
      String.join (items.map fun i => "        " ++ i ++ ",\n") ++
        "\n".intercalate (line :: rest) := by
  induction items with
  | nil => exact String.empty_append.symm
  | cons item items ih =>
    have hline : itemLine item ++ "\n" = "        " ++ item ++ ",\n" := by
      rw [itemLine, String.append_assoc]
      rfl
    have hne := itemLines_append_ne_nil items line rest
    rw [List.map_cons, List.cons_append, String.intercalate_cons_of_ne_nil hne, ih, hline,
      List.map_cons, String.join_cons]
    exact String.append_assoc.symm

/-- The lines one after another. -/
theorem lines_eq (s : Snapshot) :
    s.lines = "(" :: ("    state: " ++ s.state.name ++ ",") :: "    registers: [" ::
      ((s.registers.map (registerItem " ")).map itemLine ++ closingLine :: "    memory: [" ::
        (s.memoryItems.map itemLine ++
          [closingLine, "    output: " ++ toString s.output ++ ",", ")"])) := by
  simp only [lines, parts, List.intercalate_cons_cons, List.intercalate_singleton,
    List.append_assoc, List.cons_append, List.nil_append]

/-- The text over many lines consists of these lines. -/
theorem pretty_eq_intercalate (s : Snapshot) : s.pretty = "\n".intercalate s.lines := by
  have hne := fun items => itemLines_append_ne_nil items closingLine
  rw [lines_eq, String.intercalate_cons_cons, String.intercalate_cons_cons,
    String.intercalate_cons_of_ne_nil (hne _ _), intercalate_itemLines,
    String.intercalate_cons_cons, String.intercalate_cons_of_ne_nil (hne _ _),
    intercalate_itemLines, String.intercalate_cons_cons, String.intercalate_cons_cons,
    String.intercalate_singleton, ← String.toList_inj]
  -- The same characters on both sides, only the literals are cut at other places.
  unfold pretty blockList
  simp [closingLine]

/-- No line is broken by what stands on it. -/
theorem lacks_newline (s : Snapshot) : ∀ line ∈ s.lines, Lacks '\n' line := by
  have hitem {item : String} (h : Lacks '\n' item) : Lacks '\n' (itemLine item) := by
    simp only [itemLine, lacks_append, and_assoc]
    exact ⟨by decide, h, by decide⟩
  have hregister (r : Register × UInt8) : Lacks '\n' (registerItem " " r) := by
    simp only [registerItem, lacks_append, and_assoc]
    exact ⟨by decide, lacks_registerName rfl _, by decide, by decide, lacks_toString_nat rfl _,
      by decide⟩
  have hstate : Lacks '\n' ("    state: " ++ s.state.name ++ ",") := by
    simp only [lacks_append, and_assoc]
    exact ⟨by decide, lacks_name rfl _, by decide⟩
  have houtput : Lacks '\n' ("    output: " ++ toString s.output ++ ",") := by
    simp only [lacks_append, and_assoc]
    exact ⟨by decide, lacks_toString_int rfl (by decide) _, by decide⟩
  simp only [lines_eq, memoryItems, List.forall_mem_cons, List.forall_mem_append,
    List.forall_mem_map, List.not_mem_nil, false_implies, implies_true, and_true]
  exact ⟨by decide, hstate, by decide, fun r _ => hitem (hregister r), by decide, by decide,
    fun b _ => hitem (lacks_toString_nat rfl _), by decide, houtput, by decide⟩

/-- The line that ends a list does not stand anywhere else. -/
theorem closingLine_not_mem_parts (s : Snapshot) : ∀ part ∈ s.parts, closingLine ∉ part := by
  have hitems (items : List String) : closingLine ∉ items.map itemLine := by
    intro hmem
    obtain ⟨item, -, hitem⟩ := List.mem_map.mp hmem
    have htext := congrArg String.toList hitem
    simp [itemLine, closingLine] at htext
  have hstate : closingLine ≠ "    state: " ++ s.state.name ++ "," := by
    intro h
    have htext := congrArg String.toList h
    simp [closingLine] at htext
  have houtput : closingLine ≠ "    output: " ++ toString s.output ++ "," := by
    intro h
    have htext := congrArg String.toList h
    simp [closingLine] at htext
  -- One case for each part; what is left of it are literals, which differ from that line.
  simp only [parts, List.forall_mem_cons]
  refine ⟨?_, ?_, ?_, nofun⟩
  · simp only [List.mem_cons, not_or]
    exact ⟨by decide, hstate, by decide, hitems _⟩
  · simp only [List.mem_cons, not_or]
    exact ⟨by decide, hitems _⟩
  · simp only [List.mem_cons, not_or]
    exact ⟨houtput, by decide, nofun⟩

theorem itemLine_injective : Function.Injective itemLine := by
  intro item item' h
  exact (String.append_right_inj _).mp ((String.append_left_inj _).mp h)

/-- The number of a byte gives it away. -/
theorem toString_toNat_injective : Function.Injective fun b : UInt8 => toString b.toNat := by
  intro b b' h
  exact UInt8.toNat_inj.mp (Nat.repr_inj.mp h)

/-- The item of a register, in front of the comma and behind it. -/
def registerHalves (r : Register × UInt8) : List (List Char) :=
  [("(" ++ registerName r.1).toList, (" " ++ toString r.2.toNat ++ ")").toList]

theorem toList_registerItem (r : Register × UInt8) :
    (registerItem " " r).toList = [','].intercalate (registerHalves r) := by
  simp [registerItem, registerHalves]

theorem comma_not_mem_registerHalves (r : Register × UInt8) :
    ∀ half ∈ registerHalves r, ',' ∉ half := by
  have hname : Lacks ',' ("(" ++ registerName r.1) :=
    lacks_append.mpr ⟨by decide, lacks_registerName rfl _⟩
  have hvalue : Lacks ',' (" " ++ toString r.2.toNat ++ ")") := by
    simp only [lacks_append, and_assoc]
    exact ⟨by decide, lacks_toString_nat rfl _, by decide⟩
  simp only [registerHalves, List.forall_mem_cons]
  exact ⟨hname, hvalue, nofun⟩

/-- The item of a register gives away its name and its value. -/
theorem registerItem_injective : Function.Injective (registerItem " ") := by
  intro r r' h
  have hhalves : registerHalves r = registerHalves r' := by
    apply eq_of_intercalate_eq (comma_not_mem_registerHalves r) (comma_not_mem_registerHalves r')
      (List.cons_ne_nil _ _) (List.cons_ne_nil _ _)
    rw [← toList_registerItem, ← toList_registerItem, h]
  simp only [registerHalves, List.cons.injEq, String.toList_inj, String.append_right_inj,
    String.append_left_inj, and_true] at hhalves
  exact Prod.ext (registerName_injective hhalves.1) (toString_toNat_injective hhalves.2)

/-- A snapshot is settled by its lines. -/
theorem parts_injective : Function.Injective parts := by
  rintro ⟨state, registers, memory, output⟩ ⟨state', registers', memory', output'⟩ h
  simp only [parts, memoryItems, List.cons.injEq, String.append_right_inj, String.append_left_inj,
    true_and, and_true] at h
  obtain ⟨⟨hstate, hregisters⟩, hmemory, houtput⟩ := h
  have hitems := List.map_injective_iff.mpr itemLine_injective
  have hregisters := List.map_injective_iff.mpr registerItem_injective (hitems hregisters)
  have hmemory := List.map_injective_iff.mpr toString_toNat_injective (hitems hmemory)
  rw [name_injective hstate, hregisters, hmemory, Int.repr_inj.mp houtput]

/-- The text of a snapshot over many lines leaves nothing out. -/
theorem pretty_injective : Function.Injective pretty := by
  have hlines (s : Snapshot) :
      s.pretty.toList = ['\n'].intercalate (s.lines.map String.toList) := by
    rw [pretty_eq_intercalate, String.toList_intercalate]
    rfl
  have hlacks (s : Snapshot) : ∀ line ∈ s.lines.map String.toList, '\n' ∉ line :=
    List.forall_mem_map.mpr (lacks_newline s)
  have hne (s : Snapshot) : s.lines.map String.toList ≠ [] := by
    rw [lines_eq]
    exact List.cons_ne_nil _ _
  intro s t h
  have htexts : s.lines.map String.toList = t.lines.map String.toList := by
    apply eq_of_intercalate_eq (hlacks s) (hlacks t) (hne s) (hne t)
    rw [← hlines, ← hlines, h]
  have hsame : s.lines = t.lines :=
    List.map_injective_iff.mpr (fun _ _ => String.toList_inj.mp) htexts
  apply parts_injective
  exact eq_of_intercalate_eq (closingLine_not_mem_parts s) (closingLine_not_mem_parts t)
    (List.cons_ne_nil _ _) (List.cons_ne_nil _ _) hsame

end Text

end Snapshot

/-- What is printed of two computers is the same exactly if they are in the same run state and
have the same registers, the same bytes in memory and the same number in the output latch. -/
theorem Computer.pretty_snapshot_eq_iff {c d : Computer} :
    c.snapshot.pretty = d.snapshot.pretty ↔
      c.state = d.state ∧ c.machine.registers = d.machine.registers ∧
        c.machine.memory.cells = d.machine.memory.cells ∧ c.machine.latch = d.machine.latch := by
  constructor
  · intro h
    have hsame : c.snapshot = d.snapshot := Snapshot.pretty_injective h
    have hlist : c.machine.registers.toList = d.machine.registers.toList :=
      congrArg Snapshot.registers hsame
    have hregisters : c.machine.registers = d.machine.registers := by
      rw [← c.machine.registers.write_toList c.machine.registers, hlist,
        RegisterFile.write_toList]
    exact ⟨congrArg Snapshot.state hsame, hregisters, congrArg Snapshot.memory hsame,
      congrArg Snapshot.output hsame⟩
  · rintro ⟨hstate, hregisters, hcells, hlatch⟩
    rw [Computer.snapshot, Computer.snapshot, hstate, hregisters, hcells, hlatch]

end ByteMachine
