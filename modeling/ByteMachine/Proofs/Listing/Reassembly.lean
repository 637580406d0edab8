import ByteMachine.Computer
import ByteMachine.Proofs.Layout.Assembled
import ByteMachine.Proofs.Listing.Entries

/-!
# Listings can be assembled again

The texts of a listing, joined by line feeds, are a source for the very bytes that were
listed, whatever these bytes are: unknown codes and a last code without its operand are
listed as data. Each line of that source stands where its entry stood.
-/

namespace ByteMachine.Listing

open Source (Line)
open Layout (Row row? rows definitions image Fits Closed)

/-- The source that a listing is, with its lines joined by line feeds. -/
def joined (listing : List (UInt8 × String)) : String :=
  "\n".intercalate (listing.map Prod.snd)

/-- The lines of a listing. A listing without entries is one empty line. -/
def sourceLines (es : List Entry) : List Line :=
  if es = [] then [{}] else es.map Entry.line

/-- The row of an entry's line. -/
def Entry.row (index address : Nat) (e : Entry) : Row where
  line := index + 1
  address := address
  instruction := e.instruction
  operand := e.operand.map fun b => .word (Text.showByte b)

theorem row?_line {e : Entry} (h : e.IsWhole) (index address : Nat) :
    row? index address e.line = some (e.row index address) := by
  rw [row?, instruction?_line h, Option.map_some, encoded_line h, Entry.row]

/-- The row of an entry has the bytes of the entry. -/
theorem bytes_row (labels : String → UInt8) (index address : Nat) (e : Entry) :
    (e.row index address).bytes labels = e.bytes := by
  rw [Row.bytes, Entry.row, Entry.bytes]
  cases e.operand with
  | none => rfl
  | some b =>
    have hbyte : Layout.operandByte labels (.word (Text.showByte b)) = b := by
      rw [Layout.operandByte, Text.showByte, String.toList_ofList, Text.hexNumber?_byteDigits,
        Option.getD_some, UInt8.ofNat_toNat]
    simp [hbyte]

theorem width_line {e : Entry} (h : e.IsWhole) : e.line.width = e.bytes.length := by
  have hlength := Layout.length_bytes_row Layout.unknown 0 0 e.line
  rw [row?_line h, Option.toList_some, List.flatMap_singleton, bytes_row] at hlength
  exact hlength.symm

/-- Entries behind others are located behind them. -/
theorem located_append (address : Nat) (es fs : List Entry) :
    located address (es ++ fs) =
      located address es ++ located (address + (es.flatMap Entry.bytes).length) fs := by
  induction es generalizing address with
  | nil => rfl
  | cons e es ih =>
    rw [List.cons_append, located, ih, located, List.flatMap_cons, List.length_append,
      Nat.add_assoc, List.cons_append]

theorem length_located (address : Nat) (es : List Entry) :
    (located address es).length = es.length := by
  induction es generalizing address with
  | nil => rfl
  | cons e es ih => rw [located, List.length_cons, List.length_cons, ih]

/-- The lines of entries take as many bytes as the entries. -/
theorem length_map_line {es : List Entry} (h : ∀ e ∈ es, e.IsWhole) :
    Layout.length (es.map Entry.line) = (es.flatMap Entry.bytes).length := by
  induction es using List.reverseRecOn with
  | nil => rfl
  | append_singleton es e ih =>
    have he := h e (List.mem_append_right _ List.mem_cons_self)
    rw [List.map_append, List.map_cons, List.map_nil, Layout.length_append_singleton,
      ih fun e he => h e (List.mem_append_left _ he), width_line he, List.flatMap_append,
      List.length_append, List.flatMap_singleton]

/-- The lines of entries are laid out where the entries are located. -/
theorem rows_map_line {es : List Entry} (h : ∀ e ∈ es, e.IsWhole) :
    rows (es.map Entry.line) =
      (located 0 es).zipIdx.map fun p => p.1.2.row p.2 p.1.1 := by
  induction es using List.reverseRecOn with
  | nil => rfl
  | append_singleton es e ih =>
    have hearlier : ∀ e ∈ es, e.IsWhole := fun e he => h e (List.mem_append_left _ he)
    have he := h e (List.mem_append_right _ List.mem_cons_self)
    rw [List.map_append, List.map_cons, List.map_nil, Layout.rows_append_singleton, ih hearlier,
      row?_line he, List.length_map, length_map_line hearlier, located_append,
      List.zipIdx_append, List.map_append, length_located, Nat.zero_add, Nat.zero_add]
    rfl

/-- Entries define no label. -/
theorem definitions_map_line (es : List Entry) : definitions (es.map Entry.line) = [] := by
  rw [List.eq_nil_iff_forall_not_mem]
  intro d hd
  obtain ⟨k, l, hget, hf⟩ := Layout.mem_collect_iff.mp hd
  obtain ⟨e, -, rfl⟩ := List.mem_map.mp (List.mem_of_getElem? hget)
  cases hf

/-- The bytes of entries' lines are the bytes of the entries. -/
theorem image_map_line {es : List Entry} (h : ∀ e ∈ es, e.IsWhole) :
    image (es.map Entry.line) = es.flatMap Entry.bytes := by
  have hbytes (address : Nat) (k : Nat) (labels : String → UInt8) (es : List Entry) :
      (((located address es).zipIdx k).map fun p => p.1.2.row p.2 p.1.1).flatMap
        (Row.bytes labels) = es.flatMap Entry.bytes := by
    induction es generalizing address k with
    | nil => rfl
    | cons e es ih =>
      rw [located, List.zipIdx_cons, List.map_cons, List.flatMap_cons, List.flatMap_cons, ih,
        bytes_row]
  rw [image, Layout.bytes, rows_map_line h, hbytes]

/-- The source of a listing is read as the lines of its entries. -/
theorem lines?_joined {es : List Entry} (h : ∀ e ∈ es, e.IsWhole) :
    Source.lines? ("\n".intercalate (es.map Entry.text)) = some (sourceLines es) := by
  have hchars : ("\n".intercalate (es.map Entry.text)).toList =
      ['\n'].intercalate (es.map fun e => e.text.toList) := by
    rw [String.toList_intercalate, List.map_map]
    rfl
  unfold Source.lines? sourceLines
  rw [hchars]
  by_cases hes : es = []
  · subst hes
    rfl
  · rw [if_neg hes, Source.splitLines_intercalate]
    · clear hchars hes
      induction es with
      | nil => rfl
      | cons e es ih =>
        rw [List.map_cons, List.mapM_cons, lineOfChars?_text (h e List.mem_cons_self),
          ih fun e he => h e (List.mem_cons_of_mem _ he)]
        rfl
    · simpa using hes
    · intro t ht
      obtain ⟨e, he, rfl⟩ := List.mem_map.mp ht
      exact newline_not_mem_text (h e he)

/-- What is laid out from the lines of a listing: the rows, no label, and the bytes. -/
theorem layout_sourceLines {es : List Entry} (h : ∀ e ∈ es, e.IsWhole) :
    rows (sourceLines es) = ((located 0 es).zipIdx.map fun p => p.1.2.row p.2 p.1.1) ∧
      definitions (sourceLines es) = [] ∧ image (sourceLines es) = es.flatMap Entry.bytes := by
  by_cases hes : es = []
  · subst hes
    exact ⟨rfl, rfl, rfl⟩
  · rw [sourceLines, if_neg hes]
    exact ⟨rows_map_line h, definitions_map_line es, image_map_line h⟩

/-- The lines of a listing take as many bytes as the entries. -/
theorem length_sourceLines {es : List Entry} (h : ∀ e ∈ es, e.IsWhole) :
    Layout.length (sourceLines es) = (es.flatMap Entry.bytes).length := by
  rw [← (layout_sourceLines h).2.2]
  exact (Layout.length_bytes _ _).symm

/-- The row of an entry never waits for a label. -/
theorem operand_row_ne_label (index address : Nat) (e : Entry) (name : String) :
    (e.row index address).operand ≠ some (.label name) := by
  rw [Entry.row]
  cases e.operand <;> nofun

theorem readable_row (index address : Nat) (e : Entry) : (e.row index address).Readable := by
  refine ⟨?_, fun _ => operand_row_ne_label index address e⟩
  intro text htext
  obtain ⟨b, -, hb⟩ := Option.map_eq_some_iff.mp htext
  cases hb
  have hlt := b.toNat_lt
  refine ⟨b.toNat, by omega, ?_⟩
  rw [Text.showByte, String.toList_ofList, Text.hexNumber?_byteDigits]

/-- The lines of a listing fit every memory with room for its bytes. -/
theorem fits_sourceLines {es : List Entry} (h : ∀ e ∈ es, e.IsWhole) {size : Nat}
    (hsize : (es.flatMap Entry.bytes).length ≤ size) : Fits size (sourceLines es) := by
  obtain ⟨hrows, hdefinitions, -⟩ := layout_sourceLines h
  constructor
  · intro l hl m hm
    unfold sourceLines at hl
    split at hl
    · rw [List.mem_singleton.mp hl] at hm
      cases hm
    · obtain ⟨e, he, rfl⟩ := List.mem_map.mp hl
      cases hm
      refine ⟨e.instruction, Instruction.mem_named_iff.mpr rfl, ?_⟩
      exact Line.accepts_of_instruction? (instruction?_line (h e he))
  · intro r hr
    rw [hrows] at hr
    obtain ⟨p, -, rfl⟩ := List.mem_map.mp hr
    exact readable_row p.2 p.1.1 p.1.2
  · rw [length_sourceLines h]
    exact hsize
  · rw [hdefinitions]
    exact fun d hd => absurd hd List.not_mem_nil

theorem closed_sourceLines {es : List Entry} (h : ∀ e ∈ es, e.IsWhole) :
    Closed (sourceLines es) := by
  intro r hr name hname
  rw [(layout_sourceLines h).1] at hr
  obtain ⟨p, -, rfl⟩ := List.mem_map.mp hr
  exact absurd hname (operand_row_ne_label p.2 p.1.1 p.1.2 name)

/-- No entry is located behind the bytes of all entries. -/
theorem address_lt_of_mem_located {address : Nat} {es : List Entry} (h : ∀ e ∈ es, e.IsWhole)
    {p : Nat × Entry} (hp : p ∈ located address es) :
    p.1 < address + (es.flatMap Entry.bytes).length := by
  induction es generalizing address with
  | nil => cases hp
  | cons e es ih =>
    rw [List.flatMap_cons, List.length_append]
    rcases List.mem_cons.mp hp with rfl | hp
    · have hpos : 0 < e.bytes.length := by
        rcases (h e List.mem_cons_self).cases with ⟨hform, hnone⟩ | ⟨hform, b, hb⟩
        · obtain ⟨i, operand⟩ := e
          cases i with
          | op o => simp
          | raw => cases hform
        · simp [Entry.bytes, hb]
      dsimp only
      omega
    · have hlater := ih (fun e he => h e (List.mem_cons_of_mem _ he)) hp
      omega

/-- The lines of a listing are its entries at their addresses, none of which is cut to fit
a byte. -/
theorem lines_toNat {region : List UInt8} (h : region.length ≤ 256) :
    (lines region).map (fun e => (e.1.toNat, e.2)) =
      (located 0 (entries region)).map fun p => (p.1, p.2.text) := by
  rw [lines, List.map_map]
  apply List.map_congr_left
  intro p hp
  have hlt := address_lt_of_mem_located (isWhole_of_mem_entries region) hp
  rw [flatMap_bytes_entries] at hlt
  rw [Function.comp_apply, UInt8.toNat_ofNat', Nat.mod_eq_of_lt (by omega)]

/-- Entries that tile a region: their bytes in order are the region, and the lines of the
listing are their texts, each with the number of bytes in front of it. -/
def Tiles (listing : List (UInt8 × String)) (region : List UInt8) : Prop :=
  ∃ es : List Entry, es.flatMap Entry.bytes = region ∧
    listing.map (fun e => (e.1.toNat, e.2)) = (located 0 es).map fun p => (p.1, p.2.text)

/-- A computer whose program, with the report on it, is a region with this listing. -/
structure Reproduces (region : List UInt8) (listing : List (UInt8 × String)) (c : Computer)
    (a : Artifacts) : Prop where
  /-- The region is at the front of memory, and all bytes behind it are zero. -/
  cells : c.machine.memory.cells =
    region ++ List.replicate (c.machine.memory.size - region.length) 0
  /-- The program is as long as the region. -/
  pointer : c.machine.memory.pointer = region.length
  /-- The region is as long as reported. -/
  length : a.length = region.length
  /-- There are no labels. -/
  labels : a.labels = []
  /-- Every line is reported at the address of its entry. -/
  lines : a.lines = listing.mapIdx fun i e => (i + 1, e.1)
  /-- The program has the same listing again. -/
  again : c.listing = listing

/-- The report on a listing that has been assembled. -/
theorem lines_artifacts (region : List UInt8) :
    (Layout.artifacts (sourceLines (entries region))).lines =
      (lines region).mapIdx fun i e => (i + 1, e.1) := by
  have hrows := (layout_sourceLines (isWhole_of_mem_entries region)).1
  rw [Layout.artifacts, hrows, lines, List.mapIdx_eq_zipIdx_map, List.zipIdx_map, List.map_map,
    List.map_map]
  rfl

/-- The source of a listing has the texts of the entries as its lines. -/
theorem joined_lines (region : List UInt8) :
    joined (lines region) = "\n".intercalate ((entries region).map Entry.text) := by
  have htexts (address : Nat) (es : List Entry) :
      (located address es).map (fun p => p.2.text) = es.map Entry.text := by
    induction es generalizing address with
    | nil => rfl
    | cons e es ih => rw [located, List.map_cons, ih, List.map_cons]
  rw [joined, lines, List.map_map, ← htexts 0]
  rfl

/-- Assembling the source of a listing leaves the region that was listed. -/
theorem assemble_joined {m : Memory} {region : List UInt8} (h : region.length ≤ m.size) :
    ∃ n, m.assemble (joined (lines region)) =
        (n, .ok (Layout.artifacts (sourceLines (entries region)))) ∧
      n.pointer = region.length ∧
      n.cells = region ++ List.replicate (m.size - region.length) 0 := by
  have hwhole := isWhole_of_mem_entries region
  have hbytes := flatMap_bytes_entries region
  have hlines := lines?_joined hwhole
  rw [← joined_lines] at hlines
  have hfits : Fits m.size (sourceLines (entries region)) := by
    apply fits_sourceLines hwhole
    rw [hbytes]
    exact h
  have himage := (layout_sourceLines hwhole).2.2
  rw [hbytes] at himage
  have hlength := length_sourceLines hwhole
  rw [hbytes] at hlength
  obtain ⟨n, hn⟩ := Layout.exists_assemble hlines hfits (closed_sourceLines hwhole)
  obtain ⟨ls, hls, -, -, hpointer, hcells, -⟩ := Layout.assemble_eq_ok_iff.mp hn
  rw [hlines] at hls
  cases hls
  rw [himage, hlength] at hcells
  rw [hlength] at hpointer
  exact ⟨n, Layout.memory_assemble_eq_ok_iff.mpr hn, hpointer, hcells⟩

/-- A listing can be assembled again into every memory with room for the region that was
listed. This gives the region, without labels, with every line at the address of its
entry, and with the same listing. -/
theorem listing_reassembles (c target : Computer)
    (h : c.machine.memory.pointer ≤ target.machine.memory.size) :
    Tiles c.listing c.machine.memory.program ∧
    ∃ a, (target.assemble (joined c.listing)).answer = .ok a ∧
      (target.assemble (joined c.listing)).next.machine.memory.size =
        target.machine.memory.size ∧
      Reproduces c.machine.memory.program c.listing
        (target.assemble (joined c.listing)).next a := by
  have hpointer := c.machine.memory.pointer_le
  have hregion : c.machine.memory.program.length = c.machine.memory.pointer := by
    rw [Memory.program, List.length_take, Nat.min_eq_left hpointer]
  have hlimit : c.machine.memory.cells.length ≤ 256 := c.machine.memory.cells_le
  refine ⟨⟨entries c.machine.memory.program, flatMap_bytes_entries _,
    lines_toNat (by omega)⟩, ?_⟩
  have hroom : c.machine.memory.program.length ≤ target.machine.memory.size := by omega
  obtain ⟨n, hn, hend, hcells⟩ := assemble_joined hroom
  have hsize : n.size = target.machine.memory.size := by
    rw [Memory.size, hcells, List.length_append, List.length_replicate]
    omega
  have hprogram : n.program = c.machine.memory.program := by
    rw [Memory.program, hend, hcells, List.take_left']
    rfl
  have hwhole := isWhole_of_mem_entries c.machine.memory.program
  unfold Computer.assemble
  rw [Computer.listing, hn]
  refine ⟨_, rfl, hsize, ?_, hend, ?_, ?_, lines_artifacts _, ?_⟩
  · rw [hcells, ← hsize]
  · have hlength := length_sourceLines hwhole
    rw [flatMap_bytes_entries] at hlength
    exact hlength
  · rw [Layout.artifacts, (layout_sourceLines hwhole).2.1]
    rfl
  · rw [Computer.listing, hprogram]

/-- A computer whose memory is filled by a jump, a byte that is no code, and the code of a
jump whose operand would lie behind the end. -/
def cutOff : Computer where
  machine := {
    memory := ⟨[11, 5, 99, 11], 4, by decide, by decide, by decide⟩
    scheduler := { sleepUnit := 0 }
    generator := { key := 0 } }
  settings := { memorySize := 4 }

/-- The listing with a code that is cut off fills the same memory again. -/
theorem cutOff_listing_reassembles :
    cutOff.listing = [(0, "JUMP 05"), (2, "BYTE 63"), (3, "BYTE 0B")] ∧
      ∃ a, (cutOff.assemble (joined cutOff.listing)).answer = .ok a ∧ a.length = 4 := by
  refine ⟨by decide, ?_⟩
  obtain ⟨-, a, ha, -, hreproduces⟩ := listing_reassembles cutOff cutOff (by decide)
  exact ⟨a, ha, hreproduces.length⟩

end ByteMachine.Listing
