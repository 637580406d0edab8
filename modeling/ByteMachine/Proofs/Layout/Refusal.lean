import ByteMachine.Proofs.Layout.Assembled
import ByteMachine.Proofs.Layout.Faults

/-!
# Which error is reported

Assembling stops at the first line with a fault, and what it reports is the first fault of
that line. Nothing behind the line can change this, not even the definition of a label that
the line uses. Only when all lines have passed is it looked whether labels are defined, and
then the first use of an undefined one is reported. So an error with a line number speaks of
the first bad line, and an undefined label is the only complaint about a source as a whole.
-/

namespace ByteMachine

/-- The line that an error names. An undefined label is named without one. -/
def AssemblyError.line? : AssemblyError → Option Nat
  | malformedLine line _ | unknownMnemonic line _ | invalidOperands line _ _
  | invalidLiteral line _ | programTooLarge line _ => some line
  | labelNotFound _ => none

/-- A chain of steps fails at one of them, which all steps before it reach. -/
theorem foldlM_eq_error_iff {ε α β : Type} {f : β → α → Except ε β} {xs : List α} {b : β}
    {e : ε} : xs.foldlM f b = .error e ↔
      ∃ k x b', xs[k]? = some x ∧ (xs.take k).foldlM f b = .ok b' ∧ f b' x = .error e := by
  induction xs generalizing b with
  | nil => simp [pure, Except.pure]
  | cons x xs ih =>
    rw [List.foldlM_cons]
    constructor
    · intro h
      cases hx : f b x with
      | error e' =>
        rw [hx] at h
        cases h
        exact ⟨0, x, b, rfl, rfl, hx⟩
      | ok a =>
        rw [hx] at h
        obtain ⟨k, y, b', hy, htake, hfail⟩ := ih.mp h
        refine ⟨k + 1, y, b', hy, ?_, hfail⟩
        rw [List.take_succ_cons, List.foldlM_cons, hx]
        exact htake
    · intro ⟨k, y, b', hy, htake, hfail⟩
      cases k with
      | zero =>
        cases hy
        cases htake
        rw [hfail]
        rfl
      | succ k =>
        rw [List.take_succ_cons, List.foldlM_cons] at htake
        obtain ⟨a, hx, hrest⟩ := bind_eq_ok_iff.mp htake
        rw [hx]
        exact ih.mpr ⟨k, y, b', hy, hrest, hfail⟩

/-- Where a chain of steps goes through, so does every beginning of it. -/
theorem exists_foldlM_take {ε α β : Type} {f : β → α → Except ε β} {xs : List α} {b b' : β}
    (h : xs.foldlM f b = .ok b') (k : Nat) : ∃ c, (xs.take k).foldlM f b = .ok c := by
  rw [← List.take_append_drop k xs, List.foldlM_append] at h
  obtain ⟨c, hc, -⟩ := bind_eq_ok_iff.mp h
  exact ⟨c, hc⟩

namespace Source

/-- The label that an operand names. -/
def Operand.label? : Operand → Option String
  | label name => some name
  | word _ => none

end Source

namespace Layout

open Source (Line Operand)

/-- The labels that are used, in source order. -/
def references (ls : List Line) : List String :=
  (rows ls).filterMap fun r => r.operand.bind Operand.label?

/-- The labels that are defined, in source order. -/
def defined (ls : List Line) : List String := ls.filterMap Line.label

/-- The uses of labels are what the second pass has to visit. -/
theorem map_label_patches (ls : List Line) :
    (patches ls).map Assembly.Patch.label = references ls := by
  have hrow (r : Row) : r.patch?.map Assembly.Patch.label = r.operand.bind Operand.label? := by
    obtain ⟨line, address, i, operand⟩ := r
    cases operand with
    | none => rfl
    | some o => cases o <;> rfl
  rw [patches, List.map_filterMap, references]
  exact List.filterMap_congr fun r hr => hrow r

/-- A label has an address in the table exactly if it is defined. -/
theorem isNone_address?_table (ls : List Line) (name : String) :
    (Assembly.address? (defineAll [] (definitions ls)) name).isNone =
      decide (name ∉ defined ls) := by
  have hdefined : name ∈ defined ls ↔ ∃ a, labelAddress? ls name = some a := by
    rw [labelAddress?_isSome_iff, defined, List.mem_filterMap]
  rw [address?_table]
  cases ha : labelAddress? ls name with
  | none => simp [hdefined, ha]
  | some a => simp [hdefined, ha]

/-- The error that a check gives names the line. -/
theorem line?_of_fault? {size line address : Nat} {text : List Char} {l : Line} {check : Check}
    {e : AssemblyError} (h : check.fault? size line address text l = some e) :
    e.line? = some line := by
  cases check <;>
    simp only [Check.fault?, Option.bind_eq_some_iff, Option.ite_none_right_eq_some,
      Option.ite_none_left_eq_some, Option.some.injEq] at h
  case labelAddress =>
    rw [← h.2]
    rfl
  case mnemonic | operands | instructionAddress =>
    obtain ⟨_, -, -, heq⟩ := h
    rw [← heq]
    rfl
  case codeRoom | literal | operandRoom =>
    obtain ⟨_, -, _, -, -, heq⟩ := h
    rw [← heq]
    rfl

/-- The fault of a line is reported with the number of the line. -/
theorem line?_of_firstFault? {size line address : Nat} {text : List Char} {e : AssemblyError}
    (h : firstFault? size line address text = some e) : e.line? = some line := by
  unfold firstFault? at h
  split at h
  · cases h
    rfl
  · obtain ⟨check, -, hfault⟩ := List.exists_of_findSome?_eq_some h
    exact line?_of_fault? hfault

end Layout

namespace Assembly

open Layout (firstFault? references defined)
open Source (Line Operand lineOfChars? splitLines)

/-- The first pass over the first lines of a source. -/
def readLines (m : Memory) (texts : List (List Char)) : Except Failure Draft :=
  (texts.zipIdx.map fun t => (t.2 + 1, t.1)).foldlM Draft.readLine { memory := m.clear }

/-- The first pass over a source reads all its lines. -/
theorem firstPass_eq_readLines (m : Memory) (source : String) :
    firstPass m source = readLines m (splitLines source.toList) := rfl

variable {m : Memory} {texts : List (List Char)}

/-- The first lines have the numbers that they have among all lines. -/
theorem take_numbered (texts : List (List Char)) (count : Nat) :
    (texts.zipIdx.map fun t => (t.2 + 1, t.1)).take count =
      (texts.take count).zipIdx.map fun t => (t.2 + 1, t.1) := by
  rw [← List.map_take]
  apply congrArg
  apply List.ext_getElem?
  intro k
  rw [List.getElem?_zipIdx, List.getElem?_take, List.getElem?_take, List.getElem?_zipIdx]
  split <;> rfl

/-- The first pass is refused at one line, which all lines before it have passed. -/
theorem readLines_eq_error_iff {f : Failure} :
    readLines m texts = .error f ↔
      ∃ index text d, texts[index]? = some text ∧ readLines m (texts.take index) = .ok d ∧
        d.readLine (index + 1, text) = .error f := by
  rw [readLines, foldlM_eq_error_iff]
  constructor
  · intro ⟨index, line, d, hline, hd, hfail⟩
    rw [List.getElem?_map, List.getElem?_zipIdx, Option.map_map] at hline
    obtain ⟨text, htext, heq⟩ := Option.map_eq_some_iff.mp hline
    rw [take_numbered] at hd
    refine ⟨index, text, d, htext, hd, ?_⟩
    rw [← heq] at hfail
    simpa using hfail
  · intro ⟨index, text, d, htext, hd, hfail⟩
    refine ⟨index, (index + 1, text), d, ?_, ?_, hfail⟩
    · rw [List.getElem?_map, List.getElem?_zipIdx, htext]
      simp
    · rw [take_numbered]
      exact hd

/-- What the lines that have passed are laid out as. -/
theorem exists_lines_of_readLines {d : Draft} (h : readLines m texts = .ok d) :
    ∃ ls, texts.mapM lineOfChars? = some ls ∧ Layout.Fits m.size ls ∧
      d = Layout.draft ls d.memory ∧ d.memory.size = m.size ∧
      d.memory.pointer = Layout.length ls := by
  obtain ⟨ls, hls, hfits, n, hn, hd⟩ := Layout.foldlM_readLine_eq_ok_iff.mp h
  have hmemory : d.memory = n := by
    rw [hd]
    rfl
  obtain ⟨hroom, hpointer, hcells⟩ := Memory.appendAll_clear_eq_ok_iff.mp hn
  have hsize : n.size = m.size := by
    rw [Memory.size, hcells, List.length_append, List.length_replicate]
    omega
  rw [Layout.length_bytes] at hpointer
  rw [hmemory]
  exact ⟨ls, hls, hfits, hd, hsize, hpointer⟩

/-- The first pass goes over the beginnings of a source up to the line that is refused, and
over none that is longer. -/
theorem exists_readLines_take_iff {f : Failure} {index : Nat} {text : List Char} {d : Draft}
    (htext : texts[index]? = some text) (hd : readLines m (texts.take index) = .ok d)
    (hfail : d.readLine (index + 1, text) = .error f) (count : Nat) :
    (∃ d', readLines m (texts.take count) = .ok d') ↔ count ≤ index := by
  constructor
  · intro ⟨d', hd'⟩
    by_contra hlonger
    have hlt : index < count := Nat.lt_of_not_le hlonger
    have hline : (texts.take count)[index]? = some text := by
      rw [List.getElem?_take, if_pos hlt, htext]
    have hbefore : (texts.take count).take index = texts.take index := by
      rw [List.take_take, Nat.min_eq_left hlt.le]
    rw [← hbefore] at hd
    have herror := readLines_eq_error_iff.mpr ⟨index, text, d, hline, hd, hfail⟩
    rw [hd'] at herror
    cases herror
  · intro hle
    obtain ⟨d', hd'⟩ := exists_foldlM_take hd count
    rw [take_numbered, List.take_take, Nat.min_eq_left hle] at hd'
    exact ⟨d', hd'⟩

/-- The second pass is refused for the first use of a label that is not in the table. -/
theorem refusal?_foldlM_applyPatch {labels : List (String × UInt8)} (ps : List Patch)
    (hps : ∀ p ∈ ps, p.address < m.pointer) :
    refusal? (ps.foldlM (Draft.applyPatch labels) m) =
      (ps.find? fun p => (address? labels p.label).isNone).map fun p =>
        .labelNotFound ((Operand.label p.label).spelling) := by
  induction ps generalizing m with
  | nil => rfl
  | cons p ps ih =>
    rw [List.foldlM_cons, List.find?_cons]
    cases hlabel : address? labels p.label with
    | none =>
      have hfail : Draft.applyPatch labels m p =
          .error ⟨.labelNotFound ((Operand.label p.label).spelling), m⟩ := by
        rw [Draft.applyPatch, hlabel]
      rw [hfail]
      rfl
    | some value =>
      have hgo : Draft.applyPatch labels m p = .ok (m.setCell p.address value) :=
        Layout.applyPatch_eq_ok_iff.mpr ⟨value, hlabel, hps p List.mem_cons_self, rfl⟩
      rw [hgo, refusal?_bind_ok]
      exact ih fun q hq => hps q (List.mem_cons_of_mem p hq)

/-- Once all lines have passed, a source is refused for its first use of a label that no
line defines. -/
theorem refusal?_resolve {ls : List Line} (hfits : Layout.Fits m.size ls) {n : Memory}
    (hn : n.pointer = Layout.length ls) :
    refusal? (Layout.draft ls n).resolve =
      ((references ls).find? fun name => name ∉ defined ls).map fun name =>
        .labelNotFound (Operand.label name).spelling := by
  have hpatches : ∀ p ∈ Layout.patches ls, p.address < n.pointer := by
    rw [hn]
    exact Layout.address_lt_of_mem_patches hfits.readable
  have hundefined (p : Patch) : (address? (Layout.draft ls n).labels p.label).isNone =
      decide (p.label ∉ defined ls) :=
    Layout.isNone_address?_table ls p.label
  have hfirst : refusal? (Layout.draft ls n).resolve =
      ((Layout.patches ls).find? fun p =>
        (address? (Layout.draft ls n).labels p.label).isNone).map fun p =>
          .labelNotFound ((Operand.label p.label).spelling) :=
    refusal?_foldlM_applyPatch _ hpatches
  simp only [hundefined] at hfirst
  rw [← Layout.map_label_patches, List.find?_map, Option.map_map]
  exact hfirst

/-- Assembling is refused in the first pass, or else in the second. -/
theorem refusal?_assemble (m : Memory) (source : String) :
    refusal? (assemble m source) =
      match firstPass m source with
      | .ok d => refusal? d.resolve
      | .error f => some f.error := by
  unfold assemble
  cases firstPass m source with
  | error f => rfl
  | ok d =>
    rw [refusal?_bind_ok]
    dsimp only
    cases d.resolve <;> rfl

end Assembly

open Assembly (readLines refusal?)
open Layout (firstFault? references defined)
open Source (Operand lineOfChars? splitLines)

/-- What the assembler answers to a refused source. -/
theorem Memory.assemble_eq_error_iff {m : Memory} {source : String} {e : AssemblyError} :
    (m.assemble source).2 = .error e ↔ refusal? (Assembly.assemble m source) = some e := by
  unfold Memory.assemble
  cases Assembly.assemble m source with
  | ok r => simp [refusal?]
  | error f => simp [refusal?]

namespace Assembly

/-- A source that is refused at one line, with this many lines in front of it. -/
structure RefusedAt (m : Memory) (source : String) (before : Nat) (e : AssemblyError) :
    Prop where
  /-- The lines in front of it pass the first pass, and with it they do not. -/
  passes : ∀ count,
    (∃ d, readLines m ((splitLines source.toList).take count) = .ok d) ↔ count ≤ before
  /-- The error is the first fault of the line, which begins where those in front end. -/
  fault : ∃ text ls, (splitLines source.toList)[before]? = some text ∧
    ((splitLines source.toList).take before).mapM lineOfChars? = some ls ∧
    firstFault? m.size (before + 1) (Layout.length ls) text = some e
  /-- Whatever follows the line, the error is the same. -/
  stable : ∀ other : String,
    (splitLines other.toList).take (before + 1) = (splitLines source.toList).take (before + 1) →
    (m.assemble other).2 = .error e

/-- Where the first pass is refused, it is refused at one line, for the first fault of that
line. -/
theorem refusedAt_of_firstPass {m : Memory} {source : String} {f : Failure}
    (h : firstPass m source = .error f) :
    ∃ before, f.error.line? = some (before + 1) ∧ RefusedAt m source before f.error := by
  rw [firstPass_eq_readLines] at h
  obtain ⟨before, text, d, htext, hd, hfail⟩ := readLines_eq_error_iff.mp h
  obtain ⟨ls, hls, -, -, hsize, hpointer⟩ := exists_lines_of_readLines hd
  have hfault := Draft.refusal?_readLine d (before + 1) text
  rw [hfail, hsize, hpointer] at hfault
  refine ⟨before, Layout.line?_of_firstFault? hfault.symm, ?_⟩
  constructor
  · exact exists_readLines_take_iff htext hd hfail
  · exact ⟨text, ls, htext, hls, hfault.symm⟩
  · intro other hother
    have hline : (splitLines other.toList)[before]? = some text := by
      have hlast := congrArg (fun texts => texts[before]?) hother
      have hlt := Nat.lt_succ_self before
      rw [List.getElem?_take, List.getElem?_take, if_pos hlt, if_pos hlt] at hlast
      rw [hlast, htext]
    have hbefore : (splitLines other.toList).take before =
        (splitLines source.toList).take before := by
      have hshorter := congrArg (List.take before) hother
      rw [List.take_take, List.take_take, Nat.min_eq_left (Nat.le_succ before)] at hshorter
      exact hshorter
    rw [← hbefore] at hd
    have hrefused : firstPass m other = .error f :=
      readLines_eq_error_iff.mpr ⟨before, text, d, hline, hd, hfail⟩
    rw [Memory.assemble_eq_error_iff, refusal?_assemble, hrefused]

/-- Where the first pass goes through, only an undefined label is left to complain about. -/
theorem refusal?_assemble_of_firstPass {m : Memory} {source : String} {d : Draft}
    (h : firstPass m source = .ok d) :
    ∃ ls, Source.lines? source = some ls ∧
      refusal? (assemble m source) =
        ((references ls).find? fun name => name ∉ defined ls).map fun name =>
          .labelNotFound (Operand.label name).spelling := by
  obtain ⟨ls, hls, hfits, hdraft, -, hpointer⟩ := exists_lines_of_readLines h
  refine ⟨ls, hls, ?_⟩
  rw [refusal?_assemble, h]
  dsimp only
  rw [hdraft]
  exact refusal?_resolve hfits hpointer

/-- A source is refused for its first fault. If the error names a line, then exactly the
lines in front of that one pass the first pass, the error is the first one in the order of
checks that applies to the line at its address, and every source that begins with the same
lines, whatever follows them, is refused with the same error. An undefined label is
reported exactly if all lines pass the first pass and some label that is used is never
defined, and then the first such use in source order is named. -/
theorem refusal_reports_first_fault (m : Memory) (source : String) :
    (∀ e line, (m.assemble source).2 = .error e → e.line? = some line →
      ∃ before, line = before + 1 ∧ RefusedAt m source before e) ∧
    ∀ label, (m.assemble source).2 = .error (.labelNotFound label) ↔
      ∃ d ls name, firstPass m source = .ok d ∧ Source.lines? source = some ls ∧
        (references ls).find? (fun name => name ∉ defined ls) = some name ∧
        label = (Operand.label name).spelling := by
  simp only [Memory.assemble_eq_error_iff]
  cases h : firstPass m source with
  | error f =>
    obtain ⟨before, hline, hrefused⟩ := refusedAt_of_firstPass h
    have herror : refusal? (assemble m source) = some f.error := by
      rw [refusal?_assemble, h]
    rw [herror]
    constructor
    · intro e line he hnumber
      cases he
      rw [hline] at hnumber
      exact ⟨before, (Option.some.inj hnumber).symm, hrefused⟩
    · intro label
      constructor
      · intro he
        rw [Option.some.inj he] at hline
        cases hline
      · intro ⟨d, ls, name, hd, _⟩
        cases hd
  | ok d =>
    obtain ⟨ls, hls, hrefusal⟩ := refusal?_assemble_of_firstPass h
    rw [hrefusal]
    constructor
    · intro e line he hnumber
      obtain ⟨name, -, heq⟩ := Option.map_eq_some_iff.mp he
      rw [← heq] at hnumber
      cases hnumber
    · intro label
      rw [Option.map_eq_some_iff]
      constructor
      · intro ⟨name, hname, heq⟩
        cases heq
        exact ⟨d, ls, name, rfl, hls, hname, rfl⟩
      · intro ⟨d', ls', name, _, hls', hname, heq⟩
        rw [hls] at hls'
        cases hls'
        exact ⟨name, hname, by rw [heq]⟩

end Assembly

end ByteMachine
