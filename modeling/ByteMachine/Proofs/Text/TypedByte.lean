import ByteMachine.Proofs.Source.Grammar
import ByteMachine.Proofs.Text.HexNumber

/-!
# The grammar of typed bytes

What a person types stands for a byte if it is written, between white space, as

    ['0x' | '0X' | 'x' | 'X'] ['+'] digit+

with a value of at most 255, where digits may be of either case and there may be any number of
zeros in front. The reader strips these parts one after another. A text can be cut into them in
one way at most, because no mark and no sign could be taken for digits, and the reader takes
exactly the texts that can be cut.
-/

namespace ByteMachine.Text

open Source (Gap StartsInk skipBlanks_eq_iff)

/-- A text without the white space at its ends. -/
structure IsTrimOf (core text : List Char) : Prop where
  /-- What has been taken away is white space. -/
  around : ∃ front back : Gap, text = front.chars ++ (core ++ back.chars)
  /-- What is left does not begin with white space. -/
  front : StartsInk core
  /-- It does not end with white space either. -/
  back : StartsInk core.reverse

section Trimming

/-- White space read from its end. -/
def gapReversed (g : Gap) : Gap := ⟨g.chars.reverse, fun c hc => g.blank c (List.mem_reverse.mp hc)⟩

/-- An empty text does not begin with white space. -/
theorem startsInk_nil : StartsInk [] := by
  intro c hc
  cases hc

/-- Whether another text does is seen at its front, whatever follows. -/
theorem startsInk_append {cs : List Char} (hne : cs ≠ []) (rest : List Char) :
    StartsInk (cs ++ rest) ↔ StartsInk cs := by
  cases cs with
  | nil => exact absurd rfl hne
  | cons c cs => exact Iff.rfl

/-- Trimming a text takes away the white space at its ends, and that alone. -/
theorem trimChars_eq_iff {text core : List Char} :
    trimChars text = core ↔ IsTrimOf core text := by
  have hends : trimChars text = core ↔
      StartsInk core.reverse ∧ ∃ g : Gap, skipBlanks text = core ++ g.chars := by
    rw [trimChars, List.reverse_eq_iff, skipBlanks_eq_iff]
    refine and_congr_right fun _ => ⟨?_, ?_⟩
    · rintro ⟨g, hg⟩
      refine ⟨gapReversed g, ?_⟩
      rw [← List.reverse_reverse (skipBlanks text), hg, List.reverse_append, List.reverse_reverse]
      rfl
    · rintro ⟨g, hg⟩
      refine ⟨gapReversed g, ?_⟩
      rw [hg, List.reverse_append]
      rfl
  rw [hends]
  constructor
  · rintro ⟨hback, g, hg⟩
    obtain ⟨hink, front, htext⟩ := skipBlanks_eq_iff.mp hg
    refine ⟨⟨front, g, htext⟩, ?_, hback⟩
    by_cases hne : core = []
    · rw [hne]
      exact startsInk_nil
    · exact (startsInk_append hne _).mp hink
  · rintro ⟨⟨front, back, htext⟩, hfront, hback⟩
    refine ⟨hback, ?_⟩
    by_cases hne : core = []
    · -- white space alone is skipped as a whole, and nothing is left to be skipped at the end
      rw [hne] at htext ⊢
      refine ⟨.empty, skipBlanks_eq_iff.mpr ⟨startsInk_nil, front.append back, ?_⟩⟩
      rw [htext, List.nil_append, Source.Gap.chars_append, Source.Gap.chars_empty, List.append_nil,
        List.append_nil]
    · exact ⟨back, skipBlanks_eq_iff.mpr ⟨(startsInk_append hne _).mpr hfront, front, htext⟩⟩

end Trimming

/-- The marks of a hexadecimal number, of which there may be none. -/
def hexMarks : List (List Char) := [[], ['0', 'x'], ['0', 'X'], ['x'], ['X']]

/-- The signs of a byte, of which there may be none. -/
def hexSigns : List (List Char) := [[], ['+']]

/-- The parts of a typed number. -/
@[ext]
structure TypedNumber where
  /-- The mark in front. -/
  mark : List Char
  /-- The sign behind it. -/
  sign : List Char
  /-- The digits. -/
  digits : List Char

namespace TypedNumber

/-- The parts as they stand one behind another. -/
def chars (t : TypedNumber) : List Char := t.mark ++ (t.sign ++ t.digits)

/-- A number that is written as a byte is, and stands for this one. -/
structure Denotes (t : TypedNumber) (value : UInt8) : Prop where
  /-- The mark is one of those that there are. -/
  mark : t.mark ∈ hexMarks
  /-- The sign is a plus, if there is one. -/
  sign : t.sign ∈ hexSigns
  /-- There are digits, and their number is the byte. -/
  digits : hexNumber? t.digits = some value.toNat

end TypedNumber

section Digits

variable {cs : List Char} {value : UInt8}

/-- What has a value consists of digits. -/
theorem isSome_hexDigit?_of_hexValue? {acc v : Nat} (h : hexValue? acc cs = some v) {c : Char}
    (hc : c ∈ cs) : (hexDigit? c).isSome = true := by
  induction cs generalizing acc with
  | nil => cases hc
  | cons d cs ih =>
    obtain ⟨n, hn, hrest⟩ := Option.bind_eq_some_iff.mp h
    rcases List.mem_cons.mp hc with rfl | hc
    · rw [hn]
      rfl
    · exact ih hrest hc

/-- What is no digit does not stand among the digits of a byte. -/
theorem not_mem_of_hexDigits? (h : hexDigits? cs = some value) {c : Char}
    (hc : hexDigit? c = none) : c ∉ cs := by
  intro hmem
  unfold hexDigits? at h
  split at h
  · cases h
  · obtain ⟨v, hv, -⟩ := Option.bind_eq_some_iff.mp h
    have hdigit := isSome_hexDigit?_of_hexValue? hv hmem
    rw [hc] at hdigit
    cases hdigit

/-- A text without the letters of a mark has no mark to be stripped. -/
theorem stripHexMark_of_not_mem (hx : 'x' ∉ cs) (hX : 'X' ∉ cs) : stripHexMark cs = cs := by
  unfold stripHexMark
  split
  · simp at hx
  · simp at hX
  · simp at hx
  · simp at hX
  · rfl

end Digits

section Stripping

variable {cs : List Char} {value : UInt8}

/-- What is stripped from the front of a text is a mark. -/
theorem exists_mark (cs : List Char) : ∃ mark ∈ hexMarks, cs = mark ++ stripHexMark cs := by
  unfold stripHexMark
  split
  · exact ⟨['0', 'x'], by decide, rfl⟩
  · exact ⟨['0', 'X'], by decide, rfl⟩
  · exact ⟨['x'], by decide, rfl⟩
  · exact ⟨['X'], by decide, rfl⟩
  · exact ⟨[], by decide, rfl⟩

/-- A byte is read from digits, with a sign in front or without. -/
theorem exists_sign (h : hexByte? cs = some value) :
    ∃ sign ∈ hexSigns, ∃ digits, cs = sign ++ digits ∧ hexDigits? digits = some value := by
  unfold hexByte? at h
  split at h
  · rename_i cs
    exact ⟨['+'], by decide, cs, rfl, h⟩
  · exact ⟨[], by decide, cs, rfl, h⟩

namespace TypedNumber.Denotes

variable {t t' : TypedNumber} {value' : UInt8}

theorem hexDigits?_eq (h : t.Denotes value) : hexDigits? t.digits = some value :=
  hexDigits?_eq_some_iff.mpr h.digits

/-- What is neither a sign nor a digit stands in no number behind its mark. -/
theorem not_mem (h : t.Denotes value) {c : Char} (hc : hexDigit? c = none) (hplus : c ≠ '+') :
    c ∉ t.sign ++ t.digits := by
  rw [List.mem_append, not_or]
  refine ⟨?_, not_mem_of_hexDigits? h.hexDigits?_eq hc⟩
  have hsign := h.sign
  simp only [hexSigns, List.mem_cons, List.not_mem_nil, or_false] at hsign
  rcases hsign with hsign | hsign <;> simp [hsign, hplus]

/-- The reader strips the mark of a number and nothing else. -/
theorem stripHexMark_chars (h : t.Denotes value) :
    stripHexMark t.chars = t.sign ++ t.digits := by
  have hmark := h.mark
  simp only [hexMarks, List.mem_cons, List.not_mem_nil, or_false] at hmark
  unfold chars
  rcases hmark with hmark | hmark | hmark | hmark | hmark
  · rw [hmark]
    exact stripHexMark_of_not_mem (h.not_mem rfl (by decide)) (h.not_mem rfl (by decide))
  · rw [hmark]
    rfl
  · rw [hmark]
    rfl
  · rw [hmark]
    rfl
  · rw [hmark]
    rfl

/-- Behind the mark the byte is read. -/
theorem hexByte?_eq (h : t.Denotes value) : hexByte? (t.sign ++ t.digits) = some value := by
  have hsign := h.sign
  simp only [hexSigns, List.mem_cons, List.not_mem_nil, or_false] at hsign
  rcases hsign with hsign | hsign
  · rw [hsign, List.nil_append,
      hexByte?_of_plus_not_mem (not_mem_of_hexDigits? h.hexDigits?_eq rfl)]
    exact h.hexDigits?_eq
  · rw [hsign]
    exact h.hexDigits?_eq

/-- There is one way at most to cut a text into the parts of a byte. -/
theorem unique (h : t.Denotes value) (h' : t'.Denotes value') (heq : t.chars = t'.chars) :
    t = t' := by
  have hrest : t.sign ++ t.digits = t'.sign ++ t'.digits := by
    rw [← h.stripHexMark_chars, ← h'.stripHexMark_chars, heq]
  have hmark : t.mark = t'.mark := by
    unfold chars at heq
    rw [hrest] at heq
    exact List.append_cancel_right heq
  have hplus : '+' ∉ t.digits := not_mem_of_hexDigits? h.hexDigits?_eq rfl
  have hplus' : '+' ∉ t'.digits := not_mem_of_hexDigits? h'.hexDigits?_eq rfl
  have hsign := h.sign
  have hsign' := h'.sign
  simp only [hexSigns, List.mem_cons, List.not_mem_nil, or_false] at hsign hsign'
  rcases hsign with hsign | hsign <;> rcases hsign' with hsign' | hsign' <;>
    rw [hsign, hsign'] at hrest
  · exact TypedNumber.ext hmark (hsign.trans hsign'.symm) hrest
  · -- one of them would have its sign among the digits of the other
    rw [List.nil_append] at hrest
    exact absurd (hrest ▸ List.mem_append_left _ (List.mem_singleton_self _)) hplus
  · rw [List.nil_append] at hrest
    exact absurd (hrest.symm ▸ List.mem_append_left _ (List.mem_singleton_self _)) hplus'
  · exact TypedNumber.ext hmark (hsign.trans hsign'.symm) (List.append_cancel_left hrest)

end TypedNumber.Denotes

/-- A byte is read from a text without white space around it exactly if the text is that of a
number for the byte. -/
theorem hexByte?_stripHexMark_eq_some_iff :
    hexByte? (stripHexMark cs) = some value ↔
      ∃ t : TypedNumber, t.chars = cs ∧ t.Denotes value := by
  constructor
  · intro h
    obtain ⟨mark, hmark, hcs⟩ := exists_mark cs
    obtain ⟨sign, hsign, digits, hrest, hdigits⟩ := exists_sign h
    refine ⟨⟨mark, sign, digits⟩, ?_, hmark, hsign, hexDigits?_eq_some_iff.mp hdigits⟩
    rw [hcs, hrest]
    rfl
  · rintro ⟨t, rfl, ht⟩
    rw [ht.stripHexMark_chars, ht.hexByte?_eq]

end Stripping

/-- The reader of typed bytes accepts its grammar and nothing else. A text stands for a byte
exactly if it can be cut, without the white space at its ends, into a mark, a sign and a
nonempty run of hexadecimal digits whose number is that byte, and then there is only one way to
cut it. Every other text is refused. -/
theorem typedByte?_accepts_grammar (text : String) :
    (∀ value, typedByte? text = some value ↔
      ∃! t : TypedNumber, IsTrimOf t.chars text.toList ∧ t.Denotes value) ∧
    (typedByte? text = none ↔
      ¬∃ (t : TypedNumber) (value : UInt8), IsTrimOf t.chars text.toList ∧ t.Denotes value) := by
  have hread (value : UInt8) : typedByte? text = some value ↔
      ∃ t : TypedNumber, IsTrimOf t.chars text.toList ∧ t.Denotes value := by
    rw [typedByte?, hexByte?_stripHexMark_eq_some_iff]
    simp only [← trimChars_eq_iff, eq_comm]
  constructor
  · intro value
    rw [hread]
    constructor
    · rintro ⟨t, htrim, ht⟩
      refine ⟨t, ⟨htrim, ht⟩, ?_⟩
      rintro t' ⟨htrim', ht'⟩
      exact ht'.unique ht ((trimChars_eq_iff.mpr htrim').symm.trans (trimChars_eq_iff.mpr htrim))
    · exact ExistsUnique.exists
  · rw [Option.eq_none_iff_forall_ne_some, exists_comm, not_exists]
    exact forall_congr' fun value => not_congr (hread value)

/-- Zeros in front do not count, however many there are, and a sign may follow the mark. -/
example : typedByte? " \u2003X+000fF\n" = some 255 := by decide

/-- Two marks, a sign in front of the mark, a gap between digits and a value too large. -/
example : ["0x0x1", "+x1", "1 2", "1_2", "-0", "x", "100"].map typedByte? =
    List.replicate 7 none := by decide

end ByteMachine.Text
