import Mathlib.Data.List.TakeWhile
import ByteMachine.Source.Lexer

/-!
# Words and operands on a line

A word is a nonempty run of word characters, and the reader takes the longest one at
the front. An operand is a word, with or without the mark of a label in front, and is
read the same way.
-/

namespace ByteMachine.Source

open Text (isBlank)

/-- A nonempty text of word characters. -/
def IsWord (w : String) : Prop := w.toList ≠ [] ∧ ∀ c ∈ w.toList, isWordChar c = true

instance (w : String) : Decidable (IsWord w) :=
  decidable_of_iff (w.toList ≠ [] ∧ w.toList.all isWordChar = true)
    (and_congr_right fun _ => List.all_eq_true)

/-- No word can go on with this text. -/
def EndsWord (cs : List Char) : Prop := ∀ c ∈ cs.head?, isWordChar c = false

/-- An operand whose text, the mark of a label aside, is a word. -/
def Operand.IsPlain : Operand → Prop
  | .label name => IsWord name
  | .word text => IsWord text

instance : (o : Operand) → Decidable o.IsPlain
  | .label name => inferInstanceAs (Decidable (IsWord name))
  | .word text => inferInstanceAs (Decidable (IsWord text))

/-- What is left behind the longest run of some characters does not begin with one. -/
theorem eq_false_of_mem_head?_dropWhile {p : Char → Bool} {cs : List Char} {c : Char}
    (hc : c ∈ (cs.dropWhile p).head?) : p c = false := by
  have h := List.head?_dropWhile_not p cs
  rw [Option.mem_def.mp hc] at h
  simpa using h

/-- What is left behind the longest run of word characters ends a word. -/
theorem endsWord_dropWhile (cs : List Char) : EndsWord (cs.dropWhile isWordChar) :=
  fun _ hc => eq_false_of_mem_head?_dropWhile hc

/-- A run of word characters is read as a whole where no word can go on. -/
theorem takeWhile_of_endsWord {w rest : List Char} (hw : ∀ c ∈ w, isWordChar c = true)
    (hr : EndsWord rest) : (w ++ rest).takeWhile isWordChar = w := by
  rw [List.takeWhile_append_of_pos hw]
  cases rest with
  | nil => simp
  | cons c rest =>
    have hc : isWordChar c = false := hr c rfl
    simp [hc]

/-- What is left behind a run of word characters that cannot go on. -/
theorem dropWhile_of_endsWord {w rest : List Char} (hw : ∀ c ∈ w, isWordChar c = true)
    (hr : EndsWord rest) : (w ++ rest).dropWhile isWordChar = rest := by
  rw [List.dropWhile_append_of_pos hw]
  cases rest with
  | nil => rfl
  | cons c rest =>
    have hc : isWordChar c = false := hr c rfl
    simp [hc]

/-- The reader of words takes exactly the longest word at the front. -/
theorem word?_eq_some_iff {cs rest : List Char} {w : String} :
    word? cs = some (w, rest) ↔ cs = w.toList ++ rest ∧ IsWord w ∧ EndsWord rest := by
  constructor
  · intro h
    have hsplit := (List.takeWhile_append_dropWhile (p := isWordChar) (l := cs)).symm
    unfold word? at h
    split at h
    · cases h
    · rename_i run hne
      cases h
      refine ⟨by rw [String.toList_ofList]; exact hsplit, ⟨?_, ?_⟩, endsWord_dropWhile cs⟩
      · rw [String.toList_ofList]
        exact hne
      · intro c hc
        rw [String.toList_ofList] at hc
        exact List.mem_takeWhile_imp hc
  · rintro ⟨rfl, ⟨hne, hw⟩, hr⟩
    unfold word?
    rw [takeWhile_of_endsWord hw hr, dropWhile_of_endsWord hw hr]
    split
    · rename_i h
      exact absurd h hne
    · rw [String.ofList_toList]

/-- Word characters are ASCII letters and digits and the underscore, by their codes. -/
theorem isWordChar_iff (c : Char) :
    isWordChar c = true ↔ (48 ≤ c.toNat ∧ c.toNat ≤ 57) ∨ (65 ≤ c.toNat ∧ c.toNat ≤ 90) ∨
      (97 ≤ c.toNat ∧ c.toNat ≤ 122) ∨ c.toNat = 95 := by
  have hunderscore : c = '_' ↔ c.toNat = 95 := by
    rw [← Char.toNat_inj]
    rfl
  have hclasses : isWordChar c = (((decide (65 ≤ c.val ∧ c.val ≤ 90) ||
      decide (97 ≤ c.val) && decide (c.val ≤ 122)) ||
      decide (48 ≤ c.val) && decide (c.val ≤ 57)) || decide (c = '_')) := rfl
  simp only [hclasses, Bool.or_eq_true, Bool.and_eq_true, decide_eq_true_eq, hunderscore,
    UInt32.le_iff_toNat_le]
  change (((65 ≤ c.toNat ∧ c.toNat ≤ 90) ∨ (97 ≤ c.toNat ∧ c.toNat ≤ 122)) ∨
    (48 ≤ c.toNat ∧ c.toNat ≤ 57)) ∨ c.toNat = 95 ↔ _
  omega

/-- No word character is white space. -/
theorem isBlank_of_isWordChar {c : Char} (h : isWordChar c = true) : isBlank c = false := by
  rw [isWordChar_iff] at h
  simp only [isBlank, Text.inRanges, Text.blankRanges, List.any_cons, List.any_nil,
    Bool.or_eq_false_iff, Bool.and_eq_false_iff, decide_eq_false_iff_not, and_true]
  omega

/-- A word starts with a word character. -/
theorem IsWord.exists_cons {w : String} (h : IsWord w) :
    ∃ c cs, w.toList = c :: cs ∧ isWordChar c = true := by
  obtain ⟨hne, hw⟩ := h
  cases hlist : w.toList with
  | nil => exact absurd hlist hne
  | cons c cs => exact ⟨c, cs, rfl, hw c (by rw [hlist]; exact List.mem_cons_self)⟩

/-- A plain operand is spelled with a word character or the mark of a label in front. -/
theorem Operand.IsPlain.exists_cons {o : Operand} (h : o.IsPlain) :
    ∃ c cs, o.spelling.toList = c :: cs ∧ (isWordChar c = true ∨ c = labelMark) := by
  cases o with
  | label name => exact ⟨labelMark, name.toList, by simp [spelling], .inr rfl⟩
  | word text =>
    obtain ⟨c, cs, hlist, hc⟩ := IsWord.exists_cons h
    exact ⟨c, cs, hlist, .inl hc⟩

/-- The reader of operands takes exactly the longest operand at the front. -/
theorem operand?_eq_some_iff {cs rest : List Char} {o : Operand} :
    operand? cs = some (o, rest) ↔
      cs = o.spelling.toList ++ rest ∧ o.IsPlain ∧ EndsWord rest := by
  constructor
  · intro h
    unfold operand? at h
    split at h
    · cases h
    · rename_i c tail
      split at h
      · rename_i hmark
        obtain ⟨w, hw, hpair⟩ := Option.map_eq_some_iff.mp h
        obtain ⟨htail, hplain, hends⟩ := word?_eq_some_iff.mp hw
        cases hpair
        refine ⟨?_, hplain, hends⟩
        rw [hmark, htail]
        simp [Operand.spelling]
      · obtain ⟨w, hw, hpair⟩ := Option.map_eq_some_iff.mp h
        cases hpair
        exact word?_eq_some_iff.mp hw
  · rintro ⟨rfl, hplain, hends⟩
    cases o with
    | label name =>
      have hlist : (Operand.label name).spelling.toList ++ rest =
          labelMark :: (name.toList ++ rest) := by simp [Operand.spelling]
      have hword : word? (name.toList ++ rest) = some (name, rest) :=
        word?_eq_some_iff.mpr ⟨rfl, hplain, hends⟩
      rw [hlist, operand?, if_pos rfl, hword]
      rfl
    | word text =>
      obtain ⟨c, cs, hlist, hc⟩ := IsWord.exists_cons hplain
      have hne : c ≠ labelMark := by
        rintro rfl
        cases hc
      have hword : word? (text.toList ++ rest) = some (text, rest) :=
        word?_eq_some_iff.mpr ⟨rfl, hplain, hends⟩
      have hspelling : (Operand.word text).spelling = text := rfl
      rw [hspelling]
      rw [hlist, List.cons_append] at hword ⊢
      rw [operand?, if_neg hne, hword]
      rfl

/-- Both operands of a line, where there are any, are plain. -/
def Operands.ArePlain (operands : Operands) : Prop :=
  (∀ o ∈ operands.first, o.IsPlain) ∧ ∀ o ∈ operands.second, o.IsPlain

instance (operands : Operands) : Decidable operands.ArePlain :=
  inferInstanceAs (Decidable (_ ∧ _))

theorem arePlain_empty : Operands.ArePlain {} := ⟨nofun, nofun⟩

theorem arePlain_one {a : Operand} (ha : a.IsPlain) : Operands.ArePlain ⟨some a, none⟩ := by
  refine ⟨?_, nofun⟩
  rintro _ ⟨rfl⟩
  exact ha

theorem arePlain_two {a b : Operand} (ha : a.IsPlain) (hb : b.IsPlain) :
    Operands.ArePlain ⟨some a, some b⟩ := by
  constructor
  · rintro _ ⟨rfl⟩
    exact ha
  · rintro _ ⟨rfl⟩
    exact hb

/-- No word holds a plus sign. -/
theorem plus_not_mem_of_isWord {w : String} (h : IsWord w) : '+' ∉ w.toList := by
  intro hmem
  have := h.2 '+' hmem
  revert this
  decide

end ByteMachine.Source
