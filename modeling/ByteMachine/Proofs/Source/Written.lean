import ByteMachine.Proofs.Source.Grammar
import ByteMachine.Source.Lines

/-!
# Lines as they are written

An instruction is written as its mnemonic, a blank, and its operands with a comma and a
blank between them. Such a line is read back as the parts it was written from, and a
text of lines joined by line feeds falls apart into the same lines.
-/

namespace ByteMachine.Source

/-- Splitting into lines is splitting at line feeds. -/
theorem splitLines_eq_splitOn (cs : List Char) : splitLines cs = cs.splitOn '\n' := by
  induction cs with
  | nil => rw [splitLines, List.splitOn_eq_splitOnP, List.splitOnP_nil]
  | cons c cs ih =>
    rw [splitLines, ih, List.splitOn_eq_splitOnP, List.splitOn_eq_splitOnP,
      List.splitOnP_cons_eq_if_modifyHead]
    by_cases h : c = '\n'
    · simp [h]
    · have hne := splitLines_ne_nil cs
      rw [ih, List.splitOn_eq_splitOnP] at hne
      rw [if_neg h, if_neg (by simpa using h)]
      cases hpieces : cs.splitOnP (fun x => x == '\n') with
      | nil => exact absurd hpieces hne
      | cons piece pieces => rfl

/-- Lines that hold no line feed are found again in a text that joins them. -/
theorem splitLines_intercalate {texts : List (List Char)} (hne : texts ≠ [])
    (h : ∀ t ∈ texts, '\n' ∉ t) : splitLines (['\n'].intercalate texts) = texts := by
  rw [splitLines_eq_splitOn, List.splitOn_intercalate '\n' h hne]

/-- A plain instruction, without a label or a comment, is well formed. -/
theorem Line.isWellFormed_instruction {m : String} (hm : IsWord m) {operands : Operands}
    (hplain : operands.ArePlain) (hsecond : operands.first = none → operands.second = none) :
    Line.IsWellFormed { mnemonic := some m, operands } :=
  ⟨Line.isStatement_of_mnemonic hm hplain hsecond nofun, nofun⟩

/-- A mnemonic alone is read back. -/
theorem lineOfChars?_bare {m : String} (hm : IsWord m) :
    lineOfChars? m.toList = some { mnemonic := some m } :=
  lineOfChars?_eq_some_iff.mpr
    ⟨Line.isWellFormed_instruction hm arePlain_empty fun _ => rfl, {},
      by simp [Line.written, Line.definition, Line.body, Line.instruction, commentText]⟩

/-- A mnemonic with one operand is read back. -/
theorem lineOfChars?_one {m a : String} (hm : IsWord m) (ha : IsWord a) :
    lineOfChars? (m.toList ++ ' ' :: a.toList) =
      some { mnemonic := some m, operands := ⟨some (.word a), none⟩ } :=
  lineOfChars?_eq_some_iff.mpr
    ⟨Line.isWellFormed_instruction hm (arePlain_one ha) fun _ => rfl, {},
      by simp [Line.written, Line.definition, Line.body, Line.instruction, ListGaps.list,
        ListGaps.second, Operand.spelling, commentText]⟩

/-- A mnemonic with two operands is read back. -/
theorem lineOfChars?_two {m a b : String} (hm : IsWord m) (ha : IsWord a) (hb : IsWord b) :
    lineOfChars? (m.toList ++ ' ' :: (a.toList ++ ',' :: ' ' :: b.toList)) =
      some { mnemonic := some m, operands := ⟨some (.word a), some (.word b)⟩ } :=
  lineOfChars?_eq_some_iff.mpr
    ⟨Line.isWellFormed_instruction hm (arePlain_two ha hb) nofun, { behindComma := .space },
      by simp [Line.written, Line.definition, Line.body, Line.instruction, ListGaps.list,
        ListGaps.second, Operand.spelling, commentText]⟩

end ByteMachine.Source
