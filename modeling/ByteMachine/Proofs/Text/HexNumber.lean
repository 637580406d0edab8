import Mathlib.Data.Nat.Digits.Defs
import ByteMachine.Text.HexByte

/-!
# Hexadecimal numbers by their places

A run of digits is read from the left with the value so far carried along. Here the
same number is given by the values of its places, and the reader of bytes is shown to
take exactly the nonempty runs of digits whose number fits a byte.
-/

namespace ByteMachine.Text

/-- The number of a nonempty run of hexadecimal digits: each digit counts sixteen times
as much as the one to its right. -/
def hexNumber? (cs : List Char) : Option Nat :=
  if cs = [] then none
  else (cs.mapM hexDigit?).map fun digits => Nat.ofDigits 16 digits.reverse

/-- Reading on from a value moves it up by one place for each digit. -/
theorem hexValue?_eq_map (acc : Nat) (cs : List Char) :
    hexValue? acc cs = (cs.mapM hexDigit?).map fun digits =>
      acc * 16 ^ digits.length + Nat.ofDigits 16 digits.reverse := by
  induction cs generalizing acc with
  | nil => simp [hexValue?]
  | cons c cs ih =>
    rw [hexValue?, List.mapM_cons]
    cases hd : hexDigit? c with
    | none => rfl
    | some d =>
      simp only [Option.bind_eq_bind, Option.bind_some]
      rw [ih]
      cases hs : cs.mapM hexDigit? with
      | none => rfl
      | some digits =>
        simp only [Option.map_some, Option.bind_some, Option.pure_def, Option.some.injEq,
          List.length_cons, List.reverse_cons, Nat.ofDigits_append, List.length_reverse,
          Nat.ofDigits_singleton, Nat.pow_succ]
        ring

/-- A run of digits is read as a byte exactly if its number is that byte. -/
theorem hexDigits?_eq_some_iff {cs : List Char} {value : UInt8} :
    hexDigits? cs = some value ↔ hexNumber? cs = some value.toNat := by
  cases cs with
  | nil => simp [hexDigits?, hexNumber?]
  | cons c cs =>
    have hread := hexValue?_eq_map 0 (c :: cs)
    simp only [Nat.zero_mul, Nat.zero_add] at hread
    have hnumber : hexNumber? (c :: cs) = hexValue? 0 (c :: cs) := by
      rw [hread, hexNumber?, if_neg (List.cons_ne_nil _ _)]
    rw [hnumber, hexDigits?]
    cases hexValue? 0 (c :: cs) with
    | none => simp
    | some v =>
      simp only [List.isEmpty_cons, Bool.false_eq_true, if_false, Option.bind_some]
      have hlt := value.toNat_lt
      split
      · rename_i hv
        rw [Option.some.injEq, Option.some.injEq, ← UInt8.toNat_inj, UInt8.toNat_ofNat']
        omega
      · rename_i hv
        simp only [reduceCtorEq, Option.some.injEq, false_iff]
        omega

/-- Without a plus sign a byte is nothing but its digits. -/
theorem hexByte?_of_plus_not_mem {cs : List Char} (h : '+' ∉ cs) :
    hexByte? cs = hexDigits? cs := by
  cases cs with
  | nil => rfl
  | cons c cs =>
    have hc : c ≠ '+' := fun he => h (he ▸ List.mem_cons_self)
    rw [hexByte?]
    exact fun _ he => hc (List.cons.inj he).1

/-- Without a plus sign a byte is read exactly where there is a number that fits. -/
theorem hexByte?_eq_some_iff {cs : List Char} (h : '+' ∉ cs) {value : UInt8} :
    hexByte? cs = some value ↔ hexNumber? cs = some value.toNat := by
  rw [hexByte?_of_plus_not_mem h, hexDigits?_eq_some_iff]

/-- Without a plus sign some byte is read exactly where the number is at most 255. -/
theorem isSome_hexByte?_iff {cs : List Char} (h : '+' ∉ cs) :
    (hexByte? cs).isSome = true ↔ ∃ v ≤ 255, hexNumber? cs = some v := by
  rw [Option.isSome_iff_exists]
  simp only [hexByte?_eq_some_iff h]
  constructor
  · intro ⟨value, hvalue⟩
    have hlt := value.toNat_lt
    exact ⟨value.toNat, by omega, hvalue⟩
  · intro ⟨v, hv, hnumber⟩
    have hbyte : (UInt8.ofNat v).toNat = v := by
      rw [UInt8.toNat_ofNat']
      omega
    exact ⟨UInt8.ofNat v, by rw [hbyte, hnumber]⟩

/-- The number of a byte written with two digits. -/
theorem hexNumber?_byteDigits (b : UInt8) : hexNumber? (byteDigits b) = some b.toNat :=
  hexDigits?_eq_some_iff.mp (hexDigits?_byteDigits b)

end ByteMachine.Text
