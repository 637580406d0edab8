import ByteMachine.Text.Blank

/-!
# Bytes in hexadecimal

Bytes are written with two upper-case digits. They are read from any number of
digits in either case, as long as the value fits a byte, with one plus sign
allowed in front. What a person types at a prompt may also carry surrounding
white space and one of four prefixes.
-/

namespace ByteMachine.Text

/-- The value of a hexadecimal digit in either case. -/
def hexDigit? (c : Char) : Option Nat :=
  if '0' ≤ c ∧ c ≤ '9' then some (c.toNat - '0'.toNat)
  else if 'a' ≤ c ∧ c ≤ 'f' then some (c.toNat - 'a'.toNat + 10)
  else if 'A' ≤ c ∧ c ≤ 'F' then some (c.toNat - 'A'.toNat + 10)
  else none

/-- The value of a run of digits that continues the value `acc`, if every
character is a digit. -/
def hexValue? (acc : Nat) : List Char → Option Nat
  | [] => some acc
  | c :: cs => (hexDigit? c).bind fun d => hexValue? (16 * acc + d) cs

/-- The digits of a byte: at least one, and a value of at most 255. -/
def hexDigits? (cs : List Char) : Option UInt8 :=
  if cs.isEmpty then none
  else (hexValue? 0 cs).bind fun v => if v ≤ 255 then some (UInt8.ofNat v) else none

/-- A byte with an optional plus sign. -/
def hexByte? : List Char → Option UInt8
  | '+' :: cs => hexDigits? cs
  | cs => hexDigits? cs

/-- Strips one prefix that marks a hexadecimal number. -/
def stripHexMark : List Char → List Char
  | '0' :: 'x' :: cs => cs
  | '0' :: 'X' :: cs => cs
  | 'x' :: cs => cs
  | 'X' :: cs => cs
  | cs => cs

/-- The byte that a typed answer stands for. -/
def typedByte? (text : String) : Option UInt8 :=
  hexByte? (stripHexMark (trimChars text.toList))

/-- The upper-case digit of a value below sixteen. -/
def upperDigit (n : Nat) : Char :=
  if n < 10 then Char.ofNat ('0'.toNat + n) else Char.ofNat ('A'.toNat + (n - 10))

/-- A byte as two upper-case digits. -/
def byteDigits (b : UInt8) : List Char := [upperDigit (b.toNat / 16), upperDigit (b.toNat % 16)]

/-- A byte as a text of two upper-case digits. -/
def showByte (b : UInt8) : String := String.ofList (byteDigits b)

theorem hexDigit?_upperDigit : ∀ n < 16, hexDigit? (upperDigit n) = some n := by decide

/-- A byte reads back from its two digits. -/
theorem hexDigits?_byteDigits (b : UInt8) : hexDigits? (byteDigits b) = some b := by
  have hb := b.toNat_lt
  have hhigh := hexDigit?_upperDigit (b.toNat / 16) (by omega)
  have hlow := hexDigit?_upperDigit (b.toNat % 16) (by omega)
  have hvalue : 16 * (b.toNat / 16) + b.toNat % 16 = b.toNat := by omega
  have hle : b.toNat ≤ 255 := by omega
  simp [hexDigits?, byteDigits, hexValue?, hhigh, hlow, hvalue, hle]

/-- A number as upper-case digits, at least two of them. -/
def showHex (n : Nat) : String :=
  let digits := (Nat.toDigits 16 n).map Char.toUpper
  String.ofList (if digits.length < 2 then '0' :: digits else digits)

end ByteMachine.Text
