import ByteMachine.Ron.Lexeme
import ByteMachine.Text.HexByte

/-!
# Numbers in RON texts

An integer may have a sign, a mark for its base, underscores between its digits and
the name of its type behind it. Where any value will do, a number that is no integer
of 64 bits may still be a decimal fraction, so the integer reader says not only that
it failed but also where: the other reading counts only if it gets at least as far.
-/

namespace ByteMachine.Ron

/-- A type of integers, by its name and the magnitudes of its ends. -/
structure IntegerType where
  /-- The name that may stand behind a number. -/
  name : String
  /-- The largest number. -/
  most : Nat
  /-- The magnitude of the smallest number. -/
  least : Nat
  deriving DecidableEq, Repr

/-- The unsigned integers of a type with this many of them. -/
def unsignedType (name : String) (size : Nat) : IntegerType := ⟨name, size - 1, 0⟩

/-- The signed integers of a type with this many of them. -/
def signedType (name : String) (size : Nat) : IntegerType := ⟨name, size / 2 - 1, size / 2⟩

/-- The unsigned integers of 64 bits. -/
def unsigned64 : IntegerType := unsignedType "u64" UInt64.size

/-- The types whose names may stand behind a number. -/
def integerTypes : List IntegerType :=
  [signedType "i8" UInt8.size, signedType "i16" UInt16.size, signedType "i32" UInt32.size,
    signedType "i64" UInt64.size, unsignedType "u8" UInt8.size, unsignedType "u16" UInt16.size,
    unsignedType "u32" UInt32.size, unsigned64]

/-- Where a type's magnitudes end on one side of zero. -/
def IntegerType.limit (t : IntegerType) (negative : Bool) : Nat :=
  if negative then t.least else t.most

/-- Why a run of digits is no number. -/
inductive DigitFault where
  /-- A digit does not belong to the base, or the run begins with an underscore. The
  text from there on is given. -/
  | misplaced (there : List Char)
  /-- There are no digits, or the number is too large. The text behind them is given. -/
  | unusable (behind : List Char)

/-- Whether a character may stand in a run of digits. -/
def isDigitChar (c : Char) : Bool := (Text.hexDigit? c).isSome || c = '_'

/-- The value of a run of digits that continues `acc`. The text behind the run is only
passed on. -/
def digits (base limit : Nat) (behind : List Char) : (acc : Nat) → List Char → Except DigitFault Nat
  | acc, [] => .ok acc
  | acc, c :: cs =>
    if c = '_' then digits base limit behind acc cs
    else if limit < base * acc then .error (.unusable behind)
    else
      match Text.hexDigit? c with
      | none => .error (.misplaced (c :: cs ++ behind))
      | some d =>
        if base ≤ d then .error (.misplaced (c :: cs ++ behind))
        else if limit < base * acc + d then .error (.unusable behind)
        else digits base limit behind (base * acc + d) cs

/-- The base of a number, and the text behind its mark. -/
def baseOf : List Char → Nat × List Char
  | '0' :: 'b' :: cs => (2, cs)
  | '0' :: 'o' :: cs => (8, cs)
  | '0' :: 'x' :: cs => (16, cs)
  | cs => (10, cs)

/-- The magnitude at the front of a text, and the text behind it. -/
def magnitude (limit : Nat) (cs : List Char) : Except DigitFault (Nat × List Char) :=
  let (base, body) := baseOf cs
  let run := body.takeWhile isDigitChar
  let behind := body.dropWhile isDigitChar
  match run with
  | [] => .error (.unusable body)
  | '_' :: _ => .error (.misplaced body)
  | run => (digits base limit behind 0 run).map fun value => (value, behind)

/-- Whether there is a minus sign in front, and the text behind the sign. -/
def signOf : List Char → Bool × List Char
  | '+' :: cs => (false, cs)
  | '-' :: cs => (true, cs)
  | cs => (false, cs)

/-- The type named behind a run of digits, and the text behind it. -/
def typeBehind? (cs : List Char) : Option (IntegerType × List Char) :=
  integerTypes.findSome? fun t => (keyword? t.name cs).map fun rest => (t, rest)

/-- An unsigned integer of 64 bits, and the text behind it. The minus sign is allowed in
front of zero; a type behind the number has to be the right one. -/
def unsigned? (cs : List Char) : Option (UInt64 × List Char) :=
  let (negative, body) := signOf cs
  match magnitude (unsigned64.limit negative) body with
  | .error _ => none
  | .ok (value, behind) =>
    match typeBehind? (body.dropWhile isDigitChar) with
    | none => some (UInt64.ofNat value, behind)
    | some (t, rest) => if t = unsigned64 then some (UInt64.ofNat value, rest) else none

/-- Skips an integer of whatever type. A failure gives the text that was left when it
was noticed. -/
def skipInteger (cs : List Char) : Except (List Char) (List Char) :=
  let (negative, body) := signOf cs
  match typeBehind? (body.dropWhile isDigitChar) with
  | none =>
    match magnitude (if negative then UInt64.size / 2 else UInt64.size - 1) body with
    | .ok (_, behind) => .ok behind
    | .error (.misplaced rest) => .error rest
    | .error (.unusable rest) => .error rest
  | some (t, behindType) =>
    match magnitude (t.limit negative) body with
    | .ok _ => .ok behindType
    | .error (.misplaced rest) => .error rest
    | .error (.unusable _) => .error behindType

/-- Whether a character may stand in a decimal fraction. -/
def isFractionChar (c : Char) : Bool := c.isDigit || c ∈ ['e', 'E', '.', '+', '-', '_']

/-- A decimal fraction without its underscores. An underscore has to have a digit or an
exponent mark in front. -/
def dropUnderscores : (allowed : Bool) → List Char → Option (List Char)
  | _, [] => some []
  | allowed, c :: cs =>
    if c = '_' then if allowed then dropUnderscores allowed cs else none
    else
      let allowed :=
        if c.isDigit || c = 'e' || c = 'E' then true else if c = '.' then false else allowed
      (dropUnderscores allowed cs).map (c :: ·)

/-- Whether a text is an exponent with its mark, or nothing. -/
def isExponent : List Char → Bool
  | [] => true
  | c :: cs =>
    let body := (signOf cs).2
    (c = 'e' || c = 'E') && !body.isEmpty && body.all Char.isDigit

/-- Whether a text without underscores is a decimal number. -/
def isDecimal (cs : List Char) : Bool :=
  let body := (signOf cs).2
  let whole := body.takeWhile Char.isDigit
  match body.dropWhile Char.isDigit with
  | '.' :: rest =>
    let part := rest.takeWhile Char.isDigit
    !(whole.isEmpty && part.isEmpty) && isExponent (rest.dropWhile Char.isDigit)
  | rest => !whole.isEmpty && isExponent rest

/-- The numbers that are written as names. -/
def namedNumbers : List String := ["inf", "+inf", "-inf", "NaN", "+NaN", "-NaN"]

/-- The text behind a number that is written as a name, with or without a type. -/
def skipNamedNumber? (cs : List Char) : Option (List Char) :=
  namedNumbers.findSome? fun n =>
    ["", "f32", "f64"].findSome? fun t => keyword? (n ++ t) cs

/-- Skips a decimal fraction, with or without a type. -/
def skipFraction? (cs : List Char) : Option (List Char) :=
  match skipNamedNumber? cs with
  | some rest => some rest
  | none =>
    let run := cs.takeWhile isFractionChar
    let behind := cs.dropWhile isFractionChar
    match run with
    | [] => none
    | '_' :: _ => none
    | run =>
      (dropUnderscores false run).bind fun plain =>
        if isDecimal plain then
          some (((keyword? "f32" behind).or (keyword? "f64" behind)).getD behind)
        else none

/-- Whether a number has more characters of a fraction than of an integer. -/
def looksFractional (cs : List Char) : Bool :=
  let body := (signOf cs).2
  (body.takeWhile isDigitChar).length < (body.takeWhile isFractionChar).length

/-- Skips a number of whatever kind. -/
def skipNumber? (cs : List Char) : Option (List Char) :=
  if looksFractional cs then skipFraction? cs
  else
    match skipInteger cs with
    | .ok rest => some rest
    | .error there => (skipFraction? cs).filter fun rest => rest.length ≤ there.length

end ByteMachine.Ron
