import ByteMachine.Ron.Lexeme
import ByteMachine.Text.HexByte

/-!
# Strings, characters and bytes in RON texts

A quoted literal may hold escapes; a raw string has none and ends with as many hash
signs as it began with. Only the text behind a literal is of interest here, because
no setting is a string.
-/

namespace ByteMachine.Ron

/-- What an escape may stand for. -/
inductive EscapeUse where
  /-- A part of a string. -/
  | inString
  /-- A whole character. -/
  | inCharacter
  /-- A part of a byte string. -/
  | inByteString
  /-- A whole byte. -/
  | inByte
  deriving DecidableEq

namespace EscapeUse

/-- Whether one escape may stand for a byte of its own, above ASCII too. -/
def allowsBytes : EscapeUse → Bool
  | inByteString | inByte => true
  | inString | inCharacter => false

end EscapeUse

/-- Why a text does not begin with a literal of the kind that was asked for. -/
inductive LiteralFault where
  /-- It begins with one, but the end is missing. -/
  | unended
  /-- It begins with something else, or an escape in the literal is wrong. -/
  | malformed
  deriving DecidableEq

/-- A byte in two hexadecimal digits. -/
def escapedByte? : List Char → Option (UInt8 × List Char)
  | a :: b :: cs => do
    let high ← Text.hexDigit? a
    let low ← Text.hexDigit? b
    return (UInt8.ofNat (16 * high + low), cs)
  | _ => none

/-- Whether bytes are the encoding of one character. -/
def isEncoded (bytes : List UInt8) : Bool := (ByteArray.mk bytes.toArray).validateUTF8

/-- Skips the escapes for the bytes that complete a character, at most `count` of
them. -/
def skipContinuation (bytes : List UInt8) : (count : Nat) → List Char → Option (List Char)
  | 0, _ => none
  | count + 1, cs => do
    let digits ← mark? "\\x" cs
    let (byte, rest) ← escapedByte? digits
    let bytes := bytes ++ [byte]
    if isEncoded bytes then return rest
    else skipContinuation bytes count rest

/-- Skips the one to six digits of a code point and the brace behind them. -/
def skipCodePoint (value count : Nat) : List Char → Option (List Char)
  | [] => none
  | c :: cs =>
    if c = '\x7d' then
      if count ≠ 0 && Nat.isValidChar value then some cs else none
    else if count < 6 then
      (Text.hexDigit? c).bind fun d => skipCodePoint (16 * value + d) (count + 1) cs
    else none

/-- Skips an escape behind its backslash. A code point is no byte, but its encoding may be
part of a byte string. -/
def skipEscape (use : EscapeUse) : List Char → Option (List Char)
  | 'x' :: cs => do
    let (byte, rest) ← escapedByte? cs
    if use.allowsBytes || byte < 128 then return rest
    else if use = .inCharacter then none
    else skipContinuation [byte] 3 rest
  | 'u' :: '\x7b' :: cs => if use = .inByte then none else skipCodePoint 0 0 cs
  | c :: cs => if c ∈ ['\x27', '"', '\\', 'n', 'r', 't', '0'] then some cs else none
  | [] => none

/-- Skips the rest of a quoted literal and its closing quote, in at most `fuel` pieces.
Every piece takes a character, so the length of the text is always enough. A wrong
escape with no quote anywhere behind it means that the end is missing. -/
def skipQuotedWithin (use : EscapeUse) : (fuel : Nat) → List Char → Except LiteralFault (List Char)
  | 0, _ => .error .unended
  | _ + 1, [] => .error .unended
  | fuel + 1, c :: cs =>
    if c = '"' then .ok cs
    else if c = '\\' then
      match skipEscape use cs with
      | some rest => skipQuotedWithin use fuel rest
      | none => .error (if cs.contains '"' then .malformed else .unended)
    else skipQuotedWithin use fuel cs

/-- Skips a quoted literal behind its opening quote. -/
def skipQuoted (use : EscapeUse) (cs : List Char) : Except LiteralFault (List Char) :=
  skipQuotedWithin use cs.length cs

/-- The text behind the first place where `closing` stands. -/
def skipTo (closing : List Char) : List Char → Option (List Char)
  | [] => none
  | c :: cs => (closing.isPrefixOf? (c :: cs)).or (skipTo closing cs)

/-- Skips a raw literal behind the letter that marks it. -/
def skipRaw (cs : List Char) : Except LiteralFault (List Char) :=
  let hashes := cs.takeWhile (· = '#')
  match cs.dropWhile (· = '#') with
  | '"' :: body =>
    match skipTo ('"' :: hashes) body with
    | some rest => .ok rest
    | none => .error .unended
  | _ => .error .malformed

/-- Skips a string. -/
def skipString : List Char → Except LiteralFault (List Char)
  | '"' :: cs => skipQuoted .inString cs
  | 'r' :: cs => skipRaw cs
  | _ => .error .malformed

/-- Skips a byte string. -/
def skipByteString : List Char → Except LiteralFault (List Char)
  | 'b' :: '"' :: cs => skipQuoted .inByteString cs
  | 'b' :: 'r' :: cs => skipRaw cs
  | _ => .error .malformed

/-- Skips a quoted character. -/
def skipCharacter? : List Char → Option (List Char)
  | '\x27' :: '\\' :: cs => (skipEscape .inCharacter cs).bind (mark? "'")
  | '\x27' :: _ :: cs => mark? "'" cs
  | _ => none

/-- Skips a quoted byte. -/
def skipByte? : List Char → Option (List Char)
  | 'b' :: '\x27' :: '\\' :: cs => (skipEscape .inByte cs).bind (mark? "'")
  | 'b' :: '\x27' :: c :: cs => if c.toNat < 128 then mark? "'" cs else none
  | _ => none

end ByteMachine.Ron
