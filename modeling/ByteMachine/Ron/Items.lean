import ByteMachine.Ron.Lexeme

/-!
# Items between brackets in RON texts

Lists, tuples, records and maps all hold items with commas between them, and perhaps
one more comma behind the last. A comma alone is no item.
-/

namespace ByteMachine.Ron

/-- Reads items up to but not including the closing mark, in at most `fuel` items. -/
def foldItemsWithin {σ : Type} (item : σ → List Char → Option (σ × List Char)) (closing : Char) :
    (fuel : Nat) → σ → List Char → Option (σ × List Char)
  | 0, _, _ => none
  | fuel + 1, s, cs => do
    let cs ← skipBlanks cs
    if cs.head? = some closing then return (s, cs)
    else
      let (s, rest) ← item s cs
      let (comma, rest) ← comma? rest
      if comma then foldItemsWithin item closing fuel s rest
      else if rest.head? = some closing then return (s, rest)
      else none

/-- Reads items and the closing mark. Every item takes a character, so the length of the
text bounds their number. -/
def foldItems {σ : Type} (item : σ → List Char → Option (σ × List Char)) (closing : Char) (s : σ)
    (cs : List Char) : Option (σ × List Char) := do
  let (s, rest) ← foldItemsWithin item closing (cs.length + 1) s cs
  match rest with
  | [] => none
  | _ :: rest => return (s, rest)

end ByteMachine.Ron
