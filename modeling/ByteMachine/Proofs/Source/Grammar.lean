import ByteMachine.Proofs.Source.Words

/-!
# The grammar of a line

A line is written as a label definition, an instruction and a comment, each of them
optional, with white space between the parts. White space is required in one place
only, between a mnemonic and its first operand:

    ws* ['@' word ':' ws*] [word [ws+ operand ws* [',' ws* operand ws*]]] ws* ['#' ...]

where an operand is a word with or without '@' in front. The reader of lines accepts
the texts written that way and no others, and returns the parts they were written from.
-/

namespace ByteMachine.Source

open Text (isBlank skipBlanks)

/-- A run of white space, possibly of no characters at all. -/
structure Gap where
  /-- The characters of the run. -/
  chars : List Char
  /-- All of them are white space. -/
  blank : ∀ c ∈ chars, isBlank c = true

namespace Gap

/-- No white space. -/
def empty : Gap := ⟨[], by simp⟩

/-- A single space. -/
def space : Gap := ⟨[' '], List.all_eq_true.mp (by decide)⟩

/-- One run behind another. -/
def append (g g' : Gap) : Gap :=
  ⟨g.chars ++ g'.chars, fun c hc => (List.mem_append.mp hc).elim (g.blank c) (g'.blank c)⟩

@[simp] theorem chars_empty : empty.chars = [] := rfl

@[simp] theorem chars_space : space.chars = [' '] := rfl

@[simp] theorem chars_append (g g' : Gap) : (g.append g').chars = g.chars ++ g'.chars := rfl

end Gap

/-- The white space inside an operand list. -/
structure ListGaps where
  /-- Behind the first operand. -/
  behindFirst : Gap := .empty
  /-- Behind the comma. -/
  behindComma : Gap := .empty
  /-- Behind the second operand. -/
  behindSecond : Gap := .empty

/-- The white space of a line, place by place. -/
structure Gaps extends ListGaps where
  /-- At the front of the line. -/
  front : Gap := .empty
  /-- Behind a label definition. -/
  behindLabel : Gap := .empty
  /-- Between a mnemonic and its first operand. -/
  beforeFirst : Gap := .space
  /-- Without white space there the operand would not be set apart. -/
  beforeFirst_ne_nil : beforeFirst.chars ≠ [] := by decide
  /-- At the end of the line, in front of a comment. -/
  back : Gap := .empty

/-- The comma and the operand behind it. -/
def ListGaps.second (g : ListGaps) : Option Operand → List Char
  | none => []
  | some b => ',' :: (g.behindComma.chars ++ (b.spelling.toList ++ g.behindSecond.chars))

/-- An operand list from its first operand on. -/
def ListGaps.list (g : ListGaps) (a : Operand) (second : Option Operand) : List Char :=
  a.spelling.toList ++ (g.behindFirst.chars ++ g.second second)

/-- A comment as it stands in the text. -/
def commentText : Option String → List Char
  | none => []
  | some text => text.toList

/-- A comment, where there is one, starts with its mark. -/
def IsComment (comment : Option String) : Prop :=
  ∀ text ∈ comment, text.toList.head? = some commentMark

instance (comment : Option String) : Decidable (IsComment comment) :=
  inferInstanceAs (Decidable (∀ text ∈ comment, text.toList.head? = some commentMark))

namespace Line

/-- The definition of a line's label, with the white space behind it. -/
def definition (g : Gaps) (l : Line) : List Char :=
  match l.label with
  | none => []
  | some name => labelMark :: (name.toList ++ labelEnd :: g.behindLabel.chars)

/-- A line's mnemonic, and its operands behind white space. -/
def instruction (g : Gaps) (l : Line) : List Char :=
  match l.mnemonic, l.operands.first with
  | none, _ => []
  | some m, none => m.toList
  | some m, some a => m.toList ++ (g.beforeFirst.chars ++ g.list a l.operands.second)

/-- What stands on a line behind the label definition. -/
def body (g : Gaps) (l : Line) : List Char :=
  l.instruction g ++ (g.back.chars ++ commentText l.comment)

/-- The whole line, written with this white space. -/
def written (g : Gaps) (l : Line) : List Char :=
  g.front.chars ++ (l.definition g ++ l.body g)

/-- The whole line as a text. -/
def print (g : Gaps) (l : Line) : String := String.ofList (l.written g)

/-- A line whose parts behind the label can stand together: words in the places of
words, operands only behind a mnemonic and a second only behind a first. -/
structure IsStatement (l : Line) : Prop where
  /-- The mnemonic is a word. -/
  mnemonic : ∀ m ∈ l.mnemonic, IsWord m
  /-- The operands are words, with or without the mark of a label. -/
  plain : l.operands.ArePlain
  /-- Operands follow a mnemonic. -/
  operands : l.mnemonic = none → l.operands = {}
  /-- A second operand follows a first one. -/
  second : l.operands.first = none → l.operands.second = none
  /-- The comment holds its mark. -/
  comment : IsComment l.comment

/-- A line whose label, too, is a word. -/
structure IsWellFormed (l : Line) : Prop extends l.IsStatement where
  /-- The label is a word. -/
  label : ∀ name ∈ l.label, IsWord name

instance (l : Line) : Decidable l.IsStatement :=
  decidable_of_iff ((∀ m ∈ l.mnemonic, IsWord m) ∧ l.operands.ArePlain ∧
      (l.mnemonic = none → l.operands = {}) ∧
      (l.operands.first = none → l.operands.second = none) ∧ IsComment l.comment)
    ⟨fun ⟨hm, hp, ho, hs, hc⟩ => ⟨hm, hp, ho, hs, hc⟩,
      fun ⟨hm, hp, ho, hs, hc⟩ => ⟨hm, hp, ho, hs, hc⟩⟩

instance (l : Line) : Decidable l.IsWellFormed :=
  decidable_of_iff (l.IsStatement ∧ ∀ name ∈ l.label, IsWord name)
    ⟨fun ⟨hl, hname⟩ => ⟨hl, hname⟩, fun ⟨hl, hname⟩ => ⟨hl, hname⟩⟩

end Line

/-- No white space stands in front of this text. -/
def StartsInk (cs : List Char) : Prop := ∀ c ∈ cs.head?, isBlank c = false

/-- Skipping white space leaves what stands behind the longest run of it. -/
theorem skipBlanks_eq_iff {cs rest : List Char} :
    skipBlanks cs = rest ↔ StartsInk rest ∧ ∃ g : Gap, cs = g.chars ++ rest := by
  constructor
  · rintro rfl
    exact ⟨fun c hc => eq_false_of_mem_head?_dropWhile hc,
      ⟨cs.takeWhile isBlank, fun c hc => List.mem_takeWhile_imp hc⟩,
      List.takeWhile_append_dropWhile.symm⟩
  · rintro ⟨hink, g, rfl⟩
    rw [Text.skipBlanks_append g.blank]
    cases rest with
    | nil => rfl
    | cons c rest => exact Text.skipBlanks_cons_of_not (hink c rfl) rest

/-- An operand shows no white space in front. -/
theorem Operand.IsPlain.startsInk {o : Operand} (h : o.IsPlain) (rest : List Char) :
    StartsInk (o.spelling.toList ++ rest) := by
  obtain ⟨c, cs, hlist, hc⟩ := h.exists_cons
  rw [hlist]
  rintro _ ⟨rfl⟩
  rcases hc with hword | rfl
  · exact isBlank_of_isWordChar hword
  · decide

/-- Neither does a word. -/
theorem IsWord.startsInk {w : String} (h : IsWord w) (rest : List Char) :
    StartsInk (w.toList ++ rest) :=
  Operand.IsPlain.startsInk (o := .word w) h rest

/-- Nothing but the mark of a comment stands in front of one. -/
theorem IsComment.eq_commentMark {comment : Option String} (h : IsComment comment) {c : Char}
    (hc : c ∈ (commentText comment).head?) : c = commentMark := by
  cases comment with
  | none => cases hc
  | some text =>
    rw [commentText, h text rfl] at hc
    exact (Option.some.inj hc).symm

/-- A comment shows no white space in front. -/
theorem IsComment.startsInk {comment : Option String} (h : IsComment comment) :
    StartsInk (commentText comment) := by
  intro c hc
  rw [h.eq_commentMark hc]
  decide

/-- A word ends in front of a comment. -/
theorem IsComment.endsWord {comment : Option String} (h : IsComment comment) :
    EndsWord (commentText comment) := by
  intro c hc
  rw [h.eq_commentMark hc]
  decide

/-- A word ends in front of white space. Where there is none, what follows decides. -/
theorem Gap.endsWord (g : Gap) {rest : List Char} (h : g.chars = [] → EndsWord rest) :
    EndsWord (g.chars ++ rest) := by
  cases hg : g.chars with
  | nil => exact h hg
  | cons b blanks =>
    rintro _ ⟨rfl⟩
    have hblank : isBlank b = true := g.blank b (by simp [hg])
    by_contra hword
    rw [Bool.not_eq_false] at hword
    rw [isBlank_of_isWordChar hword] at hblank
    cases hblank

/-- In front of anything else, a run of white space shows itself unless it is empty. -/
theorem Gap.isBlank_head?_iff (g : Gap) {rest : List Char} (h : StartsInk rest) :
    (g.chars ++ rest).head?.any isBlank = true ↔ g.chars ≠ [] := by
  cases hg : g.chars with
  | nil =>
    cases rest with
    | nil => simp
    | cons c rest => simp [h c rfl]
  | cons b blanks =>
    have hblank : isBlank b = true := g.blank b (by simp [hg])
    simp [hblank]

/-- White space in front of a word may be skipped. -/
theorem word?_skipBlanks_eq_some_iff {cs rest : List Char} {w : String} :
    word? (skipBlanks cs) = some (w, rest) ↔
      IsWord w ∧ EndsWord rest ∧ ∃ lead : Gap, cs = lead.chars ++ (w.toList ++ rest) := by
  rw [word?_eq_some_iff]
  constructor
  · rintro ⟨hskip, hw, hends⟩
    exact ⟨hw, hends, (skipBlanks_eq_iff.mp hskip).2⟩
  · rintro ⟨hw, hends, hlead⟩
    exact ⟨skipBlanks_eq_iff.mpr ⟨hw.startsInk rest, hlead⟩, hw, hends⟩

/-- White space in front of an operand may be skipped. -/
theorem operand?_skipBlanks_eq_some_iff {cs rest : List Char} {o : Operand} :
    operand? (skipBlanks cs) = some (o, rest) ↔
      o.IsPlain ∧ EndsWord rest ∧ ∃ lead : Gap, cs = lead.chars ++ (o.spelling.toList ++ rest) := by
  rw [operand?_eq_some_iff]
  constructor
  · rintro ⟨hskip, ho, hends⟩
    exact ⟨ho, hends, (skipBlanks_eq_iff.mp hskip).2⟩
  · rintro ⟨ho, hends, hlead⟩
    exact ⟨skipBlanks_eq_iff.mpr ⟨ho.startsInk rest, hlead⟩, ho, hends⟩

/-- A line ends with nothing or with a comment that runs to the end. -/
theorem ending?_eq_some_iff {cs : List Char} {comment : Option String} :
    ending? cs = some comment ↔ IsComment comment ∧ cs = commentText comment := by
  constructor
  · intro h
    unfold ending? at h
    split at h
    · cases h
      exact ⟨by rintro text ⟨⟩, rfl⟩
    · split at h
      · rename_i hmark
        cases h
        refine ⟨?_, ?_⟩
        · rintro _ ⟨rfl⟩
          rw [String.toList_ofList, hmark, List.head?_cons]
        · rw [commentText, String.toList_ofList]
      · cases h
  · rintro ⟨hcomment, rfl⟩
    cases comment with
    | none => rfl
    | some text =>
      have hhead := hcomment text rfl
      have hback : String.ofList text.toList = text := String.ofList_toList
      rw [commentText]
      cases hlist : text.toList with
      | nil => simp [hlist] at hhead
      | cons c cs =>
        rw [hlist, List.head?_cons, Option.some.injEq] at hhead
        rw [hlist] at hback
        rw [ending?, if_pos hhead, hback]

/-- White space in front of the end of a line may be skipped. -/
theorem ending?_skipBlanks_eq_some_iff {cs : List Char} {comment : Option String} :
    ending? (skipBlanks cs) = some comment ↔
      IsComment comment ∧ ∃ back : Gap, cs = back.chars ++ commentText comment := by
  rw [ending?_eq_some_iff]
  constructor
  · rintro ⟨hcomment, hskip⟩
    exact ⟨hcomment, (skipBlanks_eq_iff.mp hskip).2⟩
  · rintro ⟨hcomment, hgap⟩
    exact ⟨hcomment, skipBlanks_eq_iff.mpr ⟨hcomment.startsInk, hgap⟩⟩

/-- No line ends in front of an operand. -/
theorem ending?_of_operand? {cs rest : List Char} {o : Operand}
    (h : operand? cs = some (o, rest)) : ending? cs = none := by
  obtain ⟨rfl, hplain, -⟩ := operand?_eq_some_iff.mp h
  obtain ⟨c, cs, hlist, hc⟩ := hplain.exists_cons
  have hne : c ≠ commentMark := by
    rintro rfl
    revert hc
    decide
  rw [hlist, List.cons_append, ending?, if_neg hne]

/-- No line ends in front of a word. -/
theorem ending?_of_word? {cs rest : List Char} {w : String} (h : word? cs = some (w, rest)) :
    ending? cs = none :=
  ending?_of_operand? (o := .word w) (operand?_eq_some_iff.mpr (word?_eq_some_iff.mp h))

/-- The two shapes of an operand list, by what is read in turn. -/
theorem operands?_eq_some_iff_reads {cs : List Char} {operands : Operands}
    {comment : Option String} :
    operands? cs = some (operands, comment) ↔ ∃ a rest, operand? cs = some (a, rest) ∧
      ((ending? (skipBlanks rest) = some comment ∧ operands = ⟨some a, none⟩) ∨
        ∃ tail b rest', skipBlanks rest = ',' :: tail ∧
          operand? (skipBlanks tail) = some (b, rest') ∧
          ending? (skipBlanks rest') = some comment ∧ operands = ⟨some a, some b⟩) := by
  rw [operands?]
  simp only [Option.bind_eq_bind, Option.bind_eq_some_iff, Prod.exists]
  refine exists_congr fun a => exists_congr fun rest => and_congr_right fun _ => ?_
  split
  · rename_i tail hcomma
    constructor
    · intro h
      obtain ⟨⟨b, rest'⟩, hsecond, h⟩ := Option.bind_eq_some_iff.mp h
      obtain ⟨comment', hending, h⟩ := Option.bind_eq_some_iff.mp h
      cases h
      exact .inr ⟨tail, b, rest', hcomma, hsecond, hending, rfl⟩
    · rintro (⟨hending, -⟩ | ⟨tail', b, rest', htail, hsecond, hending, rfl⟩)
      · -- no line ends in front of a comma
        rw [hcomma] at hending
        cases hending
      · cases hcomma.symm.trans htail
        rw [hsecond, Option.bind_some, hending]
        rfl
  · rename_i hcomma
    constructor
    · intro h
      obtain ⟨comment', hending, h⟩ := Option.bind_eq_some_iff.mp h
      cases h
      exact .inl ⟨hending, rfl⟩
    · rintro (⟨hending, rfl⟩ | ⟨tail, b, rest', htail, -⟩)
      · rw [hending]
        rfl
      · exact absurd htail (hcomma tail)

/-- An operand list is one operand, or two with a comma between them, and then the line
ends. White space is free behind each operand and behind the comma. -/
theorem operands?_eq_some_iff {cs : List Char} {operands : Operands} {comment : Option String} :
    operands? cs = some (operands, comment) ↔
      operands.ArePlain ∧ IsComment comment ∧ ∃ a, operands.first = some a ∧
        ∃ (g : ListGaps) (back : Gap),
          cs = g.list a operands.second ++ (back.chars ++ commentText comment) := by
  rw [operands?_eq_some_iff_reads]
  constructor
  · rintro ⟨a, rest, hfirst, ⟨hending, rfl⟩ | ⟨tail, b, rest', hcomma, hsecond, hending, rfl⟩⟩
    · obtain ⟨rfl, ha, -⟩ := operand?_eq_some_iff.mp hfirst
      obtain ⟨hcomment, back, rfl⟩ := ending?_skipBlanks_eq_some_iff.mp hending
      exact ⟨arePlain_one ha, hcomment, a, rfl, {}, back, by simp [ListGaps.list, ListGaps.second]⟩
    · obtain ⟨rfl, ha, -⟩ := operand?_eq_some_iff.mp hfirst
      obtain ⟨-, behindFirst, rfl⟩ := skipBlanks_eq_iff.mp hcomma
      obtain ⟨hb, -, behindComma, rfl⟩ := operand?_skipBlanks_eq_some_iff.mp hsecond
      obtain ⟨hcomment, back, rfl⟩ := ending?_skipBlanks_eq_some_iff.mp hending
      exact ⟨arePlain_two ha hb, hcomment, a, rfl, ⟨behindFirst, behindComma, .empty⟩, back,
        by simp [ListGaps.list, ListGaps.second]⟩
  · obtain ⟨first, second⟩ := operands
    rintro ⟨⟨hfirst, hsecond⟩, hcomment, a, rfl, g, back, rfl⟩
    have hends : EndsWord (back.chars ++ commentText comment) :=
      back.endsWord fun _ => hcomment.endsWord
    cases second with
    | none =>
      refine ⟨a, g.behindFirst.chars ++ (back.chars ++ commentText comment), ?_, .inl ⟨?_, rfl⟩⟩
      · exact operand?_eq_some_iff.mpr ⟨by simp [ListGaps.list, ListGaps.second], hfirst a rfl,
          g.behindFirst.endsWord fun _ => hends⟩
      · exact ending?_skipBlanks_eq_some_iff.mpr
          ⟨hcomment, g.behindFirst.append back, by simp⟩
    | some b =>
      have hb : b.IsPlain := hsecond b rfl
      let rest' := g.behindSecond.chars ++ (back.chars ++ commentText comment)
      let tail := g.behindComma.chars ++ (b.spelling.toList ++ rest')
      refine ⟨a, g.behindFirst.chars ++ ',' :: tail, ?_, .inr ⟨tail, b, rest', ?_, ?_, ?_, rfl⟩⟩
      · exact operand?_eq_some_iff.mpr ⟨by simp [ListGaps.list, ListGaps.second, tail, rest'],
          hfirst a rfl, g.behindFirst.endsWord fun _ => by rintro _ ⟨rfl⟩; rfl⟩
      · exact skipBlanks_eq_iff.mpr ⟨by rintro _ ⟨rfl⟩; decide, g.behindFirst, rfl⟩
      · exact operand?_skipBlanks_eq_some_iff.mpr
          ⟨hb, g.behindSecond.endsWord fun _ => hends, g.behindComma, rfl⟩
      · exact ending?_skipBlanks_eq_some_iff.mpr
          ⟨hcomment, g.behindSecond.append back, by simp [rest']⟩

/-- The three shapes of what stands behind a label definition: the end of the line, a
mnemonic alone, and a mnemonic with operands set apart from it. -/
theorem statement?_eq_some_iff_reads {label : Option String} {cs : List Char} {l : Line} :
    statement? label cs = some l ↔
      (∃ comment, ending? cs = some comment ∧ l = { label, comment }) ∨
        ∃ m rest, word? cs = some (m, rest) ∧
          ((∃ comment, ending? (skipBlanks rest) = some comment ∧
              l = { label, mnemonic := some m, comment }) ∨
            rest.head?.any isBlank = true ∧ ∃ operands comment,
              operands? (skipBlanks rest) = some (operands, comment) ∧
                l = { label, mnemonic := some m, operands, comment }) := by
  rw [statement?]
  constructor
  · intro h
    split at h
    · rename_i comment hending
      cases h
      exact .inl ⟨comment, hending, rfl⟩
    · obtain ⟨⟨m, rest⟩, hword, h⟩ := Option.bind_eq_some_iff.mp h
      refine .inr ⟨m, rest, hword, ?_⟩
      dsimp only at h
      split at h
      · rename_i comment hending
        cases h
        exact .inl ⟨comment, hending, rfl⟩
      · split at h
        · rename_i hblank
          obtain ⟨⟨operands, comment⟩, hoperands, h⟩ := Option.bind_eq_some_iff.mp h
          cases h
          exact .inr ⟨hblank, operands, comment, hoperands, rfl⟩
        · cases h
  · rintro (⟨comment, hending, rfl⟩ | ⟨m, rest, hword, ⟨comment, hending, rfl⟩ |
      ⟨hblank, operands, comment, hoperands, rfl⟩⟩)
    · rw [hending]
      rfl
    -- what is read next shows that the line has not ended before it
    · simp [ending?_of_word? hword, hword, hending]
    · obtain ⟨a, rest', hfirst, -⟩ := operands?_eq_some_iff_reads.mp hoperands
      simp [ending?_of_word? hword, hword, ending?_of_operand? hfirst, hblank, hoperands]

/-- A mnemonic stands together with operands that are in their order. -/
theorem Line.isStatement_of_mnemonic {label comment : Option String} {m : String}
    {operands : Operands} (hm : IsWord m) (hplain : operands.ArePlain)
    (hsecond : operands.first = none → operands.second = none) (hcomment : IsComment comment) :
    Line.IsStatement { label, mnemonic := some m, operands, comment } where
  mnemonic := by
    rintro _ ⟨rfl⟩
    exact hm
  plain := hplain
  operands := nofun
  second := hsecond
  comment := hcomment

/-- Whatever is read behind a label definition has been written there as a body. -/
theorem exists_body_of_statement? {label : Option String} {cs : List Char} {l : Line}
    (h : statement? label (skipBlanks cs) = some l) :
    l.label = label ∧ l.IsStatement ∧ ∃ (lead : Gap) (g : Gaps), cs = lead.chars ++ l.body g := by
  obtain ⟨comment, hending, rfl⟩ | ⟨m, rest, hword, hrest⟩ := statement?_eq_some_iff_reads.mp h
  · obtain ⟨hcomment, back, rfl⟩ := ending?_skipBlanks_eq_some_iff.mp hending
    exact ⟨rfl, ⟨nofun, arePlain_empty, fun _ => rfl, fun _ => rfl, hcomment⟩, .empty, { back },
      rfl⟩
  · obtain ⟨hm, -, lead, rfl⟩ := word?_skipBlanks_eq_some_iff.mp hword
    obtain ⟨comment, hending, rfl⟩ | ⟨hblank, operands, comment, hoperands, rfl⟩ := hrest
    · obtain ⟨hcomment, back, rfl⟩ := ending?_skipBlanks_eq_some_iff.mp hending
      exact ⟨rfl, Line.isStatement_of_mnemonic hm arePlain_empty (fun _ => rfl) hcomment, lead,
        { back }, rfl⟩
    · obtain ⟨hplain, hcomment, a, hfirst, g, back, hlist⟩ := operands?_eq_some_iff.mp hoperands
      obtain ⟨hink, before, rfl⟩ := skipBlanks_eq_iff.mp hlist
      have hbefore : before.chars ≠ [] := (before.isBlank_head?_iff hink).mp hblank
      have hsecond : operands.first = none → operands.second = none := by
        rw [hfirst]
        exact nofun
      exact ⟨rfl, Line.isStatement_of_mnemonic hm hplain hsecond hcomment, lead,
        { g with beforeFirst := before, beforeFirst_ne_nil := hbefore, back },
        by simp [Line.body, Line.instruction, hfirst]⟩

/-- A body is read back, with whatever white space it has been written. -/
theorem statement?_skipBlanks_body {l : Line} (hl : l.IsStatement) (lead : Gap) (g : Gaps) :
    statement? l.label (skipBlanks (lead.chars ++ l.body g)) = some l := by
  obtain ⟨label, mnemonic, ⟨first, second⟩, comment⟩ := l
  obtain ⟨hmnemonic, hplain, hoperands, hsecond, hcomment⟩ := hl
  have hends : EndsWord (g.back.chars ++ commentText comment) :=
    g.back.endsWord fun _ => hcomment.endsWord
  rw [statement?_eq_some_iff_reads]
  cases mnemonic with
  | none =>
    cases hoperands rfl
    exact .inl ⟨comment, ending?_skipBlanks_eq_some_iff.mpr
      ⟨hcomment, lead.append g.back, by simp [Line.body, Line.instruction]⟩, rfl⟩
  | some m =>
    have hm : IsWord m := hmnemonic m rfl
    refine .inr ⟨m, ?_⟩
    cases first with
    | none =>
      cases hsecond rfl
      refine ⟨g.back.chars ++ commentText comment, ?_, .inl ⟨comment, ?_, rfl⟩⟩
      · exact word?_skipBlanks_eq_some_iff.mpr ⟨hm, hends, lead, rfl⟩
      · exact ending?_skipBlanks_eq_some_iff.mpr ⟨hcomment, g.back, rfl⟩
    | some a =>
      have ha : a.IsPlain := hplain.1 a rfl
      let list := g.list a second ++ (g.back.chars ++ commentText comment)
      have hink : StartsInk list := by
        simpa [list, ListGaps.list] using ha.startsInk _
      refine ⟨g.beforeFirst.chars ++ list, ?_, .inr ⟨?_, ⟨some a, second⟩, comment, ?_, rfl⟩⟩
      · exact word?_skipBlanks_eq_some_iff.mpr
          ⟨hm, g.beforeFirst.endsWord fun hnil => absurd hnil g.beforeFirst_ne_nil, lead,
            by simp [Line.body, Line.instruction, list]⟩
      · exact (g.beforeFirst.isBlank_head?_iff hink).mpr g.beforeFirst_ne_nil
      · rw [skipBlanks_eq_iff.mpr ⟨hink, g.beforeFirst, rfl⟩]
        exact operands?_eq_some_iff.mpr ⟨hplain, hcomment, a, rfl, g.toListGaps, g.back, rfl⟩

/-- What stands behind a label definition, white space in front aside, is a body: an
instruction and the end of the line. -/
theorem statement?_skipBlanks_eq_some_iff {label : Option String} {cs : List Char} {l : Line} :
    statement? label (skipBlanks cs) = some l ↔
      l.label = label ∧ l.IsStatement ∧ ∃ (lead : Gap) (g : Gaps),
        cs = lead.chars ++ l.body g := by
  constructor
  · exact exists_body_of_statement?
  · rintro ⟨rfl, hl, lead, g, rfl⟩
    exact statement?_skipBlanks_body hl lead g

/-- The mark of a label starts no instruction. -/
theorem statement?_labelMark (label : Option String) (cs : List Char) :
    statement? label (labelMark :: cs) = none := rfl

/-- The two shapes of a line: with a label definition in front, and without. -/
theorem lineOfChars?_eq_some_iff_reads {cs : List Char} {l : Line} :
    lineOfChars? cs = some l ↔
      statement? none (skipBlanks cs) = some l ∨ ∃ name rest, IsWord name ∧
        skipBlanks cs = labelMark :: (name.toList ++ labelEnd :: rest) ∧
          statement? (some name) (skipBlanks rest) = some l := by
  rw [lineOfChars?]
  split
  · rename_i hskip
    rw [hskip]
    simp
  · rename_i c tail hskip
    rw [hskip]
    by_cases hmark : c = labelMark
    · subst hmark
      rw [if_pos rfl, statement?_labelMark]
      constructor
      · intro hread
        obtain ⟨⟨name, rest⟩, hword, h⟩ := Option.bind_eq_some_iff.mp hread
        obtain ⟨rfl, hname, -⟩ := word?_eq_some_iff.mp hword
        dsimp only at h
        split at h
        · cases h
        · split at h
          · rename_i hend
            exact .inr ⟨name, _, hname, by rw [hend], h⟩
          · cases h
      · rintro (⟨⟨⟩⟩ | ⟨name, rest, hname, htail, hstatement⟩)
        have hends : EndsWord (labelEnd :: rest) := by
          rintro _ ⟨rfl⟩
          rfl
        have hword : word? tail = some (name, labelEnd :: rest) :=
          word?_eq_some_iff.mpr ⟨List.tail_eq_of_cons_eq htail, hname, hends⟩
        rw [hword]
        exact hstatement
    · rw [if_neg hmark]
      simp [hmark]

/-- A text is read as a line exactly if it is that line, well formed, written with some
white space. -/
theorem lineOfChars?_eq_some_iff {cs : List Char} {l : Line} :
    lineOfChars? cs = some l ↔ l.IsWellFormed ∧ ∃ g : Gaps, cs = l.written g := by
  rw [lineOfChars?_eq_some_iff_reads, statement?_skipBlanks_eq_some_iff]
  simp only [statement?_skipBlanks_eq_some_iff]
  constructor
  · rintro (⟨hlabel, hl, lead, g, rfl⟩ | ⟨name, rest, hname, hskip, hlabel, hl, lead, g, rfl⟩)
    · refine ⟨⟨hl, by rw [hlabel]; rintro _ ⟨⟩⟩, { g with front := lead }, ?_⟩
      rw [Line.written, Line.definition, hlabel]
      rfl
    · obtain ⟨-, front, rfl⟩ := skipBlanks_eq_iff.mp hskip
      refine ⟨⟨hl, ?_⟩, { g with front, behindLabel := lead }, ?_⟩
      · rw [hlabel]
        rintro _ ⟨rfl⟩
        exact hname
      · rw [Line.written, Line.definition, hlabel]
        simp [Line.body, Line.instruction]
  · rintro ⟨⟨hl, hname⟩, g, rfl⟩
    cases hlabel : l.label with
    | none =>
      refine .inl ⟨rfl, hl, g.front, g, ?_⟩
      rw [Line.written, Line.definition, hlabel]
      rfl
    | some name =>
      refine .inr ⟨name, g.behindLabel.chars ++ l.body g, hname name hlabel, ?_, rfl, hl,
        g.behindLabel, g, rfl⟩
      refine skipBlanks_eq_iff.mpr ⟨?_, g.front, ?_⟩
      · rintro _ ⟨rfl⟩
        decide
      · rw [Line.written, Line.definition, hlabel]
        simp

/-- Whatever stands in an operand place of a line that has been read is plain. -/
theorem arePlain_of_lineOfChars? {cs : List Char} {l : Line} (h : lineOfChars? cs = some l) :
    l.operands.ArePlain :=
  (lineOfChars?_eq_some_iff.mp h).1.plain

/-- The reader of lines accepts exactly the printed forms of well-formed lines. Every
such line is read back from each of its printed forms, whatever the white space, and no
text is the printed form of two lines. -/
theorem lexLine_accepts_grammar :
    (∀ (text : String) (l : Line),
        lexLine text = some l ↔ l.IsWellFormed ∧ ∃ g : Gaps, text = l.print g) ∧
      (∀ l : Line, l.IsWellFormed → ∀ g : Gaps, lexLine (l.print g) = some l) ∧
      ∀ l l' : Line, l.IsWellFormed → l'.IsWellFormed →
        ∀ g g' : Gaps, l.print g = l'.print g' → l = l' := by
  have haccepts (text : String) (l : Line) :
      lexLine text = some l ↔ l.IsWellFormed ∧ ∃ g : Gaps, text = l.print g := by
    have hchars (g : Gaps) : text.toList = l.written g ↔ text = l.print g := by
      rw [Line.print, ← String.toList_inj, String.toList_ofList]
    rw [lexLine, lineOfChars?_eq_some_iff]
    simp only [hchars]
  have hback (l : Line) (hl : l.IsWellFormed) (g : Gaps) : lexLine (l.print g) = some l :=
    (haccepts _ l).mpr ⟨hl, g, rfl⟩
  refine ⟨haccepts, hback, ?_⟩
  intro l l' hl hl' g g' htext
  have hread : lexLine (l.print g) = some l := hback l hl g
  rw [htext, hback l' hl' g'] at hread
  exact (Option.some.inj hread).symm

theorem lexLine_labelled_move :
    lexLine "@l:MOVE @x , RA" = some
      { label := "l", mnemonic := "MOVE", operands := ⟨some (.label "x"), some (.word "RA")⟩ } :=
  (lexLine_accepts_grammar.1 _ _).mpr
    ⟨by decide, { behindFirst := .space, behindComma := .space }, by decide⟩

example : lexLine "MOVE RA 05" = none := by decide

end ByteMachine.Source
