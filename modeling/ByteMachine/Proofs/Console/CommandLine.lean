import ByteMachine.Console.Session

/-!
# Command lines, item by item

Only the option for settings takes something with it: the argument behind it, whatever that
is. Cut into items that way, a command line is accepted if no item is wrong and there is a
source; and it is refused for its first wrong item, or else because there is no source. The
source is the only one that is named, the settings are those that are named last, and it does
not matter how often a snapshot is asked for.
-/

namespace ByteMachine.Console

/-- An item of a command line. -/
inductive Item where
  /-- The option for settings, with the path behind it. -/
  | settings (path : String)
  /-- The option for settings with nothing behind it. -/
  | settingsMissing
  /-- The option for a snapshot. -/
  | dump
  /-- A request for help. -/
  | help
  /-- What looks like an option and is none. -/
  | unknown (flag : String)
  /-- Anything else names a source. -/
  | source (path : String)
  deriving DecidableEq, Repr

namespace Item

/-- The item that an argument makes by itself. -/
def ofArgument (arg : String) : Item :=
  if arg = "--dump" then dump
  else if arg = "-h" || arg = "--help" then help
  else if arg.startsWith "--" then unknown arg
  else source arg

/-- The source that an item names. -/
def source? : Item → Option String
  | source path => some path
  | _ => none

/-- The settings that an item names. -/
def settings? : Item → Option String
  | settings path => some path
  | _ => none

/-- What is wrong with an item behind these. A second source is the only item that is wrong
because of what stands in front of it. -/
def fault? (earlier : List Item) : Item → Option ArgumentError
  | settingsMissing => some .missingSettings
  | help => some .usage
  | unknown flag => some (.unknownFlag flag)
  | source _ => if earlier.filterMap source? = [] then none else some .secondSource
  | settings _ | dump => none

end Item

/-- A command line cut into items. -/
def items : List String → List Item
  | [] => []
  | "--config" :: args =>
    match args with
    | [] => [.settingsMissing]
    | path :: args => .settings path :: items args
  | arg :: args => .ofArgument arg :: items args

/-- The source that items name. -/
def sourceOf (is : List Item) : Option String := (is.filterMap Item.source?).head?

/-- The settings that items name last. -/
def settingsOf (is : List Item) : Option String := (is.filterMap Item.settings?).getLast?

/-- Whether items ask for a snapshot. -/
def dumpOf (is : List Item) : Bool := is.contains .dump

/-- No item is wrong. -/
def Sound (is : List Item) : Prop :=
  ∀ earlier item later, is = earlier ++ item :: later → item.fault? earlier = none

/-- Items that are refused, and the reason: the first wrong one, or that there is no source. -/
inductive Refused (is : List Item) : ArgumentError → Prop where
  /-- An item is wrong, and none in front of it. -/
  | wrong {earlier later : List Item} {item : Item} {e : ArgumentError}
      (his : is = earlier ++ item :: later) (hsound : Sound earlier)
      (hfault : item.fault? earlier = some e) : Refused is e
  /-- No item is wrong, and none names a source. -/
  | sourceless (hsound : Sound is) (hnone : sourceOf is = none) : Refused is .usage

/-- Items that are accepted, and what they ask for. -/
structure Accepted (is : List Item) (a : Arguments) : Prop where
  /-- No item is wrong. -/
  sound : Sound is
  /-- The source is named. -/
  source : sourceOf is = some a.source
  /-- The settings are those that are named last. -/
  settings : a.settings = settingsOf is
  /-- A snapshot is shown if an item asks for it. -/
  dump : a.dump = dumpOf is

section Sound

variable {is : List Item} {item : Item}

theorem sound_nil : Sound [] := by
  intro earlier item later h
  cases earlier <;> cases h

/-- Items are sound as long as one after another is found not to be wrong. -/
theorem sound_append_singleton_iff :
    Sound (is ++ [item]) ↔ Sound is ∧ item.fault? is = none := by
  constructor
  · intro h
    refine ⟨fun earlier item' later his => ?_, h is item [] rfl⟩
    refine h earlier item' (later ++ [item]) ?_
    rw [his, List.append_assoc, List.cons_append]
  · rintro ⟨hsound, hfault⟩ earlier item' later heq
    rcases List.eq_nil_or_concat later with rfl | ⟨later, last, rfl⟩
    · obtain ⟨rfl, hitem⟩ := List.append_inj' heq rfl
      cases hitem
      exact hfault
    · rw [List.concat_eq_append, ← List.cons_append, ← List.append_assoc] at heq
      obtain ⟨his, -⟩ := List.append_inj' heq rfl
      exact hsound earlier item' later his

/-- Of two wrong items the one in front is the other one, if none in front of that is wrong. -/
theorem Sound.eq_of_append {earlier later later' more : List Item} {item item' : Item}
    {e e' : ArgumentError} (hsound : Sound (earlier ++ more))
    (hfault : item.fault? earlier = some e) (hfault' : item'.fault? (earlier ++ more) = some e')
    (hrest : item :: later = more ++ item' :: later') : e = e' := by
  cases more with
  | nil =>
    cases hrest
    rw [List.append_nil, hfault] at hfault'
    exact Option.some.inj hfault'
  | cons first more =>
    cases hrest
    have hnone := hsound earlier item more rfl
    rw [hfault] at hnone
    cases hnone

/-- The first wrong item is determined by all of them. -/
theorem Sound.eq_of_fault {earlier earlier' later later' : List Item} {item item' : Item}
    {e e' : ArgumentError} (hsound : Sound earlier) (hsound' : Sound earlier')
    (hfault : item.fault? earlier = some e) (hfault' : item'.fault? earlier' = some e')
    (heq : earlier ++ item :: later = earlier' ++ item' :: later') : e = e' := by
  rcases List.append_eq_append_iff.mp heq with ⟨more, rfl, hrest⟩ | ⟨more, rfl, hrest⟩
  · exact hsound'.eq_of_append hfault hfault' hrest
  · exact (hsound.eq_of_append hfault' hfault hrest).symm

end Sound

section Judgement

variable {is : List Item} {item : Item} {e e' : ArgumentError} {a a' : Arguments}

/-- Items are refused for one reason only. -/
theorem Refused.unique (h : Refused is e) (h' : Refused is e') : e = e' := by
  cases h with
  | wrong his hsound hfault =>
    cases h' with
    | wrong his' hsound' hfault' =>
      exact hsound.eq_of_fault hsound' hfault hfault' (his.symm.trans his')
    | sourceless hsound' hnone =>
      rw [hsound' _ _ _ his] at hfault
      cases hfault
  | sourceless hsound hnone =>
    cases h' with
    | wrong his' hsound' hfault' =>
      rw [hsound _ _ _ his'] at hfault'
      cases hfault'
    | sourceless => rfl

/-- Items are not refused and accepted at once. -/
theorem Refused.not_accepted (h : Refused is e) : ¬Accepted is a := by
  intro ha
  cases h with
  | wrong his hsound hfault =>
    rw [ha.sound _ _ _ his] at hfault
    cases hfault
  | sourceless hsound hnone =>
    rw [ha.source] at hnone
    cases hnone

/-- What items ask for is determined by them. -/
theorem Accepted.unique (h : Accepted is a) (h' : Accepted is a') : a = a' := by
  obtain ⟨source, settings, dump⟩ := a
  obtain ⟨source', settings', dump'⟩ := a'
  cases h.source.symm.trans h'.source
  cases h.settings.trans h'.settings.symm
  cases h.dump.trans h'.dump.symm
  rfl

/-- What becomes of items. -/
inductive Judged (is : List Item) : Except ArgumentError Arguments → Prop where
  /-- They are refused. -/
  | refused {e : ArgumentError} (h : Refused is e) : Judged is (.error e)
  /-- They are accepted. -/
  | accepted {a : Arguments} (h : Accepted is a) : Judged is (.ok a)

/-- One thing becomes of items. -/
theorem Judged.unique {r r' : Except ArgumentError Arguments} (h : Judged is r)
    (h' : Judged is r') : r = r' := by
  cases h with
  | refused h =>
    cases h' with
    | refused h' => rw [h.unique h']
    | accepted h' => exact absurd h' h.not_accepted
  | accepted h =>
    cases h' with
    | refused h' => exact absurd h h'.not_accepted
    | accepted h' => rw [h.unique h']

@[simp]
theorem sourceOf_append_singleton (is : List Item) (item : Item) :
    sourceOf (is ++ [item]) = (sourceOf is).or item.source? := by
  rw [sourceOf, List.filterMap_append, List.head?_append, ← sourceOf]
  cases item <;> rfl

@[simp]
theorem settingsOf_append_singleton (is : List Item) (item : Item) :
    settingsOf (is ++ [item]) = item.settings?.or (settingsOf is) := by
  rw [settingsOf, List.filterMap_append, List.getLast?_append, ← settingsOf]
  cases item <;> rfl

@[simp]
theorem dumpOf_append_singleton (is : List Item) (item : Item) :
    dumpOf (is ++ [item]) = (dumpOf is || item = .dump) := by
  rw [dumpOf, dumpOf, List.contains_append]
  cases item <;> simp

/-- A source is wrong where one has been named. -/
theorem fault?_source (is : List Item) (path : String) :
    (Item.source path).fault? is = if (sourceOf is).isSome then some .secondSource else none := by
  rw [Item.fault?, sourceOf]
  cases is.filterMap Item.source? <;> rfl

end Judgement

namespace Arguments

/-- An argument that is not the option for settings is looked at by itself. -/
theorem continue?_cons (source settings : Option String) (dump : Bool) {arg : String}
    (h : arg ≠ "--config") (args : List String) :
    continue? source settings dump (arg :: args) =
      match Item.ofArgument arg with
      | .dump => continue? source settings true args
      | .source path =>
        if source.isSome then .error .secondSource else continue? (some path) settings dump args
      | .unknown flag => .error (.unknownFlag flag)
      | _ => .error .usage := by
  rw [continue?]
  · unfold Item.ofArgument
    split
    · rfl
    · split
      · rfl
      · split <;> rfl
  · exact h

/-- Arguments behind sound items are judged with what those ask for. -/
theorem judged_continue? {earlier : List Item} (hsound : Sound earlier) (args : List String) :
    Judged (earlier ++ items args)
      (continue? (sourceOf earlier) (settingsOf earlier) (dumpOf earlier) args) := by
  -- the items that have been read are those in front, and sum up to what is carried along
  fun_induction items args generalizing earlier with
  | case1 =>
    rw [List.append_nil, continue?.eq_def]
    cases hsource : sourceOf earlier with
    | none => exact .refused (.sourceless hsound hsource)
    | some source => exact .accepted ⟨hsound, hsource, rfl, rfl⟩
  | case2 => exact .refused (.wrong rfl hsound rfl)
  | case3 path args ih =>
    have hlater : Sound (earlier ++ [.settings path]) :=
      sound_append_singleton_iff.mpr ⟨hsound, rfl⟩
    have hnext := ih hlater
    rw [List.append_assoc] at hnext
    simpa [continue?, Item.source?, Item.settings?] using hnext
  | case4 arg args hnot ih =>
    rw [continue?_cons _ _ _ hnot]
    cases hitem : Item.ofArgument arg with
    | dump =>
      have hlater : Sound (earlier ++ [.dump]) := sound_append_singleton_iff.mpr ⟨hsound, rfl⟩
      have hnext := ih hlater
      rw [List.append_assoc] at hnext
      simpa [Item.source?, Item.settings?] using hnext
    | source path =>
      have hfault := fault?_source earlier path
      cases hsource : sourceOf earlier with
      | some first =>
        rw [hsource] at hfault
        exact .refused (.wrong rfl hsound hfault)
      | none =>
        rw [hsource] at hfault
        have hlater : Sound (earlier ++ [.source path]) :=
          sound_append_singleton_iff.mpr ⟨hsound, hfault⟩
        have hnext := ih hlater
        rw [List.append_assoc] at hnext
        simpa [Item.source?, Item.settings?, hsource] using hnext
    | unknown flag => exact .refused (.wrong rfl hsound rfl)
    | help => exact .refused (.wrong rfl hsound rfl)
    | settings path | settingsMissing =>
      -- the option for settings has been taken out
      exact absurd hitem (by unfold Item.ofArgument; grind)

theorem judged_ofList (args : List String) : Judged (items args) (ofList args) :=
  judged_continue? sound_nil args

/-- A command line is refused for its first wrong item, or else because there is no source. -/
theorem ofList_eq_error_iff {args : List String} {e : ArgumentError} :
    ofList args = .error e ↔ Refused (items args) e := by
  refine ⟨fun h => ?_, fun h => (judged_ofList args).unique (.refused h)⟩
  have hjudged := judged_ofList args
  rw [h] at hjudged
  cases hjudged with
  | refused hrefused => exact hrefused

/-- A command line that is not refused asks for the source that it names, the settings that it
names last, and a snapshot if it says so anywhere. -/
theorem ofList_eq_ok_iff {args : List String} {a : Arguments} :
    ofList args = .ok a ↔ Accepted (items args) a := by
  refine ⟨fun h => ?_, fun h => (judged_ofList args).unique (.accepted h)⟩
  have hjudged := judged_ofList args
  rw [h] at hjudged
  cases hjudged with
  | accepted haccepted => exact haccepted

end Arguments

end ByteMachine.Console
