import ByteMachine.Proofs.Console.Opening
import ByteMachine.Proofs.Console.Timing

/-!
# What a session comes to

The outcome of a session is settled by the command line, the files and the lines of the input.
Either it ends as it opens, with a report, or its program is entered and takes the one course
that it can take with these lines. So the exit code says who is at fault, what is printed is
what the program puts out between the prompts for its questions, with a snapshot at the end if
one was asked for, and the times that pass have no part in it.
-/

namespace ByteMachine.Console

open Finset (range)

/-- The program is at fault: its source cannot be read as text, or is not assembled, or one of
its instructions fails. -/
inductive Fails (args : List String) (read : String → Except ReadError String)
    (format : Settings.Format) (key : Random.Key) (lines : List String) : Prop where
  /-- The source cannot be read as text. -/
  | unreadable {a : Arguments} {e : ReadError} (haccepted : Accepted (items args) a)
      (hread : read a.source = .error e)
  /-- The source is not assembled. -/
  | unassembled {a : Arguments} {c : Computer} {source : String} {e : AssemblyError}
      (hprepared : Prepared args read format key a c) (hread : read a.source = .ok source)
      (hassemble : (c.assemble source).answer = .error e)
  /-- An instruction fails in the course of the program. -/
  | faulty {a : Arguments} {c : Computer} {events : List Event} {ending : Ending} {fault : Fault}
      (hentered : Entered args read format key a c) (hruns : Runs c lines events ending)
      (hfault : ending.fault = some fault)

/-- What a session may come to: it ends as it opens, or its program is entered and ends. -/
inductive Ends (args : List String) (read : String → Except ReadError String)
    (format : Settings.Format) (key : Random.Key) (lines : List String) : Outcome → Prop where
  /-- It ends as it opens. -/
  | early {writes : List Write} {code : Nat}
      (hopens : Opens args read format key ⟨writes, .finished code⟩) :
    Ends args read format key lines ⟨code, writes⟩
  /-- Its program takes its course. -/
  | course {a : Arguments} {c : Computer} {events : List Event} {ending : Ending}
      (hentered : Entered args read format key a c) (hruns : Runs c lines events ending) :
    Ends args read format key lines
      ⟨ending.code, events.flatMap Event.writes ++ ending.closing a.dump⟩

/-- An outcome that is what the command line, the files and the lines of the input settle. -/
structure Outcome.Accounts (args : List String) (read : String → Except ReadError String)
    (format : Settings.Format) (key : Random.Key) (lines : List String) (o : Outcome) :
    Prop where
  /-- The exit code is two exactly if the command is at fault. -/
  misused : o.code = 2 ↔ Misused args read format
  /-- Otherwise it is one exactly if the program is at fault. -/
  fails : o.code = 1 ↔ ¬Misused args read format ∧ Fails args read format key lines
  /-- Otherwise it is zero. -/
  succeeds : o.code = 0 ↔ ¬Misused args read format ∧ ¬Fails args read format key lines
  /-- Arguments that are refused are reported for what is wrong with them first. -/
  refused : ∀ e, Refused (items args) e → o.writes = [report e.message]
  /-- If the program is entered, it has a course, and what happens in it is printed in order, with
  a snapshot behind it if one was asked for, however it ends. -/
  entered : ∀ a c, Entered args read format key a c → ∃ events ending, Runs c lines events ending ∧
    o.text .out = String.join (events.map Event.printed) ++
      if a.dump then ending.computer.snapshot.pretty ++ "\n" else ""
  /-- Otherwise nothing is printed. -/
  silent : (∀ a c, ¬Entered args read format key a c) → o.text .out = ""

section

variable {args : List String} {read : String → Except ReadError String} {format : Settings.Format}
  {key : Random.Key} {lines : List String} {o o' : Outcome}

/-- Command line, files and lines leave a session one outcome. -/
theorem Ends.unique (h : Ends args read format key lines o)
    (h' : Ends args read format key lines o') : o = o' := by
  cases h with
  | early hopens =>
    cases h' with
    | early hopens' =>
      cases (start_of_opens hopens).symm.trans (start_of_opens hopens')
      rfl
    | course hentered' hruns' =>
      cases (start_of_opens hopens).symm.trans (start_of_opens (.entered hentered'))
  | @course a c events ending hentered hruns =>
    cases h' with
    | early hopens' =>
      cases (start_of_opens (.entered hentered)).symm.trans (start_of_opens hopens')
    | @course a' c' events' ending' hentered' hruns' =>
      obtain ⟨rfl, rfl⟩ := hentered.unique hentered'
      obtain ⟨rfl, rfl⟩ := hruns.unique hruns'
      rfl

/-- A program that is at fault is so before it is entered, or in its course. -/
theorem Fails.cases_of_not_misused (h : Fails args read format key lines)
    (hused : ¬Misused args read format) :
    (start args read format key).stage = .finished 1 ∨
      ∃ a c events ending fault, Entered args read format key a c ∧ Runs c lines events ending ∧
        ending.fault = some fault := by
  cases h with
  | unreadable haccepted hread =>
    rcases exists_prepared haccepted key with ⟨c, hprepared⟩ | ⟨path, e, hpath, hunusable⟩
    · left
      rw [start_of_opens (.unreadable hprepared hread)]
    · exact absurd (.inr ⟨path, e, haccepted.settings.symm.trans hpath, hunusable⟩) hused
  | unassembled hprepared hread hassemble =>
    left
    rw [start_of_opens (.unassembled hprepared hread hassemble)]
  | faulty hentered hruns hfault => exact .inr ⟨_, _, _, _, _, hentered, hruns, hfault⟩

/-- The exit code says who is at fault: the command, or else the program, or else nobody. -/
theorem Ends.code_cases (h : Ends args read format key lines o) :
    (o.code = 2 ∧ Misused args read format) ∨
      (o.code = 1 ∧ ¬Misused args read format ∧ Fails args read format key lines) ∨
      (o.code = 0 ∧ ¬Misused args read format ∧ ¬Fails args read format key lines) := by
  cases h with
  | early hopens =>
    have hused := hopens.misused_iff
    cases hopens with
    | refused | unusable => exact .inl ⟨rfl, hused.mpr rfl⟩
    | unreadable hprepared hread =>
      have hwell : ¬Misused args read format := hused.not.mpr nofun
      exact .inr (.inl ⟨rfl, hwell, .unreadable hprepared.accepted hread⟩)
    | unassembled hprepared hread hassemble =>
      have hwell : ¬Misused args read format := hused.not.mpr nofun
      exact .inr (.inl ⟨rfl, hwell, .unassembled hprepared hread hassemble⟩)
  | @course a c events ending hentered hruns =>
    have hopens : Opens args read format key _ := .entered hentered
    have hwell : ¬Misused args read format := hopens.misused_iff.not.mpr nofun
    obtain ⟨computer, fault⟩ := ending
    cases fault with
    | some fault => exact .inr (.inl ⟨rfl, hwell, .faulty hentered hruns rfl⟩)
    | none =>
      refine .inr (.inr ⟨rfl, hwell, fun hfails => ?_⟩)
      rcases hfails.cases_of_not_misused hwell with
        hstage | ⟨a', c', events', ending', fault, hentered', hruns', hfault⟩
      · rw [start_of_opens hopens] at hstage
        cases hstage
      · obtain ⟨rfl, rfl⟩ := hentered.unique hentered'
        obtain ⟨rfl, rfl⟩ := hruns.unique hruns'
        cases hfault

/-- Any outcome that a session may come to is accounted for. -/
theorem Ends.accounts (h : Ends args read format key lines o) :
    o.Accounts args read format key lines := by
  have hcode := h.code_cases
  constructor
  case misused => grind
  case fails => grind
  case succeeds => grind
  case refused =>
    intro e hrefused
    rw [h.unique (.early (.refused hrefused))]
  case entered =>
    intro a c hentered
    cases h with
    | early hopens =>
      cases (start_of_opens hopens).symm.trans (start_of_opens (.entered hentered))
    | @course a' c' events ending hentered' hruns =>
      obtain ⟨rfl, rfl⟩ := hentered.unique hentered'
      refine ⟨events, ending, hruns, ?_⟩
      rw [← textOn_closing, ← textOn_writes, ← textOn_append]
      rfl
  case silent =>
    intro hnever
    cases h with
    | early hopens =>
      obtain ⟨text, rfl⟩ := hopens.exists_report
      rfl
    | course hentered => exact absurd hentered (hnever _ _)

/-- A session that is over has come to one of its ends, unless more than half of the time has
passed that the clock can count. -/
theorem ends_of_play {elapsed : Nat → Nat} {turns : Nat}
    (ho : play elapsed turns 0 [] (start args read format key) lines = some o) :
    (o.code = 101 ∧ lastMoment < 2 * ∑ i ∈ range turns, elapsed i) ∨
      Ends args read format key lines o := by
  obtain ⟨⟨writes, stage⟩, hopens⟩ := exists_opens args read format key
  rw [play_eq_outcome? elapsed turns 0 [] _ lines [], start_of_opens hopens] at ho
  cases stage with
  | finished code =>
    rw [Play.iterate_next_of_finished rfl] at ho
    cases ho
    exact .inr (.early hopens)
  | awaitTime s =>
    cases hopens with
    | @entered a c hentered =>
      have hkeeps : Session.Keeps { computer := c, dump := a.dump } none a.dump 0 c := by
        refine ⟨⟨hentered.reachable, rfl, ?_⟩, rfl, hentered.clock, .refl c, hentered.clock.le⟩
        obtain ⟨-, -, -⟩ := hentered
        rfl
      rcases Play.outcome_of_keeps (.idle hkeeps) ho with hlate | ⟨events, ending, hruns, rfl⟩
      · rw [Nat.zero_add] at hlate
        exact .inl hlate
      · exact .inr (.course hentered hruns)
  | awaitLine s ticket => cases hopens

/-- The outcome of a session that is over is settled by the command line, the files and the lines of
the input, whatever format settings are written in. The exit code is two exactly if the command is
at fault: an argument is wrong, or there is no source, or the settings that are named last cannot be
used. Otherwise it is one exactly if the program is at fault: its source cannot be read as text, or
is not assembled, or an instruction fails. Otherwise it is zero. What is printed is what the program
puts out in its course, with the prompts for its questions in between, and then a snapshot exactly
if one was asked for and the program has been entered. Other times lead to the same outcome. Only if
more than half of the time passes that the clock can count, which is 2^63 seconds and longer than
anyone can wait, a session may be cut short. With settings that have been loaded a computer can
always be built. -/
theorem outcome_settled {elapsed : Nat → Nat} {turns : Nat}
    (ho : play elapsed turns 0 [] (start args read format key) lines = some o) :
    ((o.code = 101 ∧ lastMoment < 2 * ∑ i ∈ range turns, elapsed i) ∨
      (o.Accounts args read format key lines ∧
        ∀ elapsed' turns' o',
          play elapsed' turns' 0 [] (start args read format key) lines = some o' →
          o' = o ∨ (o'.code = 101 ∧ lastMoment < 2 * ∑ i ∈ range turns', elapsed' i))) ∧
      ∀ path settings, loadSettings read format path = .ok settings →
        ∃ c, Computer.ofSettings settings key = .ok c := by
  refine ⟨?_, fun path settings h => exists_ofSettings h key⟩
  rcases ends_of_play ho with hlate | hends
  · exact .inl hlate
  · refine .inr ⟨hends.accounts, fun elapsed' turns' o' ho' => ?_⟩
    rcases ends_of_play ho' with hlate | hends'
    · exact .inr hlate
    · exact .inl (hends'.unique hends)

end

/-- Settings for a small memory, and a program that runs off its end. -/
def smallFiles (path : String) : Except ReadError String :=
  if path = "small.ron" then .ok "(memory_size: 4)" else .ok "IN 00\nOUT 01"

/-- A command line with the options on both sides of the source. -/
def smallArguments : List String := ["--dump", "program.e8", "--config", "small.ron"]

/-- What is printed: two prompts, the number, and the snapshot. -/
def smallText : String :=
  "input (hex): input (hex): 42\n" ++
    "(\n    state: Stopped,\n    registers: [\n        (Ra, 42),\n        (Pc, 4),\n" ++
    "        (Sp, 3),\n        (Ret, 0),\n        (Z, 0),\n        (C, 0),\n        (N, 0),\n" ++
    "    ],\n    memory: [\n        19,\n        0,\n        20,\n        1,\n    ],\n" ++
    "    output: 42,\n)\n"

/-- That program receives a byte at the second line, puts it out and fails. The snapshot shows
where, and the outcome is the same whatever times pass. -/
theorem smallFiles_outcome_settled : ∃ o,
    play (fun _ => 0) 6 0 [] (start smallArguments smallFiles Settings.ron 0) ["no\n", "2A\n"] =
      some o ∧
    o.code = 1 ∧ o.text .out = smallText ∧ ¬Misused smallArguments smallFiles Settings.ron ∧
    Fails smallArguments smallFiles Settings.ron 0 ["no\n", "2A\n"] ∧
    ∀ elapsed turns o', play elapsed turns 0 [] (start smallArguments smallFiles Settings.ron 0)
      ["no\n", "2A\n"] = some o' → o'.code ≠ 101 → o' = o := by
  have hplayed : (play (fun _ => 0) 6 0 [] (start smallArguments smallFiles Settings.ron 0)
      ["no\n", "2A\n"]).map (fun o => (o.code, o.text .out)) = some (1, smallText) := by
    decide +kernel
  obtain ⟨o, ho, hshown⟩ := Option.map_eq_some_iff.mp hplayed
  have hcode : o.code = 1 := congrArg Prod.fst hshown
  have htext : o.text .out = smallText := congrArg Prod.snd hshown
  obtain ⟨hlate | ⟨haccounts, hsame⟩, -⟩ := outcome_settled ho
  · rw [hcode] at hlate
    cases hlate.1
  · obtain ⟨hwell, hfails⟩ := haccounts.fails.mp hcode
    refine ⟨o, ho, hcode, htext, hwell, hfails, fun elapsed turns o' ho' hother => ?_⟩
    exact (hsame elapsed turns o' ho').resolve_right fun hlate => hother hlate.1

end ByteMachine.Console
