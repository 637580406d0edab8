import ByteMachine.Proofs.Console.CommandLine
import ByteMachine.Proofs.Console.Questions

/-!
# How a session opens

Before a program runs, four things may go wrong, and they are looked at in this order: the
arguments, the settings, the source, and its assembly. The first one that does ends the session
with a report, and with an exit code that says whether the command or the program is at fault.
If none of them does, the program is entered. Building the computer is not one of them: settings
that have been accepted are always good for a computer. All of this holds of any format that
settings may be written in.
-/

namespace ByteMachine.Console

/-- Settings in a file of some format that cannot be used, and why. -/
inductive Unusable (read : String → Except ReadError String) (format : Settings.Format)
    (path : String) : SettingsError → Prop where
  /-- The file cannot be read as text. -/
  | unreadable {e : ReadError} (hread : read path = .error e) :
    Unusable read format path (.unreadable e.message)
  /-- The text is no record of settings. -/
  | malformed {text : String} (hread : read path = .ok text) (hfields : format text = none) :
    Unusable read format path .malformed
  /-- The record sets a memory size that no memory has. -/
  | invalid {text : String} {fields : Settings.Fields} (hread : read path = .ok text)
      (hfields : format text = some fields)
      (hsize : ¬(1 ≤ (Settings.ofFields fields).memorySize ∧
        (Settings.ofFields fields).memorySize ≤ maxMemorySize)) :
    Unusable read format path (.invalidMemorySize (Settings.ofFields fields).memorySize)

/-- The command is at fault: the arguments are refused, or the settings that they name last
cannot be used. -/
def Misused (args : List String) (read : String → Except ReadError String)
    (format : Settings.Format) : Prop :=
  (∃ e, Refused (items args) e) ∨
    ∃ path e, settingsOf (items args) = some path ∧ Unusable read format path e

/-- Arguments and settings are in order, and this computer is built. -/
structure Prepared (args : List String) (read : String → Except ReadError String)
    (format : Settings.Format) (key : Random.Key) (a : Arguments) (c : Computer) : Prop where
  /-- The arguments are accepted, and ask for this. -/
  accepted : Accepted (items args) a
  /-- The computer is built with the settings in the file that is named, or without a file with
  the defaults. -/
  built : ∃ settings, loadSettings read format a.settings = .ok settings ∧
    Computer.ofSettings settings key = .ok c

/-- The program is entered on this computer: its source has been read and assembled, and the
run has been started. -/
inductive Entered (args : List String) (read : String → Except ReadError String)
    (format : Settings.Format) (key : Random.Key) : Arguments → Computer → Prop where
  | intro {a : Arguments} {built : Computer} {source : String} {artifacts : Artifacts}
      (hprepared : Prepared args read format key a built) (hread : read a.source = .ok source)
      (hassemble : (built.assemble source).answer = .ok artifacts) :
    Entered args read format key a (built.assemble source).next.run.next

/-- The first turn of a session: what it reports, and how it ends or goes on. -/
inductive Opens (args : List String) (read : String → Except ReadError String)
    (format : Settings.Format) (key : Random.Key) : Turn → Prop where
  /-- The arguments are refused. -/
  | refused {e : ArgumentError} (hrefused : Refused (items args) e) :
    Opens args read format key ⟨[report e.message], .finished 2⟩
  /-- The settings cannot be used. -/
  | unusable {a : Arguments} {path : String} {e : SettingsError}
      (haccepted : Accepted (items args) a) (hpath : a.settings = some path)
      (hunusable : Unusable read format path e) :
    Opens args read format key ⟨[report e.message], .finished 2⟩
  /-- The source cannot be read as text. -/
  | unreadable {a : Arguments} {c : Computer} {e : ReadError}
      (hprepared : Prepared args read format key a c) (hread : read a.source = .error e) :
    Opens args read format key
      ⟨[report ("could not read " ++ a.source ++ ": " ++ e.message)], .finished 1⟩
  /-- The source is not assembled. -/
  | unassembled {a : Arguments} {c : Computer} {source : String} {e : AssemblyError}
      (hprepared : Prepared args read format key a c) (hread : read a.source = .ok source)
      (hassemble : (c.assemble source).answer = .error e) :
    Opens args read format key ⟨[report ("syntax error: " ++ e.message)], .finished 1⟩
  /-- The program is entered. -/
  | entered {a : Arguments} {c : Computer} (hentered : Entered args read format key a c) :
    Opens args read format key ⟨[], .awaitTime { computer := c, dump := a.dump }⟩

section Settings

variable {read : String → Except ReadError String} {format : Settings.Format}
  {path : Option String} {settings : Settings} {e : SettingsError}

theorem isValid_iff :
    settings.isValid = true ↔ 1 ≤ settings.memorySize ∧ settings.memorySize ≤ maxMemorySize := by
  rw [Settings.isValid, Bool.and_eq_true, decide_eq_true_eq, decide_eq_true_eq]

/-- Settings are refused where a file is named whose settings cannot be used. -/
theorem loadSettings_eq_error_iff :
    loadSettings read format path = .error e ↔ ∃ p, path = some p ∧ Unusable read format p e := by
  constructor
  · intro h
    cases path with
    | none => cases h
    | some p =>
      refine ⟨p, rfl, ?_⟩
      rw [loadSettings] at h
      cases hread : read p with
      | error e' =>
        rw [hread] at h
        cases h
        exact .unreadable hread
      | ok text =>
        rw [hread] at h
        dsimp only at h
        cases hfields : format text with
        | none =>
          rw [Settings.Format.read_of_none hfields] at h
          cases h
          exact .malformed hread hfields
        | some fields =>
          rw [Settings.Format.read_of_some hfields] at h
          by_cases hvalid : (Settings.ofFields fields).isValid = true
          · rw [Settings.check_of_isValid hvalid] at h
            cases h
          · rw [Settings.check_of_not_isValid hvalid] at h
            cases h
            exact .invalid hread hfields fun hsize => hvalid (isValid_iff.mpr hsize)
  · rintro ⟨p, rfl, hunusable⟩
    rw [loadSettings]
    cases hunusable with
    | unreadable hread => rw [hread]
    | malformed hread hfields =>
      rw [hread]
      exact Settings.Format.read_of_none hfields
    | invalid hread hfields hsize =>
      rw [hread]
      dsimp only
      rw [Settings.Format.read_of_some hfields]
      exact Settings.check_of_not_isValid fun hvalid => hsize (isValid_iff.mp hvalid)

/-- Settings that are not refused are valid. -/
theorem isValid_of_loadSettings (h : loadSettings read format path = .ok settings) :
    settings.isValid = true := by
  cases path with
  | none =>
    cases h
    rfl
  | some p =>
    rw [loadSettings] at h
    cases hread : read p with
    | error e =>
      rw [hread] at h
      cases h
    | ok text =>
      rw [hread] at h
      exact Settings.Format.isValid_of_read h

/-- A computer can be built with settings that are not refused. -/
theorem exists_ofSettings (h : loadSettings read format path = .ok settings) (key : Random.Key) :
    ∃ c, Computer.ofSettings settings key = .ok c := by
  have hsize : 0 < settings.memorySize ∧ settings.memorySize ≤ maxMemorySize :=
    isValid_iff.mp (isValid_of_loadSettings h)
  rw [Computer.ofSettings, Memory.ofSize, dif_pos hsize]
  exact ⟨_, rfl⟩

end Settings

section Opens

variable {args : List String} {read : String → Except ReadError String} {format : Settings.Format}
  {key : Random.Key} {a : Arguments} {c : Computer} {turn : Turn}

/-- A program that is entered can be reached. -/
theorem Entered.reachable (h : Entered args read format key a c) : c.Reachable := by
  cases h with
  | @intro built source artifacts hprepared hread hassemble =>
    obtain ⟨settings, -, hbuilt⟩ := hprepared.built
    have hreachable : built.Reachable := .built hbuilt
    exact hreachable.started source

/-- No time has passed when it is entered. -/
theorem Entered.clock (h : Entered args read format key a c) : c.machine.scheduler.clock = 0 := by
  cases h with
  | @intro built source artifacts hprepared hread hassemble =>
    obtain ⟨settings, -, hbuilt⟩ := hprepared.built
    have hrun (c : Computer) : c.run.next.machine.scheduler.clock = c.machine.scheduler.clock := rfl
    rw [hrun, built.scheduler_assemble, Computer.scheduler_of_ofSettings hbuilt]

/-- If arguments and settings are in order, a session goes on to its source. -/
theorem Prepared.start_eq (h : Prepared args read format key a c) :
    start args read format key =
      match read a.source with
      | .error e =>
        ⟨[report ("could not read " ++ a.source ++ ": " ++ e.message)], .finished 1⟩
      | .ok source => Session.launch c source a.dump := by
  obtain ⟨settings, hsettings, hbuilt⟩ := h.built
  rw [start, Arguments.ofList_eq_ok_iff.mpr h.accepted]
  dsimp only
  rw [hsettings]
  dsimp only
  cases read a.source with
  | error e => rfl
  | ok source =>
    dsimp only
    rw [hbuilt]

/-- However a session may open, it does. -/
theorem start_of_opens (h : Opens args read format key turn) :
    start args read format key = turn := by
  cases h with
  | refused hrefused => rw [start, Arguments.ofList_eq_error_iff.mpr hrefused]
  | unusable haccepted hpath hunusable =>
    rw [start, Arguments.ofList_eq_ok_iff.mpr haccepted]
    dsimp only
    rw [loadSettings_eq_error_iff.mpr ⟨_, hpath, hunusable⟩]
  | unreadable hprepared hread => rw [hprepared.start_eq, hread]
  | unassembled hprepared hread hassemble =>
    rw [hprepared.start_eq, hread]
    exact Session.launch_of_error hassemble _
  | entered hentered =>
    obtain ⟨hprepared, hread, hassemble⟩ := hentered
    rw [hprepared.start_eq, hread]
    exact Session.launch_of_ok hassemble _

/-- Arguments that are accepted are prepared for, or name settings that cannot be used. -/
theorem exists_prepared (h : Accepted (items args) a) (key : Random.Key) :
    (∃ c, Prepared args read format key a c) ∨
      ∃ path e, a.settings = some path ∧ Unusable read format path e := by
  cases hsettings : loadSettings read format a.settings with
  | error e =>
    obtain ⟨path, hpath, hunusable⟩ := loadSettings_eq_error_iff.mp hsettings
    exact .inr ⟨path, e, hpath, hunusable⟩
  | ok settings =>
    obtain ⟨c, hc⟩ := exists_ofSettings hsettings key
    exact .inl ⟨c, h, settings, hsettings, hc⟩

/-- A session opens in one of these ways. -/
theorem exists_opens (args : List String) (read : String → Except ReadError String)
    (format : Settings.Format) (key : Random.Key) : ∃ turn, Opens args read format key turn := by
  cases hargs : Arguments.ofList args with
  | error e => exact ⟨_, .refused (Arguments.ofList_eq_error_iff.mp hargs)⟩
  | ok a =>
    have haccepted := Arguments.ofList_eq_ok_iff.mp hargs
    rcases exists_prepared haccepted key with ⟨c, hprepared⟩ | ⟨path, e, hpath, hunusable⟩
    · cases hread : read a.source with
      | error e => exact ⟨_, .unreadable hprepared hread⟩
      | ok source =>
        cases hassemble : (c.assemble source).answer with
        | error e => exact ⟨_, .unassembled hprepared hread hassemble⟩
        | ok artifacts => exact ⟨_, .entered (.intro hprepared hread hassemble)⟩
    · exact ⟨_, .unusable haccepted hpath hunusable⟩

/-- The first turn of a session is as what is wrong says, and there is one such turn. -/
theorem start_eq_iff : start args read format key = turn ↔ Opens args read format key turn := by
  refine ⟨fun h => ?_, start_of_opens⟩
  obtain ⟨turn', hopens⟩ := exists_opens args read format key
  rw [← h, start_of_opens hopens]
  exact hopens

/-- A session that ends as it opens has given one report. -/
theorem Opens.exists_report {writes : List Write} {code : Nat}
    (h : Opens args read format key ⟨writes, .finished code⟩) :
    ∃ text, writes = [report text] := by
  cases h with
  | refused | unusable | unreadable | unassembled => exact ⟨_, rfl⟩

/-- A program is entered with one computer, and what the arguments ask for. -/
theorem Entered.unique {a' : Arguments} {c' : Computer} (h : Entered args read format key a c)
    (h' : Entered args read format key a' c') : a = a' ∧ c = c' := by
  have hturn := (start_of_opens (.entered h)).symm.trans (start_of_opens (.entered h'))
  have hsession := Stage.awaitTime.inj (congrArg Turn.stage hturn)
  obtain ⟨hprepared, -, -⟩ := h
  obtain ⟨hprepared', -, -⟩ := h'
  exact ⟨hprepared.accepted.unique hprepared'.accepted, congrArg Session.computer hsession⟩

/-- The exit code of a session that ends before the program is entered is two exactly if the
command is at fault. -/
theorem misused_iff (key : Random.Key) :
    Misused args read format ↔ (start args read format key).stage = .finished 2 := by
  constructor
  · rintro (⟨e, hrefused⟩ | ⟨path, e, hpath, hunusable⟩)
    · rw [start_of_opens (.refused hrefused)]
    · cases hargs : Arguments.ofList args with
      | error e' => rw [start_of_opens (.refused (Arguments.ofList_eq_error_iff.mp hargs))]
      | ok a =>
        have haccepted := Arguments.ofList_eq_ok_iff.mp hargs
        rw [start_of_opens (.unusable haccepted (haccepted.settings.trans hpath) hunusable)]
  · intro h
    obtain ⟨turn', hopens⟩ := exists_opens args read format key
    rw [start_of_opens hopens] at h
    cases hopens with
    | refused hrefused => exact .inl ⟨_, hrefused⟩
    | unusable haccepted hpath hunusable =>
      exact .inr ⟨_, _, haccepted.settings.symm.trans hpath, hunusable⟩
    | unreadable | unassembled | entered => cases h

/-- Whether the command is at fault can be told from how a session opens. -/
theorem Opens.misused_iff (h : Opens args read format key turn) :
    Misused args read format ↔ turn.stage = .finished 2 := by
  rw [Console.misused_iff key, start_of_opens h]

end Opens

end ByteMachine.Console
