import ByteMachine.Proofs.Machine.Calculation

/-!
# The flags of a whole run

The flags belong to the last calculation that has gone through in a run, and to nothing else:
neither other operations nor operations that fail change them, and neither does an answer,
though it goes into the accumulator. So they are always those of some calculation, or all zero,
and of the three jumps that the flags decide about exactly one is taken at any time.
-/

namespace ByteMachine

/-- The last calculation of a run behind a deed of this machine, if this was the last one
before. -/
def Deed.calculated (m : Machine) (before : Option Calculation) : Deed → Option Calculation
  | start => none
  | execute _ o => (o.calculation? m).or before
  | rest => before

namespace Flags

/-- The flags behind the last calculation, which are all zero if there was none. -/
def behind : Option Calculation → Flags
  | none => ⟨0, 0, 0⟩
  | some k => k.flags

/-- A byte cannot be both zero and at least 128. -/
theorem sign_cases (last : Option Calculation) :
    ((behind last).zero = 0 ∧ (behind last).negative = 0) ∨
      ((behind last).zero = 1 ∧ (behind last).negative = 0) ∨
      ((behind last).zero = 0 ∧ (behind last).negative = 1) := by
  cases last with
  | none => exact .inl ⟨rfl, rfl⟩
  | some k =>
    rw [behind, Calculation.flags]
    dsimp only
    by_cases hzero : k.result = 0
    · rw [if_pos hzero, if_neg (by omega)]
      exact .inr (.inl ⟨rfl, rfl⟩)
    · rw [if_neg hzero]
      split
      · exact .inr (.inr ⟨rfl, rfl⟩)
      · exact .inl ⟨rfl, rfl⟩

theorem carry_cases (last : Option Calculation) :
    (behind last).carry = 0 ∨ (behind last).carry = 1 := by
  cases last with
  | none => exact .inl rfl
  | some k =>
    rw [behind, Calculation.flags]
    dsimp only
    split
    · exact .inr rfl
    · exact .inl rfl

/-- Of the jumps that these flags decide about exactly one is taken. -/
theorem exists_conditional {f : RegisterFile} {last : Option Calculation}
    (h : f.flags = behind last) :
    ∃ o ∈ Opcode.conditionals, ∀ o' ∈ Opcode.conditionals, o'.jumps f = decide (o' = o) := by
  have hzero : f.z = (behind last).zero := congrArg Flags.zero h
  have hnegative : f.n = (behind last).negative := congrArg Flags.negative h
  rcases sign_cases last with ⟨hz, hn⟩ | ⟨hz, hn⟩ | ⟨hz, hn⟩
  · refine ⟨.jumpGreater, by decide, ?_⟩
    simp [Opcode.conditionals, Opcode.jumps, RegisterFile.flag, RegisterFile.get, hzero,
      hnegative, hz, hn]
  · refine ⟨.jumpEqual, by decide, ?_⟩
    simp [Opcode.conditionals, Opcode.jumps, RegisterFile.flag, RegisterFile.get, hzero,
      hnegative, hz, hn]
  · refine ⟨.jumpLess, by decide, ?_⟩
    simp [Opcode.conditionals, Opcode.jumps, RegisterFile.flag, RegisterFile.get, hzero,
      hnegative, hz, hn]

end Flags

namespace Computer

variable {c : Computer} {last : Option Calculation} {command : Command}

/-- The last calculation of the run that goes on behind commands, if one has gone through. -/
def lastCalculation? (c : Computer) (before : Option Calculation) (commands : List Command) :
    Option Calculation :=
  c.noted (fun m before d => d.calculated m before) before commands

/-- What an operation calculates does not depend on the run state. -/
theorem calculation?_withScheduler (o : Opcode) (s : Scheduler) :
    o.calculation? (c.withScheduler s).machine = o.calculation? c.machine := by
  cases o <;> rfl

/-- A command that executes an operation leaves the flags of its calculation, or those before. -/
theorem flags_of_execute {address : UInt8} {o : Opcode}
    (hdeed : c.deed command = .execute address o) {r : Reply Computer Answer}
    (hr : c.perform command = some r) :
    r.next.machine.registers.flags =
      ((o.calculation? c.machine).map Calculation.flags).getD c.machine.registers.flags := by
  obtain ⟨s, -, hexecuted, hperform⟩ := perform_of_execute hdeed
  rw [hperform] at hr
  obtain ⟨r', hstep, rfl⟩ := Option.map_eq_some_iff.mp hr
  have hflags := Machine.flags_of_step hexecuted hstep
  rw [calculation?_withScheduler] at hflags
  exact hflags

/-- A command that executes nothing leaves the flags alone. -/
theorem flags_of_rest (hrest : c.deed command = .rest) {r : Reply Computer Answer}
    (hr : c.perform command = some r) :
    r.next.machine.registers.flags = c.machine.registers.flags := by
  refine RegisterFile.flags_eq_of_get fun s hs => get_of_rest hrest hr ?_
  rintro rfl
  cases hs

/-- Every command leaves the flags of the last calculation. -/
theorem flags_of_perform (h : c.machine.registers.flags = Flags.behind last)
    {r : Reply Computer Answer} (hr : c.perform command = some r) :
    r.next.machine.registers.flags =
      Flags.behind ((c.deed command).calculated c.machine last) := by
  cases hdeed : c.deed command with
  | rest => exact (flags_of_rest hdeed hr).trans h
  | start =>
    cases eq_run_of_start hdeed
    cases hr
    rfl
  | execute address o =>
    rw [flags_of_execute hdeed hr, h, Deed.calculated]
    cases o.calculation? c.machine <;> rfl

/-- Whole histories leave the flags of the last calculation. -/
theorem flags_of_performAll (h : c.machine.registers.flags = Flags.behind last)
    {commands : List Command} {r : Reply Computer (List Answer)}
    (hr : c.performAll commands = some r) :
    r.next.machine.registers.flags = Flags.behind (c.lastCalculation? last commands) := by
  induction commands generalizing c last r with
  | nil =>
    cases hr
    exact h
  | cons command commands ih =>
    obtain ⟨first, rest, hfirst, hlater, heq⟩ := performAll_cons hr
    have hrest := ih (flags_of_perform h hfirst) hlater
    rw [lastCalculation?, noted_cons hfirst, heq]
    exact hrest

/-- What the last calculation of its run says about a computer, and what comes next. -/
structure ShowsCalculation (c : Computer) (last : Option Calculation) : Prop where
  /-- The flags are those of the last calculation, or all zero. -/
  flags : c.machine.registers.flags = Flags.behind last
  /-- The next calculation goes through. Its flags are shown, and its result is stored unless it
  is a comparison. -/
  next : ∀ command address o k, c.deed command = .execute address o →
    o.calculation? c.machine = some k →
    ∃ r, c.perform command = some r ∧ r.answer = command.report (.ok ()) ∧
      o.Leaves k c.machine.registers.ra r.next.machine.registers
  /-- An operation that is for a calculation but comes to none fails. -/
  failed : ∀ command address o, c.deed command = .execute address o → o.calculates = true →
    o.calculation? c.machine = none →
    ∃ fault r, c.perform command = some r ∧ r.answer = command.report (.error fault)
  /-- Without a calculation, and unless a run begins, no command changes the flags. -/
  kept : ∀ command r, c.perform command = some r → c.deed command ≠ .start →
    (∀ address o, c.deed command = .execute address o → o.calculation? c.machine = none) →
    r.next.machine.registers.flags = c.machine.registers.flags
  /-- A flag is zero or one. -/
  binary : ∀ s : Register, s.isFlag = true →
    c.machine.registers.get s = 0 ∨ c.machine.registers.get s = 1
  /-- Nothing is both zero and negative. -/
  exclusive : ¬(c.machine.registers.z = 1 ∧ c.machine.registers.n = 1)
  /-- With these registers, exactly one of the jumps that the flags decide about goes to its
  target, and the others go on behind their operands. -/
  conditional : ∃ taken ∈ Opcode.conditionals, ∀ o ∈ Opcode.conditionals,
    ∀ (m : Machine) address target, m.registers = c.machine.registers →
      m.deed = .execute address o → m.operand? = some target →
      ∃ ns, m.step = some
        ⟨.ok (), m.standingAt (if o = taken then target else m.registers.pc + 2), ns⟩

/-- Flags that are those of the last calculation say all this. -/
theorem showsCalculation_of_flags (h : c.machine.registers.flags = Flags.behind last) :
    c.ShowsCalculation last := by
  have hzero : c.machine.registers.z = (Flags.behind last).zero := congrArg Flags.zero h
  have hcarry : c.machine.registers.c = (Flags.behind last).carry := congrArg Flags.carry h
  have hnegative : c.machine.registers.n = (Flags.behind last).negative :=
    congrArg Flags.negative h
  constructor
  case flags => exact h
  case next =>
    intro command address o k hdeed hk
    obtain ⟨s, -, hexecuted, hperform⟩ := perform_of_execute hdeed
    rw [← calculation?_withScheduler o s] at hk
    obtain ⟨m', ns, hstep, hleft⟩ := Machine.step_of_calculation hexecuted hk
    rw [hperform, hstep]
    exact ⟨_, rfl, rfl, hleft⟩
  case failed =>
    intro command address o hdeed ho hk
    obtain ⟨s, -, hexecuted, hperform⟩ := perform_of_execute hdeed
    rw [← calculation?_withScheduler o s] at hk
    obtain ⟨fault, m', ns, hstep, -⟩ := Machine.step_of_no_calculation hexecuted ho hk
    rw [hperform, hstep]
    exact ⟨fault, _, rfl, rfl⟩
  case kept =>
    intro command r hr hstart hnone
    cases hdeed : c.deed command with
    | rest => exact flags_of_rest hdeed hr
    | start => exact absurd hdeed hstart
    | execute address o =>
      rw [flags_of_execute hdeed hr, hnone address o hdeed]
      rfl
  case binary =>
    intro s hs
    have hsign := Flags.sign_cases last
    rw [← hzero, ← hnegative] at hsign
    cases s with
    | z =>
      rcases hsign with ⟨hz, -⟩ | ⟨hz, -⟩ | ⟨hz, -⟩
      · exact .inl hz
      · exact .inr hz
      · exact .inl hz
    | n =>
      rcases hsign with ⟨-, hn⟩ | ⟨-, hn⟩ | ⟨-, hn⟩
      · exact .inl hn
      · exact .inl hn
      · exact .inr hn
    | c =>
      have hbit := Flags.carry_cases last
      rw [← hcarry] at hbit
      exact hbit
    | ra | pc | sp | ret => cases hs
  case exclusive =>
    rintro ⟨hz, hn⟩
    have hsign := Flags.sign_cases last
    rw [← hzero, ← hnegative, hz, hn] at hsign
    revert hsign
    decide
  case conditional =>
    obtain ⟨taken, htaken, hjumps⟩ := Flags.exists_conditional h
    refine ⟨taken, htaken, ?_⟩
    intro o ho m address target hregisters hdeed htarget
    obtain ⟨ns, hstep⟩ := Machine.step_of_conditional ho hdeed htarget
    rw [hregisters, hjumps o ho] at hstep
    simp only [decide_eq_true_eq] at hstep
    rw [hregisters]
    exact ⟨ns, hstep⟩

/-- Whatever a computer has been through since it was built, its flags are those of the last
calculation that has gone through in its run, and nothing but the next one, or the next run,
changes them. So of the jumps that they decide about exactly one is taken. -/
theorem flags_show_last_calculation {settings : Settings} {key : Random.Key}
    (hc : ofSettings settings key = .ok c) {commands : List Command}
    {r : Reply Computer (List Answer)} (hr : c.performAll commands = some r) :
    r.next.ShowsCalculation (c.lastCalculation? none commands) := by
  have hnew : c.machine.registers.flags = Flags.behind none := by
    unfold ofSettings at hc
    split at hc
    · cases hc
      rfl
    · cases hc
  exact showsCalculation_of_flags (flags_of_performAll hnew hr)

/-- A program that takes one from zero and then 255 from what is left, and has done the first. -/
def borrowing : List Command := [.assemble "DEC\nSUBI RA, FF\nJEQUAL 00", .run, .step]

/-- The first difference is negative and has no carry, for more is taken away than there is. The
second one is zero and has a carry. -/
theorem borrowing_shows_calculation : ∃ c r s, ofSettings { memorySize := 5 } 0 = .ok c ∧
    c.performAll borrowing = some r ∧ r.next.perform .step = some s ∧
    c.lastCalculation? none borrowing = some (.difference 0 1) ∧
    r.next.machine.registers.flags = ⟨0, 0, 1⟩ ∧
    s.next.machine.registers.flags = ⟨1, 1, 0⟩ ∧ s.next.machine.registers.ra.toNat = 0 := by
  obtain ⟨c, r, hc, hr, hlast, hdeed, hk⟩ : ∃ c r, ofSettings { memorySize := 5 } 0 = .ok c ∧
      c.performAll borrowing = some r ∧
      c.lastCalculation? none borrowing = some (.difference 0 1) ∧
      r.next.deed .step = .execute 1 .subi ∧
      Opcode.subi.calculation? r.next.machine = some (.difference 255 255) :=
    ⟨_, _, rfl, rfl, rfl, rfl, rfl⟩
  have hshown := flags_show_last_calculation hc hr
  obtain ⟨s, hs, -, hleft⟩ := hshown.next .step 1 .subi _ hdeed hk
  refine ⟨c, r, s, hc, hr, hs, hlast, ?_, hleft.flags, hleft.accumulator⟩
  rw [hshown.flags, hlast]
  rfl

end Computer

end ByteMachine
