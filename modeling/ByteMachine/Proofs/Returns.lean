import ByteMachine.Proofs.Effects
import ByteMachine.Proofs.Machine.Faults
import ByteMachine.Proofs.Machine.Successor

/-!
# Where returns lead

There is one return register, and no stack behind it. A run begins with zero in it. A call puts
the address of its operand there, before it knows whether there is an operand at all, and nothing
else writes it. So it always belongs to the last call of the run, wherever this has led and
whatever has happened since; and a return, which is followed by a move of the program counter,
goes on right behind the operand of that call.
-/

namespace ByteMachine

/-- Where the code of the last call of a run stands behind a deed, if it was there before. A call
counts as soon as it is begun. -/
def Deed.callSite (before : Option UInt8) : Deed → Option UInt8
  | start => none
  | execute address .call => some address
  | _ => before

/-- Whether a deed neither begins a run nor is a call. -/
def Deed.keepsCall : Deed → Bool
  | start | execute _ .call => false
  | _ => true

/-- Where the code of the last call stands, in the run that goes on behind deeds. -/
def lastCall? (ds : List Deed) : Option UInt8 := ds.foldl Deed.callSite none

/-- A deed that is no call and begins no run leaves the last call as it was. -/
theorem Deed.callSite_of_keepsCall {d : Deed} (h : d.keepsCall = true) (before : Option UInt8) :
    d.callSite before = before := by
  cases d with
  | rest => rfl
  | start => cases h
  | execute address o => cases o <;> first | rfl | cases h

theorem foldl_callSite_of_keepsCall {ds : List Deed} (h : ∀ d ∈ ds, d.keepsCall = true)
    (before : Option UInt8) : ds.foldl Deed.callSite before = before := by
  induction ds with
  | nil => rfl
  | cons d ds ih =>
    rw [List.foldl_cons, Deed.callSite_of_keepsCall (h d List.mem_cons_self)]
    exact ih fun d hd => h d (List.mem_cons_of_mem _ hd)

/-- The last call is the one behind which there is neither a call nor the beginning of a run. -/
theorem lastCall?_append_call (earlier : List Deed) (address : UInt8) {later : List Deed}
    (h : ∀ d ∈ later, d.keepsCall = true) :
    lastCall? (earlier ++ .execute address .call :: later) = some address := by
  rw [lastCall?, List.foldl_append, List.foldl_cons, foldl_callSite_of_keepsCall h]
  rfl

/-- There is none if there has been no call since a run began. -/
theorem lastCall?_append_start (earlier : List Deed) {later : List Deed}
    (h : ∀ d ∈ later, d.keepsCall = true) : lastCall? (earlier ++ .start :: later) = none := by
  rw [lastCall?, List.foldl_append, List.foldl_cons, foldl_callSite_of_keepsCall h]
  rfl

/-- What the return register holds if the code of the last call of the run stands here: the
address of its operand, or zero if there has been no call. -/
def returnRegister : Option UInt8 → UInt8
  | none => 0
  | some address => address + 1

namespace Opcode

/-- A call notes where its operand is, whether or not it can be read. -/
theorem ret_run_call (m : Machine) :
    (call.run m).machine.registers.ret = m.registers.pc + 1 := by
  cases hload : m.memory.load (m.registers.pc + 1) with
  | ok value =>
    rw [run_eq_runWith_given fun _ => hload]
    exact (registers_call value m).2
  | error e =>
    obtain ⟨ns, hrun⟩ := run_of_operand_error (o := .call) nofun hload
    rw [hrun]
    rfl

end Opcode

namespace Machine

variable {m : Machine} {r : Reply Machine (Except Fault Unit)} {address : UInt8}

/-- What follows a call, the move of the program counter or the end of the run, leaves the return
register alone. -/
theorem ret_of_step_call (hdeed : m.deed = .execute address .call) (hr : m.step = some r) :
    r.next.registers.ret = m.registers.pc + 1 := by
  have hcycle := cycle_eq_complete (load_of_deed hdeed).2
  have hret : (cycle m).machine.registers.ret = m.registers.pc + 1 := by
    have hrun := Opcode.ret_run_call m
    rw [hcycle, complete]
    cases h : Opcode.call.run m with
    | mk outcome m' ns =>
      rw [h] at hrun
      cases outcome with
      | error i =>
        rw [Action.bind_error h]
        exact hrun
      | ok u =>
        rw [Action.bind_ok h]
        exact (Action.Keeps.increment (r := .pc) (s := .ret) (by decide) rfl 1 m').trans hrun
  rcases step_cases hr with ⟨hidle, -⟩ | ⟨-, -, ⟨-, hnext⟩ | ⟨fault, -, hnext⟩⟩
  · exact absurd (load_of_deed hdeed).1 hidle
  · rw [hnext]
    exact hret
  · rw [hnext]
    exact hret

/-- A return goes through, and goes on behind the address in the return register. -/
theorem step_ret (hdeed : m.deed = .execute address .ret) :
    ∃ ns, m.step = some
      ⟨.ok (), { m with registers := m.registers.set .pc (m.registers.ret + 1) }, ns⟩ :=
  ⟨_, step_of_run (o := .ret) hdeed rfl rfl⟩

end Machine

namespace Computer

variable {c : Computer} {site : Option UInt8}

/-- A command leaves the return register to the last call of the run. -/
theorem ret_of_perform (h : c.machine.registers.ret = returnRegister site) {command : Command}
    {r : Reply Computer Answer} (hr : c.perform command = some r) :
    r.next.machine.registers.ret = returnRegister ((c.deed command).callSite site) := by
  cases hdeed : c.deed command with
  | rest => exact (get_of_rest hdeed hr (s := .ret) nofun).trans h
  | start =>
    cases eq_run_of_start hdeed
    cases hr
    rfl
  | execute address o =>
    obtain ⟨s, -, hexecuted, hperform⟩ := perform_of_execute hdeed
    rw [hperform] at hr
    obtain ⟨r', hstep, rfl⟩ := Option.map_eq_some_iff.mp hr
    by_cases hcall : o = .call
    · subst hcall
      have haddress := Machine.address_of_deed hexecuted
      rw [Deed.callSite, returnRegister, haddress]
      exact Machine.ret_of_step_call hexecuted hstep
    · have hkeeps : (Deed.execute address o).keepsCall = true := by
        cases o <;> first | rfl | exact absurd rfl hcall
      have htarget : Register.ret ∉ Register.pc :: o.targets := by
        intro hmem
        exact hcall (Opcode.ret_mem_targets_iff.mp ((List.mem_cons.mp hmem).resolve_left nofun))
      rw [Deed.callSite_of_keepsCall hkeeps, ← h]
      exact (Machine.confined_of_step hexecuted hstep).1 _ htarget

/-- Whole histories leave the return register to the last call of the run. -/
theorem ret_of_performAll {commands : List Command} {r : Reply Computer (List Answer)}
    (hr : c.performAll commands = some r) (h : c.machine.registers.ret = returnRegister site) :
    r.next.machine.registers.ret =
      returnRegister ((c.deeds commands).foldl Deed.callSite site) := by
  induction commands generalizing c site r with
  | nil =>
    cases hr
    exact h
  | cons command commands ih =>
    obtain ⟨first, rest, hfirst, hlater, heq⟩ := performAll_cons hr
    have hrest := ih hlater (ret_of_perform h hfirst)
    rw [deeds, hfirst, List.foldl_cons, heq]
    exact hrest

/-- A computer that returns behind the last call of its run, whose code stands here. -/
structure ReturnsBehind (c : Computer) (site : Option UInt8) : Prop where
  /-- The return register holds the address of the operand of that call, or zero. -/
  register : c.machine.registers.ret = returnRegister site
  /-- Any command that has a return executed goes through, and leaves the program counter behind
  that operand. -/
  goesOn : ∀ command address, c.deed command = .execute address .ret →
    ∃ r, c.perform command = some r ∧ r.answer = command.report (.ok ()) ∧
      r.next.machine.registers.pc = returnRegister site + 1

/-- What the return register holds is where the next return leads. -/
theorem returnsBehind_of_ret (h : c.machine.registers.ret = returnRegister site) :
    c.ReturnsBehind site := by
  refine ⟨h, ?_⟩
  intro command address hdeed
  obtain ⟨s, r, hr, hanswer, hnext⟩ := perform_of_step
    (fun m => { m with registers := m.registers.set .pc (m.registers.ret + 1) }) hdeed
    fun s hexecuted => Machine.step_ret hexecuted
  refine ⟨r, hr, hanswer, ?_⟩
  rw [hnext, ← h]
  rfl

/-- Whatever a computer has been through since it was built, its return register belongs to the
last call of its run: it holds the address behind the code of that call, modulo 256, and zero if
there has been none. So however many commands of any kind come between a call and a return, if
there is neither another call nor the beginning of a run among what they do, the return goes
through and goes on two bytes behind the code of the call. -/
theorem returns_behind_last_call {settings : Settings} {key : Random.Key}
    (hc : ofSettings settings key = .ok c) {commands : List Command}
    {r : Reply Computer (List Answer)} (hr : c.performAll commands = some r) :
    r.next.ReturnsBehind (lastCall? (c.deeds commands)) ∧
      (∀ earlier between, c.deeds commands = earlier ++ .start :: between →
        (∀ d ∈ between, d.keepsCall = true) → r.next.machine.registers.ret = 0) ∧
      ∀ earlier address between,
        c.deeds commands = earlier ++ .execute address .call :: between →
        (∀ d ∈ between, d.keepsCall = true) →
        r.next.machine.registers.ret = address + 1 ∧
        ∀ command here, r.next.deed command = .execute here .ret →
          ∃ s, r.next.perform command = some s ∧ s.answer = command.report (.ok ()) ∧
            s.next.machine.registers.pc = address + 2 := by
  have hnew : c.machine.registers.ret = returnRegister none := by
    unfold ofSettings at hc
    split at hc
    · cases hc
      rfl
    · cases hc
  have hreturns : r.next.ReturnsBehind (lastCall? (c.deeds commands)) :=
    returnsBehind_of_ret (ret_of_performAll hr hnew)
  refine ⟨hreturns, ?_, ?_⟩
  · intro earlier between hdeeds hkept
    rw [hdeeds, lastCall?_append_start earlier hkept] at hreturns
    exact hreturns.register
  · intro earlier address between hdeeds hkept
    have htwo : address + 1 + 1 = address + 2 := UInt8.add_assoc _ 1 1
    rw [hdeeds, lastCall?_append_call earlier address hkept] at hreturns
    refine ⟨hreturns.register, ?_⟩
    intro command here hdeed
    obtain ⟨s, hs, hanswer, hpc⟩ := hreturns.goesOn command here hdeed
    rw [returnRegister, htwo] at hpc
    exact ⟨s, hs, hanswer, hpc⟩

/-- A program that calls a routine at a lower address, which asks for a byte and jumps on before it
returns. It has asked, has been suspended, and has been answered. -/
def visiting : List Command :=
  [.assemble "JUMP @main\n@ask: IN 00\nJUMP @back\n@back: RET\n@main: CALL @ask\nSTOP", .run,
    .step, .step, .step, .sleep (some 5), .deliver ⟨1, 0⟩ "2A", .update 3]

/-- The call stands at the address seven, so the return goes on at nine. -/
theorem visiting_returns_behind_call : ∃ c r s, ofSettings { memorySize := 10 } 0 = .ok c ∧
    c.performAll visiting = some r ∧ r.next.perform (.update 0) = some s ∧
    r.next.machine.registers.pc = 6 ∧ r.next.machine.registers.ret = 8 ∧
    s.next.machine.registers.pc = 9 := by
  obtain ⟨c, r, hc, hr, hpc, hdeed, hdeeds⟩ : ∃ c r, ofSettings { memorySize := 10 } 0 = .ok c ∧
      c.performAll visiting = some r ∧ r.next.machine.registers.pc = 6 ∧
      r.next.deed (.update 0) = .execute 6 .ret ∧
      c.deeds visiting = [.rest, .start, .execute 0 .jump] ++ .execute 7 .call ::
        [.execute 2 .input, .rest, .rest, .execute 4 .jump] :=
    ⟨_, _, rfl, rfl, rfl, rfl, rfl⟩
  obtain ⟨-, -, hreturns⟩ := returns_behind_last_call hc hr
  obtain ⟨hret, hgoes⟩ := hreturns _ 7 _ hdeeds (by decide)
  obtain ⟨s, hs, -, hbehind⟩ := hgoes (.update 0) 6 hdeed
  exact ⟨c, r, s, hc, hr, hs, hpc, hret, hbehind⟩

end Computer

end ByteMachine
