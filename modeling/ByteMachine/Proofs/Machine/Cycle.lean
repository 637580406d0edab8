import ByteMachine.Proofs.Machine.Action

/-!
# What a step comes to

A cycle reads the code under the program counter, which changes nothing. Either there is an
operation with that code, and then the cycle is that operation and no more, or the cycle
fails and leaves the machine as it has found it. A step is a cycle of a running program,
with the run ended behind a cycle that has failed.
-/

namespace ByteMachine

/-- No two operations have the same code. -/
theorem Opcode.eq_of_code_eq {o o' : Opcode} (h : o.code = o'.code) : o = o' := by
  rw [← Option.some_inj, ← ofByte?_code o, ← ofByte?_code o', h]

namespace Machine

open ByteMachine.Action (Meets)

variable {m : Machine} {o : Opcode}

/-- Without a cell under the program counter there is no code. -/
theorem fetch_of_error {e : MemoryError} (h : m.memory.load m.registers.pc = .error e) :
    fetch m = ⟨.error (.fault (.memory e)), m, []⟩ := by
  have hregister : Action.register .pc m = ⟨.ok m.registers.pc, m, []⟩ := rfl
  exact Action.bind_eq hregister (Action.bind_error (Action.load_of_error h))

/-- A byte under the program counter is the code of an operation, or no code at all. -/
theorem fetch_of_ok {byte : UInt8} (h : m.memory.load m.registers.pc = .ok byte) :
    fetch m = ⟨match Opcode.ofByte? byte with
      | some o => .ok o
      | none => .error (.fault (.unknownOpcode m.registers.pc byte)), m, []⟩ := by
  have hregister : Action.register .pc m = ⟨.ok m.registers.pc, m, []⟩ := rfl
  refine Action.bind_eq hregister (Action.bind_eq (Action.load_of_ok h) ?_)
  cases Opcode.ofByte? byte <;> rfl

/-- Reading the code under the program counter gives the operation with that code, or fails
where there is none, and changes nothing. -/
theorem fetch_cases (m : Machine) :
    ((∀ o : Opcode, m.memory.load m.registers.pc ≠ .ok o.code) ∧
        ∃ fault, fetch m = ⟨.error (.fault fault), m, []⟩) ∨
      ∃ o : Opcode, m.memory.load m.registers.pc = .ok o.code ∧ fetch m = ⟨.ok o, m, []⟩ := by
  cases hbyte : m.memory.load m.registers.pc with
  | error e => exact .inl ⟨nofun, _, fetch_of_error hbyte⟩
  | ok byte =>
    have hfetch := fetch_of_ok hbyte
    cases hopcode : Opcode.ofByte? byte with
    | none =>
      rw [hopcode] at hfetch
      refine .inl ⟨?_, _, hfetch⟩
      intro o ho
      rw [Except.ok.inj ho, Opcode.ofByte?_code] at hopcode
      cases hopcode
    | some o =>
      rw [hopcode] at hfetch
      exact .inr ⟨o, congrArg _ (Opcode.code_of_ofByte? hopcode).symm, hfetch⟩

/-- A cycle is the operation whose code is under the program counter. Where there is none,
it fails and changes nothing. -/
theorem cycle_cases (m : Machine) :
    ((∀ o : Opcode, m.memory.load m.registers.pc ≠ .ok o.code) ∧
        ∃ fault, cycle m = ⟨.error (.fault fault), m, []⟩) ∨
      ∃ o : Opcode, m.memory.load m.registers.pc = .ok o.code ∧ cycle m = complete o o.run m := by
  rcases m.fetch_cases with ⟨hnone, fault, hfetch⟩ | ⟨o, hcode, hfetch⟩
  · refine .inl ⟨hnone, fault, ?_⟩
    rw [cycle, Action.bind_error hfetch]
  · refine .inr ⟨o, hcode, ?_⟩
    rw [cycle, Action.bind_ok hfetch]
    rfl

/-- Where a code stands under the program counter, a cycle is the operation of that code. -/
theorem cycle_eq_complete (h : m.memory.load m.registers.pc = .ok o.code) :
    cycle m = complete o o.run m := by
  rcases m.cycle_cases with ⟨hnone, -⟩ | ⟨o', hcode, hcycle⟩
  · exact absurd h (hnone o)
  · have hsame : o' = o := Opcode.eq_of_code_eq (Except.ok.inj (hcode.symm.trans h))
    rw [hcycle, hsame]

/-- What holds of a machine that is left alone, and of every operation, holds of a cycle. -/
theorem meets_cycle {P : Machine → Machine → List Notice → Prop} (hrest : ∀ m, P m m [])
    (hcomplete : ∀ o : Opcode, Meets P (complete o o.run)) : Meets P cycle := by
  intro m
  rcases m.cycle_cases with ⟨-, fault, hcycle⟩ | ⟨o, -, hcycle⟩
  · rw [hcycle]
    exact hrest m
  · rw [hcycle]
    exact hcomplete o m

/-- A step of a program that does not run is nothing. Any other is a cycle, and where that
has failed, the run has ended behind it. -/
theorem step_cases {r : Reply Machine (Except Fault Unit)} (hr : m.step = some r) :
    (m.scheduler.state ≠ .running ∧ r = ⟨.ok (), m, []⟩) ∨
      (m.scheduler.state = .running ∧ r.notices = (cycle m).notices ∧
        ((r.answer = .ok () ∧ r.next = (cycle m).machine) ∨
          ∃ fault, r.answer = .error fault ∧ r.next =
            { (cycle m).machine with scheduler := (cycle m).machine.scheduler.stop })) := by
  unfold step at hr
  split at hr
  · rename_i hrunning
    unfold conclude at hr
    split at hr
    · cases hr
      exact .inr ⟨hrunning, rfl, .inl ⟨rfl, rfl⟩⟩
    · rename_i fault hfault
      cases hr
      exact .inr ⟨hrunning, rfl, .inr ⟨fault, rfl, rfl⟩⟩
    · cases hr
  · rename_i hidle
    exact .inl ⟨hidle, (Option.some.inj hr).symm⟩

/-- A step without a fault is an operation that has gone through. -/
theorem conclude_eq_some_ok {e : Effect Unit} {r : Reply Machine (Except Fault Unit)}
    (h : conclude e = some r) (hok : r.answer = .ok ()) :
    e.outcome = .ok () ∧ r.next = e.machine := by
  obtain ⟨outcome, machine, notices⟩ := e
  unfold conclude at h
  match outcome with
  | .ok () =>
    cases h
    exact ⟨rfl, rfl⟩
  | .error (.fault f) =>
    cases h
    cases hok
  | .error .clockOverflow => cases h

end Machine

end ByteMachine
