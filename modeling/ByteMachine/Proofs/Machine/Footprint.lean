import ByteMachine.Proofs.Machine.Action

/-!
# What an operation may touch

All operations are put together of the same few parts, and each one uses only some of
them. So once it is known which parts an operation uses, whatever holds of these parts and
of one part after another holds of the operation: what it may change, and how it may fail.
-/

namespace ByteMachine

namespace Opcode

/-- The registers that an operation may write, the program counter aside. -/
def targets : Opcode → List Register
  | inc | dec | addi | subi | add | sub => [.ra, .z, .c, .n]
  | comparei | compare => [.z, .c, .n]
  | movei | load | random => [.ra]
  | call => [.ret]
  | push | pop => [.sp]
  | _ => []

/-- Whether an operation may write to memory. -/
def stores : Opcode → Bool
  | store | push | pop => true
  | _ => false

/-- The stack pointer is for pushes and drops. -/
theorem sp_mem_targets_iff {o : Opcode} : .sp ∈ o.targets ↔ o ∈ [push, pop] := by
  cases o <;> decide

/-- The return register is for calls. -/
theorem ret_mem_targets_iff {o : Opcode} : .ret ∈ o.targets ↔ o = call := by
  cases o <;> decide

/-- The accumulator is for moves to it, for arithmetic and for random bytes. -/
theorem ra_mem_targets_iff {o : Opcode} :
    .ra ∈ o.targets ↔ o ∈ [movei, load, random, inc, dec, addi, add, subi, sub] := by
  cases o <;> decide

/-- The flags are for arithmetic and for comparisons. -/
theorem flag_mem_targets_iff {o : Opcode} {s : Register} (h : s.isFlag = true) :
    s ∈ o.targets ↔ o ∈ [inc, dec, addi, add, subi, sub, comparei, compare] := by
  cases s <;> first | (cases o <;> decide) | cases h

/-- What an operation is put together of. Every operation may look at the machine and move
the program counter; the other parts are for some operations only. -/
inductive Uses (o : Opcode) : {α : Type} → Action α → Prop where
  /-- Doing nothing. -/
  | pure {α : Type} (a : α) : Uses o (Pure.pure a : Action α)
  /-- One part after another. -/
  | bind {α β : Type} {x : Action α} {f : α → Action β} (hx : Uses o x) (hf : ∀ a, Uses o (f a)) :
    Uses o (x >>= f)
  /-- Looking at the machine. -/
  | machine : Uses o Action.machine
  /-- Reading a register. -/
  | register (r : Register) : Uses o (Action.register r)
  /-- Reading a cell. -/
  | load (address : UInt8) : Uses o (Action.load address)
  /-- Writing registers. -/
  | writeAll {ws : List (Register × UInt8)} (h : ws.map Prod.fst ⊆ .pc :: o.targets) :
    Uses o (Action.writeAll ws)
  /-- Writing a cell. -/
  | store (h : o.stores = true) (address value : UInt8) : Uses o (Action.store address value)
  /-- Putting a byte out. -/
  | putOut (h : o = .output) (value : UInt8) : Uses o (Action.putOut value)
  /-- Suspending the program. -/
  | sleep (h : o = .input ∨ o = .sleep) (timeout : Option Nat) : Uses o (Action.sleep timeout)
  /-- Asking for a byte. -/
  | requestInput (h : o = .input) : Uses o Action.requestInput
  /-- Drawing a random byte. -/
  | randomByte (h : o = .random) : Uses o Action.randomByte
  /-- Ending the run. -/
  | halt (h : o = .stop) :
    Uses o (Action.update fun m => { m with scheduler := m.scheduler.stop })

namespace Uses

variable {o : Opcode}

theorem write {r : Register} (h : r ∈ .pc :: o.targets) (value : UInt8) :
    o.Uses (Action.write r value) := by
  refine .writeAll ?_
  intro s hs
  have heq : s = r := List.mem_singleton.mp hs
  rw [heq]
  exact h

/-- An addition looks at the registers and then writes. -/
theorem increment {r : Register} (h : r.besides ⊆ .pc :: o.targets) (amount : UInt8) :
    o.Uses (Action.increment r amount) := by
  have hparts : Action.increment r amount =
      Action.machine >>= fun m => Action.writeAll (m.registers.additionWrites r amount) := rfl
  rw [hparts]
  refine .bind .machine fun m => .writeAll ?_
  rw [RegisterFile.map_fst_additionWrites]
  exact h

theorem decrement {r : Register} (h : r.besides ⊆ .pc :: o.targets) (amount : UInt8) :
    o.Uses (Action.decrement r amount) :=
  increment h (0 - amount)

/-- A comparison looks at the registers and then writes the flags. -/
theorem compareWith (h : [.z, .c, .n] ⊆ .pc :: o.targets) (value : UInt8) :
    o.Uses (Action.compareWith value) := by
  have hparts : Action.compareWith value = Action.machine >>= fun m =>
      let s := m.registers.sum .ra (0 - value)
      Action.writeAll (RegisterFile.flagWrites s.result s.carryByte) := rfl
  rw [hparts]
  refine .bind .machine fun m => .writeAll ?_
  rw [RegisterFile.map_fst_flagWrites]
  exact h

/-- The program counter may always move on. -/
theorem advance : o.Uses (Action.increment .pc 1) := by
  refine increment (r := .pc) ?_ 1
  intro r hr
  have heq : r = .pc := List.mem_singleton.mp hr
  rw [heq]
  exact List.mem_cons_self

theorem operand : o.Uses Action.operand :=
  .bind advance fun _ => .bind (.register .pc) fun a => .load a

theorem jumpIf (taken : Bool) : o.Uses (Opcode.jumpIf Action.operand taken) := by
  refine .bind .operand fun target => ?_
  cases taken with
  | true => exact .write List.mem_cons_self (target - 1)
  | false => exact .pure ()

end Uses

/-- Every operation keeps to its parts. -/
theorem uses_run (o : Opcode) : o.Uses o.run := by
  cases o with
  | inc => exact .increment (by decide) 1
  | dec => exact .decrement (by decide) 1
  | addi => exact .bind .operand fun v => .increment (by decide) v
  | subi => exact .bind .operand fun v => .decrement (by decide) v
  | comparei => exact .bind .operand fun v => .compareWith (by decide) v
  | movei => exact .bind .operand fun v => .write (by decide) v
  | add => exact .bind .operand fun v => .bind (.load v) fun w => .increment (by decide) w
  | sub => exact .bind .operand fun v => .bind (.load v) fun w => .decrement (by decide) w
  | compare => exact .bind .operand fun v => .bind (.load v) fun w => .compareWith (by decide) w
  | load => exact .bind .operand fun v => .bind (.load v) fun w => .write (by decide) w
  | store => exact .bind .operand fun v => .bind (.register .ra) fun w => .store rfl v w
  | jump => exact .jumpIf true
  | jumpLess => exact .bind .machine fun m => .jumpIf (m.registers.flag .n)
  | jumpGreater =>
    exact .bind .machine fun m => .jumpIf (!m.registers.flag .n && !m.registers.flag .z)
  | jumpEqual => exact .bind .machine fun m => .jumpIf (m.registers.z == 1)
  | call =>
    exact .bind (.register .pc) fun pc =>
      .bind (.write (by decide) (pc + 1)) fun _ => .jumpIf true
  | ret => exact .bind (.register .ret) fun a => .write (by decide) a
  | push =>
    exact .bind (.register .sp) fun s => .bind (.register .ra) fun a =>
      .bind (.store rfl s a) fun _ => .decrement (by decide) 1
  | pop =>
    refine .bind .machine fun m => ?_
    split
    · exact .bind (.increment (by decide) 1) fun _ =>
        .bind (.register .sp) fun s => .store rfl s 0
    · exact .pure ()
  | input =>
    refine .bind .operand fun port => ?_
    split
    · exact .bind (.sleep (.inl rfl) none) fun _ => .requestInput rfl
    · exact .pure ()
  | output =>
    refine .bind .operand fun port => ?_
    split
    · exact .bind (.register .ra) fun a => .putOut rfl a
    · exact .pure ()
  | sleep =>
    exact .bind .operand fun units => .bind .machine fun m => .sleep (.inr rfl) _
  | random => exact .bind (.randomByte rfl) fun v => .write (by decide) v
  | stop => exact .pure ()

/-- So does what follows an operation. -/
theorem uses_complete (o : Opcode) : o.Uses (Machine.complete o o.run) := by
  refine .bind o.uses_run fun _ => ?_
  cases hcontrol : o.control with
  | proceed => exact .advance
  | halt =>
    have hstop : o = .stop := by
      cases o <;> first | rfl | cases hcontrol
    exact .halt hstop

/-- A machine after an operation, which has changed nothing beyond its parts. -/
structure Confines (o : Opcode) (m m' : Machine) : Prop where
  /-- Registers that are no targets keep their values. -/
  register : ∀ r ∉ .pc :: o.targets, m'.registers.get r = m.registers.get r
  /-- Memory changes only under operations that write to it. -/
  memory : o.stores = false → m'.memory = m.memory
  /-- The number that was last put out changes only with output. -/
  latch : o ≠ .output → m'.latch = m.latch
  /-- Random bytes are used up only by drawing them. -/
  generator : o ≠ .random → m'.generator = m.generator
  /-- The run state changes only with a suspension and at the end of the program. -/
  scheduler : o ≠ .input → o ≠ .sleep → o ≠ .stop → m'.scheduler = m.scheduler

namespace Confines

variable {o : Opcode} {m m' m'' : Machine}

theorem refl (o : Opcode) (m : Machine) : o.Confines m m :=
  ⟨fun _ _ => rfl, fun _ => rfl, fun _ => rfl, fun _ => rfl, fun _ _ _ => rfl⟩

theorem trans (h : o.Confines m m') (h' : o.Confines m' m'') : o.Confines m m'' where
  register r hr := (h'.register r hr).trans (h.register r hr)
  memory hstores := (h'.memory hstores).trans (h.memory hstores)
  latch hne := (h'.latch hne).trans (h.latch hne)
  generator hne := (h'.generator hne).trans (h.generator hne)
  scheduler hinput hsleep hstop :=
    (h'.scheduler hinput hsleep hstop).trans (h.scheduler hinput hsleep hstop)

/-- An operation that may change the run state may change it to anything. -/
theorem of_scheduler (h : o = .input ∨ o = .sleep ∨ o = .stop) (m : Machine) (s : Scheduler) :
    o.Confines m { m with scheduler := s } := by
  refine ⟨fun _ _ => rfl, fun _ => rfl, fun _ => rfl, fun _ => rfl, ?_⟩
  intro hinput hsleep hstop
  rcases h with heq | heq | heq
  · exact absurd heq hinput
  · exact absurd heq hsleep
  · exact absurd heq hstop

end Confines

open ByteMachine.Action (Meets)

/-- What an operation is put together of changes nothing beyond, whatever comes of it. -/
theorem Uses.confines {o : Opcode} {α : Type} {x : Action α} (h : o.Uses x) :
    Meets (fun m m' _ => o.Confines m m') x := by
  induction h with
  | pure a => exact fun m => .refl o m
  | bind hx hf ihx ihf =>
    exact ihx.bind ihf (fun m m' _ hfirst => hfirst) fun m m' m'' _ _ hfirst hrest =>
      hfirst.trans hrest
  | machine => exact fun m => .refl o m
  | register r => exact fun m => .refl o m
  | load address =>
    intro m
    unfold Action.load
    split <;> exact .refl o m
  | writeAll hws =>
    intro m
    refine ⟨?_, fun _ => rfl, fun _ => rfl, fun _ => rfl, fun _ _ _ => rfl⟩
    intro r hr
    exact RegisterFile.get_write_of_not_mem fun hmem => hr (hws hmem)
  | store hstores address value =>
    intro m
    unfold Action.store
    split
    · refine ⟨fun _ _ => rfl, ?_, fun _ => rfl, fun _ => rfl, fun _ _ _ => rfl⟩
      intro hreads
      rw [hstores] at hreads
      cases hreads
    · exact .refl o m
  | putOut houtput value =>
    exact fun m => ⟨fun _ _ => rfl, fun _ => rfl, fun hne => absurd houtput hne, fun _ => rfl,
      fun _ _ _ => rfl⟩
  | sleep hsuspends timeout =>
    intro m
    unfold Action.sleep
    split
    · exact .of_scheduler (hsuspends.imp_right .inl) m _
    · exact .refl o m
  | requestInput hinput => exact fun m => .of_scheduler (.inl hinput) m _
  | randomByte hrandom =>
    exact fun m => ⟨fun _ _ => rfl, fun _ => rfl, fun _ => rfl, fun hne => absurd hrandom hne,
      fun _ _ _ => rfl⟩
  | halt hstop => exact fun m => .of_scheduler (.inr (.inr hstop)) m _

/-- What an operation is put together of fails only for want of a cell. -/
theorem Uses.memory_of_fault {o : Opcode} {α : Type} {x : Action α} (h : o.Uses x) {m : Machine}
    {fault : Fault} (hfault : (x m).outcome = .error (.fault fault)) :
    ∃ e, fault = .memory e := by
  induction h generalizing m with
  | bind hx hf ihx ihf =>
    rw [Action.bind_apply] at hfault
    split at hfault
    · exact ihf _ hfault
    · rename_i hcut
      cases hfault
      exact ihx (by rw [hcut])
  | load address =>
    unfold Action.load at hfault
    split at hfault
    · cases hfault
    · cases hfault
      exact ⟨_, rfl⟩
  | store hstores address value =>
    unfold Action.store at hfault
    split at hfault
    · cases hfault
    · cases hfault
      exact ⟨_, rfl⟩
  | sleep hsuspends timeout =>
    unfold Action.sleep at hfault
    split at hfault <;> cases hfault
  | pure | machine | register | writeAll | putOut | requestInput | randomByte | halt =>
    cases hfault

end Opcode

end ByteMachine
