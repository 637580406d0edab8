import ByteMachine.Machine.Execute
import ByteMachine.Proofs.Register

/-!
# What actions leave alone

An instruction is put together from a few actions, and each of them changes little. A
view of the machine that every part of an action leaves alone is left alone by the whole,
however the action ends. What a single action comes to is told by one equation for each of
the ways in which it can end.
-/

namespace ByteMachine.Action

variable {α β γ δ : Type}

/-- An action that relates the machine before it, the machine after it and its notices,
whatever its outcome. -/
def Meets (P : Machine → Machine → List Notice → Prop) (x : Action α) : Prop :=
  ∀ m, P m (x m).machine (x m).notices

/-- An action that goes on with another meets what both together come to. Where the first
one is cut short, what it has done by itself has to do. -/
theorem Meets.bind {P Q R : Machine → Machine → List Notice → Prop} {x : Action α}
    {f : α → Action β} (hx : Meets P x) (hf : ∀ a, Meets Q (f a))
    (hcut : ∀ m m' ns, P m m' ns → R m m' ns)
    (hgo : ∀ m m' m'' ns ns', P m m' ns → Q m' m'' ns' → R m m'' (ns ++ ns')) :
    Meets R (x >>= f) := by
  intro m
  have hfirst := hx m
  rw [bind_apply]
  cases h : x m with
  | mk outcome machine notices =>
    rw [h] at hfirst
    cases outcome with
    | ok a => exact hgo m machine _ notices _ hfirst (hf a machine)
    | error i => exact hcut m machine notices hfirst

/-- An action after which a view of the machine is as before, whatever its outcome. -/
def Keeps (view : Machine → γ) (x : Action α) : Prop :=
  Meets (fun m m' _ => view m' = view m) x

namespace Keeps

variable {view : Machine → γ}

theorem pure (a : α) : Keeps view (pure a : Action α) := by
  intro m
  rfl

theorem bind {x : Action α} {f : α → Action β} (hx : Keeps view x)
    (hf : ∀ a, Keeps view (f a)) : Keeps view (x >>= f) := by
  refine Meets.bind hx hf (fun m m' _ hkept => hkept) ?_
  intro m m' m'' _ _ hfirst hrest
  exact hrest.trans hfirst

/-- What can be seen of a view that is kept is kept. -/
theorem comp {x : Action α} (h : Keeps view x) (g : γ → δ) : Keeps (fun m => g (view m)) x := by
  intro m
  exact congrArg g (h m)

/-- Reading leaves everything alone. -/
theorem machine : Keeps view Action.machine := by
  intro m
  rfl

theorem register (r : Register) : Keeps view (Action.register r) := by
  intro m
  rfl

theorem load (address : UInt8) : Keeps view (Action.load address) := by
  intro m
  unfold Action.load
  split <;> rfl

/-- Slots that are not written are kept. -/
theorem writeAll {ws : List (Register × UInt8)} {s : Register} (h : s ∉ ws.map Prod.fst) :
    Keeps (fun m => m.registers.get s) (writeAll ws) := by
  intro m
  exact RegisterFile.get_write_of_not_mem h

theorem write {r s : Register} (h : s ≠ r) (value : UInt8) :
    Keeps (fun m => m.registers.get s) (write r value) := by
  apply writeAll
  simpa using h

theorem increment {r s : Register} (h : s ≠ r) (hflag : s.isFlag = false) (amount : UInt8) :
    Keeps (fun m => m.registers.get s) (increment r amount) := by
  intro m
  have hwrites := m.registers.not_mem_additionWrites r amount h hflag
  exact writeAll hwrites m

theorem decrement {r s : Register} (h : s ≠ r) (hflag : s.isFlag = false) (amount : UInt8) :
    Keeps (fun m => m.registers.get s) (decrement r amount) :=
  increment h hflag (0 - amount)

theorem compareWith {s : Register} (hflag : s.isFlag = false) (value : UInt8) :
    Keeps (fun m => m.registers.get s) (compareWith value) := by
  intro m
  exact writeAll (RegisterFile.not_mem_flagWrites hflag _ _) m

end Keeps

/-- Adding to any register but the accumulator is one write, which is announced. -/
theorem increment_apply {r : Register} (h : r ≠ .ra) (amount : UInt8) (m : Machine) :
    increment r amount m =
      ⟨.ok (), { m with registers := m.registers.set r (m.registers.get r + amount) },
        [.register r (m.registers.get r + amount)]⟩ := by
  rw [increment, m.registers.additionWrites_of_ne amount h]
  rfl

/-- A byte that memory has at an address is loaded. -/
theorem load_of_ok {address value : UInt8} {m : Machine} (h : m.memory.load address = .ok value) :
    load address m = ⟨.ok value, m, []⟩ := by
  rw [load, h]

/-- Where memory has no byte at an address, there is none to load. -/
theorem load_of_error {address : UInt8} {e : MemoryError} {m : Machine}
    (h : m.memory.load address = .error e) :
    load address m = ⟨.error (.fault (.memory e)), m, []⟩ := by
  rw [load, h]

/-- A byte goes into a cell that exists, which is announced. -/
theorem store_of_lt {address : UInt8} {m : Machine} (h : address.toNat < m.memory.size)
    (value : UInt8) :
    store address value m = ⟨.ok (), { m with memory := m.memory.setCell address.toNat value },
      [.memory (m.memory.setCell address.toNat value)]⟩ := by
  rw [store, Memory.store, if_pos h]

/-- There is no cell to write beyond memory. -/
theorem store_of_size_le {address : UInt8} {m : Machine} (h : m.memory.size ≤ address.toNat)
    (value : UInt8) :
    store address value m =
      ⟨.error (.fault (.memory (.outOfBounds address.toNat m.memory.size))), m, []⟩ := by
  rw [store, Memory.store, if_neg (Nat.not_lt.mpr h)]

/-- An action that goes through is followed by whatever the rest comes to. -/
theorem bind_eq {x : Action α} {f : α → Action β} {m m' m'' : Machine} {a : α}
    {o : Except Interruption β} {ns ns' : List Notice} (h : x m = ⟨.ok a, m', ns⟩)
    (hf : f a m' = ⟨o, m'', ns'⟩) : (x >>= f) m = ⟨o, m'', ns ++ ns'⟩ := by
  rw [bind_ok h, hf]

/-- An action is cut short in some way only if its first part is, or the rest. -/
theorem outcome_bind_ne {i : Interruption} {x : Action α} {f : α → Action β} {m : Machine}
    (hx : (x m).outcome ≠ .error i) (hf : ∀ a m', (f a m').outcome ≠ .error i) :
    ((x >>= f) m).outcome ≠ .error i := by
  rw [bind_apply]
  cases h : x m with
  | mk outcome machine notices =>
    rw [h] at hx
    cases outcome with
    | ok a => exact hf a machine
    | error j => exact fun hj => hx (congrArg _ (Except.error.inj hj))

/-- Actions on memory, on the latch, on the generator and on the run state leave the
registers alone. -/
theorem keeps_registers_store (address value : UInt8) :
    Keeps Machine.registers (store address value) := by
  intro m
  unfold store
  split <;> rfl

theorem keeps_registers_putOut (value : UInt8) : Keeps Machine.registers (putOut value) := by
  intro m
  rfl

theorem keeps_registers_sleep (timeout : Option Nat) :
    Keeps Machine.registers (sleep timeout) := by
  intro m
  unfold sleep
  split <;> rfl

theorem keeps_registers_requestInput : Keeps Machine.registers requestInput := by
  intro m
  rfl

theorem keeps_registers_randomByte : Keeps Machine.registers randomByte := by
  intro m
  rfl

end ByteMachine.Action
