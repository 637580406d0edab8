import Mathlib.Logic.Basic
import ByteMachine.Proofs.Machine.Calculation
import ByteMachine.Proofs.Machine.Suspension

/-!
# Branches behind a comparison

A comparison takes a byte from the accumulator and keeps nothing but the flags of the
difference; the jump behind it looks at these. The negative flag is the highest bit of a
difference that has been taken modulo 256, and nothing says that there was an overflow. So the
jumps go by the order of signed numbers just as long as the signed difference is itself one
that a byte can hold. Where it is not, less is taken for greater and greater for less.
-/

namespace ByteMachine

/-- Whether the difference of the numbers behind two bytes is a number behind a byte. -/
def Word.DifferenceFits (left right : UInt8) : Prop :=
  -128 ≤ signedByte left - signedByte right ∧ signedByte left - signedByte right ≤ 127

namespace Opcode

open Word (signedByte DifferenceFits)

/-- Whether a jump is taken behind a comparison of these bytes: one for equal bytes, one where
either the first number is less or their difference does not fit, but not both, and one for
all that is left. -/
def Takes (o : Opcode) (left right : UInt8) : Prop :=
  match o with
  | jumpEqual => left = right
  | jumpLess => Xor (signedByte left < signedByte right) (¬DifferenceFits left right)
  | jumpGreater => ¬left = right ∧
      ¬Xor (signedByte left < signedByte right) (¬DifferenceFits left right)
  | _ => False

/-- Whether numbers are in the order that a jump is named for. -/
def Holds (o : Opcode) (left right : Int) : Prop :=
  match o with
  | jumpEqual => left = right
  | jumpLess => left < right
  | jumpGreater => right < left
  | _ => False

variable (left right : UInt8)

/-- The number behind a difference modulo 256 is at least 128 if the first one is less, unless
the difference does not fit. -/
theorem negative_difference_iff : 128 ≤ (Calculation.difference left right).result ↔
    Xor (signedByte left < signedByte right) (¬DifferenceFits left right) := by
  have hleft := left.toNat_lt
  have hright := right.toNat_lt
  rw [Calculation.result, xor_def, DifferenceFits, Word.signedByte_eq_ite, Word.signedByte_eq_ite]
  split <;> split <;> omega

/-- A difference modulo 256 is zero only between equal bytes. -/
theorem zero_difference_iff : (Calculation.difference left right).result = 0 ↔ left = right := by
  have hleft := left.toNat_lt
  have hright := right.toNat_lt
  rw [Calculation.result, ← UInt8.toNat_inj]
  omega

/-- The flags of a difference decide about the jumps. -/
theorem jumps_iff_takes {o : Opcode} (ho : o ∈ conditionals) {f : RegisterFile}
    (h : f.flags = (Calculation.difference left right).flags) :
    o.jumps f = true ↔ o.Takes left right := by
  have hzero : f.z = if (Calculation.difference left right).result = 0 then 1 else 0 :=
    congrArg Flags.zero h
  have hnegative : f.n = if 128 ≤ (Calculation.difference left right).result then 1 else 0 :=
    congrArg Flags.negative h
  have hequal : (f.z == 1) = true ↔ left = right := by
    rw [hzero, ← zero_difference_iff]
    split <;> simp [*]
  have hless : f.flag .n = true ↔
      Xor (signedByte left < signedByte right) (¬DifferenceFits left right) := by
    rw [RegisterFile.flag, RegisterFile.get, hnegative, ← negative_difference_iff]
    split <;> simp [*]
  have hraised : f.flag .z = true ↔ left = right := by
    rw [RegisterFile.flag, RegisterFile.get, hzero, ← zero_difference_iff]
    split <;> simp [*]
  cases o with
  | jumpEqual => exact hequal
  | jumpLess => exact hless
  | jumpGreater =>
    rw [jumps, Bool.and_eq_true, Bool.not_eq_true', Bool.not_eq_true', ← Bool.not_eq_true,
      ← Bool.not_eq_true, hless, hraised, Takes, and_comm]
  | _ => simp [conditionals] at ho

/-- A jump for equal bytes goes by their numbers. -/
theorem takes_jumpEqual_iff : jumpEqual.Takes left right ↔
    jumpEqual.Holds (signedByte left) (signedByte right) := by
  have hleft := left.toNat_lt
  have hright := right.toNat_lt
  rw [Takes, Holds, ← UInt8.toNat_inj, Word.signedByte_eq_ite, Word.signedByte_eq_ite]
  split <;> split <;> omega

/-- Each of the jumps for unequal bytes goes by the order of their numbers exactly if the
difference of these fits. -/
theorem takes_iff_holds_iff {o : Opcode} (ho : o ∈ [jumpLess, jumpGreater]) :
    (o.Takes left right ↔ o.Holds (signedByte left) (signedByte right)) ↔
      DifferenceFits left right := by
  have hequal := takes_jumpEqual_iff left right
  rw [Takes, Holds] at hequal
  cases o with
  | jumpLess =>
    rw [Takes, Holds, xor_def, DifferenceFits]
    omega
  | jumpGreater =>
    rw [Takes, Holds, xor_def, hequal, DifferenceFits]
    omega
  | _ => simp at ho

end Opcode

/-- A comparison that can be made has an operand. -/
theorem Opcode.exists_operand_of_compares {o : Opcode} {m : Machine} {k : Calculation}
    (ho : o.compares = true) (hk : o.calculation? m = some k) :
    ∃ value, m.operand? = some value := by
  cases o with
  | comparei =>
    obtain ⟨value, hvalue, -⟩ := Option.map_eq_some_iff.mp hk
    exact ⟨value, hvalue⟩
  | compare =>
    obtain ⟨cell, hcell, -⟩ := Option.map_eq_some_iff.mp hk
    obtain ⟨value, hvalue, -⟩ := Option.bind_eq_some_iff.mp hcell
    exact ⟨value, hvalue⟩
  | _ => cases ho

namespace Machine

open ByteMachine.Action (given)

variable {m : Machine} {o : Opcode} {k : Calculation} {address : UInt8}

/-- A machine with other registers. -/
def withRegisters (m : Machine) (f : RegisterFile) : Machine := { m with registers := f }

/-- A comparison that goes through leaves the program counter behind its operand. -/
theorem pc_of_comparison (hdeed : m.deed = .execute address o) (ho : o.compares = true)
    (hk : o.calculation? m = some k) (hcomplete : (complete o o.run m).outcome = .ok ()) :
    (complete o o.run m).machine.registers.pc = m.registers.pc + 2 := by
  obtain ⟨value, hvalue⟩ := Opcode.exists_operand_of_compares ho hk
  have hcode := (load_of_deed hdeed).2
  have hload := Memory.toOption_load_eq_some_iff.mp hvalue
  have hgiven : complete o o.run m = complete o (o.runWith (given value)) m :=
    (cycle_eq_complete hcode).symm.trans (cycle_eq_complete_given hcode fun _ => hload)
  rw [hgiven] at hcomplete ⊢
  rw [pc_complete hcomplete]
  cases o with
  | comparei | compare => rfl
  | _ => cases ho

/-- A comparison that can be made goes through. It leaves its flags, moves the program counter
behind its operand, and does nothing else. -/
theorem step_of_comparison (hdeed : m.deed = .execute address o) (ho : o.compares = true)
    (hk : o.calculation? m = some k) :
    ∃ f ns, m.step = some ⟨.ok (), m.withRegisters f, ns⟩ ∧ f.flags = k.flags ∧
      f.pc = m.registers.pc + 2 ∧
      ∀ s : Register, s.isFlag = false → s ≠ .pc → f.get s = m.registers.get s := by
  obtain ⟨m', ns, hstep, hleft⟩ := step_of_calculation hdeed hk
  obtain ⟨hcomplete, hnext⟩ := complete_of_step hdeed hstep rfl
  have hpc := pc_of_comparison hdeed ho hk hcomplete
  have hconfined := o.uses_complete.confines m
  rw [← hnext] at hpc hconfined
  have htargets : o.stores = false ∧ o.targets = [.z, .c, .n] := by
    cases o with
    | comparei | compare => exact ⟨rfl, rfl⟩
    | _ => cases ho
  have hother (o' : Opcode) (ho' : o'.compares = false) : o ≠ o' := by
    rintro rfl
    rw [ho] at ho'
    cases ho'
  have hsame : m' = m.withRegisters m'.registers := by
    have hmemory := hconfined.memory htargets.1
    have hlatch := hconfined.latch (hother .output rfl)
    have hgenerator := hconfined.generator (hother .random rfl)
    have hscheduler :=
      hconfined.scheduler (hother .input rfl) (hother .sleep rfl) (hother .stop rfl)
    obtain ⟨memory, f, latch, scheduler, generator⟩ := m'
    cases hmemory
    cases hlatch
    cases hgenerator
    cases hscheduler
    rfl
  refine ⟨m'.registers, ns, ?_, hleft.flags, hpc, ?_⟩
  · rw [hstep, ← hsame]
  · intro s hflag hs
    apply hconfined.register
    rw [htargets.2]
    cases s <;> first | exact absurd rfl hs | decide | cases hflag

end Machine

namespace Computer

variable {c : Computer} {compared target : UInt8} {o : Opcode}

/-- A step of a computer is one of its machine. -/
theorem step_of_machine {answer : Except Fault Unit} {m : Machine} {ns : List Notice}
    (h : c.machine.step = some ⟨answer, m, ns⟩) :
    c.step = some ⟨answer, { c with machine := m }, ns⟩ := by
  rw [step, h]
  rfl

/-- A running computer in front of a comparison of its accumulator with this byte, behind which
there is a jump that the flags decide about. The addresses are taken modulo 256. -/
structure BeforeBranch (c : Computer) (compared : UInt8) (o : Opcode) (target : UInt8) :
    Prop where
  /-- The program runs. -/
  running : c.state = .running
  /-- The byte is given with the comparison, or in a cell that it names. -/
  comparison :
    (c.machine.memory.load c.machine.registers.pc = .ok Opcode.comparei.code ∧
      c.machine.memory.load (c.machine.registers.pc + 1) = .ok compared) ∨
    (c.machine.memory.load c.machine.registers.pc = .ok Opcode.compare.code ∧
      ∃ address, c.machine.memory.load (c.machine.registers.pc + 1) = .ok address ∧
        c.machine.memory.load address = .ok compared)
  /-- The jump is one that the flags decide about. -/
  conditional : o ∈ Opcode.conditionals
  /-- Its code is two bytes behind that of the comparison. -/
  code : c.machine.memory.load (c.machine.registers.pc + 2) = .ok o.code
  /-- Its operand is there. -/
  operand : c.machine.memory.load (c.machine.registers.pc + 3) = .ok target

/-- The comparison is under the program counter, and can be made. -/
theorem BeforeBranch.exists_comparison (h : c.BeforeBranch compared o target) :
    ∃ o', o'.compares = true ∧ c.machine.deed = .execute c.machine.registers.pc o' ∧
      o'.calculation? c.machine = some (.difference c.machine.registers.ra compared) := by
  rcases h.comparison with ⟨hcode, hvalue⟩ | ⟨hcode, address, haddress, hvalue⟩
  · refine ⟨.comparei, rfl, Machine.deed_of_load h.running hcode, ?_⟩
    rw [Opcode.calculation?, Machine.operand?_of_ok hvalue]
    rfl
  · have hcell := Memory.toOption_load_eq_some_iff.mpr hvalue
    refine ⟨.compare, rfl, Machine.deed_of_load h.running hcode, ?_⟩
    rw [Opcode.calculation?, Machine.indirect?, Machine.operand?_of_ok haddress,
      Option.bind_some, hcell]
    rfl

/-- The jump is executed in the second step, with the flags of the comparison. -/
theorem BeforeBranch.steps (h : c.BeforeBranch compared o target) :
    ∃ f r s, c.step = some r ∧ r.answer = .ok () ∧ r.next.step = some s ∧ s.answer = .ok () ∧
      f.flags = (Calculation.difference c.machine.registers.ra compared).flags ∧
      (∀ q : Register, q.isFlag = false → q ≠ .pc → f.get q = c.machine.registers.get q) ∧
      s.next.machine = (c.machine.withRegisters f).standingAt
        (if o.jumps f then target else c.machine.registers.pc + 4) := by
  obtain ⟨o', ho', hdeed, hk⟩ := h.exists_comparison
  obtain ⟨f, ns, hstep, hflags, hpc, hkept⟩ := Machine.step_of_comparison hdeed ho' hk
  have hbehind : f.pc + 1 = c.machine.registers.pc + 3 := by
    rw [hpc]
    exact UInt8.add_assoc _ 2 1
  have hnext : f.pc + 2 = c.machine.registers.pc + 4 := by
    rw [hpc]
    exact UInt8.add_assoc _ 2 2
  have hcode := h.code
  have hoperand := h.operand
  rw [← hpc] at hcode
  rw [← hbehind] at hoperand
  -- nothing but registers has changed between the two steps
  have hdeed' : (c.machine.withRegisters f).deed = .execute f.pc o :=
    Machine.deed_of_load h.running hcode
  obtain ⟨ns', hstep'⟩ :=
    Machine.step_of_conditional h.conditional hdeed' (Machine.operand?_of_ok hoperand)
  have hsecond : step { c with machine := c.machine.withRegisters f } = some _ :=
    step_of_machine hstep'
  rw [← hnext]
  exact ⟨f, _, _, step_of_machine hstep, rfl, hsecond, rfl, hflags, hkept, rfl⟩

/-- A computer that has been through a comparison with this byte and through the jump behind it,
compared with what it was in front of them. -/
structure Branched (c : Computer) (compared : UInt8) (o : Opcode) (target : UInt8)
    (later : Computer) : Prop where
  /-- If the jump is taken, the program is at its target. -/
  taken : o.Takes c.machine.registers.ra compared → later.machine.registers.pc = target
  /-- Otherwise it is behind the jump. -/
  passed : ¬o.Takes c.machine.registers.ra compared →
    later.machine.registers.pc = c.machine.registers.pc + 4
  /-- Of the registers, only the flags and the program counter have changed. -/
  registers : ∀ q ∈ [Register.ra, .sp, .ret],
    later.machine.registers.get q = c.machine.registers.get q
  /-- Memory has not changed. -/
  memory : later.machine.memory = c.machine.memory
  /-- Nothing has been put out. -/
  latch : later.machine.latch = c.machine.latch
  /-- The program still runs. -/
  running : later.state = .running

/-- A comparison and the jump behind it go through in two steps, which change nothing but flags
and the program counter. The jump is taken if the bytes are as it takes them to be, and
otherwise the program goes on behind it. For less and for greater this is the order of the
signed numbers exactly if their difference is one as well; the jump for equal bytes never
errs. -/
theorem compare_then_branch (h : c.BeforeBranch compared o target) :
    (∃ r s, c.step = some r ∧ r.answer = .ok () ∧ r.next.step = some s ∧ s.answer = .ok () ∧
      c.Branched compared o target s.next) ∧
    ∀ left right,
      (∀ o' ∈ [Opcode.jumpLess, .jumpGreater],
        (o'.Takes left right ↔ o'.Holds (Word.signedByte left) (Word.signedByte right)) ↔
          Word.DifferenceFits left right) ∧
      (Opcode.jumpEqual.Takes left right ↔
        Opcode.jumpEqual.Holds (Word.signedByte left) (Word.signedByte right)) := by
  refine ⟨?_, fun left right => ⟨fun o' ho' => Opcode.takes_iff_holds_iff left right ho',
    Opcode.takes_jumpEqual_iff left right⟩⟩
  obtain ⟨f, r, s, hr, hok, hs, hok', hflags, hkept, hmachine⟩ := h.steps
  have htaken := Opcode.jumps_iff_takes _ _ h.conditional hflags
  have hpc : s.next.machine.registers.pc =
      if o.jumps f then target else c.machine.registers.pc + 4 := by
    rw [hmachine]
    rfl
  refine ⟨r, s, hr, hok, hs, hok', ?_⟩
  constructor
  case taken =>
    intro htakes
    rw [hpc, if_pos (htaken.mpr htakes)]
  case passed =>
    intro htakes
    rw [hpc, if_neg fun hjumps => htakes (htaken.mp hjumps)]
  case registers =>
    intro q hq
    rw [hmachine]
    simp only [List.mem_cons, List.not_mem_nil, or_false] at hq
    rcases hq with rfl | rfl | rfl
    · exact hkept .ra rfl nofun
    · exact hkept .sp rfl nofun
    · exact hkept .ret rfl nofun
  case memory =>
    rw [hmachine]
    rfl
  case latch =>
    rw [hmachine]
    rfl
  case running =>
    rw [state, hmachine]
    exact h.running

/-- A computer that is about to compare 127 with -128 at the end of its memory. The jump for
less is at the beginning. -/
def straddling : Computer where
  machine := {
    memory := ((((Memory.zeros 256 (by decide) (by decide)).setCell 254 9).setCell 255 0x80).setCell
      0 12).setCell 1 0x40
    registers := { ra := 0x7F, pc := 254 }
    scheduler := { state := .running, sleepUnit := 0 }
    generator := { key := 0 } }
  settings := {}

/-- The greater number is taken for the less one: the difference would be 255. -/
theorem straddling_branches : ∃ r s, straddling.step = some r ∧ r.next.step = some s ∧
    s.next.machine.registers.pc = 0x40 ∧ s.next.machine.registers.ra = 0x7F ∧
    ¬Opcode.jumpLess.Holds (Word.signedByte 0x7F) (Word.signedByte 0x80) := by
  have h : straddling.BeforeBranch 0x80 .jumpLess 0x40 :=
    ⟨rfl, .inl ⟨rfl, rfl⟩, List.mem_cons_self, rfl, rfl⟩
  obtain ⟨⟨r, s, hr, -, hs, -, hbranched⟩, hsigned⟩ := compare_then_branch h
  have hnumbers : Word.signedByte 0x7F = 127 ∧ Word.signedByte 0x80 = -128 := ⟨rfl, rfl⟩
  have hwrong : ¬Opcode.jumpLess.Holds (Word.signedByte 0x7F) (Word.signedByte 0x80) := by
    rw [hnumbers.1, hnumbers.2, Opcode.Holds]
    decide
  have htakes : Opcode.jumpLess.Takes 0x7F 0x80 := by
    by_contra hpassed
    have hfits := ((hsigned 0x7F 0x80).1 .jumpLess List.mem_cons_self).mp
      (iff_of_false hpassed hwrong)
    rw [Word.DifferenceFits, hnumbers.1, hnumbers.2] at hfits
    omega
  exact ⟨r, s, hr, hs, hbranched.taken htakes, hbranched.registers .ra List.mem_cons_self, hwrong⟩

end Computer

end ByteMachine
