import ByteMachine.Word.Adder
import ByteMachine.Word.Signed

/-!
# The register file

Seven bytes: the accumulator, the program counter, the stack pointer, the
return register and three flags. Arithmetic is described by the list of writes
it makes, in order, so that whoever applies them can also announce them.
-/

namespace ByteMachine

/-- The seven slots of the register file. -/
inductive Register where
  /-- Accumulator, the only register that arithmetic instructions target. -/
  | ra
  /-- Program counter. -/
  | pc
  /-- Stack pointer, which grows downwards from the top of memory. -/
  | sp
  /-- The address just before the one that a return leads to. -/
  | ret
  /-- Zero flag. -/
  | z
  /-- Carry flag. -/
  | c
  /-- Negative flag. -/
  | n
  deriving DecidableEq, Repr

namespace Register

/-- All slots, in the order in which they are listed and announced. -/
def all : List Register := [ra, pc, sp, ret, z, c, n]

/-- The upper-case name of a slot. -/
def name : Register → String
  | ra => "RA"
  | pc => "PC"
  | sp => "SP"
  | ret => "RET"
  | z => "Z"
  | c => "C"
  | n => "N"

/-- Whether a slot is one of the three flags. -/
def isFlag : Register → Bool
  | z | c | n => true
  | _ => false

end Register

/-- The values of the seven slots. -/
@[ext]
structure RegisterFile where
  /-- Accumulator. -/
  ra : UInt8 := 0
  /-- Program counter. -/
  pc : UInt8 := 0
  /-- Stack pointer. -/
  sp : UInt8 := 0
  /-- Return register. -/
  ret : UInt8 := 0
  /-- Zero flag. -/
  z : UInt8 := 0
  /-- Carry flag. -/
  c : UInt8 := 0
  /-- Negative flag. -/
  n : UInt8 := 0
  deriving DecidableEq, Repr

namespace RegisterFile

/-- Every slot at zero. -/
def zero : RegisterFile := {}

/-- The value of a slot. -/
def get (f : RegisterFile) : Register → UInt8
  | .ra => f.ra
  | .pc => f.pc
  | .sp => f.sp
  | .ret => f.ret
  | .z => f.z
  | .c => f.c
  | .n => f.n

/-- The file with one slot replaced. -/
def set (f : RegisterFile) (r : Register) (value : UInt8) : RegisterFile :=
  match r with
  | .ra => { f with ra := value }
  | .pc => { f with pc := value }
  | .sp => { f with sp := value }
  | .ret => { f with ret := value }
  | .z => { f with z := value }
  | .c => { f with c := value }
  | .n => { f with n := value }

/-- Whether a flag is raised. -/
def flag (f : RegisterFile) (r : Register) : Bool := f.get r != 0

/-- The slots with their values, in listing order. -/
def toList (f : RegisterFile) : List (Register × UInt8) := Register.all.map fun r => (r, f.get r)

/-- Applies writes from left to right. -/
def write (f : RegisterFile) (writes : List (Register × UInt8)) : RegisterFile :=
  writes.foldl (fun f w => f.set w.1 w.2) f

@[simp]
theorem get_set_self (f : RegisterFile) (r : Register) (value : UInt8) :
    (f.set r value).get r = value := by
  cases r <;> rfl

theorem get_set_of_ne (f : RegisterFile) {r s : Register} (h : s ≠ r) (value : UInt8) :
    (f.set r value).get s = f.get s := by
  cases r <;> cases s <;> first | rfl | exact absurd rfl h

@[simp]
theorem write_nil (f : RegisterFile) : f.write [] = f := rfl

@[simp]
theorem write_cons (f : RegisterFile) (w : Register × UInt8) (ws : List (Register × UInt8)) :
    f.write (w :: ws) = (f.set w.1 w.2).write ws := rfl

/-- The writes that show a result in the flags: zero, carry, negative. The result
need not have been stored anywhere. -/
def flagWrites (result : UInt32) (carry : UInt8) : List (Register × UInt8) :=
  [(.z, if result &&& 0xFF = 0 then 1 else 0), (.c, carry),
    (.n, if Word.isNegative result 8 then 1 else 0)]

/-- The sum of a slot and an amount, at eight bits. -/
def sum (f : RegisterFile) (r : Register) (amount : UInt8) : Word.Sum :=
  Word.addWithCarry (f.get r).toUInt32 amount.toUInt32 8

/-- The writes that add an amount to a slot. Only a sum in the accumulator shows in
the flags. -/
def additionWrites (f : RegisterFile) (r : Register) (amount : UInt8) : List (Register × UInt8) :=
  let s := f.sum r amount
  (r, s.result.toUInt8) :: if r = .ra then flagWrites s.result s.carryByte else []

/-- The file after adding an amount to a slot. -/
def increment (f : RegisterFile) (r : Register) (amount : UInt8) : RegisterFile :=
  f.write (f.additionWrites r amount)

/-- The file after taking an amount from a slot, which adds its two's complement. -/
def decrement (f : RegisterFile) (r : Register) (amount : UInt8) : RegisterFile :=
  f.increment r (0 - amount)

end RegisterFile

end ByteMachine
