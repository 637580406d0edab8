import ByteMachine.Text.HexByte

/-!
# Memory

Between one and 256 bytes, with a pointer to the end of the assembled program.
While a program is assembled, bytes are appended at the pointer and rewritten
below it; while it runs, bytes are read and written at byte addresses, which may
lie outside a memory of fewer than 256 bytes.
-/

namespace ByteMachine

/-- The largest memory a byte can address. -/
def maxMemorySize : Nat := 256

/-- Why a memory operation was refused. -/
inductive MemoryError where
  /-- The address does not exist. -/
  | outOfBounds (address size : Nat)
  /-- There is no room behind the pointer. -/
  | full (size : Nat)
  /-- No memory has this size. -/
  | invalidSize (size : Nat)
  deriving DecidableEq, Repr

/-- The text that reports a memory error. -/
def MemoryError.message : MemoryError → String
  | outOfBounds address size =>
    "address 0x" ++ Text.showHex address ++ " is outside memory of " ++ toString size ++ " bytes"
  | full size => "memory of " ++ toString size ++ " bytes is full"
  | invalidSize size =>
    "memory size must be between 1 and " ++ toString maxMemorySize ++ ", got " ++ toString size

/-- The cells of a machine and the end of its program. -/
@[ext]
structure Memory where
  /-- The bytes, from address zero. -/
  cells : List UInt8
  /-- How many bytes the assembled program takes. -/
  pointer : Nat
  /-- There is at least one cell. -/
  cells_pos : 0 < cells.length
  /-- A byte addresses every cell. -/
  cells_le : cells.length ≤ maxMemorySize
  /-- The program lies inside. -/
  pointer_le : pointer ≤ cells.length
  deriving DecidableEq, Repr

namespace Memory

/-- The number of cells. -/
def size (m : Memory) : Nat := m.cells.length

/-- A memory of zeros. -/
def zeros (size : Nat) (pos : 0 < size) (le : size ≤ maxMemorySize) : Memory where
  cells := List.replicate size 0
  pointer := 0
  cells_pos := by simpa using pos
  cells_le := by simpa using le
  pointer_le := Nat.zero_le _

/-- A memory of zeros, if it may have this size. -/
def ofSize (size : Nat) : Except MemoryError Memory :=
  if h : 0 < size ∧ size ≤ maxMemorySize then .ok (zeros size h.1 h.2)
  else .error (.invalidSize size)

/-- The largest memory, all zeros. -/
def largest : Memory := zeros maxMemorySize (by decide) (Nat.le_refl _)

/-- Every cell zero and the pointer back at the start. -/
def clear (m : Memory) : Memory := zeros m.size m.cells_pos m.cells_le

/-- The assembled program. -/
def program (m : Memory) : List UInt8 := m.cells.take m.pointer

/-- The memory with one cell replaced, whether or not it exists. -/
def setCell (m : Memory) (address : Nat) (value : UInt8) : Memory where
  cells := m.cells.set address value
  pointer := m.pointer
  cells_pos := by simpa using m.cells_pos
  cells_le := by simpa using m.cells_le
  pointer_le := by simpa using m.pointer_le

/-- Appends a byte to the program. -/
def append (m : Memory) (byte : UInt8) : Except MemoryError Memory :=
  if h : m.pointer < m.size then
    .ok { m.setCell m.pointer byte with
      pointer := m.pointer + 1
      pointer_le := by simpa [setCell, size] using Nat.succ_le_of_lt h }
  else .error (.full m.size)

/-- Rewrites a byte of the program. -/
def patch (m : Memory) (address : Nat) (value : UInt8) : Except MemoryError Memory :=
  if address < m.pointer then .ok (m.setCell address value)
  else .error (.outOfBounds address m.size)

/-- The byte at an address. -/
def load (m : Memory) (address : UInt8) : Except MemoryError UInt8 :=
  match m.cells[address.toNat]? with
  | some value => .ok value
  | none => .error (.outOfBounds address.toNat m.size)

/-- Writes a byte at an address. -/
def store (m : Memory) (address value : UInt8) : Except MemoryError Memory :=
  if address.toNat < m.size then .ok (m.setCell address.toNat value)
  else .error (.outOfBounds address.toNat m.size)

@[simp]
theorem size_setCell (m : Memory) (address : Nat) (value : UInt8) :
    (m.setCell address value).size = m.size := by
  simp [setCell, size]

@[simp]
theorem size_clear (m : Memory) : m.clear.size = m.size := by
  simp [clear, zeros, size]

theorem load_eq_ok_iff {m : Memory} {address value : UInt8} :
    m.load address = .ok value ↔ m.cells[address.toNat]? = some value := by
  unfold load
  split <;> simp_all

theorem load_of_size_le {m : Memory} {address : UInt8} (h : m.size ≤ address.toNat) :
    m.load address = .error (.outOfBounds address.toNat m.size) := by
  simp [load, List.getElem?_eq_none h]

/-- A byte that has been stored is the one that is loaded. -/
theorem load_store_self {m n : Memory} {address value : UInt8}
    (h : m.store address value = .ok n) : n.load address = .ok value := by
  unfold store at h
  split at h
  · rename_i hlt
    cases h
    rw [load_eq_ok_iff]
    simp [setCell, List.getElem?_set_self hlt]
  · cases h

/-- Storing a byte leaves all other cells alone. -/
theorem load_store_of_ne {m n : Memory} {address other value : UInt8}
    (h : m.store address value = .ok n) (hne : other ≠ address) :
    n.load other = m.load other := by
  have hcells : address.toNat ≠ other.toNat := fun he => hne (UInt8.toNat_inj.mp he.symm)
  unfold store at h
  split at h
  · cases h
    simp [load, setCell, size, List.getElem?_set_ne hcells]
  · cases h

end Memory

end ByteMachine
