import Mathlib.Data.List.Basic
import ByteMachine.Memory

/-!
# Memory as a sequence of bytes

Appending bytes one after another is the same as laying the whole run down behind the
pointer, as long as there is room for all of it. In a cleared memory that leaves the run
at the front and zeros behind it.
-/

namespace ByteMachine

/-- A chain of two steps succeeds where both do. -/
theorem bind_eq_ok_iff {ε α β : Type} {x : Except ε α} {f : α → Except ε β} {b : β} :
    (x >>= f) = .ok b ↔ ∃ a, x = .ok a ∧ f a = .ok b := by
  cases x with
  | error e => simp [bind, Except.bind]
  | ok a => simp [bind, Except.bind]

namespace Memory

/-- Without its reason, a load comes to the cell at the address. -/
theorem toOption_load (m : Memory) (address : UInt8) :
    (m.load address).toOption = m.cells[address.toNat]? := by
  unfold load
  split
  · rename_i hcell
    exact hcell.symm
  · rename_i hnone
    exact hnone.symm

/-- A byte that can be loaded is in its cell. -/
theorem toOption_load_eq_some_iff {m : Memory} {address value : UInt8} :
    (m.load address).toOption = some value ↔ m.load address = .ok value := by
  rw [toOption_load, load_eq_ok_iff]

/-- Where nothing can be loaded there is no cell. -/
theorem toOption_load_eq_none_iff {m : Memory} {address : UInt8} :
    (m.load address).toOption = none ↔ m.size ≤ address.toNat := by
  rw [toOption_load, List.getElem?_eq_none_iff, size]

/-- A cell that exists can be loaded, even by an address that is a sum of bytes. -/
theorem load_add_eq_ok {m : Memory} {here b : UInt8} {q : Nat}
    (h : m.cells[here.toNat + q]? = some b) : m.load (here + UInt8.ofNat q) = .ok b := by
  have hlt := (List.getElem?_eq_some_iff.mp h).1
  have hsize : m.cells.length ≤ 256 := m.cells_le
  have hsum : (here + UInt8.ofNat q).toNat = here.toNat + q := by
    rw [UInt8.toNat_add, UInt8.toNat_ofNat']
    omega
  rw [load_eq_ok_iff, hsum, h]

/-- Appends bytes one after another. -/
def appendAll (m : Memory) (bytes : List UInt8) : Except MemoryError Memory :=
  bytes.foldlM append m

@[simp]
theorem appendAll_nil (m : Memory) : m.appendAll [] = .ok m := rfl

theorem appendAll_cons (m : Memory) (b : UInt8) (bs : List UInt8) :
    m.appendAll (b :: bs) = m.append b >>= fun n => n.appendAll bs := by
  rw [appendAll, List.foldlM_cons]
  rfl

theorem appendAll_append (m : Memory) (bs cs : List UInt8) :
    m.appendAll (bs ++ cs) = m.appendAll bs >>= fun n => n.appendAll cs := by
  rw [appendAll, List.foldlM_append]
  rfl

/-- A byte goes behind the pointer, if there is a cell. -/
theorem append_eq_ok_iff {m n : Memory} {b : UInt8} :
    m.append b = .ok n ↔
      m.pointer < m.size ∧ n.pointer = m.pointer + 1 ∧ n.cells = m.cells.set m.pointer b := by
  unfold append
  split
  · rename_i h
    rw [Except.ok.injEq, Memory.ext_iff]
    exact ⟨fun ⟨hc, hp⟩ => ⟨h, hp.symm, hc.symm⟩, fun ⟨_, hp, hc⟩ => ⟨hc.symm, hp.symm⟩⟩
  · rename_i h
    simp [h]

/-- A byte can be appended where there is a cell. -/
theorem exists_append {m : Memory} (b : UInt8) (h : m.pointer < m.size) :
    ∃ n, m.append b = .ok n := by
  unfold append
  rw [dif_pos h]
  exact ⟨_, rfl⟩

/-- Without a cell behind the pointer no byte is appended. -/
theorem append_of_full {m : Memory} (b : UInt8) (h : m.size ≤ m.pointer) :
    m.append b = .error (.full m.size) := by
  unfold append
  rw [dif_neg (Nat.not_lt.mpr h)]

/-- A run of bytes goes behind the pointer, if there are cells for all of it. -/
theorem appendAll_eq_ok_iff {m n : Memory} {bs : List UInt8} :
    m.appendAll bs = .ok n ↔
      m.pointer + bs.length ≤ m.size ∧ n.pointer = m.pointer + bs.length ∧
        n.cells = m.cells.take m.pointer ++ bs ++ m.cells.drop (m.pointer + bs.length) := by
  induction bs generalizing m with
  | nil =>
    have hle : m.pointer ≤ m.size := m.pointer_le
    rw [appendAll_nil, Except.ok.injEq, Memory.ext_iff]
    simp only [List.length_nil, Nat.add_zero, List.append_nil, List.take_append_drop]
    exact ⟨fun ⟨hc, hp⟩ => ⟨hle, hp.symm, hc.symm⟩, fun ⟨_, hp, hc⟩ => ⟨hc.symm, hp.symm⟩⟩
  | cons b bs ih =>
    rw [appendAll_cons, bind_eq_ok_iff]
    have hstep (k : Memory) (hp : k.pointer = m.pointer + 1)
        (hc : k.cells = m.cells.set m.pointer b) (hlt : m.pointer < m.cells.length) :
        k.cells.take k.pointer ++ bs ++ k.cells.drop (k.pointer + bs.length) =
          m.cells.take m.pointer ++ b :: bs ++ m.cells.drop (m.pointer + (b :: bs).length) := by
      have htake : (m.cells.set m.pointer b).take (m.pointer + 1) =
          m.cells.take m.pointer ++ [b] := by
        rw [List.set_eq_take_append_cons_drop, if_pos hlt]
        simp [List.take_append, List.take_take, Nat.min_eq_left (Nat.le_of_lt hlt)]
      rw [hp, hc, htake, List.drop_set_of_lt (by omega), List.length_cons,
        show m.pointer + 1 + bs.length = m.pointer + (bs.length + 1) by omega]
      simp
    constructor
    · rintro ⟨k, hk, hn⟩
      obtain ⟨hlt, hp, hc⟩ := append_eq_ok_iff.mp hk
      obtain ⟨hroom, hpointer, hcells⟩ := ih.mp hn
      have hsize : k.size = m.size := by rw [size, hc, List.length_set, size]
      refine ⟨?_, ?_, ?_⟩
      · rw [List.length_cons]
        omega
      · rw [List.length_cons]
        omega
      · rw [hcells, hstep k hp hc hlt]
    · rintro ⟨hroom, hpointer, hcells⟩
      rw [List.length_cons] at hroom hpointer
      have hlt : m.pointer < m.size := by omega
      obtain ⟨k, hk⟩ := exists_append b hlt
      obtain ⟨-, hp, hc⟩ := append_eq_ok_iff.mp hk
      have hsize : k.size = m.size := by rw [size, hc, List.length_set, size]
      refine ⟨k, hk, ih.mpr ⟨by omega, by omega, ?_⟩⟩
      rw [hcells, hstep k hp hc hlt]

/-- A run of bytes in a cleared memory lies at the front, with zeros behind it. -/
theorem appendAll_clear_eq_ok_iff {m n : Memory} {bs : List UInt8} :
    m.clear.appendAll bs = .ok n ↔
      bs.length ≤ m.size ∧ n.pointer = bs.length ∧
        n.cells = bs ++ List.replicate (m.size - bs.length) 0 := by
  rw [appendAll_eq_ok_iff, size_clear]
  simp [clear, zeros]

/-- A memory of the same size with these bytes at the front and zeros behind them. -/
def holding (m : Memory) (bs : List UInt8) (h : bs.length ≤ m.size) : Memory where
  cells := bs ++ List.replicate (m.size - bs.length) 0
  pointer := bs.length
  cells_pos := by
    rw [List.length_append, List.length_replicate, Nat.add_sub_cancel' h]
    exact m.cells_pos
  cells_le := by
    rw [List.length_append, List.length_replicate, Nat.add_sub_cancel' h]
    exact m.cells_le
  pointer_le := by
    rw [List.length_append]
    exact Nat.le_add_right _ _

/-- There is room for a run of bytes that is not longer than memory. -/
theorem appendAll_clear_of_le {m : Memory} {bs : List UInt8} (h : bs.length ≤ m.size) :
    m.clear.appendAll bs = .ok (m.holding bs h) :=
  appendAll_clear_eq_ok_iff.mpr ⟨h, rfl, rfl⟩

/-- A byte below the pointer is rewritten. -/
theorem patch_eq_ok_iff {m n : Memory} {address : Nat} {value : UInt8} :
    m.patch address value = .ok n ↔ address < m.pointer ∧ n = m.setCell address value := by
  unfold patch
  split
  · rename_i h
    simp [h, eq_comm]
  · rename_i h
    simp [h]

/-- A cleared memory is a new one of its size. -/
theorem ofSize_size (m : Memory) : ofSize m.size = .ok m.clear := by
  have hsize : 0 < m.size ∧ m.size ≤ maxMemorySize := ⟨m.cells_pos, m.cells_le⟩
  rw [ofSize, dif_pos hsize, clear]

/-- Memories of one size are the same once they are cleared. -/
theorem clear_eq_of_size_eq {m n : Memory} (h : m.size = n.size) : m.clear = n.clear := by
  apply Memory.ext
  · exact congrArg (fun size => List.replicate size 0) h
  · rfl

/-- Of two bytes written to one cell the second remains. -/
theorem setCell_setCell (m : Memory) (address : Nat) (first second : UInt8) :
    (m.setCell address first).setCell address second = m.setCell address second := by
  apply Memory.ext
  · exact List.set_set ..
  · rfl

/-- Appending a byte keeps the size. -/
theorem size_of_append {m n : Memory} {b : UInt8} (h : m.append b = .ok n) :
    n.size = m.size := by
  have hcells := (append_eq_ok_iff.mp h).2.2
  rw [size, hcells, List.length_set, size]

/-- Rewriting a byte keeps the size. -/
theorem size_of_patch {m n : Memory} {address : Nat} {value : UInt8}
    (h : m.patch address value = .ok n) : n.size = m.size := by
  have hset := (patch_eq_ok_iff.mp h).2
  rw [hset, size_setCell]

end Memory

end ByteMachine
