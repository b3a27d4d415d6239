import Netsystem.Bytes
import Netsystem.Program

/-!
# Programs over one mapped range

A `Mapping` is a range of the address space and its bytes. Programs load and store at addresses,
which are numbers; outside the range the device refuses, which is a fault. A sum or a difference
that leaves `usize` is a fault as well. Nothing here names a particular layout.
-/

namespace Netsystem.AddressSpace

/-- A mapped range, away from the null pointer and from the end of the address space. -/
structure Mapping : Type where
  base : Nat
  bytes : Bytes
  base_pos : 0 < base
  end_lt : base + bytes.length < 2 ^ 64

namespace Mapping

variable (m : Mapping)

/-- The `width` bytes at `address` are mapped. -/
def Contains (address width : Nat) : Prop :=
  m.base ≤ address ∧ address + width ≤ m.base + m.bytes.length

instance (address width : Nat) : Decidable (m.Contains address width) :=
  inferInstanceAs (Decidable (_ ∧ _))

def read (address width : Nat) : Bytes := window m.bytes (address - m.base) width

/-- The little-endian number of `width` bytes at `address`. -/
def word (address width : Nat) : Nat := leNat (m.read address width)

/-- The mapping with other bytes, of the same number. -/
def write (address : Nat) (patch : Bytes) (inside : m.Contains address patch.length) : Mapping :=
  { m with
    bytes := splice m.bytes (address - m.base) patch
    end_lt := by
      have fits : address - m.base + patch.length ≤ m.bytes.length := by
        obtain ⟨low, high⟩ := inside
        omega
      rw [length_splice fits]
      exact m.end_lt }

variable {m}

theorem Contains.part {address width inner count : Nat} (inside : m.Contains address width)
    (within : inner + count ≤ width) : m.Contains (address + inner) count := by
  obtain ⟨low, high⟩ := inside
  constructor <;> omega

theorem Contains.offset_le {address width : Nat} (inside : m.Contains address width) :
    address - m.base + width ≤ m.bytes.length := by
  obtain ⟨low, high⟩ := inside
  omega

theorem not_contains_null (width : Nat) : ¬ m.Contains 0 width := by
  intro inside
  have positive := m.base_pos
  exact absurd inside.1 (by omega)

theorem length_read {address width : Nat} (inside : m.Contains address width) :
    (m.read address width).length = width := length_window inside.offset_le

section Write

variable {address : Nat} {patch : Bytes} {inside : m.Contains address patch.length}

@[simp] theorem base_write : (m.write address patch inside).base = m.base := rfl

@[simp] theorem length_write : (m.write address patch inside).bytes.length = m.bytes.length :=
  length_splice inside.offset_le

@[simp] theorem contains_write {other width : Nat} :
    (m.write address patch inside).Contains other width ↔ m.Contains other width := by
  unfold Contains
  rw [base_write, length_write]

theorem read_write_same {width : Nat} (sized : patch.length = width) :
    (m.write address patch inside).read address width = patch := by
  have bound := inside.offset_le
  rw [← sized]
  exact window_splice_same patch (by omega)

end Write

end Mapping

/-! ## Operations -/

inductive Op : Type where
  | load (address width : Nat)
  | store (address : Nat) (patch : Bytes)

abbrev Op.Ret : Op → Type
  | .load _ _ => Bytes
  | .store _ _ => Unit

abbrev Call (ε α : Type) : Type := Prog Op Op.Ret ε α

section Calls

variable {ε α : Type}

def loadBytes (address width : Nat) : Call ε Bytes := Prog.perform (Op.load address width)

/-- A little-endian number of `width` bytes. -/
def load (address width : Nat) : Call ε Nat := do
  let bytes ← loadBytes address width
  pure (leNat bytes)

def store (address : Nat) (patch : Bytes) : Call ε Unit := Prog.perform (Op.store address patch)

/-- The result of an addition on `usize`. -/
def usize (value : Nat) : Call ε Nat := if value < 2 ^ 64 then pure value else .panic

/-- A subtraction on `usize`. -/
def minus (left right : Nat) : Call ε Nat := if right ≤ left then pure (left - right) else .panic

/-- `map_err` and `?`. -/
def mapErr {ε' : Type} (result : Except ε' α) (wrap : ε' → ε) : Call ε α :=
  match result with
  | .ok value => pure value
  | .error source => .throw (wrap source)

end Calls

/-- The mapped range, and nothing else. -/
def device : Prog.Device Op Op.Ret Mapping
  | .load address width, m =>
      if m.Contains address width then some (m.read address width, m) else none
  | .store address patch, m =>
      if inside : m.Contains address patch.length then some ((), m.write address patch inside)
        else none

section Executions

variable {ε α : Type} {m : Mapping} {address width : Nat}

theorem exec_loadBytes {f : Bytes → Call ε α} (inside : m.Contains address width) :
    ((loadBytes address width).bind f).exec device m = (f (m.read address width)).exec device m :=
  Prog.exec_step_of_answer (if_pos inside)

theorem exec_load {f : Nat → Call ε α} (inside : m.Contains address width) :
    ((load address width).bind f).exec device m = (f (m.word address width)).exec device m :=
  Prog.exec_step_of_answer (if_pos inside)

theorem exec_load_fault {f : Nat → Call ε α} (outside : ¬ m.Contains address width) :
    ((load address width).bind f).exec device m = (.panic, m) := by
  have refused : device (.load address width) m = none := if_neg outside
  simp only [load, loadBytes, Prog.bind_eq, Prog.bind_perform, Prog.bind_step, Prog.exec_step,
    refused]

theorem exec_store {patch : Bytes} {f : Unit → Call ε α}
    (inside : m.Contains address patch.length) :
    ((store address patch).bind f).exec device m =
      (f ()).exec device (m.write address patch inside) :=
  Prog.exec_step_of_answer (dif_pos inside)

theorem exec_usize {value : Nat} {f : Nat → Call ε α} (small : value < 2 ^ 64) :
    ((usize value).bind f).exec device m = (f value).exec device m := by
  rw [usize, if_pos small, Prog.pure_eq, Prog.bind_ok]

theorem exec_usize_fault {value : Nat} {f : Nat → Call ε α} (large : ¬ value < 2 ^ 64) :
    ((usize value).bind f).exec device m = (.panic, m) := by
  rw [usize, if_neg large]
  rfl

theorem exec_minus {left right : Nat} {f : Nat → Call ε α} (fits : right ≤ left) :
    ((minus left right).bind f).exec device m = (f (left - right)).exec device m := by
  rw [minus, if_pos fits, Prog.pure_eq, Prog.bind_ok]

end Executions

end Netsystem.AddressSpace
