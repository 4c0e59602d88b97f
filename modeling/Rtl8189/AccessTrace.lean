import Mathlib.Data.List.Basic
import Mathlib.Data.Int.Basic

/-!
# Traces of accesses to a buffer

A function that walks over a buffer leaves a trace: the lengths it works out, and the
stretches it reads or writes, counted from the start of the buffer.
-/
namespace Rtl8189.AccessTrace

inductive Op where
  | length (n : ℤ)
  | bytes (start : ℤ) (size : ℕ)

/-- In a buffer of `len` bytes. A stretch without bytes may start anywhere. -/
def Op.Within (len : ℕ) : Op → Prop
  | .length n => 0 ≤ n
  | .bytes start size => 0 < size → 0 ≤ start ∧ start + size ≤ len

instance (len : ℕ) : (op : Op) → Decidable (op.Within len)
  | .length n => inferInstanceAs (Decidable (0 ≤ n))
  | .bytes start size => inferInstanceAs (Decidable (0 < size → 0 ≤ start ∧ start + size ≤ len))

def Within (len : ℕ) (ops : List Op) : Prop := ∀ op ∈ ops, op.Within len

instance (len : ℕ) (ops : List Op) : Decidable (Within len ops) :=
  inferInstanceAs (Decidable (∀ op ∈ ops, op.Within len))

variable {len : ℕ}

@[simp] theorem within_nil : Within len [] := nofun

@[simp] theorem within_cons (op : Op) (ops : List Op) :
    Within len (op :: ops) ↔ op.Within len ∧ Within len ops := List.forall_mem_cons

@[simp] theorem within_append (a b : List Op) :
    Within len (a ++ b) ↔ Within len a ∧ Within len b := List.forall_mem_append

theorem within_loop {n : ℕ} {round : ℕ → List Op} :
    Within len ((List.range n).flatMap round) ↔ ∀ i < n, Within len (round i) := by
  constructor
  · intro h i hi op hop
    exact h op (List.mem_flatMap.mpr ⟨i, List.mem_range.mpr hi, hop⟩)
  · intro h op hop
    obtain ⟨i, hi, hop⟩ := List.mem_flatMap.mp hop
    exact h i (List.mem_range.mp hi) op hop

theorem length_within (n : ℤ) : (Op.length n).Within len ↔ 0 ≤ n := Iff.rfl

theorem bytes_within (start : ℕ) {size : ℕ} (h : start + size ≤ len) :
    (Op.bytes start size).Within len := fun _ => ⟨by omega, by omega⟩

theorem bytes_within_iff (start : ℕ) {size : ℕ} (hsize : 0 < size) :
    (Op.bytes start size).Within len ↔ start + size ≤ len := by
  refine ⟨fun h => ?_, bytes_within start⟩
  have hend := (h hsize).2
  omega

def Covers (ops : List Op) (k : ℕ) : Prop :=
  ∃ start size, Op.bytes start size ∈ ops ∧ start ≤ k ∧ (k : ℤ) < start + size

theorem Covers.lt {ops : List Op} {k : ℕ} (h : Covers ops k) (hops : Within len ops) : k < len := by
  obtain ⟨start, size, hmem, hstart, hend⟩ := h
  have hin := (hops _ hmem (by omega)).2
  omega

theorem covers_bytes {ops : List Op} (start size : ℕ) {k : ℕ} (hmem : Op.bytes start size ∈ ops)
    (hstart : start ≤ k) (hend : k < start + size) : Covers ops k :=
  ⟨start, size, hmem, by omega, by omega⟩

theorem Covers.mono {ops ops' : List Op} {k : ℕ} (h : Covers ops k) (hsub : ops ⊆ ops') :
    Covers ops' k := by
  obtain ⟨start, size, hmem, hk⟩ := h
  exact ⟨start, size, hsub hmem, hk⟩

end Rtl8189.AccessTrace
