import Mathlib.Data.List.Basic
import Mathlib.Data.Nat.ModEq

/-!
# Numbers issued from a wrapping counter

For each key numbers are issued one above the other, modulo `m`. A key that is renewed
starts a new epoch from any number. Until a whole round was issued in an epoch, no stamp
of key, epoch and number comes twice.
-/
namespace Rtl8189

structure Issuer (κ : Type*) where
  start : κ → ℕ
  taken : κ → ℕ
  epoch : κ → ℕ
  issued : List (κ × ℕ × ℕ)

namespace Issuer

variable {κ : Type*} [DecidableEq κ] {m : ℕ} {g : Issuer κ} {k : κ}

def renew (g : Issuer κ) (k : κ) (v : ℕ) : Issuer κ :=
  { g with
    start := fun j => if j = k then v else g.start j
    taken := fun j => if j = k then 0 else g.taken j
    epoch := fun j => if j = k then g.epoch j + 1 else g.epoch j }

def next (m : ℕ) (g : Issuer κ) (k : κ) : κ × ℕ × ℕ :=
  (k, g.epoch k, (g.start k + (g.taken k + 1)) % m)

def take (m : ℕ) (g : Issuer κ) (k : κ) : Issuer κ :=
  { g with
    taken := fun j => if j = k then g.taken j + 1 else g.taken j
    issued := g.next m k :: g.issued }

/-- A stamp is of an earlier epoch, or one of those taken in this one. -/
def Sound (m : ℕ) (g : Issuer κ) : Prop :=
  ∀ x ∈ g.issued, x.2.1 < g.epoch x.1 ∨
    x.2.1 = g.epoch x.1 ∧ ∃ i, 1 ≤ i ∧ i ≤ g.taken x.1 ∧ x.2.2 = (g.start x.1 + i) % m

theorem Sound.renew (h : Sound m g) (k : κ) (v : ℕ) : Sound m (g.renew k v) := by
  intro x hx
  simp only [Issuer.renew]
  split_ifs with heq
  · rcases h x hx with hlt | ⟨hepoch, -⟩
    · exact Or.inl (Nat.lt_succ_of_lt hlt)
    · exact Or.inl (hepoch ▸ Nat.lt_succ_self _)
  · exact h x hx

theorem Sound.take (h : Sound m g) (k : κ) : Sound m (g.take m k) := by
  intro x hx
  rcases List.mem_cons.mp hx with rfl | hx
  · refine Or.inr ⟨rfl, g.taken k + 1, by omega, ?_, rfl⟩
    simp only [Issuer.take, next, if_true]
    exact Nat.le_refl _
  · rcases h x hx with hlt | ⟨hepoch, i, hi, hle, hnum⟩
    · exact Or.inl hlt
    · refine Or.inr ⟨hepoch, i, hi, ?_, hnum⟩
      simp only [Issuer.take]
      split_ifs
      · exact Nat.le_succ_of_le hle
      · exact hle

omit [DecidableEq κ] in
theorem Sound.next_fresh (h : Sound m g) (hk : g.taken k < m) : g.next m k ∉ g.issued := by
  intro hmem
  rcases h _ hmem with hlt | ⟨-, i, hi, hle, hnum⟩
  · exact Nat.lt_irrefl _ hlt
  · simp only [next] at hle hnum
    have hmod : g.taken k + 1 ≡ i [MOD m] := Nat.ModEq.add_left_cancel' (g.start k) hnum
    have hdvd : m ∣ g.taken k + 1 - i := (Nat.modEq_iff_dvd' (by omega)).mp hmod.symm
    have hzero : g.taken k + 1 - i = 0 := Nat.eq_zero_of_dvd_of_lt hdvd (by omega)
    omega

end Issuer

end Rtl8189
