import Mathlib.Order.Lattice
import Mathlib.Data.List.Basic

/-!
# Guards against replay

For each key the last number is remembered, and a number is taken only above
it. The history of what was taken is then increasing for each key, whatever
the interleaving of the keys.
-/
namespace Rtl8189.ReplayGuard

variable {κ ν : Type*} [DecidableEq κ] [Preorder ν]

structure Guard (κ ν : Type*) where
  last : κ → ν
  history : List (κ × ν)

def Guard.take (g : Guard κ ν) (k : κ) (n : ν) : Guard κ ν :=
  ⟨Function.update g.last k n, g.history ++ [(k, n)]⟩

structure Guard.Sound (g : Guard κ ν) : Prop where
  bounded : ∀ x ∈ g.history, x.2 ≤ g.last x.1
  increasing : g.history.Pairwise fun x y => x.1 = y.1 → x.2 < y.2

def Guard.Fresh (g : Guard κ ν) (k : κ) : Prop := ∀ x ∈ g.history, x.1 ≠ k

omit [DecidableEq κ] in
theorem increasing_concat {g : Guard κ ν} (hg : g.Sound) {k : κ} {n : ν}
    (hnew : g.last k < n ∨ g.Fresh k) :
    (g.history ++ [(k, n)]).Pairwise fun x y => x.1 = y.1 → x.2 < y.2 := by
  rw [List.pairwise_append]
  refine ⟨hg.increasing, List.pairwise_singleton _ _, ?_⟩
  intro x hx y hy hkey
  rw [List.mem_singleton] at hy
  subst hy
  rcases hnew with hlt | hfresh
  · have hle := hg.bounded x hx
    rw [hkey] at hle
    exact hle.trans_lt hlt
  · exact absurd hkey (hfresh x hx)

theorem take_sound {g : Guard κ ν} (hg : g.Sound) {k : κ} {n : ν}
    (hnew : g.last k < n ∨ g.Fresh k) : (g.take k n).Sound := by
  refine ⟨?_, increasing_concat hg hnew⟩
  intro x hx
  simp only [Guard.take, List.mem_append, List.mem_singleton] at hx ⊢
  rcases hx with hx | rfl
  · by_cases hkey : x.1 = k
    · rcases hnew with hlt | hfresh
      · have hle := hg.bounded x hx
        rw [hkey] at hle
        rw [hkey, Function.update_self]
        exact hle.trans hlt.le
      · exact absurd hkey (hfresh x hx)
    · rw [Function.update_of_ne hkey]
      exact hg.bounded x hx
  · rw [Function.update_self]

omit [DecidableEq κ] in
theorem first_sound {g : Guard κ ν} (hg : g.Sound) {k : κ} {n : ν} (hfresh : g.Fresh k)
    (hle : n ≤ g.last k) : (Guard.mk g.last (g.history ++ [(k, n)])).Sound := by
  refine ⟨?_, increasing_concat hg (Or.inr hfresh)⟩
  intro x hx
  rcases List.mem_append.mp hx with hx | hx
  · exact hg.bounded x hx
  · rw [List.mem_singleton] at hx
    subst hx
    exact hle

end Rtl8189.ReplayGuard
