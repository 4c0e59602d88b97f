import Mathlib.Algebra.Order.Ring.Int
import Mathlib.Data.List.Nodup
import Mathlib.Logic.Function.Basic

/-!
# Counters of flags

Each member of a list has a flag of every kind, and there is a counter for each
kind. The counters are kept exact by whoever raises and lowers the flags.
-/
namespace Rtl8189.FlagCount

variable {ι κ : Type*} [DecidableEq ι] [DecidableEq κ]

def put (flag : ι → κ → Bool) (i : ι) (c : κ) (b : Bool) : ι → κ → Bool :=
  Function.update flag i (Function.update (flag i) c b)

omit [DecidableEq ι] [DecidableEq κ] in
def Tallies (l : List ι) (flag : ι → κ → Bool) (num : κ → ℤ) : Prop :=
  ∀ c, num c = l.countP (flag · c)

variable {l : List ι} {flag : ι → κ → Bool} {num : κ → ℤ}

omit [DecidableEq κ] in
theorem countP_of_mem {i : ι} (hi : i ∈ l) (p : ι → Bool) :
    l.countP p = (l.erase i).countP p + (p i).toNat := by
  rw [(List.perm_cons_erase hi).countP_eq p]
  by_cases hp : p i = true
  · rw [List.countP_cons_of_pos hp, hp]
    rfl
  · rw [List.countP_cons_of_neg hp, eq_false_of_ne_true hp]
    rfl

theorem put_apply (i j : ι) (c d : κ) (b : Bool) :
    put flag i c b j d = if j = i ∧ d = c then b else flag j d := by
  by_cases hj : j = i
  · subst hj
    rw [put, Function.update_self, Function.update_apply]
    simp
  · rw [put, Function.update_of_ne hj, if_neg fun h => hj h.1]

theorem Tallies.put (h : Tallies l flag num) (hl : l.Nodup) {i : ι} (hi : i ∈ l) (c : κ)
    (b : Bool) :
    Tallies l (put flag i c b)
      (Function.update num c (num c - (flag i c).toNat + b.toNat)) := by
  intro d
  have hrest : (l.erase i).countP (FlagCount.put flag i c b · d) =
      (l.erase i).countP (flag · d) := by
    apply List.countP_congr
    intro j hj
    have hji : j ≠ i := fun h => hl.not_mem_erase (h ▸ hj)
    rw [put_apply, if_neg fun h => hji h.1]
  have hold := h d
  rw [countP_of_mem hi] at hold ⊢
  rw [hrest, put_apply]
  by_cases hd : d = c
  · subst hd
    rw [Function.update_self, if_pos ⟨rfl, rfl⟩]
    push_cast at hold ⊢
    omega
  · rw [Function.update_of_ne hd, if_neg fun h => hd h.2]
    exact hold

theorem Tallies.raise (h : Tallies l flag num) (hl : l.Nodup) {i : ι} (hi : i ∈ l) {c : κ}
    (hc : flag i c = false) :
    Tallies l (FlagCount.put flag i c true) (Function.update num c (num c + 1)) := by
  have hput := h.put hl hi c true
  rw [hc] at hput
  simpa using hput

theorem Tallies.lower (h : Tallies l flag num) (hl : l.Nodup) {i : ι} (hi : i ∈ l) {c : κ}
    (hc : flag i c = true) :
    Tallies l (FlagCount.put flag i c false) (Function.update num c (num c - 1)) := by
  have hput := h.put hl hi c false
  rw [hc] at hput
  simpa using hput

omit [DecidableEq ι] [DecidableEq κ] in
theorem Tallies.nonneg (h : Tallies l flag num) (c : κ) : 0 ≤ num c := by
  rw [h c]
  exact Int.natCast_nonneg _

omit [DecidableEq ι] [DecidableEq κ] in
theorem Tallies.pos (h : Tallies l flag num) {i : ι} (hi : i ∈ l) {c : κ}
    (hc : flag i c = true) : 0 < num c := by
  rw [h c]
  exact Int.natCast_pos.mpr (List.countP_pos_iff.mpr ⟨i, hi, hc⟩)

omit [DecidableEq ι] [DecidableEq κ] in
theorem Tallies.perm (h : Tallies l flag num) {l' : List ι} (hl : l'.Perm l) :
    Tallies l' flag num := by
  intro c
  rw [h c, hl.countP_eq]

omit [DecidableEq ι] [DecidableEq κ] in
theorem tallies_cons {i : ι} (hi : ∀ c, flag i c = false) :
    Tallies (i :: l) flag num ↔ Tallies l flag num := by
  apply forall_congr'
  intro c
  rw [List.countP_cons_of_neg]
  rw [hi c]
  exact Bool.false_ne_true

omit [DecidableEq ι] [DecidableEq κ] in
theorem Tallies.congr (h : Tallies l flag num) {flag' : ι → κ → Bool}
    (hflag : ∀ i ∈ l, flag' i = flag i) : Tallies l flag' num := by
  intro c
  rw [h c]
  congr 1
  apply List.countP_congr
  intro i hi
  rw [hflag i hi]

end Rtl8189.FlagCount
