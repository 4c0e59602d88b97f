import Mathlib.Data.List.Induction
import Mathlib.Logic.Function.Basic

/-!
# Filters against repetition

For each key one cell holds the value that was taken last, and an item that repeats it is
refused. A cell that has taken nothing yet holds a value of its own, and an item with that
value is refused as well.
-/
namespace Rtl8189.LastSeen

variable {α κ ν : Type*} [DecidableEq κ] [DecidableEq ν] (key : α → κ) (val : α → ν)

structure Filter (α κ ν : Type*) where
  cell : κ → ν
  taken : List α

def Filter.Refuses (t : Filter α κ ν) (x : α) : Prop := t.cell (key x) = val x

instance (t : Filter α κ ν) (x : α) : Decidable (t.Refuses key val x) :=
  inferInstanceAs (Decidable (t.cell (key x) = val x))

def Filter.offer (t : Filter α κ ν) (x : α) : Filter α κ ν :=
  if t.Refuses key val x then t
  else ⟨Function.update t.cell (key x) (val x), t.taken ++ [x]⟩

def Filter.run (init : κ → ν) (xs : List α) : Filter α κ ν :=
  xs.foldl (Filter.offer key val) ⟨init, []⟩

def lastOf (l : List α) (k : κ) : Option α := (l.filter (key · = k)).getLast?

/-- An item is refused exactly when the last one taken with its key has its value. -/
def Exact (t : Filter α κ ν) (x : α) : Prop :=
  t.Refuses key val x ↔ ∃ y, lastOf key t.taken (key x) = some y ∧ val y = val x

omit [DecidableEq ν] in
theorem lastOf_concat (l : List α) (x : α) (k : κ) :
    lastOf key (l ++ [x]) k = if key x = k then some x else lastOf key l k := by
  rw [lastOf, List.filter_append]
  by_cases hk : key x = k
  · rw [List.filter_cons_of_pos (by simpa using hk), if_pos hk, List.filter_nil,
      List.getLast?_concat]
  · rw [List.filter_cons_of_neg (by simpa using hk), if_neg hk, List.filter_nil, List.append_nil,
      lastOf]

theorem run_concat (init : κ → ν) (xs : List α) (x : α) :
    Filter.run key val init (xs ++ [x]) = (Filter.run key val init xs).offer key val x :=
  List.foldl_append

variable {key val}

theorem run_cell (init : κ → ν) (xs : List α) (k : κ) :
    (Filter.run key val init xs).cell k =
      ((lastOf key (Filter.run key val init xs).taken k).map val).getD (init k) := by
  induction xs using List.reverseRecOn with
  | nil => rfl
  | append_singleton xs x ih =>
    rw [run_concat, Filter.offer]
    split
    · exact ih
    · dsimp only
      rw [lastOf_concat]
      by_cases hk : key x = k
      · rw [if_pos hk, hk, Function.update_self]
        rfl
      · rw [if_neg hk, Function.update_of_ne (Ne.symm hk)]
        exact ih

theorem exact_iff (init : κ → ν) (xs : List α) (x : α) :
    Exact key val (Filter.run key val init xs) x ↔
      (lastOf key (Filter.run key val init xs).taken (key x) = none → init (key x) ≠ val x) := by
  rw [Exact, Filter.Refuses, run_cell]
  cases lastOf key (Filter.run key val init xs).taken (key x) with
  | none => simp
  | some y => simp

theorem run_untouched (init : κ → ν) {xs : List α} {k : κ} (h : ∀ y ∈ xs, key y ≠ k) :
    lastOf key (Filter.run key val init xs).taken k = none := by
  induction xs using List.reverseRecOn with
  | nil => rfl
  | append_singleton xs x ih =>
    have hxs := ih fun y hy => h y (List.mem_append_left [x] hy)
    rw [run_concat, Filter.offer]
    split
    · exact hxs
    · dsimp only
      rw [lastOf_concat, if_neg (h x (List.mem_append_right xs List.mem_cons_self))]
      exact hxs

/-- The first item of its key is one that its cell does not hold by itself. -/
def FirstsDiffer (key : α → κ) (val : α → ν) (init : κ → ν) (xs : List α) : Prop :=
  ∀ pre x post, xs = pre ++ x :: post → (∀ y ∈ pre, key y ≠ key x) → init (key x) ≠ val x

theorem FirstsDiffer.taken {init : κ → ν} {xs : List α} (h : FirstsDiffer key val init xs)
    {pre post : List α} (hxs : xs = pre ++ post) {k : κ} (hk : ∃ y ∈ pre, key y = k) :
    lastOf key (Filter.run key val init pre).taken k ≠ none := by
  induction pre using List.reverseRecOn generalizing post with
  | nil => simp at hk
  | append_singleton pre x ih =>
    have hxs' : xs = pre ++ x :: post := by rw [hxs, List.append_assoc, List.singleton_append]
    rw [run_concat, Filter.offer]
    by_cases hpre : ∃ y ∈ pre, key y = k
    · have htaken := ih hxs' hpre
      split
      · exact htaken
      · dsimp only
        rw [lastOf_concat]
        split
        · exact Option.some_ne_none x
        · exact htaken
    · have hfirst : ∀ y ∈ pre, key y ≠ k := fun y hy hyk => hpre ⟨y, hy, hyk⟩
      have hxk : key x = k := by
        obtain ⟨y, hy, hyk⟩ := hk
        rcases List.mem_append.mp hy with hy | hy
        · exact absurd hyk (hfirst y hy)
        · rw [← hyk, List.mem_singleton.mp hy]
      have hnot : ¬ (Filter.run key val init pre).Refuses key val x := by
        rw [Filter.Refuses, run_cell, hxk, run_untouched init hfirst]
        have hinit := h pre x post hxs' (hxk ▸ hfirst)
        rw [hxk] at hinit
        exact hinit
      rw [if_neg hnot]
      dsimp only
      rw [lastOf_concat, if_pos hxk]
      exact Option.some_ne_none x

variable (key val) in
/-- The filter is exact along a sequence if and only if no first item of a key has the value
that its cell starts with. -/
theorem run_lastSeen (init : κ → ν) (xs : List α) :
    (∀ pre x post, xs = pre ++ x :: post → Exact key val (Filter.run key val init pre) x) ↔
      FirstsDiffer key val init xs := by
  constructor
  · intro h pre x post hxs hfirst
    exact (exact_iff init pre x).mp (h pre x post hxs) (run_untouched init hfirst)
  · intro h pre x post hxs
    rw [exact_iff]
    intro hnone
    refine h pre x post hxs fun y hy hyk => ?_
    exact h.taken hxs ⟨y, hy, hyk⟩ hnone

end Rtl8189.LastSeen
