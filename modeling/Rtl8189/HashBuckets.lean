import Mathlib.Algebra.BigOperators.Group.Finset.Basic
import Mathlib.Data.Fintype.BigOperators
import Mathlib.Data.List.Nodup

/-!
# Buckets of a hash table

The buckets are lists of cells, and every cell that is in the table has a home
bucket. Cells are added at the tail or the head and unlinked wherever they are.
-/
namespace Rtl8189.HashBuckets

variable {β ι : Type*} [DecidableEq β] [DecidableEq ι]

def insertTail (b : β → List ι) (k : β) (i : ι) : β → List ι := Function.update b k (b k ++ [i])

def insertHead (b : β → List ι) (k : β) (i : ι) : β → List ι := Function.update b k (i :: b k)

def unlink (b : β → List ι) (i : ι) : β → List ι := fun k => (b k).erase i

/-- Each cell is once in the bucket that is its home and in no other. -/
structure Houses (b : β → List ι) (home : ι → Option β) : Prop where
  nodup : ∀ k, (b k).Nodup
  mem_iff : ∀ k i, i ∈ b k ↔ home i = some k

variable {b : β → List ι} {home : ι → Option β}

omit [DecidableEq β] [DecidableEq ι] in
theorem houses_empty : Houses (fun _ : β => ([] : List ι)) (fun _ => none) where
  nodup _ := List.nodup_nil
  mem_iff k i := by simp

theorem Houses.insertTail (hb : Houses b home) {i : ι} (hi : home i = none) (k : β) :
    Houses (insertTail b k i) (Function.update home i (some k)) where
  nodup k' := by
    by_cases hk : k' = k
    · subst hk
      rw [HashBuckets.insertTail, Function.update_self]
      have hnot : i ∉ b k' := by simp [hb.mem_iff, hi]
      exact (hb.nodup k').append (List.nodup_singleton i) (List.disjoint_singleton.mpr hnot)
    · rw [HashBuckets.insertTail, Function.update_of_ne hk]
      exact hb.nodup k'
  mem_iff k' j := by
    by_cases hj : j = i
    · subst hj
      rw [Function.update_self]
      by_cases hk : k' = k
      · simp [HashBuckets.insertTail, hk]
      · simp [HashBuckets.insertTail, Function.update_of_ne hk, hb.mem_iff, hi, Ne.symm hk]
    · rw [Function.update_of_ne hj, ← hb.mem_iff]
      by_cases hk : k' = k
      · simp [HashBuckets.insertTail, hk, hj]
      · simp [HashBuckets.insertTail, Function.update_of_ne hk]

theorem Houses.insertHead (hb : Houses b home) {i : ι} (hi : home i = none) (k : β) :
    Houses (insertHead b k i) (Function.update home i (some k)) where
  nodup k' := by
    by_cases hk : k' = k
    · subst hk
      rw [HashBuckets.insertHead, Function.update_self, List.nodup_cons]
      exact ⟨by simp [hb.mem_iff, hi], hb.nodup k'⟩
    · rw [HashBuckets.insertHead, Function.update_of_ne hk]
      exact hb.nodup k'
  mem_iff k' j := by
    by_cases hj : j = i
    · subst hj
      rw [Function.update_self]
      by_cases hk : k' = k
      · simp [HashBuckets.insertHead, hk]
      · simp [HashBuckets.insertHead, Function.update_of_ne hk, hb.mem_iff, hi, Ne.symm hk]
    · rw [Function.update_of_ne hj, ← hb.mem_iff]
      by_cases hk : k' = k
      · simp [HashBuckets.insertHead, hk, hj]
      · simp [HashBuckets.insertHead, Function.update_of_ne hk]

omit [DecidableEq β] in
theorem Houses.unlink (hb : Houses b home) (i : ι) :
    Houses (unlink b i) (Function.update home i none) where
  nodup k := (hb.nodup k).erase i
  mem_iff k j := by
    rw [HashBuckets.unlink, (hb.nodup k).mem_erase_iff, hb.mem_iff]
    by_cases hj : j = i
    · simp [hj]
    · simp [hj]

omit [DecidableEq ι] in
theorem Houses.count_sum [Fintype β] [BEq ι] [LawfulBEq ι] (hb : Houses b home) (i : ι) :
    ∑ k, (b k).count i = if (home i).isSome then 1 else 0 := by
  have hcount : ∀ k, (b k).count i = if home i = some k then 1 else 0 := by
    intro k
    rw [(hb.nodup k).count]
    simp only [hb.mem_iff]
  simp only [hcount]
  cases hi : home i with
  | none => simp
  | some k => simp

omit [DecidableEq β] [DecidableEq ι] in
theorem Houses.length_sum [Fintype β] [Fintype ι] (hb : Houses b home) :
    ∑ k, (b k).length = (Finset.univ.filter fun i => (home i).isSome).card := by
  classical
  have hfiber : ∀ k, (b k).length = (Finset.univ.filter fun i => home i = some k).card := by
    intro k
    rw [← List.toFinset_card_of_nodup (hb.nodup k)]
    congr 1
    ext i
    simp [hb.mem_iff]
  simp only [hfiber]
  rw [← Finset.card_biUnion]
  · congr 1
    ext i
    simp [Option.isSome_iff_exists]
  · intro k _ k' _ hne
    rw [Function.onFun, Finset.disjoint_left]
    intro i hi hi'
    simp only [Finset.mem_filter, Finset.mem_univ, true_and] at hi hi'
    exact hne (Option.some.inj (hi.symm.trans hi'))

/-! ## Lookup in a bucket -/

theorem find?_erase_of_ne {p : ι → Bool} {l : List ι} {j k : ι} (h : l.find? p = some j)
    (hjk : j ≠ k) : (l.erase k).find? p = some j := by
  induction l with
  | nil => cases h
  | cons a l ih =>
    by_cases hp : p a
    · rw [List.find?_cons_of_pos hp] at h
      obtain rfl : a = j := Option.some.inj h
      rw [List.erase_cons_tail (by simpa using hjk), List.find?_cons_of_pos hp]
    · rw [List.find?_cons_of_neg hp] at h
      by_cases hak : a = k
      · subst hak
        rw [List.erase_cons_head]
        exact h
      · rw [List.erase_cons_tail (by simpa using hak), List.find?_cons_of_neg hp]
        exact ih h

end Rtl8189.HashBuckets
