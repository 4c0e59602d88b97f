import Mathlib.Data.Multiset.AddSub
import Mathlib.Data.Int.Basic

/-!
# Counted free lists

A list of free cells with a separate count. Freeing unlinks the cell, appends it
and counts it. The count is the length as long as no cell is freed while it is
on the list.
-/
namespace Rtl8189

structure FreeList (α : Type*) where
  cells : List α := []
  cnt : ℤ := 0

namespace FreeList

variable {α : Type*} [DecidableEq α]

def free (l : FreeList α) (x : α) : FreeList α := ⟨l.cells.erase x ++ [x], l.cnt + 1⟩

def alloc (l : FreeList α) : Option (α × FreeList α) :=
  match l.cells with
  | [] => none
  | x :: xs => some (x, ⟨xs, l.cnt - 1⟩)

omit [DecidableEq α] in
def Counted (l : FreeList α) : Prop := l.cnt = l.cells.length

theorem free_cells {l : FreeList α} {x : α} (h : x ∉ l.cells) :
    ((l.free x).cells : Multiset α) = x ::ₘ (l.cells : Multiset α) := by
  rw [free, List.erase_of_not_mem h, Multiset.cons_coe, Multiset.coe_eq_coe]
  exact List.perm_append_singleton x l.cells

theorem free_counted {l : FreeList α} {x : α} (hl : l.Counted) (h : x ∉ l.cells) :
    (l.free x).Counted := by
  simp only [Counted, free, List.erase_of_not_mem h, List.length_append, List.length_singleton]
  rw [hl]
  omega

omit [DecidableEq α] in
theorem alloc_cells {l l' : FreeList α} {x : α} (h : l.alloc = some (x, l')) :
    (l.cells : Multiset α) = x ::ₘ (l'.cells : Multiset α) := by
  simp only [alloc] at h
  split at h
  · simp at h
  · rename_i hcells
    obtain ⟨rfl, rfl⟩ := Prod.mk.inj (Option.some.inj h)
    rw [hcells, Multiset.cons_coe]

omit [DecidableEq α] in
theorem alloc_counted {l l' : FreeList α} {x : α} (hl : l.Counted)
    (h : l.alloc = some (x, l')) : l'.Counted := by
  simp only [alloc] at h
  split at h
  · simp at h
  · rename_i hcells
    obtain ⟨rfl, rfl⟩ := Prod.mk.inj (Option.some.inj h)
    rw [Counted, hcells, List.length_cons] at hl
    simp only [Counted, hl]
    omega

omit [DecidableEq α] in
theorem alloc_cnt {l l' : FreeList α} {x : α} (h : l.alloc = some (x, l')) :
    l'.cnt = l.cnt - 1 := by
  simp only [alloc] at h
  split at h
  · simp at h
  · obtain ⟨rfl, rfl⟩ := Prod.mk.inj (Option.some.inj h)
    rfl

end FreeList

end Rtl8189
