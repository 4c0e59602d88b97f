import Mathlib.Data.List.Nodup
import Mathlib.Data.Nat.Notation

/-!
# Counting semaphores with a queue of waiters

Posting a semaphore on which someone waits passes the post on to the first of the
waiters and leaves the count alone, so that the count is zero as long as someone
waits.
-/
namespace Rtl8189

structure Semaphore (α : Type*) where
  count : ℕ
  waiters : List α := []

namespace Semaphore

variable {α : Type*}

def up (m : Semaphore α) : Semaphore α × Option α :=
  match m.waiters with
  | [] => ({ m with count := m.count + 1 }, none)
  | p :: ps => ({ m with waiters := ps }, some p)

def down (m : Semaphore α) (p : α) : Semaphore α × Bool :=
  if 0 < m.count then ({ m with count := m.count - 1 }, true)
  else ({ m with waiters := m.waiters ++ [p] }, false)

structure Ok (m : Semaphore α) : Prop where
  idle : m.waiters ≠ [] → m.count = 0
  nodup : m.waiters.Nodup

theorem up_cases (m : Semaphore α) :
    (m.waiters = [] ∧ m.up = ({ m with count := m.count + 1 }, none)) ∨
      ∃ p ps, m.waiters = p :: ps ∧ m.up = ({ m with waiters := ps }, some p) := by
  unfold up
  cases hw : m.waiters with
  | nil => exact .inl ⟨rfl, rfl⟩
  | cons p ps => exact .inr ⟨p, ps, rfl, rfl⟩

theorem down_cases (m : Semaphore α) (p : α) :
    (0 < m.count ∧ m.down p = ({ m with count := m.count - 1 }, true)) ∨
      (m.count = 0 ∧ m.down p = ({ m with waiters := m.waiters ++ [p] }, false)) := by
  unfold down
  by_cases h : 0 < m.count
  · exact .inl ⟨h, if_pos h⟩
  · exact .inr ⟨by omega, if_neg h⟩

theorem Ok.up {m : Semaphore α} (h : m.Ok) : m.up.1.Ok := by
  obtain ⟨hw, he⟩ | ⟨p, ps, hw, he⟩ := up_cases m
  · rw [he]
    exact ⟨fun hne => absurd hw hne, h.nodup⟩
  · rw [he]
    have hnodup := h.nodup
    rw [hw] at hnodup
    exact ⟨fun _ => h.idle (by simp [hw]), hnodup.of_cons⟩

theorem Ok.down {m : Semaphore α} (h : m.Ok) {p : α} (hp : p ∉ m.waiters) : (m.down p).1.Ok := by
  obtain ⟨hc, he⟩ | ⟨hc, he⟩ := down_cases m p
  · rw [he]
    refine ⟨fun hne => ?_, h.nodup⟩
    have := h.idle hne
    omega
  · rw [he]
    refine ⟨fun _ => hc, ?_⟩
    change (m.waiters ++ [p]).Nodup
    rw [List.nodup_append]
    refine ⟨h.nodup, List.nodup_singleton p, ?_⟩
    rintro a ha b hb rfl
    exact hp (List.mem_singleton.1 hb ▸ ha)

end Semaphore

end Rtl8189
