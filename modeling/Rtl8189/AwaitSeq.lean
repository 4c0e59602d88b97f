import Mathlib.Data.List.Basic

/-!
# Commands with awaits

A command acts on a state, or asks a question until the answer is yes. All questions of a
sequence of commands come out of one allowance. When it is used up one more is asked, and
its answer is not looked at.
-/
namespace Rtl8189.AwaitSeq

inductive Cmd (σ : Type*) where
  | act (f : σ → σ)
  | await (ask : σ → Bool × σ)

variable {σ τ ι : Type*}

/-- Asking with an allowance: what is left of it, if the answer was yes in time. -/
def awaitYes (ask : σ → Bool × σ) : ℕ → σ → Option ℕ × σ
  | 0, s => (none, (ask s).2)
  | n + 1, s => if (ask s).1 then (some n, (ask s).2) else awaitYes ask n (ask s).2

theorem awaitYes_succ (ask : σ → Bool × σ) (n : ℕ) (s : σ) : awaitYes ask (n + 1) s =
    if (ask s).1 then (some n, (ask s).2) else awaitYes ask n (ask s).2 := rfl

def run : List (Cmd σ) → ℕ → σ → Bool × σ
  | [], _, s => (true, s)
  | .act f :: l, n, s => run l n (f s)
  | .await ask :: l, n, s =>
    match awaitYes ask n s with
    | (none, t) => (false, t)
    | (some left, t) => run l left t

theorem run_await (ask : σ → Bool × σ) (l : List (Cmd σ)) (n : ℕ) (s : σ) :
    run (.await ask :: l) n s =
      match awaitYes ask n s with
      | (none, t) => (false, t)
      | (some left, t) => run l left t := rfl

/-- So many questions, and the last is the first that is answered with yes. -/
inductive Asks (ask : σ → Bool × σ) : ℕ → σ → σ → Prop
  | yes {s : σ} (h : (ask s).1 = true) : Asks ask 1 s (ask s).2
  | no {n : ℕ} {s t : σ} (h : (ask s).1 = false) (next : Asks ask n (ask s).2 t) :
      Asks ask (n + 1) s t

/-- What the commands do, however long the answers take. -/
inductive Does : List (Cmd σ) → ℕ → σ → σ → Prop
  | nil {s : σ} : Does [] 0 s s
  | act {f : σ → σ} {l : List (Cmd σ)} {n : ℕ} {s t : σ} (next : Does l n (f s) t) :
      Does (.act f :: l) n s t
  | await {ask : σ → Bool × σ} {l : List (Cmd σ)} {m n : ℕ} {s t u : σ} (asked : Asks ask m s t)
      (next : Does l n t u) : Does (.await ask :: l) (m + n) s u

theorem awaitYes_some {ask : σ → Bool × σ} {n left : ℕ} {s t : σ}
    (h : awaitYes ask n s = (some left, t)) : ∃ m, Asks ask m s t ∧ m + left = n := by
  induction n generalizing s with
  | zero => cases h
  | succ n ih =>
    rw [awaitYes_succ] at h
    split_ifs at h with hyes
    · cases h
      exact ⟨1, .yes hyes, Nat.add_comm 1 _⟩
    · obtain ⟨m, hasks, hsum⟩ := ih h
      refine ⟨m + 1, .no (Bool.eq_false_iff.2 hyes) hasks, ?_⟩
      omega

theorem Asks.awaitYes {ask : σ → Bool × σ} {m : ℕ} {s t : σ} (h : Asks ask m s t) (left : ℕ) :
    awaitYes ask (m + left) s = (some left, t) := by
  induction h with
  | yes hyes => rw [Nat.add_comm, awaitYes_succ, if_pos hyes]
  | no hno next ih =>
    rw [Nat.add_right_comm, awaitYes_succ, if_neg (Bool.eq_false_iff.1 hno)]
    exact ih

theorem Does.run {l : List (Cmd σ)} {m : ℕ} {s t : σ} (h : Does l m s t) (left : ℕ) :
    run l (m + left) s = (true, t) := by
  induction h generalizing left with
  | nil => rfl
  | act next ih => exact ih left
  | await asked next ih =>
    rw [Nat.add_assoc, run_await, asked.awaitYes]
    exact ih left

/-- A run comes to its end just when all answers come within the allowance. -/
theorem run_true_iff {l : List (Cmd σ)} {n : ℕ} {s t : σ} :
    run l n s = (true, t) ↔ ∃ m ≤ n, Does l m s t := by
  constructor
  · intro h
    induction l generalizing n s with
    | nil =>
      cases h
      exact ⟨0, Nat.zero_le n, .nil⟩
    | cons c l ih =>
      cases c with
      | act f =>
        obtain ⟨m, hle, hdoes⟩ := ih h
        exact ⟨m, hle, .act hdoes⟩
      | await ask =>
        rw [run_await] at h
        generalize hask : awaitYes ask n s = r at h
        obtain ⟨left, u⟩ := r
        cases left with
        | none => cases h
        | some left =>
          obtain ⟨k, hasks, hsum⟩ := awaitYes_some hask
          obtain ⟨m, hle, hdoes⟩ := ih h
          exact ⟨k + m, by omega, .await hasks hdoes⟩
  · rintro ⟨m, hle, hdoes⟩
    obtain ⟨left, rfl⟩ := Nat.exists_eq_add_of_le hle
    exact hdoes.run left

theorem awaitYes_keeps {ask : σ → Bool × σ} {P : σ → Prop} (h : ∀ s, P s → P (ask s).2) {n : ℕ}
    {s : σ} (hs : P s) : P (awaitYes ask n s).2 := by
  induction n generalizing s with
  | zero => exact h s hs
  | succ n ih =>
    rw [awaitYes_succ]
    split_ifs
    · exact h s hs
    · exact ih (h s hs)

def Stops (cmd : ι → Cmd σ) (ok : Bool) (rest : List ι) : Prop :=
  if ok then rest = [] else ∃ i l ask, rest = i :: l ∧ cmd i = .await ask

/-- Where each command keeps a relation to what it is meant to do, the run does what is meant
by the commands up to where it stops. -/
theorem run_follows (cmd : ι → Cmd σ) (effect : ι → τ → τ) (R : σ → τ → Prop)
    (hact : ∀ i f, cmd i = .act f → ∀ s a, R s a → R (f s) (effect i a))
    (hask : ∀ i ask, cmd i = .await ask → ∀ s a, R s a → R (ask s).2 a ∧ effect i a = a)
    (l : List ι) (n : ℕ) {s : σ} {a : τ} (h : R s a) :
    ∃ done rest, l = done ++ rest ∧ Stops cmd (run (l.map cmd) n s).1 rest ∧
      R (run (l.map cmd) n s).2 (done.foldl (fun b i => effect i b) a) := by
  induction l generalizing n s a with
  | nil => exact ⟨[], [], rfl, rfl, h⟩
  | cons i l ih =>
    rw [List.map_cons]
    cases hi : cmd i with
    | act f =>
      obtain ⟨done, rest, hl, hstops, hr⟩ := ih n (hact i f hi s a h)
      exact ⟨i :: done, rest, congrArg (i :: ·) hl, hstops, hr⟩
    | await ask =>
      have heff := (hask i ask hi s a h).2
      have hkeep := awaitYes_keeps (P := fun u => R u a) (n := n)
        (fun u hu => (hask i ask hi u a hu).1) h
      rw [run_await]
      generalize awaitYes ask n s = r at hkeep
      obtain ⟨left, u⟩ := r
      cases left with
      | none => exact ⟨[], i :: l, rfl, ⟨i, l, ask, rfl, hi⟩, hkeep⟩
      | some left =>
        obtain ⟨done, rest, hl, hstops, hr⟩ := ih left hkeep
        refine ⟨i :: done, rest, congrArg (i :: ·) hl, hstops, ?_⟩
        rw [List.foldl_cons, heff]
        exact hr

end Rtl8189.AwaitSeq
