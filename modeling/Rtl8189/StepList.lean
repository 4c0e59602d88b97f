import Mathlib.Data.List.Basic

/-!
# Steps in a row

A list of steps is done up to the first one that fails; what was done before stays done.
-/
namespace Rtl8189.StepList

variable {σ ε : Type*}

def exec : List (σ → Except ε σ) → σ → Option ε × σ
  | [], s => (none, s)
  | f :: fs, s =>
    match f s with
    | .ok s' => exec fs s'
    | .error e => (some e, s)

@[simp] theorem exec_nil (s : σ) : exec ([] : List (σ → Except ε σ)) s = (none, s) := rfl

theorem exec_cons_ok {f : σ → Except ε σ} {fs : List (σ → Except ε σ)} {s s' : σ}
    (h : f s = .ok s') : exec (f :: fs) s = exec fs s' := by
  simp only [exec, h]

theorem exec_cons_error {f : σ → Except ε σ} {fs : List (σ → Except ε σ)} {s : σ} {e : ε}
    (h : f s = .error e) : exec (f :: fs) s = (some e, s) := by
  simp only [exec, h]

theorem exec_cons_none {f : σ → Except ε σ} {fs : List (σ → Except ε σ)} {s s' : σ}
    (h : exec (f :: fs) s = (none, s')) : ∃ t, f s = .ok t ∧ exec fs t = (none, s') := by
  cases hf : f s with
  | ok t =>
    rw [exec_cons_ok hf] at h
    exact ⟨t, rfl, h⟩
  | error e =>
    rw [exec_cons_error hf] at h
    cases h

theorem exec_append (fs gs : List (σ → Except ε σ)) (s : σ) :
    exec (fs ++ gs) s =
      if (exec fs s).1.isNone then exec gs (exec fs s).2 else exec fs s := by
  induction fs generalizing s with
  | nil => simp
  | cons f fs ih =>
    cases hf : f s with
    | ok t => rw [List.cons_append, exec_cons_ok hf, exec_cons_ok hf, ih]
    | error e => rw [List.cons_append, exec_cons_error hf, exec_cons_error hf]; rfl

theorem exec_keeps {I : σ → Prop} (fs : List (σ → Except ε σ))
    (h : ∀ f ∈ fs, ∀ s s', I s → f s = .ok s' → I s') {s : σ} (hs : I s) :
    I (exec fs s).2 := by
  induction fs generalizing s with
  | nil => exact hs
  | cons f fs ih =>
    cases hf : f s with
    | ok t =>
      rw [exec_cons_ok hf]
      exact ih (fun g hg => h g (List.mem_cons_of_mem _ hg))
        (h f List.mem_cons_self s t hs hf)
    | error e =>
      rw [exec_cons_error hf]
      exact hs

/-- Steps that keep `P`, one that carries it over to `Q`, and steps that keep `Q`. -/
theorem exec_reaches {P Q : σ → Prop} {pre post : List (σ → Except ε σ)}
    {g : σ → Except ε σ} (hP : ∀ f ∈ pre, ∀ s s', P s → f s = .ok s' → P s')
    (hg : ∀ s s', P s → g s = .ok s' → Q s')
    (hQ : ∀ f ∈ post, ∀ s s', Q s → f s = .ok s' → Q s') {s t : σ}
    (hrun : exec (pre ++ g :: post) s = (none, t)) (hs : P s) : Q t := by
  have hpre := exec_keeps pre hP hs
  rw [exec_append] at hrun
  split_ifs at hrun with hnone
  · obtain ⟨s', hgs, hpost⟩ := exec_cons_none hrun
    have hkeep := exec_keeps post hQ (hg _ s' hpre hgs)
    rwa [hpost] at hkeep
  · rw [hrun] at hnone
    exact absurd rfl hnone

theorem exec_stages (fs : List (σ → Except ε σ)) {I : ℕ → σ → Prop}
    (h : ∀ i (hi : i < fs.length) s s', I i s → fs[i] s = .ok s' → I (i + 1) s') {s : σ}
    (hs : I 0 s) : ∃ i ≤ fs.length, I i (exec fs s).2 ∧
      ((exec fs s).1 = none → i = fs.length) := by
  induction fs generalizing I s with
  | nil => exact ⟨0, Nat.le_refl _, hs, fun _ => rfl⟩
  | cons f fs ih =>
    cases hf : f s with
    | ok t =>
      rw [exec_cons_ok hf]
      obtain ⟨i, hi, hI, hall⟩ := ih (I := fun i => I (i + 1))
        (fun i hi s s' => h (i + 1) (Nat.succ_lt_succ hi) s s') (h 0 (Nat.succ_pos _) s t hs hf)
      exact ⟨i + 1, Nat.succ_le_succ hi, hI, fun hnone => congrArg (· + 1) (hall hnone)⟩
    | error e =>
      rw [exec_cons_error hf]
      exact ⟨0, Nat.zero_le _, hs, fun hnone => absurd hnone (Option.some_ne_none e)⟩

/-- What stops the steps leaves the state behind those before. -/
theorem exec_error_take {fs : List (σ → Except ε σ)} {s s' : σ} {e : ε}
    (h : exec fs s = (some e, s')) : ∃ n < fs.length, exec (fs.take n) s = (none, s') := by
  induction fs generalizing s with
  | nil => cases h
  | cons f fs ih =>
    cases hf : f s with
    | ok t =>
      rw [exec_cons_ok hf] at h
      obtain ⟨n, hn, hrun⟩ := ih h
      exact ⟨n + 1, Nat.succ_lt_succ hn, by rw [List.take_succ_cons, exec_cons_ok hf, hrun]⟩
    | error e' =>
      rw [exec_cons_error hf] at h
      cases h
      exact ⟨0, Nat.succ_pos _, rfl⟩

theorem exec_take_succ {fs : List (σ → Except ε σ)} {s w w' : σ} {k : ℕ} (hk : k < fs.length)
    (h : exec (fs.take k) s = (none, w)) (hok : fs[k] w = .ok w') :
    exec (fs.take (k + 1)) s = (none, w') := by
  rw [List.take_add_one, List.getElem?_eq_getElem hk, Option.toList_some, exec_append, h]
  exact exec_cons_ok hok

theorem exec_take_append (fs gs : List (σ → Except ε σ)) (n : ℕ) (s : σ) :
    (∃ k, exec ((fs ++ gs).take n) s = exec (fs.take k) s) ∨
      ∃ k, (exec fs s).1 = none ∧
        exec ((fs ++ gs).take n) s = exec (gs.take k) (exec fs s).2 := by
  rw [List.take_append]
  rcases Nat.le_total n fs.length with hn | hn
  · refine .inl ⟨n, ?_⟩
    rw [Nat.sub_eq_zero_of_le hn, List.take_zero, List.append_nil]
  · rw [List.take_of_length_le hn, exec_append]
    split_ifs with hnone
    · exact .inr ⟨_, Option.isNone_iff_eq_none.mp hnone, rfl⟩
    · refine .inl ⟨fs.length, ?_⟩
      rw [List.take_length]

end Rtl8189.StepList
