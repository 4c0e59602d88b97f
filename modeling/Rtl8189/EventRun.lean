import Mathlib.Data.List.Basic

/-!
# Runs of a state machine over a list of events

A run folds a total step function over the events. A condition on the state
before a step and on its event can be required along the whole run; an
invariant kept by every step that meets the condition then holds at the end,
and hence after every prefix.
-/
namespace Rtl8189.EventRun

variable {σ ι : Type*}

def run (step : σ → ι → σ) (s : σ) (es : List ι) : σ := es.foldl step s

@[simp] theorem run_nil (step : σ → ι → σ) (s : σ) : run step s [] = s := rfl

@[simp] theorem run_cons (step : σ → ι → σ) (s : σ) (e : ι) (es : List ι) :
    run step s (e :: es) = run step (step s e) es := rfl

theorem run_append (step : σ → ι → σ) (s : σ) (es fs : List ι) :
    run step s (es ++ fs) = run step (run step s es) fs := List.foldl_append

/-- The condition holds of each event and of the state it meets. -/
def Along (step : σ → ι → σ) (cond : σ → ι → Prop) : σ → List ι → Prop
  | _, [] => True
  | s, e :: es => cond s e ∧ Along step cond (step s e) es

instance (step : σ → ι → σ) (cond : σ → ι → Prop) [∀ s e, Decidable (cond s e)] :
    ∀ s es, Decidable (Along step cond s es)
  | _, [] => inferInstanceAs (Decidable True)
  | s, e :: es =>
    have := instDecidableAlong step cond (step s e) es
    inferInstanceAs (Decidable (_ ∧ _))

theorem Along.imp {step : σ → ι → σ} {cond cond' : σ → ι → Prop}
    (hcond : ∀ s e, cond s e → cond' s e) {s : σ} {es : List ι} (hes : Along step cond s es) :
    Along step cond' s es := by
  induction es generalizing s with
  | nil => trivial
  | cons e es ih => exact ⟨hcond s e hes.1, ih hes.2⟩

theorem Along.and_of_forall {step : σ → ι → σ} {cond : σ → ι → Prop} {q : ι → Prop} {s : σ}
    {es : List ι} (hes : Along step cond s es) (hq : ∀ e ∈ es, q e) :
    Along step (fun s e => q e ∧ cond s e) s es := by
  induction es generalizing s with
  | nil => trivial
  | cons e es ih =>
    refine ⟨⟨hq e List.mem_cons_self, hes.1⟩, ih hes.2 ?_⟩
    intro e' he'
    exact hq e' (List.mem_cons_of_mem e he')

theorem run_spec {step : σ → ι → σ} (cond : σ → ι → Prop) (P : σ → Prop)
    (hstep : ∀ s e, P s → cond s e → P (step s e)) {s : σ} (hs : P s) {es : List ι}
    (hes : Along step cond s es) : P (run step s es) := by
  induction es generalizing s with
  | nil => exact hs
  | cons e es ih => exact ih (hstep s e hs hes.1) hes.2

theorem Along.take {step : σ → ι → σ} {cond : σ → ι → Prop} {s : σ} {es : List ι}
    (hes : Along step cond s es) (n : ℕ) : Along step cond s (es.take n) := by
  induction es generalizing s n with
  | nil => rwa [List.take_nil]
  | cons e es ih =>
    cases n with
    | zero => trivial
    | succ n => exact ⟨hes.1, ih hes.2 n⟩

theorem run_invariant {step : σ → ι → σ} (P : σ → Prop) (hstep : ∀ s e, P s → P (step s e))
    {s : σ} (hs : P s) (es : List ι) : P (run step s es) := by
  induction es generalizing s with
  | nil => exact hs
  | cons e es ih => exact ih (hstep s e hs)

theorem Along.of_invariant {step : σ → ι → σ} {cond cond' : σ → ι → Prop} (I : σ → Prop)
    (hstep : ∀ s e, I s → cond s e → I (step s e)) (himp : ∀ s e, I s → cond s e → cond' s e)
    {s : σ} {es : List ι} (hes : Along step cond s es) (hs : I s) : Along step cond' s es := by
  induction es generalizing s with
  | nil => trivial
  | cons e es ih => exact ⟨himp s e hs hes.1, ih hes.2 (hstep s e hs hes.1)⟩

/-- Where the condition is what keeps the property in a step, it is required along the
run just when the property holds in every state that the run reaches. -/
theorem along_iff {step : σ → ι → σ} {cond : σ → ι → Prop} {I P : σ → Prop}
    (hinv : ∀ s e, I s → I (step s e))
    (hstep : ∀ s e, I s → P s → (P (step s e) ↔ cond s e)) {s : σ} (hI : I s) (hP : P s)
    (es : List ι) : Along step cond s es ↔ ∀ n, P (run step s (es.take n)) := by
  induction es generalizing s with
  | nil => exact iff_of_true trivial (fun n => by rwa [List.take_nil])
  | cons e es ih =>
    constructor
    · rintro ⟨hc, hes⟩ n
      have hP' := (hstep s e hI hP).2 hc
      cases n with
      | zero => exact hP
      | succ n => exact (ih (hinv s e hI) hP').1 hes n
    · intro h
      have hP' : P (step s e) := h 1
      exact ⟨(hstep s e hI hP).1 hP', (ih (hinv s e hI) hP').2 fun n => h (n + 1)⟩

theorem along_iff_of_kept {step : σ → ι → σ} {cond : σ → ι → Prop} {I P : σ → Prop}
    (himp : ∀ s, I s → P s) (hkeep : ∀ s e, I s → cond s e → I (step s e))
    (hcond : ∀ s e, I s → P (step s e) → cond s e) {s : σ} (hI : I s) (es : List ι) :
    Along step cond s es ↔ ∀ n, P (run step s (es.take n)) := by
  induction es generalizing s with
  | nil => exact iff_of_true trivial (fun n => by rw [List.take_nil]; exact himp s hI)
  | cons e es ih =>
    constructor
    · rintro ⟨hc, hes⟩ n
      cases n with
      | zero => exact himp s hI
      | succ n => exact (ih (hkeep s e hI hc)).1 hes n
    · intro h
      have hc : cond s e := hcond s e hI (h 1)
      exact ⟨hc, (ih (hkeep s e hI hc)).2 fun n => h (n + 1)⟩

end Rtl8189.EventRun
