import Rtl8189.EventRun

/-!
# Machines that answer alike

Two machines meet the same events. Where a relation between their states is kept by each event
and makes the answers equal, all the answers of a run are equal, as long as the condition under
which this is so holds along the run.
-/
namespace Rtl8189.Lockstep

open EventRun

variable {σ τ ι ω : Type*}

structure Machine (σ ι ω : Type*) where
  step : σ → ι → σ
  answer : σ → ι → ω

def Machine.answers (m : Machine σ ι ω) : σ → List ι → List ω
  | _, [] => []
  | s, e :: es => m.answer s e :: m.answers (m.step s e) es

structure Simulates (m : Machine σ ι ω) (m' : Machine τ ι ω) (cond : σ → ι → Prop)
    (R : σ → τ → Prop) : Prop where
  answer : ∀ s t e, R s t → cond s e → m.answer s e = m'.answer t e
  step : ∀ s t e, R s t → cond s e → R (m.step s e) (m'.step t e)

variable {m : Machine σ ι ω} {m' : Machine τ ι ω} {cond : σ → ι → Prop} {R : σ → τ → Prop}

theorem Simulates.answers_eq (h : Simulates m m' cond R) {s : σ} {t : τ} {es : List ι}
    (hst : R s t) (hes : Along m.step cond s es) : m.answers s es = m'.answers t es := by
  induction es generalizing s t with
  | nil => rfl
  | cons e es ih =>
    have hhead := h.answer s t e hst hes.1
    have htail := ih (h.step s t e hst hes.1) hes.2
    rw [Machine.answers, Machine.answers, hhead, htail]

/-- Where an answer differs as soon as the condition fails, it holds along the runs whose answers
are equal, and along no others. -/
theorem Simulates.answers_eq_iff (h : Simulates m m' cond R)
    (hcond : ∀ s t e, R s t → m.answer s e = m'.answer t e → cond s e) {s : σ} {t : τ}
    {es : List ι} (hst : R s t) : m.answers s es = m'.answers t es ↔ Along m.step cond s es := by
  refine ⟨fun heq => ?_, h.answers_eq hst⟩
  induction es generalizing s t with
  | nil => trivial
  | cons e es ih =>
    obtain ⟨hhead, htail⟩ := List.cons.inj heq
    have he := hcond s t e hst hhead
    exact ⟨he, ih (h.step s t e hst he) htail⟩

end Rtl8189.Lockstep
