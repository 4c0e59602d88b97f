import Rtl8189.BufferWalk

/-!
# Walks that call others

A loop over items hands some of them to a loop of their own, and goes on when that one ends.
It is bounded if and only if it is at each item that it comes to.
-/
namespace Rtl8189.WalkCalls

open AccessTrace BufferWalk

variable {σ κ ρ : Type*}

/-- At an item the loop ends or goes on to the next, which may wait for an inner loop. -/
structure Loop (σ κ ρ : Type*) where
  start : ρ ⊕ σ
  ops : σ → List Op
  out : σ → ρ ⊕ Option κ
  step : σ → σ
  inner : σ → κ → Round κ Unit

inductive Cursor (σ κ : Type*) where
  | entry
  | item (x : σ)
  | call (x : σ) (c : κ)

namespace Loop

def round (l : Loop σ κ ρ) : Cursor σ κ → Round (Cursor σ κ) ρ
  | .entry => ⟨[], l.start.map id .item⟩
  | .item x =>
    ⟨l.ops x, (l.out x).map id fun
      | none => .item (l.step x)
      | some c => .call x c⟩
  | .call x c =>
    ⟨(l.inner x c).ops,
      match (l.inner x c).next with
      | .inl () => .inr (.item (l.step x))
      | .inr c' => .inr (.call x c')⟩

variable (l : Loop σ κ ρ)

def Stop (x : σ) : Prop := ∃ r, l.out x = .inl r

def Fits (len : ℕ) (x : σ) : Prop :=
  Within len (l.ops x) ∧ ∀ c, l.out x = .inr (some c) → Bounded (l.inner x) len c

variable {l} {len : ℕ} {x : σ}

theorem out_of_go (h : ¬ l.Stop x) : ∃ k, l.out x = .inr k := by
  cases hout : l.out x with
  | inl r => exact absurd ⟨r, hout⟩ h
  | inr k => exact ⟨k, rfl⟩

theorem next_pass (h : l.out x = .inr none) :
    (l.round (.item x)).next = .inr (.item (l.step x)) := by
  rw [round, h]
  rfl

theorem next_call {c : κ} (h : l.out x = .inr (some c)) :
    (l.round (.item x)).next = .inr (.call x c) := by
  rw [round, h]
  rfl

theorem next_inner {c c' : κ} (h : (l.inner x c).next = .inr c') :
    (l.round (.call x c)).next = .inr (.call x c') := by
  dsimp only [round]
  rw [h]

theorem next_return {c : κ} (h : (l.inner x c).next = .inl ()) :
    (l.round (.call x c)).next = .inr (.item (l.step x)) := by
  dsimp only [round]
  rw [h]

theorem reaches_call {c c' : κ} (h : Reaches (l.inner x) c c') :
    Reaches l.round (.call x c) (.call x c') := by
  induction h with
  | start => exact .start
  | next _ hnext ih => exact ih.next (next_inner hnext)

theorem reaches_return {c : κ} (h : Returns (l.inner x) c ()) :
    Reaches l.round (.call x c) (.item (l.step x)) := by
  obtain ⟨c', hc', hdone⟩ := returns_iff.mp h
  exact (reaches_call hc').next (next_return hdone)

theorem returns_inner {c : κ} {r : ρ} (h : Returns l.round (.call x c) r) :
    Returns (l.inner x) c () := by
  obtain ⟨n, hn⟩ := h
  induction n generalizing c with
  | zero => exact nomatch hn
  | succ n ih =>
    cases hnext : (l.inner x c).next with
    | inl q => exact returns_iff.mpr ⟨c, .start, hnext⟩
    | inr c' =>
      rw [result, next_inner hnext] at hn
      exact (Returns.of_next hnext).mpr (ih hn)

theorem bounded_inner {c : κ} (h : Bounded l.round len (.call x c)) :
    Bounded (l.inner x) len c := by
  obtain ⟨r, hr⟩ := h.ends
  refine ⟨⟨(), returns_inner hr⟩, stays_iff.mpr fun c' hc' => ?_⟩
  exact (h.reached (reaches_call hc')).ops

theorem reaches_item {x₀ : σ} (h : Bounded l.round len .entry) (hstart : l.start = .inr x₀)
    (hx : Item l.step l.Stop x₀ x) : Reaches l.round .entry (.item x) := by
  induction hx with
  | first =>
    refine .next .start ?_
    rw [round, hstart]
    rfl
  | @next p _ hgo ih =>
    obtain ⟨k, hk⟩ := out_of_go hgo
    cases k with
    | none => exact ih.next (next_pass hk)
    | some c =>
      have hcall : Reaches l.round .entry (.call p c) := ih.next (next_call hk)
      obtain ⟨r, hr⟩ := (h.reached hcall).ends
      exact hcall.trans (reaches_return (returns_inner hr))

theorem fits_of_bounded (h : Bounded l.round len (.item x)) : l.Fits len x :=
  ⟨h.ops, fun _ hc => bounded_inner (h.reached (.next .start (next_call hc)))⟩

theorem reaches_cases {x₀ : σ} (hstart : l.start = .inr x₀) {t : Cursor σ κ}
    (ht : Reaches l.round .entry t) :
    match t with
    | .entry => True
    | .item x => Item l.step l.Stop x₀ x
    | .call x c => Item l.step l.Stop x₀ x ∧
        ∃ c₀, l.out x = .inr (some c₀) ∧ Reaches (l.inner x) c₀ c := by
  induction ht with
  | start => trivial
  | @next t t' _ hnext ih =>
    cases t with
    | entry =>
      rw [round, hstart] at hnext
      cases hnext
      exact .first
    | item x =>
      cases hout : l.out x with
      | inl r =>
        rw [round, hout] at hnext
        exact nomatch hnext
      | inr k =>
        have hgo : ¬ l.Stop x := by
          rintro ⟨r, hr⟩
          rw [hout] at hr
          exact nomatch hr
        cases k with
        | none =>
          rw [next_pass hout] at hnext
          cases hnext
          exact ih.next hgo
        | some c =>
          rw [next_call hout] at hnext
          cases hnext
          exact ⟨ih, c, hout, .start⟩
    | call x c =>
      obtain ⟨hx, c₀, hout, hc⟩ := ih
      cases hinner : (l.inner x c).next with
      | inl q =>
        rw [next_return hinner] at hnext
        cases hnext
        refine hx.next ?_
        rintro ⟨r, hr⟩
        rw [hout] at hr
        exact nomatch hr
      | inr c' =>
        rw [next_inner hinner] at hnext
        cases hnext
        exact ⟨hx, c₀, hout, hc.next hinner⟩

theorem item_ends {x₀ : σ} (m : σ → ℕ)
    (hm : ∀ x, ¬ l.Stop x → l.Fits len x → m (l.step x) < m x)
    (hfits : ∀ x, Item l.step l.Stop x₀ x → l.Fits len x) (hx : Item l.step l.Stop x₀ x) :
    ∃ r, Returns l.round (.item x) r := by
  generalize hk : m x = k
  induction k using Nat.strongRecOn generalizing x with
  | ind k ih =>
    by_cases hstop : l.Stop x
    · obtain ⟨r, hr⟩ := hstop
      refine ⟨r, returns_iff.mpr ⟨.item x, .start, ?_⟩⟩
      rw [round, hr]
      rfl
    · obtain ⟨r, hr⟩ := ih (m (l.step x)) (hk ▸ hm x hstop (hfits x hx)) (hx.next hstop) rfl
      obtain ⟨k, hout⟩ := out_of_go hstop
      refine ⟨r, hr.of_reaches ?_⟩
      cases k with
      | none => exact .next .start (next_pass hout)
      | some c =>
        obtain ⟨⟨⟩, hinner⟩ := ((hfits x hx).2 c hout).ends
        exact (reaches_return hinner).head (next_call hout)

theorem bounded_of_inl {r : ρ} (h : l.start = .inl r) : Bounded l.round len .entry := by
  have hnext : (l.round .entry).next = .inl r := by
    rw [round, h]
    rfl
  refine ⟨⟨r, returns_iff.mpr ⟨.entry, .start, hnext⟩⟩, stays_iff.mpr fun t ht => ?_⟩
  obtain rfl | ⟨t', hnext', -⟩ := ht.cases_head
  · exact within_nil
  · rw [hnext] at hnext'
    exact nomatch hnext'

/-- A loop whose steps lead on in the buffer is bounded if and only if it is at each item. -/
theorem bounded_iff (m : σ → ℕ) (hm : ∀ x, ¬ l.Stop x → l.Fits len x → m (l.step x) < m x) :
    Bounded l.round len .entry ↔
      ∀ x₀, l.start = .inr x₀ → ∀ x, Item l.step l.Stop x₀ x → l.Fits len x := by
  constructor
  · intro h x₀ hstart x hx
    exact fits_of_bounded (h.reached (reaches_item h hstart hx))
  · intro h
    cases hstart : l.start with
    | inl r => exact bounded_of_inl hstart
    | inr x₀ =>
      have hfits := h x₀ hstart
      constructor
      · obtain ⟨r, hr⟩ := item_ends m hm hfits .first
        refine ⟨r, hr.of_reaches (.next .start ?_)⟩
        rw [round, hstart]
        rfl
      · rw [stays_iff]
        intro t ht
        have hcases := reaches_cases hstart ht
        cases t with
        | entry => exact within_nil
        | item x => exact (hfits x hcases).1
        | call x c =>
          obtain ⟨hx, c₀, hout, hc⟩ := hcases
          exact (((hfits x hx).2 c₀ hout).reached hc).ops

end Loop

end Rtl8189.WalkCalls
