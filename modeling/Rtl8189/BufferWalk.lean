import Rtl8189.AccessTrace
import Mathlib.Logic.Function.Iterate
import Mathlib.Order.Monotone.Basic

/-!
# Walks over a buffer

A loop that moves over a buffer: a round reads some stretches of it, and then either ends with
a result or says where the next round takes place. Nothing says that the loop gets on. Items
that carry their sizes follow one another, up to the first of those that are looked for.
-/
namespace Rtl8189.BufferWalk

open AccessTrace

structure Round (σ ρ : Type*) where
  ops : List Op
  next : ρ ⊕ σ

section Walk

variable {σ ρ : Type*} (round : σ → Round σ ρ)

/-- What the first `n` rounds read. -/
def reads : ℕ → σ → List Op
  | 0, _ => []
  | n + 1, s => (round s).ops ++
    match (round s).next with
    | .inl _ => []
    | .inr t => reads n t

def result : ℕ → σ → Option ρ
  | 0, _ => none
  | n + 1, s =>
    match (round s).next with
    | .inl r => some r
    | .inr t => result n t

def Returns (s : σ) (r : ρ) : Prop := ∃ n, result round n s = some r

def Stays (len : ℕ) (s : σ) : Prop := ∀ n, Within len (reads round n s)

inductive Reaches (s : σ) : σ → Prop
  | start : Reaches s s
  | next {t t'} : Reaches s t → (round t).next = .inr t' → Reaches s t'

variable {round}

theorem reads_succ (n : ℕ) (s : σ) : reads round (n + 1) s = (round s).ops ++
    match (round s).next with
    | .inl _ => []
    | .inr t => reads round n t := rfl

theorem result_succ (n : ℕ) (s : σ) : result round (n + 1) s =
    match (round s).next with
    | .inl r => some r
    | .inr t => result round n t := rfl

theorem Reaches.head {s t u : σ} (h : (round s).next = .inr t) (ht : Reaches round t u) :
    Reaches round s u := by
  induction ht with
  | start => exact .next .start h
  | next _ hnext ih => exact .next ih hnext

theorem Reaches.trans {s t u : σ} (ht : Reaches round s t) (hu : Reaches round t u) :
    Reaches round s u := by
  induction hu with
  | start => exact ht
  | next _ hnext ih => exact .next ih hnext

theorem Reaches.cases_head {s u : σ} (h : Reaches round s u) :
    u = s ∨ ∃ t, (round s).next = .inr t ∧ Reaches round t u := by
  induction h with
  | start => exact .inl rfl
  | @next t t' _ hnext ih =>
    obtain rfl | ⟨t₁, hfirst, ht₁⟩ := ih
    · exact .inr ⟨t', hnext, .start⟩
    · exact .inr ⟨t₁, hfirst, .next ht₁ hnext⟩

theorem stays_iff {len : ℕ} {s : σ} :
    Stays round len s ↔ ∀ t, Reaches round s t → Within len (round t).ops := by
  constructor
  · intro h t ht
    have hreads : ∀ n, Within len (reads round n t) := by
      induction ht with
      | start => exact h
      | next _ hnext ih =>
        intro n
        have hmore := ih (n + 1)
        rw [reads_succ, hnext] at hmore
        exact ((within_append _ _).mp hmore).2
    have hone := hreads 1
    rw [reads_succ] at hone
    exact ((within_append _ _).mp hone).1
  · intro h n
    induction n generalizing s with
    | zero => exact within_nil
    | succ n ih =>
      rw [reads_succ, within_append]
      refine ⟨h s .start, ?_⟩
      split
      · exact within_nil
      · next t hnext => exact ih fun u hu => h u (hu.head hnext)

theorem returns_iff {s : σ} {r : ρ} :
    Returns round s r ↔ ∃ t, Reaches round s t ∧ (round t).next = .inl r := by
  constructor
  · rintro ⟨n, hn⟩
    induction n generalizing s with
    | zero => exact nomatch hn
    | succ n ih =>
      rw [result_succ] at hn
      split at hn
      · next r' hdone =>
        cases hn
        exact ⟨s, .start, hdone⟩
      · next t hnext =>
        obtain ⟨u, hu, hdone⟩ := ih hn
        exact ⟨u, hu.head hnext, hdone⟩
  · rintro ⟨t, ht, hdone⟩
    have hlast : Returns round t r := ⟨1, by rw [result_succ, hdone]⟩
    clear hdone
    induction ht with
    | start => exact hlast
    | next _ hnext ih =>
      obtain ⟨n, hn⟩ := hlast
      exact ih ⟨n + 1, by rw [result_succ, hnext]; exact hn⟩

theorem Returns.of_next {s t : σ} {r : ρ} (hnext : (round s).next = .inr t) :
    Returns round s r ↔ Returns round t r := by
  constructor
  · rintro ⟨n, hn⟩
    cases n with
    | zero => exact nomatch hn
    | succ n =>
      rw [result_succ, hnext] at hn
      exact ⟨n, hn⟩
  · rintro ⟨n, hn⟩
    exact ⟨n + 1, by rw [result_succ, hnext]; exact hn⟩

theorem Returns.reached {s t : σ} {r : ρ} (h : Returns round s r) (ht : Reaches round s t) :
    Returns round t r := by
  induction ht with
  | start => exact h
  | next _ hnext ih => exact (Returns.of_next hnext).mp ih

theorem Returns.of_reaches {s t : σ} {r : ρ} (ht : Reaches round s t) (h : Returns round t r) :
    Returns round s r := by
  obtain ⟨u, hu, hdone⟩ := returns_iff.mp h
  exact returns_iff.mpr ⟨u, ht.trans hu, hdone⟩

theorem Returns.unique {s : σ} {r r' : ρ} (h : Returns round s r) (h' : Returns round s r') :
    r = r' := by
  obtain ⟨t, ht, hdone⟩ := returns_iff.mp h'
  obtain ⟨n, hn⟩ := h.reached ht
  cases n with
  | zero => exact nomatch hn
  | succ n =>
    rw [result_succ, hdone] at hn
    exact (Option.some.inj hn).symm

theorem not_returns_of_stuck {s t : σ} (ht : Reaches round s t) (hstuck : (round t).next = .inr t)
    (r : ρ) : ¬ Returns round s r := by
  intro h
  obtain ⟨n, hn⟩ := h.reached ht
  induction n with
  | zero => exact nomatch hn
  | succ n ih =>
    rw [result_succ, hstuck] at hn
    exact ih hn

theorem mem_reads_iff {s : σ} {op : Op} :
    (∃ n, op ∈ reads round n s) ↔ ∃ t, Reaches round s t ∧ op ∈ (round t).ops := by
  constructor
  · rintro ⟨n, hn⟩
    induction n generalizing s with
    | zero => exact nomatch hn
    | succ n ih =>
      rw [reads_succ] at hn
      rcases List.mem_append.mp hn with hop | hmore
      · exact ⟨s, .start, hop⟩
      · split at hmore
        · exact nomatch hmore
        · next t hnext =>
          obtain ⟨u, hu, hop⟩ := ih hmore
          exact ⟨u, hu.head hnext, hop⟩
  · rintro ⟨t, ht, hop⟩
    have hlast : ∃ n, op ∈ reads round n t := ⟨1, List.mem_append_left _ hop⟩
    clear hop
    induction ht with
    | start => exact hlast
    | next _ hnext ih =>
      obtain ⟨n, hn⟩ := hlast
      refine ih ⟨n + 1, List.mem_append_right _ ?_⟩
      rw [hnext]
      exact hn

theorem reads_of_result {s : σ} {r : ρ} {n : ℕ} (h : result round n s = some r) {op : Op} :
    op ∈ reads round n s ↔ ∃ m, op ∈ reads round m s := by
  refine ⟨fun hop => ⟨n, hop⟩, ?_⟩
  rintro ⟨m, hm⟩
  induction n generalizing s m with
  | zero => exact nomatch h
  | succ n ih =>
    cases m with
    | zero => exact nomatch hm
    | succ m =>
      rw [reads_succ] at hm ⊢
      rw [result_succ] at h
      split at h
      · next hdone =>
        rw [hdone] at hm
        exact hm
      · next t hnext =>
        rw [hnext] at hm
        rcases List.mem_append.mp hm with hop | hmore
        · exact List.mem_append_left _ hop
        · exact List.mem_append_right _ (ih h m hmore)

theorem result_of_measure (m : σ → ℕ) {s : σ}
    (h : ∀ t t', Reaches round s t → (round t).next = .inr t' → m t' < m t) {n : ℕ}
    (hn : m s < n) : ∃ r, result round n s = some r := by
  induction n generalizing s with
  | zero => exact absurd hn (Nat.not_lt_zero _)
  | succ n ih =>
    cases hnext : (round s).next with
    | inl r => exact ⟨r, by rw [result_succ, hnext]⟩
    | inr t =>
      have hlt := h s t .start hnext
      obtain ⟨r, hr⟩ := ih (fun u u' hu => h u u' (hu.head hnext)) (by omega)
      exact ⟨r, by rw [result_succ, hnext]; exact hr⟩

theorem returns_of_measure (m : σ → ℕ) {s : σ}
    (h : ∀ t t', Reaches round s t → (round t).next = .inr t' → m t' < m t) :
    ∃ r, Returns round s r := by
  obtain ⟨r, hr⟩ := result_of_measure m h (Nat.lt_succ_self (m s))
  exact ⟨r, _, hr⟩

variable (round) in
/-- The walk ends, and reads nothing behind the buffer. -/
structure Bounded (len : ℕ) (s : σ) : Prop where
  ends : ∃ r, Returns round s r
  stays : Stays round len s

theorem Bounded.reached {len : ℕ} {s t : σ} (h : Bounded round len s) (ht : Reaches round s t) :
    Bounded round len t := by
  obtain ⟨r, hr⟩ := h.ends
  exact ⟨⟨r, hr.reached ht⟩,
    stays_iff.mpr fun u hu => stays_iff.mp h.stays u (ht.trans hu)⟩

theorem Bounded.ops {len : ℕ} {s : σ} (h : Bounded round len s) : Within len (round s).ops :=
  stays_iff.mp h.stays s .start

end Walk

section Items

/-- Where the items start, from `start` on, each step from one to the next. -/
inductive Item {σ : Type*} (step : σ → σ) (found : σ → Prop) (start : σ) : σ → Prop
  | first : Item step found start start
  | next {p} : Item step found start p → ¬ found p → Item step found start (step p)

section Steps

variable {σ : Type*} {step : σ → σ} {found : σ → Prop} {start : σ}

theorem item_iff {p : σ} : Item step found start p ↔
    ∃ n, p = step^[n] start ∧ ∀ i < n, ¬ found (step^[i] start) := by
  constructor
  · intro h
    induction h with
    | first => exact ⟨0, rfl, fun i hi => absurd hi (Nat.not_lt_zero i)⟩
    | @next p _ hfound ih =>
      obtain ⟨n, hp, hn⟩ := ih
      refine ⟨n + 1, ?_, fun i hi => ?_⟩
      · rw [Function.iterate_succ_apply', ← hp]
      · rcases Nat.lt_succ_iff_lt_or_eq.mp hi with hi | rfl
        · exact hn i hi
        · exact hp ▸ hfound
  · rintro ⟨n, rfl, hn⟩
    induction n with
    | zero => exact .first
    | succ n ih =>
      rw [Function.iterate_succ_apply']
      exact (ih fun i hi => hn i (Nat.lt_succ_of_lt hi)).next (hn n (Nat.lt_succ_self n))

variable (found) in
theorem Item.head_iff (hfound : ¬ found start) {p : σ} :
    Item step found start p ↔ p = start ∨ Item step found (step start) p := by
  constructor
  · intro h
    induction h with
    | first => exact .inl rfl
    | next _ hno ih =>
      obtain rfl | ih := ih
      · exact .inr .first
      · exact .inr (ih.next hno)
  · rintro (rfl | h)
    · exact .first
    · induction h with
      | first => exact .next .first hfound
      | next _ hno ih => exact ih.next hno

theorem Item.unique {p q : σ} (hp : Item step found start p) (hfp : found p)
    (hq : Item step found start q) (hfq : found q) : p = q := by
  obtain ⟨n, rfl, hn⟩ := item_iff.mp hp
  obtain ⟨m, rfl, hm⟩ := item_iff.mp hq
  rcases Nat.lt_trichotomy n m with h | rfl | h
  · exact absurd hfp (hm n h)
  · rfl
  · exact absurd hfq (hn m h)

/-- Another condition to stop, that makes no difference up to some place, leads to the same items
up to there. -/
theorem Item.inside_iff {stop inside : σ → Prop} (hback : ∀ p, inside (step p) → inside p)
    (hstop : ∀ p, inside p → (stop p ↔ found p)) {p : σ} :
    Item step stop start p ∧ inside p ↔ Item step found start p ∧ inside p := by
  refine and_congr_left fun hin => ⟨fun h => ?_, fun h => ?_⟩
  · induction h with
    | first => exact .first
    | @next q _ hno ih => exact (ih (hback q hin)).next (mt (hstop q (hback q hin)).mpr hno)
  · induction h with
    | first => exact .first
    | @next q _ hno ih => exact (ih (hback q hin)).next (mt (hstop q (hback q hin)).mp hno)

end Steps

variable {step size : ℕ → ℕ} {found : ℕ → Prop} {start total : ℕ}

abbrev Sized (size : ℕ → ℕ) (found : ℕ → Prop) (start : ℕ) : ℕ → Prop :=
  Item (fun p => p + size p) found start

theorem Sized.start_le {p : ℕ} (hp : Sized size found start p) : start ≤ p := by
  induction hp with
  | first => exact Nat.le_refl start
  | next _ _ ih => exact ih.trans (Nat.le_add_right _ _)

theorem Sized.le_of_lt {p q : ℕ} (hp : Sized size found start p) (hq : Sized size found start q)
    (hlt : p < q) : p + size p ≤ q := by
  obtain ⟨n, rfl, -⟩ := item_iff.mp hp
  obtain ⟨m, rfl, -⟩ := item_iff.mp hq
  have hmono : Monotone fun n => (fun q => q + size q)^[n] start :=
    monotone_nat_of_le_succ fun n => by
      rw [Function.iterate_succ_apply']
      exact Nat.le_add_right _ _
  have hnm : n < m := by
    by_contra hge
    exact absurd (hmono (Nat.le_of_not_lt hge)) (Nat.not_le_of_lt hlt)
  have hle := hmono (Nat.succ_le_of_lt hnm)
  dsimp only at hle
  rw [Function.iterate_succ_apply'] at hle
  exact hle

def Lookup (size : ℕ → ℕ) (found : ℕ → Prop) (start total : ℕ) : Option ℕ → Prop
  | some p => Sized size found start p ∧ found p ∧ p + size p ≤ total
  | none => ∀ p, Sized size found start p → found p → total < p + size p

theorem exists_lookup (size : ℕ → ℕ) (found : ℕ → Prop) (start total : ℕ) :
    ∃ r, Lookup size found start total r := by
  by_cases h : ∃ p, Sized size found start p ∧ found p ∧ p + size p ≤ total
  · obtain ⟨p, hp⟩ := h
    exact ⟨some p, hp⟩
  · refine ⟨none, fun p hp hfound => ?_⟩
    by_contra hle
    exact h ⟨p, hp, hfound, Nat.le_of_not_lt hle⟩

variable {ρ : Type*} {round : Option ℕ → Round (Option ℕ) ρ} {s : Option ℕ}

theorem Sized.reached (hstart : Reaches round s (some start))
    (hgo : ∀ p, Reaches round s (some p) → Sized size found start p → ¬ found p →
      p + size p ≤ total → (round (some p)).next = .inr (some (p + size p)))
    {p : ℕ} (hp : Sized size found start p) (hle : p ≤ total) : Reaches round s (some p) := by
  induction hp with
  | first => exact hstart
  | @next p hp hfound ih =>
    have hreach := ih ((Nat.le_add_right p (size p)).trans hle)
    exact hreach.next (hgo p hreach hp hfound hle)

section Chain

variable {stop : ℕ → Prop} {len : ℕ}

/-- A walk that takes one step after the other until it stops is the chain of items. -/
theorem reaches_item_iff (hentry : (round none).next = .inr (some start))
    (hstop : ∀ p, stop p → ∃ r, (round (some p)).next = .inl r)
    (hgo : ∀ p, ¬ stop p → (round (some p)).next = .inr (some (step p))) {t : Option ℕ} :
    Reaches round none t ↔ t = none ∨ ∃ p, t = some p ∧ Item step stop start p := by
  constructor
  · intro h
    induction h with
    | start => exact .inl rfl
    | @next t t' _ hnext ih =>
      obtain rfl | ⟨p, rfl, hp⟩ := ih
      · rw [hentry] at hnext
        cases hnext
        exact .inr ⟨start, rfl, .first⟩
      · by_cases hs : stop p
        · obtain ⟨r, hr⟩ := hstop p hs
          rw [hr] at hnext
          exact nomatch hnext
        · rw [hgo p hs] at hnext
          cases hnext
          exact .inr ⟨_, rfl, hp.next hs⟩
  · rintro (rfl | ⟨p, rfl, hp⟩)
    · exact .start
    · induction hp with
      | first => exact .next .start hentry
      | next _ hs ih => exact .next ih (hgo _ hs)

theorem chain_stays_iff (hentry : (round none).next = .inr (some start))
    (hstop : ∀ p, stop p → ∃ r, (round (some p)).next = .inl r)
    (hgo : ∀ p, ¬ stop p → (round (some p)).next = .inr (some (step p)))
    (hops : Within len (round none).ops) :
    Stays round len none ↔ ∀ p, Item step stop start p → Within len (round (some p)).ops := by
  rw [stays_iff]
  constructor
  · intro h p hp
    exact h _ ((reaches_item_iff hentry hstop hgo).mpr (.inr ⟨p, rfl, hp⟩))
  · intro h t ht
    obtain rfl | ⟨p, rfl, hp⟩ := (reaches_item_iff hentry hstop hgo).mp ht
    · exact hops
    · exact h p hp

theorem chain_returns_iff (hentry : (round none).next = .inr (some start))
    (hstop : ∀ p, stop p → ∃ r, (round (some p)).next = .inl r)
    (hgo : ∀ p, ¬ stop p → (round (some p)).next = .inr (some (step p))) {r : ρ} :
    Returns round none r ↔ ∃ p, Item step stop start p ∧ (round (some p)).next = .inl r := by
  rw [returns_iff]
  constructor
  · rintro ⟨t, ht, hdone⟩
    obtain rfl | ⟨p, rfl, hp⟩ := (reaches_item_iff hentry hstop hgo).mp ht
    · rw [hentry] at hdone
      exact nomatch hdone
    · exact ⟨p, hp, hdone⟩
  · rintro ⟨p, hp, hdone⟩
    exact ⟨some p, (reaches_item_iff hentry hstop hgo).mpr (.inr ⟨p, rfl, hp⟩), hdone⟩

theorem chain_ends (hentry : (round none).next = .inr (some start))
    (hstop : ∀ p, stop p → ∃ r, (round (some p)).next = .inl r)
    (hgo : ∀ p, ¬ stop p → (round (some p)).next = .inr (some (step p)))
    (hlt : ∀ p, Item step stop start p → ¬ stop p → p < step p ∧ p < total) :
    ∃ r, Returns round none r := by
  refine returns_of_measure (fun t => t.elim (total + 1) (total - ·)) fun t t' ht hnext => ?_
  obtain rfl | ⟨p, rfl, hp⟩ := (reaches_item_iff hentry hstop hgo).mp ht
  · rw [hentry] at hnext
    cases hnext
    exact Nat.lt_succ_of_le (Nat.sub_le total start)
  · by_cases hs : stop p
    · obtain ⟨r, hr⟩ := hstop p hs
      rw [hr] at hnext
      exact nomatch hnext
    · rw [hgo p hs] at hnext
      cases hnext
      obtain ⟨hstep, hin⟩ := hlt p hp hs
      exact Nat.sub_lt_sub_left hin hstep

end Chain

/-- A round that takes an item as it is: it returns it, passes it by, or ends at one that does
not fit. It may also go where nothing is read, past an item that does not fit. -/
def Honest (round : Option ℕ → Round (Option ℕ) (Option (ℕ × ℕ))) (size : ℕ → ℕ) (found : ℕ → Prop)
    (total p : ℕ) : Prop :=
  match (round (some p)).next with
  | .inl (some r) => r = (p, size p) ∧ found p ∧ p + size p ≤ total
  | .inl none => total < p + size p
  | .inr none => False
  | .inr (some q) => ¬ found p ∧ p < q ∧ p < total ∧
      (q = p + size p ∨
        total < p + size p ∧ (round (some q)).ops = [] ∧ (round (some q)).next = .inl none)

/-- A function that looks an item up: it ends, with the first one asked for, it reads in the
buffer, and it reads the header of an item only where one starts. -/
structure Correct (round : Option ℕ → Round (Option ℕ) (Option (ℕ × ℕ))) (opens : Prop)
    (size : ℕ → ℕ) (found : ℕ → Prop) (start total : ℕ) : Prop where
  finds : ∃ r, Returns round none (r.map fun p => (p, size p)) ∧
    (opens → Lookup size found start total r) ∧ (¬ opens → r = none)
  stays : Stays round total none
  aligned : ∀ p, Reaches round none (some p) → (round (some p)).ops ≠ [] →
    Sized size found start p

section Honest

variable {round : Option ℕ → Round (Option ℕ) (Option (ℕ × ℕ))} {opens : Prop}

theorem reaches_honest (hentry : (round none).next = .inr (some start))
    (hhonest : ∀ p, Sized size found start p → Honest round size found total p) {t : Option ℕ}
    (ht : Reaches round none t) :
    t = none ∨ ∃ p, t = some p ∧ (Sized size found start p ∨
      (round (some p)).ops = [] ∧ (round (some p)).next = .inl none) := by
  induction ht with
  | start => exact .inl rfl
  | @next t t' _ hnext ih =>
    obtain rfl | ⟨p, rfl, hp | ⟨-, hdone⟩⟩ := ih
    · rw [hentry] at hnext
      cases hnext
      exact .inr ⟨start, rfl, .inl .first⟩
    · have hh := hhonest p hp
      rw [Honest, hnext] at hh
      cases t' with
      | none => exact hh.elim
      | some q =>
        obtain ⟨hfound, -, -, rfl | ⟨-, hend⟩⟩ := hh
        · exact .inr ⟨_, rfl, .inl (hp.next hfound)⟩
        · exact .inr ⟨q, rfl, .inr hend⟩
    · rw [hdone] at hnext
      exact nomatch hnext

theorem returns_honest (hentry : (round none).next = .inr (some start))
    (hhonest : ∀ p, Sized size found start p → Honest round size found total p) :
    ∃ r, Returns round none r := by
  refine returns_of_measure (fun t => t.elim (total + 1) (total - ·)) fun t t' ht hnext => ?_
  obtain rfl | ⟨p, rfl, hp | ⟨-, hdone⟩⟩ := reaches_honest hentry hhonest ht
  · rw [hentry] at hnext
    cases hnext
    exact Nat.lt_succ_of_le (Nat.sub_le total start)
  · have hh := hhonest p hp
    rw [Honest, hnext] at hh
    cases t' with
    | none => exact hh.elim
    | some q =>
      obtain ⟨-, hpq, hpt, -⟩ := hh
      exact Nat.sub_lt_sub_left hpt hpq
  · rw [hdone] at hnext
    exact nomatch hnext

/-- An item asked for that fits is what a walk over honest rounds returns. -/
theorem returns_item (hentry : (round none).next = .inr (some start))
    (hhonest : ∀ p, Sized size found start p → Honest round size found total p) {p : ℕ}
    (hp : Sized size found start p) (hfound : found p) (hfits : p + size p ≤ total) :
    Returns round none (some (p, size p)) := by
  have hgo : ∀ q, Reaches round none (some q) → Sized size found start q → ¬ found q →
      q + size q ≤ total → (round (some q)).next = .inr (some (q + size q)) := by
    intro q _ hq hno hle
    have hh := hhonest q hq
    rw [Honest] at hh
    split at hh
    · exact absurd hh.2.1 hno
    · omega
    · exact hh.elim
    · next q' hnext =>
      obtain ⟨-, -, -, rfl | ⟨hlt, -⟩⟩ := hh
      · exact hnext
      · omega
  have hreach := hp.reached (.next .start hentry) hgo (by omega)
  have hh := hhonest p hp
  rw [Honest] at hh
  refine returns_iff.mpr ⟨some p, hreach, ?_⟩
  split at hh
  · next r hdone => rw [hdone, hh.1]
  · omega
  · exact hh.elim
  · exact absurd hfound hh.1

theorem Correct.of_honest [Decidable opens]
    (hentry : (round none).next = if opens then .inr (some start) else .inl none)
    (hhonest : opens → ∀ p, Sized size found start p → Honest round size found total p)
    (hops : Within total (round none).ops)
    (hitem : opens → ∀ p, Sized size found start p → Within total (round (some p)).ops) :
    Correct round opens size found start total := by
  by_cases hopens : opens
  · rw [if_pos hopens] at hentry
    have hitems := hhonest hopens
    refine ⟨?_, stays_iff.mpr fun t ht => ?_, fun p hp hops => ?_⟩
    · obtain ⟨r, hlook⟩ := exists_lookup size found start total
      refine ⟨r, ?_, fun _ => hlook, fun hno => absurd hopens hno⟩
      cases r with
      | some p => exact returns_item hentry hitems hlook.1 hlook.2.1 hlook.2.2
      | none =>
        obtain ⟨r, hr⟩ := returns_honest hentry hitems
        cases r with
        | none => exact hr
        | some r =>
          obtain ⟨t, ht, hdone⟩ := returns_iff.mp hr
          obtain rfl | ⟨p, rfl, hp | ⟨-, hnone⟩⟩ := reaches_honest hentry hitems ht
          · rw [hentry] at hdone
            exact nomatch hdone
          · have hh := hitems p hp
            rw [Honest, hdone] at hh
            exact absurd (hlook p hp hh.2.1) (Nat.not_lt_of_le hh.2.2)
          · rw [hnone] at hdone
            exact nomatch hdone
    · obtain rfl | ⟨p, rfl, hp | ⟨hnil, -⟩⟩ := reaches_honest hentry hitems ht
      · exact hops
      · exact hitem hopens p hp
      · rw [hnil]
        exact within_nil
    · obtain heq | ⟨q, heq, hq | ⟨hnil, -⟩⟩ := reaches_honest hentry hitems hp
      · exact nomatch heq
      · cases heq
        exact hq
      · cases heq
        exact absurd hnil hops
  · rw [if_neg hopens] at hentry
    have honly : ∀ t, Reaches round none t → t = none := by
      intro t ht
      obtain rfl | ⟨t', hnext, -⟩ := ht.cases_head
      · rfl
      · rw [hentry] at hnext
        exact nomatch hnext
    refine ⟨⟨none, returns_iff.mpr ⟨none, .start, hentry⟩, fun h => absurd h hopens, fun _ => rfl⟩,
      stays_iff.mpr fun t ht => ?_, fun p hp _ => nomatch honly (some p) hp⟩
    rw [honly t ht]
    exact hops

end Honest

end Items

end Rtl8189.BufferWalk
