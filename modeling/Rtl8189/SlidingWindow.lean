import Mathlib.Algebra.Order.Group.Int
import Mathlib.Data.List.Chain
import Mathlib.Data.List.Pairwise

/-!
# A sliding receive window over unwrapped sequence numbers

Items carry an integer number. The window keeps early items in a sorted list,
moves its start when the next number arrives, when a number beyond its end
arrives, or when a timer forces the first pending item out, and hands items up
in increasing order. `Ordered` is the invariant that makes the order survive a
start that was moved from outside; `half` bounds the distance at which two
numbers can still be compared on the wire.
-/
namespace Rtl8189.SlidingWindow

variable {α : Type*}

abbrev Item (α : Type*) := ℤ × α

structure Window (α : Type*) where
  start : ℤ
  size : ℤ
  pending : List (Item α)

/-- The start after an arriving number, or nothing when the number is old. -/
def advance (size start n : ℤ) : Option ℤ :=
  if n < start then none
  else if n = start then some (start + 1)
  else if start + size - 1 < n then some (n + 1 - size)
  else some start

def insert (x : Item α) : List (Item α) → Option (List (Item α))
  | [] => some [x]
  | y :: l =>
    if y.1 < x.1 then (insert x l).map (y :: ·)
    else if y.1 = x.1 then none
    else some (x :: y :: l)

theorem insert_nil (x : Item α) : insert x [] = some [x] := rfl

theorem insert_cons (x y : Item α) (l : List (Item α)) : insert x (y :: l) =
    if y.1 < x.1 then (insert x l).map (y :: ·)
    else if y.1 = x.1 then none
    else some (x :: y :: l) := rfl

structure Released (α : Type*) where
  start : ℤ
  out : List (Item α)
  kept : List (Item α)

def release (start : ℤ) : List (Item α) → Released α
  | [] => ⟨start, [], []⟩
  | x :: l =>
    if start < x.1 then ⟨start, [], x :: l⟩
    else
      let r := release (if start = x.1 then start + 1 else start) l
      ⟨r.start, x :: r.out, r.kept⟩

theorem release_nil (start : ℤ) : release start ([] : List (Item α)) = ⟨start, [], []⟩ := rfl

theorem release_cons (start : ℤ) (x : Item α) (l : List (Item α)) : release start (x :: l) =
    if start < x.1 then ⟨start, [], x :: l⟩
    else
      ⟨(release (if start = x.1 then start + 1 else start) l).start,
        x :: (release (if start = x.1 then start + 1 else start) l).out,
        (release (if start = x.1 then start + 1 else start) l).kept⟩ := rfl

structure Received (α : Type*) where
  window : Window α
  accepted : Bool
  out : List (Item α)

def Window.drain (W : Window α) : Received α :=
  let r := release W.start W.pending
  ⟨⟨r.start, W.size, r.kept⟩, true, r.out⟩

def Window.receive (W : Window α) (x : Item α) : Received α :=
  match advance W.size W.start x.1 with
  | none => ⟨W, false, []⟩
  | some start =>
    match insert x W.pending with
    | none => ⟨{ W with start := start }, false, []⟩
    | some q => ({ W with start := start, pending := q } : Window α).drain

def Window.force (W : Window α) : Received α :=
  match W.pending.head? with
  | none => ⟨W, true, []⟩
  | some x => ({ W with start := x.1 } : Window α).drain

def Sorted (l : List (Item α)) : Prop := l.Pairwise (fun x y => x.1 < y.1)

theorem insert_perm {x : Item α} {l q : List (Item α)} (h : insert x l = some q) :
    q.Perm (x :: l) := by
  induction l generalizing q with
  | nil =>
    simp only [insert_nil, Option.some.injEq] at h
    rw [← h]
  | cons y l ih =>
    simp only [insert_cons] at h
    split_ifs at h with hlt heq
    · obtain ⟨r, hr, rfl⟩ := Option.map_eq_some_iff.mp h
      exact ((ih hr).cons y).trans (.swap x y l)
    · obtain rfl := Option.some.inj h
      exact .refl _

theorem insert_sorted {x : Item α} {l q : List (Item α)} (hl : Sorted l)
    (h : insert x l = some q) : Sorted q := by
  induction l generalizing q with
  | nil =>
    simp only [insert_nil, Option.some.injEq] at h
    rw [← h]
    exact List.pairwise_singleton _ _
  | cons y l ih =>
    have hy := List.pairwise_cons.mp hl
    simp only [insert_cons] at h
    split_ifs at h with hlt heq
    · obtain ⟨r, hr, rfl⟩ := Option.map_eq_some_iff.mp h
      refine List.pairwise_cons.mpr ⟨fun z hz => ?_, ih hy.2 hr⟩
      rcases List.mem_cons.mp ((insert_perm hr).mem_iff.mp hz) with rfl | hz
      · exact hlt
      · exact hy.1 z hz
    · obtain rfl := Option.some.inj h
      refine List.pairwise_cons.mpr ⟨fun z hz => ?_, hl⟩
      rcases List.mem_cons.mp hz with rfl | hz
      · omega
      · have hyz := hy.1 z hz
        omega

theorem insert_eq_none {x : Item α} {l : List (Item α)} (h : insert x l = none) :
    ∃ y ∈ l, y.1 = x.1 := by
  induction l with
  | nil => simp [insert_nil] at h
  | cons y l ih =>
    simp only [insert_cons] at h
    split_ifs at h with hlt heq
    · obtain ⟨z, hz, hzx⟩ := ih (Option.map_eq_none_iff.mp h)
      exact ⟨z, List.mem_cons_of_mem y hz, hzx⟩
    · exact ⟨y, List.mem_cons_self, heq⟩

theorem release_append (start : ℤ) (l : List (Item α)) :
    (release start l).out ++ (release start l).kept = l := by
  induction l generalizing start with
  | nil => rfl
  | cons x l ih =>
    simp only [release_cons]
    split_ifs with hlt heq
    · rfl
    · exact congrArg (x :: ·) (ih _)
    · exact congrArg (x :: ·) (ih _)

theorem release_start_le (start : ℤ) (l : List (Item α)) : start ≤ (release start l).start := by
  induction l generalizing start with
  | nil => exact le_refl _
  | cons x l ih =>
    simp only [release_cons]
    split_ifs with hlt heq
    · exact le_refl _
    · exact le_trans (Int.le_add_one le_rfl) (ih (start + 1))
    · exact ih start

theorem release_out_lt (start : ℤ) (l : List (Item α)) :
    ∀ x ∈ (release start l).out, x.1 < (release start l).start := by
  induction l generalizing start with
  | nil => simp [release_nil]
  | cons y l ih =>
    simp only [release_cons]
    split_ifs with hlt heq
    · simp
    all_goals
      intro x hx
      rcases List.mem_cons.mp hx with rfl | hx
      · exact lt_of_lt_of_le (by omega) (release_start_le _ l)
      · exact ih _ x hx

theorem release_kept_gt (start : ℤ) {l : List (Item α)} (hl : Sorted l) :
    ∀ x ∈ (release start l).kept, (release start l).start < x.1 := by
  induction l generalizing start with
  | nil => simp [release_nil]
  | cons y l ih =>
    have hy := List.pairwise_cons.mp hl
    simp only [release_cons]
    split_ifs with hlt heq
    · intro x hx
      rcases List.mem_cons.mp hx with rfl | hx
      · exact hlt
      · exact hlt.trans (hy.1 x hx)
    · exact ih _ hy.2
    · exact ih _ hy.2

theorem release_start_of_nil {start : ℤ} {l : List (Item α)} (h : (release start l).out = []) :
    (release start l).start = start := by
  cases l with
  | nil => rfl
  | cons x l =>
    simp only [release_cons] at h ⊢
    split_ifs at h ⊢ with hlt
    rfl

theorem release_start_eq (start : ℤ) {l : List (Item α)} (hl : Sorted l) :
    ∀ p ∈ (release start l).out.getLast?,
      (release start l).start = max start (p.1 + 1) := by
  induction l generalizing start with
  | nil => simp [release_nil]
  | cons y l ih =>
    have hy := List.pairwise_cons.mp hl
    simp only [release_cons]
    split_ifs with hlt heq
    · simp
    all_goals
      intro p hp
      generalize hr : release _ l = r at hp ⊢
      cases hout : r.out with
      | nil =>
        simp only [hout, List.getLast?_singleton, Option.mem_def, Option.some.injEq] at hp
        have hs := release_start_of_nil (by rw [hr, hout])
        rw [hr] at hs
        rw [hs, ← hp]
        omega
      | cons z zs =>
        rw [hout, List.getLast?_cons_cons] at hp
        have hs := ih _ hy.2 p (by rw [hr, hout]; exact hp)
        have hpl : p ∈ l := by
          rw [← release_append _ l, hr, hout]
          exact List.mem_append_left _ (List.mem_of_getLast? hp)
        have hyp := hy.1 p hpl
        rw [hr] at hs
        exact hs.trans (by omega)

/-- The number handed up next to `p` is larger, and still comparable to it. -/
def Follows (half p q : ℤ) : Prop := p < q ∧ q ≤ p + half

structure Window.Ordered (half : ℤ) (W : Window α) (last : Option ℤ) : Prop where
  sorted : Sorted W.pending
  upper : ∀ x ∈ W.pending, x.1 < W.start + W.size
  room : W.pending ≠ [] → 2 ≤ W.size
  front : ∀ x ∈ W.pending.head?,
    W.start < x.1 ∨ (W.start ≤ x.1 + 1 ∧ ∀ y ∈ W.pending, y.1 ≠ x.1 + 1)
  below : ∀ p ∈ last, p < W.start
  ahead : ∀ p ∈ last, ∀ x ∈ W.pending.head?, Follows half p x.1
  idle : ∀ p ∈ last, W.pending = [] → W.start = p + 1

def Window.Ahead (W : Window α) : Prop := ∀ x ∈ W.pending, W.start < x.1

def lastOut (out : List (Item α)) (last : Option ℤ) : Option ℤ :=
  (out.getLast?.map Prod.fst).or last

theorem Sorted.head_le {x : Item α} {l : List (Item α)} (hl : Sorted l)
    (hx : x ∈ l.head?) : ∀ y ∈ l, x.1 ≤ y.1 := by
  cases l with
  | nil => simp at hx
  | cons z l =>
    simp only [List.head?_cons, Option.mem_def, Option.some.injEq] at hx
    subst hx
    intro y hy
    rcases List.mem_cons.mp hy with rfl | hy
    · exact le_rfl
    · exact ((List.pairwise_cons.mp hl).1 y hy).le

theorem Sorted.le_last {x : Item α} {l : List (Item α)} (hl : Sorted l)
    (hx : x ∈ l.getLast?) : ∀ y ∈ l, y.1 ≤ x.1 := by
  obtain ⟨l, rfl⟩ := List.getLast?_eq_some_iff.mp hx
  intro y hy
  rcases List.mem_append.mp hy with hy | hy
  · exact ((List.pairwise_append.mp hl).2.2 y hy x (List.mem_singleton_self x)).le
  · rw [List.mem_singleton.mp hy]

theorem Window.Ordered.start_le {half : ℤ} {W : Window α} {last : Option ℤ}
    (hW : W.Ordered half last) : ∀ x ∈ W.pending, W.start ≤ x.1 + 1 := by
  intro x hx
  obtain ⟨y, hy⟩ := Option.isSome_iff_exists.mp (List.isSome_head?.mpr (List.ne_nil_of_mem hx))
  have hyx := hW.sorted.head_le hy x hx
  rcases hW.front y hy with h | h
  · omega
  · omega

theorem Sorted.chain {half : ℤ} {l : List (Item α)} (hl : Sorted l)
    (hgap : ∀ x ∈ l, ∀ y ∈ l, y.1 ≤ x.1 + half) :
    List.IsChain (Follows half) (l.map Prod.fst) := by
  refine (List.isChain_map _).mpr ((hl.isChain).imp_of_mem_imp fun x y hx hy hxy => ?_)
  exact ⟨hxy, hgap x hx y hy⟩

/-- What one delivery keeps: the invariant for the new last number, and the
order of everything handed up. -/
structure Received.Sound (half : ℤ) (last : Option ℤ) (r : Received α) : Prop where
  ordered : r.window.Ordered half (lastOut r.out last)
  chain : List.IsChain (Follows half) (r.out.map Prod.fst)
  link : ∀ p ∈ last, ∀ x ∈ r.out.head?, Follows half p x.1

/-- Draining a sorted list that holds a number near the start restores the
invariant, whatever was pending below the start. -/
theorem drain_sound {half : ℤ} {W : Window α} {last : Option ℤ}
    (hsorted : Sorted W.pending)
    (hupper : ∀ x ∈ W.pending, x.1 < (release W.start W.pending).start + W.size)
    (hgap : ∀ x ∈ W.pending, ∀ y ∈ W.pending, y.1 ≤ x.1 + half)
    (hbelow : ∀ p ∈ last, p < W.start)
    (hahead : ∀ p ∈ last, ∀ x ∈ W.pending.head?, Follows half p x.1)
    (hnear : ∃ x ∈ W.pending, W.start ≤ x.1 + 1) :
    W.drain.Sound half last := by
  have happ := release_append W.start W.pending
  have hkept := release_kept_gt W.start hsorted
  have hlast := release_start_eq W.start hsorted
  have hnil : (release W.start W.pending).out = [] → (release W.start W.pending).start = W.start :=
    release_start_of_nil
  simp only [Window.drain]
  generalize release W.start W.pending = r at happ hkept hlast hnil hupper ⊢
  have hout : ∀ x ∈ r.out, x ∈ W.pending := fun x hx => happ ▸ List.mem_append_left _ hx
  have hin : ∀ x ∈ r.kept, x ∈ W.pending := fun x hx => happ ▸ List.mem_append_right _ hx
  have hsplit := List.pairwise_append.mp (happ ▸ hsorted : Sorted (r.out ++ r.kept))
  have hchain : List.IsChain (Follows half) (r.out.map Prod.fst) :=
    Sorted.chain hsplit.1 fun x hx y hy => hgap x (hout x hx) y (hout y hy)
  have hroom : ∀ {s : ℤ} (l : List (Item α)), (∀ x ∈ l, s < x.1) →
      (∀ x ∈ l, x.1 < s + W.size) → l ≠ [] → 2 ≤ W.size := by
    intro s l hlow hupp hne
    obtain ⟨x, hx⟩ := List.exists_mem_of_ne_nil l hne
    have hl := hlow x hx
    have hu := hupp x hx
    omega
  cases hp : r.out.getLast? with
  | none =>
    have he := List.getLast?_eq_none_iff.mp hp
    have hkeep : r.kept = W.pending := by rw [← happ, he, List.nil_append]
    have hstart := hnil he
    rw [hkeep, hstart] at hkept ⊢
    rw [hstart] at hupper
    have hout' : lastOut r.out last = last := by simp [lastOut, he]
    refine ⟨?_, hchain, by simp [he]⟩
    rw [hout']
    refine ⟨hsorted, hupper, hroom W.pending hkept hupper, fun x hx => ?_, hbelow, hahead,
      fun p hp h => ?_⟩
    · exact .inl (hkept x (List.mem_of_head? hx))
    · obtain ⟨x, hx, _⟩ := hnear
      exact absurd (show W.pending = [] from h) (List.ne_nil_of_mem hx)
  | some p =>
    have hstart := hlast p hp
    have hpmem := List.mem_of_getLast? hp
    have hout' : lastOut r.out last = some p.1 := by simp [lastOut, hp]
    refine ⟨?_, hchain, fun q hq x hx => hahead q hq x ?_⟩
    · rw [hout']
      refine ⟨hsplit.2.1, fun x hx => hupper x (hin x hx),
        hroom r.kept hkept fun x hx => hupper x (hin x hx), fun x hx => ?_, ?_, ?_, ?_⟩
      · exact .inl (hkept x (List.mem_of_head? hx))
      · rintro _ ⟨⟩
        change p.1 < r.start
        omega
      · rintro _ ⟨⟩ x hx
        have hx := List.mem_of_head? hx
        exact ⟨hsplit.2.2 p hpmem x hx, hgap p (hout p hpmem) x (hin x hx)⟩
      · rintro _ ⟨⟩ hk
        change r.kept = [] at hk
        change r.start = p.1 + 1
        obtain ⟨x, hx, hxs⟩ := hnear
        rw [← happ, hk, List.append_nil] at hx
        have hxp := Sorted.le_last hsplit.1 hp x hx
        omega
    · rw [← happ, List.head?_append, Option.mem_def.mp hx]
      rfl

def Received.Conserves (r : Received α) (l : List (Item α)) : Prop :=
  (r.out ++ r.window.pending).Perm l

theorem drain_conserves (W : Window α) : W.drain.Conserves W.pending := by
  unfold Received.Conserves
  simp only [Window.drain, release_append, List.Perm.refl]

theorem drain_ahead {W : Window α} (hW : Sorted W.pending) : W.drain.window.Ahead :=
  release_kept_gt _ hW

theorem nothing_sound {half : ℤ} {W : Window α} {last : Option ℤ} {b : Bool}
    (hW : W.Ordered half last) : Received.Sound half last ⟨W, b, []⟩ :=
  ⟨hW, .nil, by simp⟩

theorem advance_spec {size start n start' : ℤ} (h : advance size start n = some start') :
    start ≤ n ∧ (n = start ∧ start' = start + 1 ∨
      start + size - 1 < n ∧ start' = n + 1 - size ∨
      start < n ∧ n ≤ start + size - 1 ∧ start' = start) := by
  unfold advance at h
  split_ifs at h with h1 h2 h3 <;> simp only [Option.some.injEq] at h <;> omega

theorem duplicate_ordered {half : ℤ} {W : Window α} {last : Option ℤ} {n start : ℤ}
    (hW : W.Ordered half last) (hadv : advance W.size W.start n = some start)
    (hdup : ∃ y ∈ W.pending, y.1 = n) :
    ({ W with start := start } : Window α).Ordered half last := by
  obtain ⟨y, hy, rfl⟩ := hdup
  have hne := List.ne_nil_of_mem hy
  have hupper := hW.upper y hy
  obtain ⟨hle, ⟨heq, hstart⟩ | ⟨hbeyond, _⟩ | ⟨_, _, hstart⟩⟩ := advance_spec hadv
  · refine ⟨hW.sorted, fun x hx => ?_, hW.room, fun x hx => .inr ?_, fun p hp => ?_, hW.ahead,
      fun p hp h => absurd h hne⟩
    · have hx := hW.upper x hx
      change x.1 < start + W.size
      omega
    · have hxy := hW.sorted.head_le hx y hy
      rcases hW.front x hx with h | ⟨h, hfree⟩
      · omega
      · have hfy := hfree y hy
        exact ⟨show start ≤ x.1 + 1 by omega, hfree⟩
    · have hp := hW.below p hp
      change p < start
      omega
  · omega
  · subst hstart
    exact hW

theorem receive_sound {half : ℤ} {W : Window α} {last : Option ℤ} {x : Item α}
    (hsize : 1 ≤ W.size) (hhalf : W.size ≤ half) (hx : x.1 < W.start + half)
    (hW : W.Ordered half last) : (W.receive x).Sound half last := by
  unfold Window.receive
  cases hadv : advance W.size W.start x.1 with
  | none => exact nothing_sound hW
  | some start =>
    cases hq : insert x W.pending with
    | none => exact nothing_sound (duplicate_ordered hW hadv (insert_eq_none hq))
    | some q =>
      have hmem : ∀ y, y ∈ q ↔ y = x ∨ y ∈ W.pending := fun y => by
        rw [(insert_perm hq).mem_iff, List.mem_cons]
      have hsorted := insert_sorted hW.sorted hq
      have hlow := hW.start_le
      have hstart := advance_spec hadv
      have hrel := release_start_le start q
      refine drain_sound hsorted (fun y hy => ?_) (fun y hy z hz => ?_) (fun p hp => ?_)
        (fun p hp y hy => ?_) ⟨x, (hmem x).mpr (.inl rfl), ?_⟩
      · change y.1 < (release start q).start + W.size
        rcases (hmem y).mp hy with rfl | hy
        · omega
        · have hu := hW.upper y hy
          omega
      · have hyl : W.start ≤ y.1 + 1 := by
          rcases (hmem y).mp hy with rfl | hy
          · omega
          · exact hlow y hy
        rcases (hmem z).mp hz with rfl | hz
        · omega
        · have hu := hW.upper z hz
          omega
      · have hb := hW.below p hp
        change p < start
        omega
      · have hb := hW.below p hp
        cases hpend : W.pending with
        | nil =>
          have hidle := hW.idle p hp hpend
          rcases (hmem y).mp (List.mem_of_head? hy) with rfl | h
          · exact ⟨by omega, by omega⟩
          · simp [hpend] at h
        | cons z l =>
          have hz := hW.ahead p hp z (by simp [hpend])
          have hyz := hsorted.head_le hy z ((hmem z).mpr (.inr (by simp [hpend])))
          refine ⟨?_, hyz.trans hz.2⟩
          rcases (hmem y).mp (List.mem_of_head? hy) with rfl | h
          · omega
          · exact lt_of_lt_of_le hz.1 (hW.sorted.head_le (by simp [hpend]) y h)
      · change start ≤ x.1 + 1
        omega

theorem receive_conserves {W : Window α} {x : Item α} (h : (W.receive x).accepted = true) :
    (W.receive x).Conserves (x :: W.pending) := by
  unfold Window.receive at h ⊢
  split at h
  · simp at h
  · split at h
    · simp at h
    · exact (drain_conserves _).trans (insert_perm ‹_›)

theorem receive_refused {W : Window α} {x : Item α} (h : (W.receive x).accepted = false) :
    (W.receive x).out = [] ∧ (W.receive x).window.pending = W.pending := by
  unfold Window.receive at h ⊢
  split at h
  · exact ⟨rfl, rfl⟩
  · split at h
    · exact ⟨rfl, rfl⟩
    · simp [Window.drain] at h

theorem receive_ahead {half : ℤ} {W : Window α} {last : Option ℤ} {x : Item α}
    (hW : W.Ordered half last) (ha : W.Ahead) : (W.receive x).window.Ahead := by
  unfold Window.receive
  cases hadv : advance W.size W.start x.1 with
  | none => exact ha
  | some start =>
    cases hq : insert x W.pending with
    | none =>
      obtain ⟨y, hy, hyx⟩ := insert_eq_none hq
      have hu := hW.upper y hy
      have hlt := ha y hy
      have hstart := advance_spec hadv
      obtain rfl : start = W.start := by omega
      exact ha
    | some q => exact drain_ahead (insert_sorted hW.sorted hq)

theorem force_sound {half : ℤ} {W : Window α} {last : Option ℤ} (hhalf : W.size ≤ half)
    (hW : W.Ordered half last) : W.force.Sound half last := by
  unfold Window.force
  cases hx : W.pending.head? with
  | none => exact nothing_sound hW
  | some x =>
    have hmem := List.mem_of_head? hx
    have hlow := hW.start_le
    refine drain_sound hW.sorted (fun y hy => ?_) (fun y hy z hz => ?_) (fun p hq => ?_)
      (fun p hq => hW.ahead p hq) ⟨x, hmem, ?_⟩
    · have hu := hW.upper y hy
      have hxl := hlow x hmem
      have hr : x.1 + 1 ≤ (release x.1 W.pending).start := by
        obtain ⟨l, hl⟩ := List.head?_eq_some_iff.mp hx
        exact release_out_lt _ _ x (by simp [hl, release])
      change y.1 < (release x.1 W.pending).start + W.size
      omega
    · have hu := hW.upper z hz
      have hl := hlow y hy
      omega
    · exact (hW.ahead p hq x hx).1
    · change x.1 ≤ x.1 + 1
      omega

theorem force_conserves (W : Window α) : W.force.Conserves W.pending := by
  unfold Window.force
  split
  · exact .refl _
  · exact drain_conserves _

theorem force_ahead {W : Window α} (hW : Sorted W.pending) : W.force.window.Ahead := by
  unfold Window.force
  cases hx : W.pending.head? with
  | none => simp [Window.Ahead, List.head?_eq_none_iff.mp hx]
  | some x => exact drain_ahead hW

end Rtl8189.SlidingWindow
