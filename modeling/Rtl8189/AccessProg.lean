import Rtl8189.BufferWalk

/-!
# Programs that leave accesses

A program touches stretches of several regions of memory, one after the other, and returns a
value or gives up. It is inside if each stretch is inside its region. A walk over a buffer is a
program when it is given fuel.
-/
namespace Rtl8189.AccessProg

open AccessTrace BufferWalk

structure Access (ρ : Type*) where
  region : ρ
  op : Op

structure Prog (ρ : Type*) (α : Type) where
  ops : List (Access ρ)
  ret : Option α

namespace Prog

variable {ρ σ : Type*} {α β : Type}

def pass (a : α) : Prog ρ α := ⟨[], some a⟩

def giveUp : Prog ρ α := ⟨[], none⟩

def touch (region : ρ) (start size : ℕ) : Prog ρ Unit := ⟨[⟨region, .bytes start size⟩], some ()⟩

def andThen (m : Prog ρ α) (f : α → Prog ρ β) : Prog ρ β :=
  match m.ret with
  | none => ⟨m.ops, none⟩
  | some a => ⟨m.ops ++ (f a).ops, (f a).ret⟩

instance : Monad (Prog ρ) where
  pure := pass
  bind := andThen

def shift (base : ℕ) : Op → Op
  | .length n => .length n
  | .bytes start size => .bytes (base + start) size

def walk (region : ρ) (base : ℕ) (round : σ → Round σ α) (fuel : ℕ) (s : σ) : Prog ρ α :=
  ⟨(reads round fuel s).map fun op => ⟨region, shift base op⟩, result round fuel s⟩

def Inside (size : ρ → ℕ) (m : Prog ρ α) : Prop := ∀ a ∈ m.ops, a.op.Within (size a.region)

variable {size : ρ → ℕ}

instance (m : Prog ρ α) : Decidable (m.Inside size) :=
  inferInstanceAs (Decidable (∀ a ∈ m.ops, a.op.Within (size a.region)))

@[simp] theorem inside_pure (a : α) : (pure a : Prog ρ α).Inside size ↔ True :=
  iff_true_intro nofun

@[simp] theorem inside_giveUp : (giveUp : Prog ρ α).Inside size ↔ True := iff_true_intro nofun

@[simp] theorem inside_touch (region : ρ) (start n : ℕ) :
    (touch region start n).Inside size ↔ n = 0 ∨ start + n ≤ size region := by
  have hone : (touch region start n).Inside size ↔ (Op.bytes start n).Within (size region) :=
    List.forall_mem_singleton
  rw [hone]
  cases n with
  | zero => exact iff_of_true (fun h => absurd h (Nat.lt_irrefl 0)) (.inl rfl)
  | succ n => rw [bytes_within_iff start (Nat.succ_pos n), or_iff_right (Nat.succ_ne_zero n)]

@[simp] theorem inside_bind (m : Prog ρ α) (f : α → Prog ρ β) :
    (m >>= f).Inside size ↔ m.Inside size ∧ ∀ a, m.ret = some a → (f a).Inside size := by
  obtain ⟨ops, ret⟩ := m
  cases ret with
  | none => exact (and_iff_left nofun).symm
  | some a =>
    refine List.forall_mem_append.trans (and_congr Iff.rfl ⟨fun h b hb => ?_, fun h => h a rfl⟩)
    cases hb
    exact h

@[simp] theorem ret_pure (a : α) : (pure a : Prog ρ α).ret = some a := rfl

@[simp] theorem ret_giveUp : (giveUp : Prog ρ α).ret = none := rfl

@[simp] theorem ret_touch (region : ρ) (start n : ℕ) : (touch region start n).ret = some () := rfl

@[simp] theorem ret_bind (m : Prog ρ α) (f : α → Prog ρ β) :
    (m >>= f).ret = m.ret.bind fun a => (f a).ret := by
  obtain ⟨ops, ret⟩ := m
  cases ret <;> rfl

theorem inside_bind_of {m : Prog ρ α} {f : α → Prog ρ β} (h : ∀ a, (f a).Inside size) :
    (m >>= f).Inside size ↔ m.Inside size :=
  (inside_bind m f).trans (and_iff_left fun a _ => h a)

theorem inside_touch_bind (region : ρ) (start n : ℕ) (f : Unit → Prog ρ β) :
    (touch region start n >>= f).Inside size ↔
      (n = 0 ∨ start + n ≤ size region) ∧ (f ()).Inside size := by
  rw [inside_bind, inside_touch]
  exact and_congr Iff.rfl ⟨fun h => h () rfl, fun h _ _ => h⟩

theorem inside_walk (region : ρ) (base : ℕ) {round : σ → Round σ α} {s : σ} :
    (∀ fuel, (walk region base round fuel s).Inside size) ↔
      ∀ t, Reaches round s t → ∀ op ∈ (round t).ops, (shift base op).Within (size region) := by
  constructor
  · intro h t ht op hop
    obtain ⟨n, hn⟩ := mem_reads_iff.mpr ⟨t, ht, hop⟩
    exact h n _ (List.mem_map_of_mem hn)
  · intro h n a ha
    obtain ⟨op, hop, rfl⟩ := List.mem_map.mp ha
    obtain ⟨t, ht, hmem⟩ := mem_reads_iff.mp ⟨n, hop⟩
    exact h t ht op hmem

theorem inside_walk_of_result (region : ρ) (base : ℕ) {round : σ → Round σ α} {s : σ} {n : ℕ}
    {a : α} (h : result round n s = some a) :
    (walk region base round n s).Inside size ↔
      ∀ t, Reaches round s t → ∀ op ∈ (round t).ops, (shift base op).Within (size region) := by
  rw [← inside_walk]
  refine ⟨fun hin m a ha => ?_, fun hin => hin n⟩
  obtain ⟨op, hop, rfl⟩ := List.mem_map.mp ha
  exact hin _ (List.mem_map_of_mem ((reads_of_result h).mpr ⟨m, hop⟩))

theorem inside_bind_forall {ι : Type*} [Nonempty ι] {m : Prog ρ α} {f : ι → α → Prog ρ β} :
    (∀ i, (m >>= f i).Inside size) ↔
      m.Inside size ∧ ∀ a, m.ret = some a → ∀ i, (f i a).Inside size := by
  simp only [inside_bind, forall_and, forall_const]
  exact and_congr Iff.rfl ⟨fun h a ha i => h i a ha, fun h i a ha => h a ha i⟩

theorem inside_walk_bind (region : ρ) (base : ℕ) {round : σ → Round σ α} {s : σ}
    {f : α → Prog ρ β} :
    (∀ fuel, (walk region base round fuel s >>= f).Inside size) ↔
      (∀ t, Reaches round s t → ∀ op ∈ (round t).ops, (shift base op).Within (size region)) ∧
        ∀ a, Returns round s a → (f a).Inside size := by
  simp only [inside_bind, forall_and]
  refine and_congr (inside_walk region base) ⟨fun h a ha => ?_, fun h n a ha => h a ⟨n, ha⟩⟩
  obtain ⟨n, hn⟩ := ha
  exact h n a hn

structure Settles (size : ρ → ℕ) (m : Prog ρ α) (a : α) : Prop where
  ret : m.ret = some a
  inside : m.Inside size

theorem settles_pure {a b : α} : (pure a : Prog ρ α).Settles size b ↔ b = a := by
  constructor
  · intro h
    exact (Option.some.inj h.ret).symm
  · rintro rfl
    exact ⟨rfl, nofun⟩

theorem not_settles_giveUp {a : α} : ¬ (giveUp : Prog ρ α).Settles size a :=
  fun h => nomatch h.ret

theorem settles_bind {m : Prog ρ α} {f : α → Prog ρ β} {b : β} :
    (m >>= f).Settles size b ↔ ∃ a, m.Settles size a ∧ (f a).Settles size b := by
  constructor
  · rintro ⟨hret, hinside⟩
    rw [ret_bind] at hret
    obtain ⟨a, ha, hb⟩ := Option.bind_eq_some_iff.mp hret
    obtain ⟨hm, hf⟩ := (inside_bind m f).mp hinside
    exact ⟨a, ⟨ha, hm⟩, hb, hf a ha⟩
  · rintro ⟨a, ⟨ha, hm⟩, hb, hf⟩
    refine ⟨by rw [ret_bind, ha]; exact hb, (inside_bind m f).mpr ⟨hm, fun a' ha' => ?_⟩⟩
    obtain rfl := Option.some.inj (ha.symm.trans ha')
    exact hf

theorem settles_touch_bind {region : ρ} {start n : ℕ} {f : Unit → Prog ρ β} {b : β} :
    (touch region start n >>= f).Settles size b ↔
      (n = 0 ∨ start + n ≤ size region) ∧ (f ()).Settles size b := by
  rw [settles_bind]
  constructor
  · rintro ⟨u, hu, hb⟩
    exact ⟨(inside_touch region start n).mp hu.inside, hb⟩
  · rintro ⟨hin, hb⟩
    exact ⟨(), ⟨rfl, (inside_touch region start n).mpr hin⟩, hb⟩

def mapRegion {τ : Type*} (f : ρ → τ) (m : Prog ρ α) : Prog τ α :=
  ⟨m.ops.map fun a => ⟨f a.region, a.op⟩, m.ret⟩

theorem settles_mapRegion {τ : Type*} {size : τ → ℕ} {f : ρ → τ} {m : Prog ρ α} {a : α} :
    (m.mapRegion f).Settles size a ↔ m.Settles (fun r => size (f r)) a := by
  have hin : (m.mapRegion f).Inside size ↔ m.Inside fun r => size (f r) :=
    ⟨fun h b hb => h _ (List.mem_map_of_mem hb), fun h b hb => by
      obtain ⟨c, hc, rfl⟩ := List.mem_map.mp hb
      exact h c hc⟩
  exact ⟨fun h => ⟨h.ret, hin.mp h.inside⟩, fun h => ⟨h.ret, hin.mpr h.inside⟩⟩

section Loop

variable {S ι : Type}

/-- A loop over a list. A turn ends it by the left value. -/
def forEach (body : S → ι → Prog ρ (S ⊕ S)) : S → List ι → Prog ρ S
  | s, [] => pure s
  | s, i :: is => body s i >>= fun r => r.elim pure fun t => forEach body t is

def Each (C : S → ι → Prop) (next : S → ι → S ⊕ S) : S → List ι → Prop
  | _, [] => True
  | s, i :: is => C s i ∧ (next s i).elim (fun _ => True) fun t => Each C next t is

theorem settles_forEach {body : ℕ → S → ι → Prog ρ (S ⊕ S)} {C : S → ι → Prop}
    {next : S → ι → S ⊕ S} {enough : ℕ} {s : S} {is : List ι}
    (hturn : ∀ n s i r, (body n s i).Settles size r → C s i ∧ r = next s i)
    (hends : ∀ s i, C s i → (body enough s i).Settles size (next s i)) :
    (∃ n r, (forEach (body n) s is).Settles size r) ↔ Each C next s is := by
  constructor
  · rintro ⟨n, r, h⟩
    induction is generalizing s with
    | nil => trivial
    | cons i is ih =>
      rw [forEach, settles_bind] at h
      obtain ⟨t, ht, hrest⟩ := h
      obtain ⟨hc, rfl⟩ := hturn n s i t ht
      refine ⟨hc, ?_⟩
      cases hnext : next s i with
      | inl _ => trivial
      | inr t =>
        rw [hnext] at hrest
        exact ih hrest
  · intro h
    refine ⟨enough, ?_⟩
    induction is generalizing s with
    | nil => exact ⟨s, settles_pure.mpr rfl⟩
    | cons i is ih =>
      obtain ⟨hc, hrest⟩ := h
      have hbody := hends s i hc
      rw [forEach]
      cases hnext : next s i with
      | inl t =>
        rw [hnext] at hbody
        exact ⟨t, settles_bind.mpr ⟨_, hbody, settles_pure.mpr rfl⟩⟩
      | inr t =>
        rw [hnext] at hbody hrest
        obtain ⟨r, hr⟩ := ih hrest
        exact ⟨r, settles_bind.mpr ⟨_, hbody, hr⟩⟩

theorem settles_forEach_iff {body : S → ι → Prog ρ (S ⊕ S)} {C : S → ι → Prop}
    {next : S → ι → S ⊕ S} {s : S} {is : List ι}
    (hturn : ∀ s i r, (body s i).Settles size r ↔ C s i ∧ r = next s i) :
    (∃ r, (forEach body s is).Settles size r) ↔ Each C next s is := by
  have hloop := @settles_forEach ρ size S ι (fun _ => body) C next 0 s is
    (fun _ s i r => (hturn s i r).mp) fun s i hc => (hturn s i _).mpr ⟨hc, rfl⟩
  exact (exists_const ℕ).symm.trans hloop

end Loop

end Prog

end Rtl8189.AccessProg
