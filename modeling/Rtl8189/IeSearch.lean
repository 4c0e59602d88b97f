import Mathlib.Data.List.Induction
import Rtl8189.AccessProg
import Rtl8189.ElemList

/-!
# Looking up elements behind fixed fields

`rtw_get_ie` is given the elements from some place in the `IEs` on, and as its limit what is left
of the stored length. Without an element to start from it looks at nothing; else it comes to one
element after the other, and returns the first with the id.
-/
namespace Rtl8189.IeSearch

open AccessProg AccessTrace BufferWalk ElemList IeLookup

/-- What the function is called with: `IEs + ie_offset` and `IELength - ie_offset`. -/
structure Search where
  ies : List UInt8
  offset : ℕ
  ielength : ℕ

namespace Search

variable (s : Search)

structure Small : Prop where
  offset : s.offset ≤ 12
  ielength : s.ielength < 65536

def elements : List UInt8 := s.ies.drop s.offset

/-- A difference of `u32`s, as a `sint`. -/
def limit : Int32 := Int32.ofInt (s.ielength - s.offset)

def lookUp {ρ : Type*} (region : ρ) (id : ℕ) : Prog ρ Ie :=
  .walk region s.offset (getIeRound s.elements id s.limit) (s.ielength + 2) none

def Comes (id p : ℕ) : Prop :=
  Item (ieNext s.elements) (byteAt s.elements · = id) 0 p ∧ s.offset + p < s.ielength

def First (id p : ℕ) : Prop := s.Comes id p ∧ byteAt s.elements p = id

def elemLen (p : ℕ) : ℕ := byteAt s.elements (p + 1)

def ieAt (id : ℕ) : Ie := (result (getIeRound s.elements id s.limit) (s.ielength + 2) none).join

def Heads (len id : ℕ) : Prop := ∀ p, s.Comes id p → s.offset + p + 2 ≤ len

variable {s} {id p n : ℕ}

theorem First.unique {q : ℕ} (h : s.First id p) (h' : s.First id q) : p = q :=
  h.1.1.unique h.2 h'.1.1 h'.2

theorem limit_toInt (hs : s.Small) : s.limit.toInt = (s.ielength : ℤ) - s.offset := by
  have hlen := hs.ielength
  have hoff := hs.offset
  exact Int32.toInt_ofInt_of_le (by omega) (by omega)

theorem stop_item_iff (hs : s.Small) (hlimit : 1 ≤ s.limit.toInt) :
    Item (ieNext s.elements) (IeStop s.elements id s.limit) 0 p ↔ s.Comes id p := by
  have hval := limit_toInt hs
  have hlen := hs.ielength
  have hnext : ∀ q, s.offset + q < s.ielength →
      asSint (ieNext s.elements q) = ieNext s.elements q := fun q hq => by
    have hbyte := byteAt_lt s.elements (q + 1)
    exact asSint_eq (by rw [ieNext]; omega)
  constructor
  · intro h
    induction h with
    | first => exact ⟨.first, by omega⟩
    | @next q _ hstop ih =>
      refine ⟨ih.1.next fun hid => hstop (.inl hid), ?_⟩
      by_contra hge
      refine hstop (.inr ?_)
      rw [hnext q ih.2]
      omega
  · rintro ⟨h, hlt⟩
    induction h with
    | first => exact .first
    | @next q _ hid ih =>
      have hq : s.offset + q < s.ielength := by
        rw [ieNext] at hlt
        omega
      refine (ih hq).next fun hstop => ?_
      have hge := hstop.resolve_left hid
      rw [hnext q hq] at hge
      omega

theorem reaches_iff (hs : s.Small) {t : Option ℕ} :
    Reaches (getIeRound s.elements id s.limit) none t ↔
      t = none ∨ ∃ p, t = some p ∧ s.Comes id p := by
  by_cases hlimit : 1 ≤ s.limit.toInt
  · have hentry : (getIeRound s.elements id s.limit none).next = .inr (some 0) :=
      if_neg (by omega)
    rw [reaches_item_iff hentry (fun _ => getIe_stop) fun _ => getIe_go]
    simp only [stop_item_iff hs hlimit]
  · have hentry : (getIeRound s.elements id s.limit none).next = .inl none := if_pos (by omega)
    have hval := limit_toInt hs
    constructor
    · intro h
      rcases h.cases_head with rfl | ⟨t', hnext, -⟩
      · exact .inl rfl
      · rw [hentry] at hnext
        exact nomatch hnext
    · rintro (rfl | ⟨p, -, -, hlt⟩)
      · exact .start
      · omega

theorem exists_result (hs : s.Small) (id : ℕ) :
    ∃ r, result (getIeRound s.elements id s.limit) (s.ielength + 2) none = some r := by
  refine result_of_measure (fun t => (t.map fun p => s.ielength - p).getD (s.ielength + 1))
    (fun t t' ht hnext => ?_) (Nat.lt_succ_self _)
  rcases (reaches_iff hs).mp (ht.next hnext) with rfl | ⟨q, rfl, hq⟩
  · cases t with
    | none =>
      dsimp only [getIeRound] at hnext
      split at hnext <;> exact nomatch hnext
    | some p =>
      dsimp only [getIeRound] at hnext
      split_ifs at hnext
      exact nomatch hnext
  · have hlt := hq.2
    cases t with
    | none => exact Nat.lt_succ_of_le (Nat.sub_le _ _)
    | some p =>
      dsimp only [getIeRound] at hnext
      split_ifs at hnext
      cases hnext
      rw [ieNext] at hlt
      dsimp only [Option.map, Option.getD]
      rw [ieNext]
      omega

theorem result_eq (hs : s.Small) (id : ℕ) :
    result (getIeRound s.elements id s.limit) (s.ielength + 2) none = some (s.ieAt id) := by
  obtain ⟨r, hr⟩ := exists_result hs id
  rw [ieAt, hr, Option.join_some]

theorem returns_ieAt (hs : s.Small) (id : ℕ) :
    Returns (getIeRound s.elements id s.limit) none (s.ieAt id) := ⟨_, result_eq hs id⟩

theorem First.ieAt (hs : s.Small) (h : s.First id p) : s.ieAt id = some (p, s.elemLen p) :=
  (returns_ieAt hs id).unique
    (returns_iff.mpr ⟨some p, (reaches_iff hs).mpr (.inr ⟨p, rfl, h.1⟩), if_pos h.2⟩)

theorem ieAt_some (hs : s.Small) : s.ieAt id = some (p, n) ↔ s.First id p ∧ n = s.elemLen p := by
  constructor
  · intro h
    obtain ⟨t, ht, hdone⟩ := returns_iff.mp (h ▸ returns_ieAt hs id)
    obtain rfl | ⟨q, rfl, hq⟩ := (reaches_iff hs).mp ht
    · dsimp only [getIeRound] at hdone
      split at hdone <;> exact nomatch hdone
    · dsimp only [getIeRound] at hdone
      split_ifs at hdone with hid
      · cases hdone
        exact ⟨⟨hq, hid⟩, rfl⟩
      · exact nomatch hdone
  · rintro ⟨h, rfl⟩
    exact h.ieAt hs

theorem ieAt_none (hs : s.Small) : s.ieAt id = none ↔ ∀ p, ¬ s.First id p := by
  constructor
  · intro h p hp
    rw [hp.ieAt hs] at h
    exact nomatch h
  · intro h
    cases hie : s.ieAt id with
    | none => rfl
    | some x => exact absurd ((ieAt_some hs).mp hie).1 (h x.1)

variable {ρ : Type*} {α : Type} {region : ρ} {sizes : ρ → ℕ} {k : Ie → Prog ρ α} {a : α}

theorem ret_lookUp (hs : s.Small) : (s.lookUp region id).ret = some (s.ieAt id) := result_eq hs id

theorem inside_lookUp (hs : s.Small) :
    (s.lookUp region id).Inside sizes ↔ s.Heads (sizes region) id := by
  refine (Prog.inside_walk_of_result region s.offset (result_eq hs id)).trans ?_
  constructor
  · intro h p hp
    have hop := h (some p) ((reaches_iff hs).mpr (.inr ⟨p, rfl, hp⟩)) _ List.mem_cons_self
    have hend := (hop Nat.two_pos).2
    omega
  · rintro h t ht op hop
    obtain rfl | ⟨p, rfl, hp⟩ := (reaches_iff hs).mp ht
    · exact nomatch hop
    · obtain rfl := List.mem_singleton.mp hop
      have hin := h p hp
      intro _
      constructor <;> omega

theorem inside_look (hs : s.Small) : (s.lookUp region id >>= k).Inside sizes ↔
    s.Heads (sizes region) id ∧ (∀ p, s.First id p → (k (some (p, s.elemLen p))).Inside sizes) ∧
      ((∀ p, ¬ s.First id p) → (k none).Inside sizes) := by
  rw [Prog.inside_bind, inside_lookUp hs, ret_lookUp hs]
  have hsome : ∀ p, s.First id p → some (s.ieAt id) = some (some (p, s.elemLen p)) :=
    fun p hp => congrArg some (hp.ieAt hs)
  refine and_congr Iff.rfl ⟨fun h => ⟨fun p hp => h _ (hsome p hp), fun hno => ?_⟩, ?_⟩
  · exact h _ (congrArg some ((ieAt_none hs).mpr hno))
  · rintro ⟨hsome, hnone⟩ _ heq
    obtain rfl := Option.some.inj heq
    cases hie : s.ieAt id with
    | none => exact hnone ((ieAt_none hs).mp hie)
    | some x =>
      obtain ⟨hx, hn⟩ := (ieAt_some hs).mp hie
      have hin := hsome x.1 hx
      rw [← hn] at hin
      exact hin

theorem ret_look (hs : s.Small) : (s.lookUp region id >>= k).ret = some a ↔
    (∃ p, s.First id p ∧ (k (some (p, s.elemLen p))).ret = some a) ∨
      (∀ p, ¬ s.First id p) ∧ (k none).ret = some a := by
  rw [Prog.ret_bind, ret_lookUp hs, Option.bind_some]
  cases hie : s.ieAt id with
  | none =>
    have hno := (ieAt_none hs).mp hie
    exact ⟨fun h => .inr ⟨hno, h⟩, fun h => h.elim (fun ⟨p, hp, _⟩ => absurd hp (hno p)) And.right⟩
  | some x =>
    obtain ⟨hx, hn⟩ := (ieAt_some hs).mp hie
    constructor
    · intro h
      exact .inl ⟨x.1, hx, hn ▸ h⟩
    · rintro (⟨p, hp, h⟩ | ⟨hno, -⟩)
      · rw [← hie, hp.ieAt hs]
        exact h
      · exact absurd hx (hno x.1)

/-! ## Well-formed lists -/

section Lists

variable {l : List Elem} {rest : List UInt8}

theorem at_elements {pre post : List Elem} {e : Elem}
    (hmem : s.elements = encode (pre ++ e :: post) ++ rest) :
    byteAt s.elements (encode pre).length = e.id.toNat ∧
      s.elemLen (encode pre).length = e.data.length := by
  have hsplit : s.elements = encode pre ++ (e.bytes ++ (encode post ++ rest)) := by
    rw [hmem, encode_insert, List.append_assoc, List.append_assoc]
  have hat := at_append (encode pre) e (encode post ++ rest)
  rw [← hsplit] at hat
  exact ⟨hat.id, hat.len⟩

theorem encode_snoc_length (pre : List Elem) (e : Elem) :
    (encode (pre ++ [e])).length = (encode pre).length + (e.data.length + 2) := by
  rw [encode_append, List.length_append, encode_length_cons]
  rfl

/-- In a list the look-up comes to the elements up to the first with the id. -/
theorem comes_list (hmem : s.elements = encode l ++ rest)
    (hlen : s.ielength = s.offset + (encode l).length) : s.Comes id p ↔
      ∃ pre e post, l = pre ++ e :: post ∧ (∀ d ∈ pre, d.id.toNat ≠ id) ∧
        p = (encode pre).length := by
  constructor
  · rintro ⟨h, hlt⟩
    induction h with
    | first =>
      cases l with
      | nil =>
        rw [encode, List.flatMap_nil] at hlen
        exact absurd hlt (by rw [hlen]; exact Nat.lt_irrefl _)
      | cons e post => exact ⟨[], e, post, rfl, nofun, rfl⟩
    | @next q _ hno ih =>
      have hq : s.offset + q < s.ielength := by
        rw [ieNext] at hlt
        omega
      obtain ⟨pre, e, post, rfl, hpre, rfl⟩ := ih hq
      obtain ⟨hid, helem⟩ := at_elements hmem
      have hnext : ieNext s.elements (encode pre).length = (encode (pre ++ [e])).length := by
        rw [encode_snoc_length, ← helem]
        rfl
      rw [hnext] at hlt ⊢
      cases post with
      | nil => omega
      | cons d post =>
        refine ⟨pre ++ [e], d, post, by rw [List.append_assoc]; rfl, fun c hc => ?_, rfl⟩
        rcases List.mem_append.mp hc with hc | hc
        · exact hpre c hc
        · rw [List.mem_singleton.mp hc]
          exact fun heq => hno (hid.trans heq)
  · rintro ⟨pre, e, post, rfl, hpre, rfl⟩
    refine ⟨?_, ?_⟩
    · induction pre using List.reverseRecOn generalizing e post with
      | nil => exact .first
      | append_singleton pre d ih =>
        rw [List.append_assoc, List.singleton_append] at hmem hlen
        obtain ⟨hid, helem⟩ := at_elements hmem
        have hitem := ih d (e :: post) hmem hlen
          fun c hc => hpre c (List.mem_append_left _ hc)
        have hnext : ieNext s.elements (encode pre).length = (encode (pre ++ [d])).length := by
          rw [encode_snoc_length, ← helem]
          rfl
        rw [← hnext]
        refine hitem.next fun heq => ?_
        exact hpre d (List.mem_append_right _ List.mem_cons_self) (hid.symm.trans heq)
    · rw [hlen, encode_append, List.length_append, encode_length_cons]
      omega

theorem comes_list_le (hmem : s.elements = encode l ++ rest)
    (hlen : s.ielength = s.offset + (encode l).length) (h : s.Comes id p) :
    s.offset + p + 2 + s.elemLen p ≤ s.ielength := by
  obtain ⟨pre, e, post, rfl, -, rfl⟩ := (comes_list hmem hlen).mp h
  rw [(at_elements hmem).2, hlen, encode_append, List.length_append, encode_length_cons]
  omega

theorem first_list (hmem : s.elements = encode l ++ rest)
    (hlen : s.ielength = s.offset + (encode l).length) : s.First id p ↔
      ∃ pre e post, l = pre ++ e :: post ∧ (∀ d ∈ pre, d.id.toNat ≠ id) ∧ e.id.toNat = id ∧
        p = (encode pre).length := by
  rw [First, comes_list hmem hlen]
  constructor
  · rintro ⟨⟨pre, e, post, rfl, hpre, rfl⟩, hid⟩
    exact ⟨pre, e, post, rfl, hpre, (at_elements hmem).1.symm.trans hid, rfl⟩
  · rintro ⟨pre, e, post, rfl, hpre, hid, rfl⟩
    exact ⟨⟨pre, e, post, rfl, hpre, rfl⟩, (at_elements hmem).1.trans hid⟩

end Lists

end Search

end Rtl8189.IeSearch
