import Rtl8189.IeRemove

/-!
# Removing WFD elements

`rtw_del_wfd_ie` looks for a WFD element, moves what stands behind it over it, and looks again
from the start. The comparison with the OUI does not stop at the end of an element, and the
search gives up at `MAX_IE_SZ`.
-/
namespace Rtl8189.WfdRemove

open AccessTrace ElemList IeLookup

open IeRemove

def maxIeSz : ℕ := 768

def vendorSpecific : UInt8 := 221

def wfdOui : List UInt8 := [0x50, 0x6f, 0x9a, 0x0a]

def getWfdIeFrom (mem : List UInt8) (inIe inLen : ℕ) : ℕ → ℕ → Option (ℕ × ℕ)
  | 0, _ => none
  | n + 1, cnt =>
    if cnt + 1 + 4 < inLen then
      if maxIeSz ≤ cnt + 1 + 4 then none
      else if MatchesAt mem vendorSpecific wfdOui (inIe + cnt) then
        some (inIe + cnt, byteAt mem (inIe + cnt + 1) + 2)
      else getWfdIeFrom mem inIe inLen n (cnt + (byteAt mem (inIe + cnt + 1) + 2))
    else none

/-- `rtw_get_wfd_ie`: where the element is, and its length with the header. The length is taken
for an `int`. -/
def rtwGetWfdIe (mem : List UInt8) (inIe inLen : ℕ) : Option (ℕ × ℕ) :=
  if inLen = 0 ∨ 2 ^ 31 ≤ inLen then none else getWfdIeFrom mem inIe inLen inLen 0

/-- A buffer with what stands behind it, and the stretches that were written. -/
structure Buf where
  mem : List UInt8
  ops : List Op := []

def Buf.memcpy (b : Buf) (dst : ℕ) (bytes : List UInt8) : Buf where
  mem := putBytes b.mem dst bytes
  ops := b.ops ++ [.bytes dst bytes.length]

def Buf.memset (b : Buf) (dst : ℕ) (c : UInt8) (n : ℕ) : Buf := b.memcpy dst (List.replicate n c)

def Buf.memmove (b : Buf) (dst src n : ℕ) : Buf where
  mem := moveBytes b.mem dst src n
  ops := b.ops ++ [.bytes dst n]

def delFrom (ies : ℕ) : ℕ → ℕ → Buf → ℕ × Buf
  | 0, iesLen, b => (iesLen, b)
  | n + 1, iesLen, b =>
    match rtwGetWfdIe b.mem ies iesLen with
    | none => (iesLen, b)
    | some (targetIe, targetIeLen) =>
      let nextIe := targetIe + targetIeLen
      let remainLen := usub iesLen (nextIe - ies)
      delFrom ies n (usub iesLen targetIeLen)
        ((b.memmove targetIe nextIe remainLen).memset (targetIe + remainLen) 0 targetIeLen)

/-- Every removal takes away two bytes at least. -/
def rtwDelWfdIe (ies iesLenOri : ℕ) (b : Buf) : ℕ × Buf := delFrom ies iesLenOri iesLenOri b

/-! ## The search in a list -/

def Seen (cnt : ℕ) : Prop := cnt + 1 + 4 < maxIeSz

instance (cnt : ℕ) : Decidable (Seen cnt) := inferInstanceAs (Decidable (_ < _))

/-- The element counts as a WFD element, by its own bytes or with those behind it. -/
abbrev Counts (e : Elem) (behind : List UInt8) : Prop := Taken vendorSpecific wfdOui e behind

abbrev IsWfd (e : Elem) : Prop := Wanted vendorSpecific wfdOui e

def EndCounts (r : List UInt8) : Prop :=
  byteAt r 0 = vendorSpecific.toNat ∧ wfdOui <+: r.drop 2

instance (r : List UInt8) : Decidable (EndCounts r) := inferInstanceAs (Decidable (_ ∧ _))

def search (r : List UInt8) : List Elem → ℕ → Option (ℕ × ℕ)
  | [], cnt => if Seen cnt ∧ EndCounts r then some (cnt, byteAt r 1 + 2) else none
  | e :: l, cnt =>
    if Seen cnt then
      if Counts e (encode l ++ r) then some (cnt, e.data.length + 2)
      else search r l (cnt + (e.data.length + 2))
    else none

def strip : List Elem → ℕ → List Elem
  | [], _ => []
  | e :: l, cnt =>
    if Seen cnt then
      if IsWfd e then strip l cnt else e :: strip l (cnt + (e.data.length + 2))
    else e :: l

section Lists

variable {r : List UInt8} {e f : Elem} {l A B : List Elem} {cnt cnt' p n : ℕ}

theorem Seen.mono (h : Seen cnt') (hle : cnt ≤ cnt') : Seen cnt := by
  unfold Seen at *
  omega

theorem search_short (h : (encode l ++ r).length ≤ 5) : search r l cnt = none := by
  induction l generalizing cnt with
  | nil =>
    rw [search, if_neg]
    intro hend
    have hle := hend.2.2.length_le
    have hoat : wfdOui.length = 4 := rfl
    rw [List.length_drop] at hle
    rw [encode_nil, List.nil_append] at h
    omega
  | cons e l ih =>
    rw [encode_cons, List.append_assoc, List.length_append, e.bytes_length] at h
    have hout : ¬ Counts e (encode l ++ r) := by
      intro hcount
      have hle := hcount.2.length_le
      have hoat : wfdOui.length = 4 := rfl
      rw [List.length_append] at hle
      omega
    rw [search, if_neg hout]
    split_ifs
    · exact ih (by omega)
    · rfl

theorem strip_of_none (h : search r l cnt = none) : strip l cnt = l := by
  induction l generalizing cnt with
  | nil => rfl
  | cons e l ih =>
    rw [search] at h
    rw [strip]
    split_ifs at h with hseen hcount
    · rw [if_pos hseen, if_neg fun hwfd : IsWfd e => hcount (hwfd.taken _), ih h]
    · rw [if_neg hseen]

theorem strip_length_le (l : List Elem) (cnt : ℕ) :
    (encode (strip l cnt)).length ≤ (encode l).length := by
  induction l generalizing cnt with
  | nil => exact Nat.le_refl _
  | cons e l ih =>
    rw [strip]
    split_ifs
    · have := ih cnt
      rw [encode_length_cons]
      omega
    · have := ih (cnt + (e.data.length + 2))
      rw [encode_length_cons, encode_length_cons]
      omega
    · exact Nat.le_refl _

theorem strip_length_mono (l : List Elem) (h : cnt ≤ cnt') :
    (encode (strip l cnt)).length ≤ (encode (strip l cnt')).length := by
  induction l generalizing cnt cnt' with
  | nil => exact Nat.le_refl _
  | cons e l ih =>
    by_cases hseen : Seen cnt'
    · rw [strip, strip, if_pos hseen, if_pos (hseen.mono h)]
      split_ifs
      · exact ih h
      · have := ih (Nat.add_le_add_right h (e.data.length + 2))
        rw [encode_length_cons, encode_length_cons]
        omega
    · have hall : strip (e :: l) cnt' = e :: l := by rw [strip, if_neg hseen]
      rw [hall]
      exact strip_length_le _ _

/-- What the search finds, and that it has passed no WFD element before. -/
theorem search_found (h : search r l cnt = some (p, n)) :
    Seen p ∧ ((∃ A e B, l = A ++ e :: B ∧ p = cnt + (encode A).length ∧ n = e.data.length + 2 ∧
        Counts e (encode B ++ r) ∧ ∀ C, strip (A ++ C) cnt = A ++ strip C p) ∨
      p = cnt + (encode l).length ∧ n = byteAt r 1 + 2 ∧ EndCounts r ∧ strip l cnt = l) := by
  induction l generalizing cnt with
  | nil =>
    rw [search] at h
    split_ifs at h with hend
    obtain ⟨rfl, rfl⟩ := Prod.mk.inj (Option.some.inj h)
    exact ⟨hend.1, Or.inr ⟨rfl, rfl, hend.2, rfl⟩⟩
  | cons e l ih =>
    rw [search] at h
    split_ifs at h with hseen hcount
    · obtain ⟨rfl, rfl⟩ := Prod.mk.inj (Option.some.inj h)
      exact ⟨hseen, Or.inl ⟨[], e, l, rfl, rfl, rfl, hcount, fun C => rfl⟩⟩
    · obtain ⟨hp, hfound⟩ := ih h
      refine ⟨hp, ?_⟩
      have hpass : ∀ C, strip (e :: C) cnt = e :: strip C (cnt + (e.data.length + 2)) := by
        intro C
        rw [strip, if_pos hseen, if_neg fun hwfd : IsWfd e => hcount (hwfd.taken _)]
      rcases hfound with ⟨A, e', B, rfl, rfl, hn, htaken, hstrip⟩ | ⟨rfl, hn, hend, hsame⟩
      · refine Or.inl ⟨e :: A, e', B, rfl, ?_, hn, htaken, fun C => ?_⟩
        · rw [encode_length_cons, Nat.add_assoc]
        · rw [List.cons_append, hpass, hstrip, List.cons_append]
      · refine Or.inr ⟨?_, hn, hend, by rw [hpass, hsame]⟩
        rw [encode_length_cons, Nat.add_assoc]

theorem search_none (h : search r (A ++ e :: B) cnt = none)
    (hseen : Seen (cnt + (encode A).length)) :
    ¬ Counts e (encode B ++ r) := by
  induction A generalizing cnt with
  | nil =>
    rw [List.nil_append, search, if_pos (hseen.mono (Nat.le_add_right _ _))] at h
    intro hcount
    rw [if_pos hcount] at h
    cases h
  | cons a A ih =>
    rw [encode_length_cons, ← Nat.add_assoc] at hseen
    rw [List.cons_append, search,
      if_pos (hseen.mono ((Nat.le_add_right _ _).trans (Nat.le_add_right _ _)))] at h
    split_ifs at h
    exact ih h hseen

theorem prefix_bytes {x : UInt8} {s Y : List UInt8} (h : x :: s <+: f.bytes ++ Y)
    (hs : ∀ y s', s = y :: s' → s'.length ≤ y.toNat) : x = f.id ∧ x :: s <+: f.bytes := by
  obtain ⟨hid, hrest⟩ := List.cons_prefix_cons.1 h
  refine ⟨hid, List.cons_prefix_cons.2 ⟨hid, ?_⟩⟩
  cases s with
  | nil => exact List.nil_prefix
  | cons y s =>
    obtain ⟨hlen, hdata⟩ := List.cons_prefix_cons.1 hrest
    refine List.cons_prefix_cons.2 ⟨hlen, ?_⟩
    have hfits := f.fits
    have hsize := hs y s rfl
    rw [hlen, UInt8.toNat_ofNat', Nat.mod_eq_of_lt hfits] at hsize
    exact List.prefix_of_prefix_length_le hdata (List.prefix_append _ _) hsize

/-- Bytes of the OUI at the start of an element are all in it, and it is no vendor element. -/
theorem oui_rest {a s Y : List UInt8} (hs : a ++ s = wfdOui) (hne : s ≠ [])
    (h : s <+: f.bytes ++ Y) : s <+: f.bytes ∧ f.id ≠ vendorSpecific := by
  have hhead : ∀ x t, s = x :: t → x ≠ vendorSpecific →
      (∀ y s', t = y :: s' → s'.length ≤ y.toNat) → s <+: f.bytes ∧ f.id ≠ vendorSpecific := by
    rintro x t rfl hx ht
    obtain ⟨hid, hall⟩ := prefix_bytes h ht
    exact ⟨hall, hid ▸ hx⟩
  rcases a with _ | ⟨a₀, _ | ⟨a₁, _ | ⟨a₂, _ | ⟨a₃, a⟩⟩⟩⟩
  · refine hhead 0x50 [0x6f, 0x9a, 0x0a] hs (by decide) ?_
    rintro y s' heq
    obtain ⟨rfl, rfl⟩ := List.cons.inj heq
    decide
  · obtain ⟨-, hs⟩ := List.cons.inj hs
    refine hhead 0x6f [0x9a, 0x0a] hs (by decide) ?_
    rintro y s' heq
    obtain ⟨rfl, rfl⟩ := List.cons.inj heq
    decide
  · obtain ⟨-, hs⟩ := List.cons.inj (List.cons.inj hs).2
    refine hhead 0x9a [0x0a] hs (by decide) ?_
    rintro y s' heq
    obtain ⟨rfl, rfl⟩ := List.cons.inj heq
    decide
  · obtain ⟨-, hs⟩ := List.cons.inj (List.cons.inj (List.cons.inj hs).2).2
    exact hhead 0x0a [] hs (by decide) fun y s' heq => absurd heq (List.cons_ne_nil _ _).symm
  · have hlen := congrArg List.length hs
    have hfour : wfdOui.length = 4 := rfl
    have hpos := List.length_pos_iff.2 hne
    simp only [List.length_append, List.length_cons, hfour] at hlen
    omega

/-- An element that only counts with those behind it does so without the WFD elements too. -/
theorem counts_strip (h : Counts e (encode B ++ r)) (hwfd : ¬ IsWfd e) (cnt : ℕ) :
    Counts e (encode (strip B cnt) ++ r) := by
  cases B with
  | nil => exact h
  | cons f B =>
    refine ⟨h.1, ?_⟩
    rw [encode_cons, List.append_assoc] at h
    rcases List.prefix_or_prefix_of_prefix h.2 (List.prefix_append e.data _) with hin | hout
    · exact absurd ⟨h.1, hin⟩ hwfd
    · obtain ⟨s, hs⟩ := hout
      have hrest : s <+: f.bytes ++ (encode B ++ r) := by
        have hall := h.2
        rw [← hs] at hall
        exact (List.prefix_append_right_inj _).1 hall
      have hne : s ≠ [] := by
        rintro rfl
        rw [List.append_nil] at hs
        exact hwfd ⟨h.1, hs ▸ List.prefix_refl _⟩
      obtain ⟨hin, hid⟩ := oui_rest hs hne hrest
      have hkeep : ∃ C, strip (f :: B) cnt = f :: C := by
        rw [strip]
        split_ifs with hseen hf
        · exact absurd hf.1 hid
        · exact ⟨_, rfl⟩
        · exact ⟨_, rfl⟩
      obtain ⟨C, hC⟩ := hkeep
      rw [hC, encode_cons, List.append_assoc, ← hs]
      exact (List.prefix_append_right_inj _).2 (hin.trans (List.prefix_append _ _))

end Lists

/-! ## The loop -/

section Loop

variable {pre r tail : List UInt8} {e : Elem} {l A B : List Elem} {iesLen n len cnt p size : ℕ}
  {b : Buf}

theorem prefix_append_iff {x a t : List UInt8} (h : x.length ≤ a.length) :
    x <+: a ++ t ↔ x <+: a :=
  ⟨fun hx => List.prefix_of_prefix_length_le hx (List.prefix_append _ _) h,
    fun hx => hx.trans (List.prefix_append _ _)⟩

theorem getWfdIeFrom_out {mem : List UInt8} {inIe inLen : ℕ} (h : inLen ≤ cnt + 1 + 4) :
    getWfdIeFrom mem inIe inLen n cnt = none := by
  cases n with
  | zero => rfl
  | succ n => exact if_neg (Nat.not_lt.2 h)

theorem getWfdIeFrom_list {inIe inLen : ℕ} (hr : Cut r)
    (hlen : inLen = cnt + (encode l ++ r).length) (hpre : pre.length = inIe + cnt)
    (hn : (encode l ++ r).length ≤ n) :
    getWfdIeFrom (pre ++ (encode l ++ (r ++ tail))) inIe inLen n cnt =
      (search r l cnt).map fun found => (inIe + found.1, found.2) := by
  induction l generalizing pre n cnt with
  | nil =>
    rw [encode_nil, List.nil_append] at hlen hn ⊢
    rw [search]
    by_cases hshort : cnt + 1 + 4 < inLen
    · obtain ⟨n, rfl⟩ := Nat.exists_eq_add_of_le' (show 1 ≤ n by omega)
      have hne : r ≠ [] := List.length_pos_iff.1 (by omega)
      have hbyte : byteAt (pre ++ (r ++ tail)) (pre.length + 1) = byteAt r 1 :=
        (byteAt_append_right _ _ _).trans (byteAt_append_left (by omega) _)
      have hcounts : MatchesAt (pre ++ (r ++ tail)) vendorSpecific wfdOui pre.length ↔
          EndCounts r := by
        rw [matchesAt_end pre hne, EndTaken, List.drop_append_of_le_length (by omega),
          prefix_append_iff (by rw [List.length_drop]; change 4 ≤ _; omega), EndCounts]
        exact and_iff_right hne
      rw [getWfdIeFrom, if_pos hshort, ← hpre, hbyte]
      by_cases hseen : Seen cnt
      · rw [if_neg (Nat.not_le.2 hseen)]
        by_cases hend : EndCounts r
        · rw [if_pos (hcounts.2 hend), if_pos ⟨hseen, hend⟩, hpre]
          rfl
        · rw [if_neg (mt hcounts.1 hend), if_neg fun h => hend h.2]
          unfold Cut at hr
          exact getWfdIeFrom_out (by omega)
      · rw [if_pos (Nat.not_lt.1 hseen), if_neg fun h => hseen h.1]
        rfl
    · rw [getWfdIeFrom_out (Nat.not_lt.1 hshort), if_neg]
      · rfl
      · intro hend
        have hle := hend.2.2.length_le
        have hfour : wfdOui.length = 4 := rfl
        rw [List.length_drop] at hle
        omega
  | cons e l ih =>
    have hsize : (encode (e :: l) ++ r).length =
        e.data.length + 2 + (encode l ++ r).length := by
      rw [encode_cons, List.append_assoc, List.length_append, e.bytes_length]
    rw [hsize] at hlen hn
    by_cases hshort : cnt + 1 + 4 < inLen
    · obtain ⟨n, rfl⟩ := Nat.exists_eq_add_of_le' (show 1 ≤ n by omega)
      have hmem : pre ++ (encode (e :: l) ++ (r ++ tail)) =
          pre ++ (e.bytes ++ (encode l ++ (r ++ tail))) := by
        rw [encode_cons, List.append_assoc]
      have hat := at_append pre e (encode l ++ (r ++ tail))
      have hcounts : MatchesAt (pre ++ (e.bytes ++ (encode l ++ (r ++ tail)))) vendorSpecific
          wfdOui pre.length ↔ Counts e (encode l ++ r) := by
        rw [matchesAt_iff hat, Taken, ← List.append_assoc, ← List.append_assoc,
          prefix_append_iff, List.append_assoc, Counts, Taken]
        rw [List.length_append, List.length_append]
        rw [List.length_append] at hlen
        change 4 ≤ _
        omega
      rw [hmem, getWfdIeFrom, if_pos hshort, ← hpre, hat.len, search]
      by_cases hseen : Seen cnt
      · rw [if_neg (Nat.not_le.2 hseen), if_pos hseen]
        by_cases hcount : Counts e (encode l ++ r)
        · rw [if_pos (hcounts.2 hcount), if_pos hcount, hpre]
          rfl
        · rw [if_neg (mt hcounts.1 hcount), if_neg hcount, ← List.append_assoc]
          refine ih (by omega) ?_ (by omega)
          rw [List.length_append, e.bytes_length]
          omega
      · rw [if_pos (Nat.not_lt.1 hseen), if_neg hseen]
        rfl
    · rw [getWfdIeFrom_out (Nat.not_lt.1 hshort), search_short (by rw [hsize]; omega)]
      rfl

structure Stands (pre r tail : List UInt8) (l : List Elem) (iesLen : ℕ) (b : Buf) : Prop where
  cut : Cut r
  mem : b.mem = pre ++ (encode l ++ (r ++ tail))
  len : iesLen = (encode l ++ r).length
  fits : iesLen < 2 ^ 31

theorem Stands.get_eq (h : Stands pre r tail l iesLen b) : rtwGetWfdIe b.mem pre.length iesLen =
    (search r l 0).map fun found => (pre.length + found.1, found.2) := by
  have hfits := h.fits
  unfold rtwGetWfdIe
  by_cases hzero : iesLen = 0
  · rw [if_pos (Or.inl hzero), search_short (by rw [← h.len, hzero]; decide)]
    rfl
  · rw [if_neg (by omega), h.mem]
    exact getWfdIeFrom_list h.cut (by rw [h.len, Nat.zero_add]) rfl (Nat.le_of_eq h.len.symm)

def removed (pre A : List UInt8) (iesLen size : ℕ) (b : Buf) : Buf :=
  let targetIe := pre.length + A.length
  let remainLen := usub iesLen (targetIe + size - pre.length)
  (b.memmove targetIe (targetIe + size) remainLen).memset (targetIe + remainLen) 0 size

theorem Stands.removed (h : Stands pre r tail (A ++ e :: B) iesLen b) :
    Stands pre r (List.replicate (e.data.length + 2) 0 ++ tail) (A ++ B)
      (usub iesLen (e.data.length + 2))
      (removed pre (encode A) iesLen (e.data.length + 2) b) ∧
    ∀ len, pre.length + iesLen ≤ len → Within len b.ops →
      Within len (WfdRemove.removed pre (encode A) iesLen (e.data.length + 2) b).ops := by
  have hfits := h.fits
  have hlen := h.len
  rw [encode_insert, List.append_assoc, List.append_assoc, List.length_append,
    List.length_append, e.bytes_length] at hlen
  have hremain : usub iesLen (pre.length + (encode A).length + (e.data.length + 2) - pre.length) =
      (encode B ++ r).length := by
    rw [usub, u32]
    omega
  have hmem : b.mem = (pre ++ encode A) ++ (e.bytes ++ ((encode B ++ r) ++ tail)) := by
    rw [h.mem, encode_insert]
    simp only [List.append_assoc]
  have hmove := moveBytes_down (pre ++ encode A) e.bytes (encode B ++ r) tail
  rw [← hmem, List.length_append, e.bytes_length] at hmove
  refine ⟨⟨h.cut, ?_, ?_, ?_⟩, fun len hle hin => ?_⟩
  · have hdst : pre.length + (encode A).length + (encode B ++ r).length =
        (pre ++ encode A ++ (encode B ++ r)).length := by simp only [List.length_append]
    have hold : (List.replicate (e.data.length + 2) (0 : UInt8)).length =
        ((e.bytes ++ (encode B ++ r)).drop (encode B ++ r).length).length := by
      rw [List.length_replicate, List.length_drop, List.length_append, e.bytes_length]
      omega
    simp only [WfdRemove.removed, Buf.memset, Buf.memcpy, Buf.memmove]
    rw [hremain, hmove, ← List.append_assoc (pre ++ encode A), hdst, putBytes_at _ hold,
      encode_append]
    simp only [List.append_assoc]
  · rw [usub, u32, encode_append]
    simp only [List.length_append] at hlen ⊢
    omega
  · rw [usub, u32]
    omega
  · simp only [WfdRemove.removed, Buf.memset, Buf.memcpy, Buf.memmove]
    rw [hremain, List.length_replicate]
    refine (within_append _ _).2 ⟨(within_append _ _).2 ⟨hin, ?_⟩, ?_⟩
    · exact (within_cons _ _).2 ⟨bytes_within _ (by omega), within_nil⟩
    · exact (within_cons _ _).2 ⟨bytes_within _ (by omega), within_nil⟩

theorem delFrom_none (h : Stands pre r tail l iesLen b) (hnone : search r l 0 = none) (n : ℕ) :
    delFrom pre.length n iesLen b = (iesLen, b) := by
  cases n with
  | zero => rfl
  | succ n =>
    rw [delFrom, h.get_eq, hnone]
    rfl

theorem delFrom_take (h : Stands pre r tail (A ++ e :: B) iesLen b)
    (hfound : search r (A ++ e :: B) 0 = some ((encode A).length, e.data.length + 2)) (n : ℕ) :
    delFrom pre.length (n + 1) iesLen b = delFrom pre.length n (usub iesLen (e.data.length + 2))
      (removed pre (encode A) iesLen (e.data.length + 2) b) := by
  rw [delFrom, h.get_eq, hfound]
  rfl

/-- A length that is negative as an `int`. -/
theorem delFrom_out {ies : ℕ} (h : 2 ^ 31 ≤ iesLen) : delFrom ies n iesLen b = (iesLen, b) := by
  cases n with
  | zero => rfl
  | succ n => rw [delFrom, rtwGetWfdIe, if_pos (Or.inr h)]

theorem delFrom_ops (ies n iesLen : ℕ) (b : Buf) :
    ∀ op ∈ b.ops, op ∈ (delFrom ies n iesLen b).2.ops := by
  induction n generalizing iesLen b with
  | zero => exact fun op hop => hop
  | succ n ih =>
    intro op hop
    rw [delFrom]
    split
    · exact hop
    · exact ih _ _ op (List.mem_append_left _ (List.mem_append_left _ hop))

theorem rtwDelWfdIe_ops (ies iesLenOri : ℕ) (b : Buf) :
    ∀ op ∈ b.ops, op ∈ (rtwDelWfdIe ies iesLenOri b).2.ops := delFrom_ops _ _ _ _

theorem delFrom_overruns (h : Stands pre r tail l iesLen b)
    (hfound : search r l 0 = some ((encode l).length, byteAt r 1 + 2)) (hlen : len < 2 ^ 31)
    (n : ℕ) : ¬ Within len (delFrom pre.length (n + 1) iesLen b).2.ops := by
  intro hin
  have hcut := h.cut
  have hbyte := byteAt_lt r 1
  have hfits := h.fits
  have hies := h.len
  rw [List.length_append] at hies
  unfold Cut at hcut
  have hremain : usub iesLen (pre.length + (encode l).length + (byteAt r 1 + 2) - pre.length) =
      iesLen + 2 ^ 32 - ((encode l).length + (byteAt r 1 + 2)) := by
    rw [usub, u32, Nat.add_assoc, Nat.add_sub_cancel_left]
    exact Nat.mod_eq_of_lt (by omega)
  rw [delFrom, h.get_eq, hfound] at hin
  simp only [Option.map_some] at hin
  rw [hremain] at hin
  have hmove := hin _ (delFrom_ops _ _ _ _ _ (List.mem_append_left _
    (List.mem_append_right _ List.mem_cons_self)))
  have hinside := (bytes_within_iff _ (by omega)).1 hmove
  omega

theorem strip_remove (hseen : Seen p) (hstrip : ∀ C, strip (A ++ C) 0 = A ++ strip C p) :
    (IsWfd e → strip (A ++ B) 0 = strip (A ++ e :: B) 0) ∧
      (¬ IsWfd e →
        (encode (strip (A ++ B) 0)).length < (encode (strip (A ++ e :: B) 0)).length) := by
  constructor
  · intro hwfd
    rw [hstrip, hstrip, strip, if_pos hseen, if_pos hwfd]
  · intro hwfd
    have hmono := strip_length_mono B (Nat.le_add_right p (e.data.length + 2))
    rw [hstrip, hstrip, strip, if_pos hseen, if_neg hwfd, encode_append, encode_append,
      List.length_append, List.length_append, encode_length_cons]
    omega

/-- Only WFD elements are removed if the search finds nothing in the list without them. -/
theorem delFrom_exact (h : Stands pre r tail l iesLen b) (hn : l.length ≤ n)
    (hclean : search r (strip l 0) 0 = none) : ∃ tail' b',
      delFrom pre.length n iesLen b = ((encode (strip l 0) ++ r).length, b') ∧
      b'.mem = pre ++ (encode (strip l 0) ++ (r ++ tail')) ∧
      ∀ len, pre.length + iesLen ≤ len → Within len b.ops → Within len b'.ops := by
  induction n generalizing l tail iesLen b with
  | zero =>
    obtain rfl := List.length_eq_zero_iff.1 (Nat.le_zero.1 hn)
    exact ⟨tail, b, by rw [delFrom, h.len]; rfl, h.mem, fun _ _ hin => hin⟩
  | succ n ih =>
    cases hfound : search r l 0 with
    | none =>
      rw [strip_of_none hfound]
      refine ⟨tail, b, ?_, h.mem, fun _ _ hin => hin⟩
      rw [delFrom_none h hfound, h.len]
    | some found =>
      obtain ⟨p, size⟩ := found
      obtain ⟨hseen, ⟨A, e, B, rfl, rfl, rfl, hcount, hstrip⟩ | ⟨-, -, -, hsame⟩⟩ :=
        search_found hfound
      · rw [Nat.zero_add] at hseen hfound hstrip
        have hwfd : IsWfd e := by
          by_contra hwfd
          rw [hstrip, strip, if_pos hseen, if_neg hwfd] at hclean
          exact search_none hclean (by rwa [Nat.zero_add]) (counts_strip hcount hwfd _)
        have heq := (strip_remove (e := e) (B := B) hseen hstrip).1 hwfd
        obtain ⟨hstands, hops⟩ := h.removed
        have hcount' : (A ++ B).length ≤ n := by
          rw [List.length_append, List.length_cons] at hn
          rw [List.length_append]
          omega
        obtain ⟨tail', b', hrun, hmem, hin⟩ := ih hstands hcount' (by rw [heq, hclean])
        rw [heq] at hrun hmem
        refine ⟨tail', b', by rw [delFrom_take h hfound, hrun], hmem, fun len hle hwithin => ?_⟩
        refine hin len ?_ (hops len hle hwithin)
        have hless := h.len
        rw [encode_insert, List.append_assoc, List.append_assoc, List.length_append,
          List.length_append, e.bytes_length] at hless
        rw [usub, u32]
        have hfits := h.fits
        omega
      · rw [hsame, hfound] at hclean
        cases hclean

theorem delFrom_le (h : Stands pre r tail l iesLen b) (hn : l.length < n) (hlen : len < 2 ^ 31)
    (hin : Within len (delFrom pre.length n iesLen b).2.ops) :
    (∃ behind, (delFrom pre.length n iesLen b).2.mem = pre ++ behind) ∧
      (delFrom pre.length n iesLen b).1 ≤ (encode (strip l 0) ++ r).length ∧
      (search r (strip l 0) 0 ≠ none →
        (delFrom pre.length n iesLen b).1 < (encode (strip l 0) ++ r).length) := by
  induction n generalizing l tail iesLen b with
  | zero => exact absurd hn (Nat.not_lt_zero _)
  | succ n ih =>
    cases hfound : search r l 0 with
    | none =>
      rw [strip_of_none hfound, delFrom_none h hfound, ← h.len]
      exact ⟨⟨_, h.mem⟩, Nat.le_refl _, fun hne => absurd hfound hne⟩
    | some found =>
      obtain ⟨p, size⟩ := found
      obtain ⟨hseen, ⟨A, e, B, rfl, rfl, rfl, hcount, hstrip⟩ | ⟨rfl, rfl, -, -⟩⟩ :=
        search_found hfound
      · rw [Nat.zero_add] at hseen hfound hstrip
        rw [delFrom_take h hfound] at hin ⊢
        have hcount' : (A ++ B).length < n := by
          rw [List.length_append, List.length_cons] at hn
          rw [List.length_append]
          omega
        obtain ⟨hmem, hle, hlt⟩ := ih h.removed.1 hcount' hin
        refine ⟨hmem, ?_⟩
        obtain ⟨hsame, hless⟩ := strip_remove (e := e) (B := B) hseen hstrip
        by_cases hwfd : IsWfd e
        · rw [hsame hwfd] at hle hlt
          exact ⟨hle, hlt⟩
        · have hshort := hless hwfd
          rw [List.length_append] at hle ⊢
          exact ⟨by omega, fun _ => by omega⟩
      · rw [Nat.zero_add] at hfound
        exact absurd hin (delFrom_overruns h hfound hlen n)

end Loop

end Rtl8189.WfdRemove
