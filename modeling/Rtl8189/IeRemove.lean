import Rtl8189.ElemList

/-!
# Removing information elements

`rtw_ies_remove_ie` searches, moves what stands behind a match over it, and searches again
from there. What stands behind the list takes part: the comparison with an OUI does not stop
at the end of an element, and a moved list leaves its last bytes behind.
-/
namespace Rtl8189.IeRemove

open AccessTrace ElemList IeLookup

/-- The comparison of `rtw_get_ie_ex`. A null `oui` is the empty one. -/
def MatchesAt (mem : List UInt8) (eid : UInt8) (oui : List UInt8) (p : ℕ) : Prop :=
  byteAt mem p = eid.toNat ∧ oui <+: mem.drop (p + 2)

instance (mem : List UInt8) (eid : UInt8) (oui : List UInt8) (p : ℕ) :
    Decidable (MatchesAt mem eid oui p) := inferInstanceAs (Decidable (_ ∧ _))

def getIeExFrom (mem : List UInt8) (inIe inLen : ℕ) (eid : UInt8) (oui : List UInt8) :
    ℕ → ℕ → Option (ℕ × ℕ)
  | 0, _ => none
  | n + 1, cnt =>
    if cnt < inLen then
      if MatchesAt mem eid oui (inIe + cnt) then
        some (inIe + cnt, byteAt mem (inIe + cnt + 1) + 2)
      else getIeExFrom mem inIe inLen eid oui n (u32 (cnt + (byteAt mem (inIe + cnt + 1) + 2)))
    else none

def rtwGetIeEx (mem : List UInt8) (inIe inLen : ℕ) (eid : UInt8) (oui : List UInt8) :
    Option (ℕ × ℕ) := getIeExFrom mem inIe inLen eid oui inLen 0

/-- The list with `ies_len`, what was moved and to what length, and the value returned. -/
structure Ies where
  mem : List UInt8
  iesLen : ℕ
  ops : List Op := []
  ret : Bool := false

def removeFrom (eid : UInt8) (oui : List UInt8) : ℕ → ℕ → ℕ → Ies → Ies
  | 0, _, _, s => s
  | n + 1, start, searchLen, s =>
    match rtwGetIeEx s.mem start searchLen eid oui with
    | none => s
    | some (targetIe, targetIelen) =>
      let remainIes := targetIe + targetIelen
      let remainLen := usub searchLen (remainIes - start)
      removeFrom eid oui n targetIe remainLen
        { mem := moveBytes s.mem targetIe remainIes remainLen
          iesLen := usub s.iesLen targetIelen
          ops := s.ops ++ [.bytes remainIes remainLen, .bytes targetIe remainLen,
            .length (s.iesLen - targetIelen)]
          ret := true }

def rtwIesRemoveIe (ies : List UInt8) (iesLen offset : ℕ) (eid : UInt8) (oui : List UInt8) :
    Ies :=
  if iesLen ≤ offset then { mem := ies, iesLen }
  else removeFrom eid oui iesLen offset (iesLen - offset) { mem := ies, iesLen }

/-! ## The search -/

variable (eid : UInt8) (oui : List UInt8)

def Taken (e : Elem) (behind : List UInt8) : Prop := e.id = eid ∧ oui <+: e.data ++ behind

def Wanted (e : Elem) : Prop := e.id = eid ∧ oui <+: e.data

instance (e : Elem) (behind : List UInt8) : Decidable (Taken eid oui e behind) :=
  inferInstanceAs (Decidable (_ ∧ _))

instance (e : Elem) : Decidable (Wanted eid oui e) := inferInstanceAs (Decidable (_ ∧ _))

def EndTaken (r tail : List UInt8) : Prop :=
  r ≠ [] ∧ byteAt r 0 = eid.toNat ∧ oui <+: (r ++ tail).drop 2

instance (r tail : List UInt8) : Decidable (EndTaken eid oui r tail) :=
  inferInstanceAs (Decidable (_ ∧ _))

def search (r tail : List UInt8) : List Elem → ℕ → Option (ℕ × ℕ)
  | [], start => if EndTaken eid oui r tail then some (start, byteAt (r ++ tail) 1 + 2) else none
  | e :: l, start =>
    if Taken eid oui e (encode l ++ (r ++ tail)) then some (start, e.data.length + 2)
    else search r tail l (start + (e.data.length + 2))

variable {eid oui}

theorem Wanted.taken {e : Elem} (h : Wanted eid oui e) (behind : List UInt8) :
    Taken eid oui e behind := ⟨h.1, h.2.trans (List.prefix_append _ _)⟩

theorem matchesAt_iff {mem tail : List UInt8} {p : ℕ} {e : Elem} (h : At mem p e tail) :
    MatchesAt mem eid oui p ↔ Taken eid oui e tail := by
  rw [MatchesAt, Taken, h.id, h.data, UInt8.toNat_inj]

theorem matchesAt_end (pre : List UInt8) {r : List UInt8} (hr : r ≠ []) (tail : List UInt8) :
    MatchesAt (pre ++ (r ++ tail)) eid oui pre.length ↔ EndTaken eid oui r tail := by
  have hid : byteAt (pre ++ (r ++ tail)) pre.length = byteAt r 0 :=
    (byteAt_append_right pre (r ++ tail) 0).trans
      (byteAt_append_left (List.length_pos_iff.mpr hr) tail)
  rw [MatchesAt, EndTaken, hid, ← List.drop_drop, List.drop_left]
  exact (and_iff_right hr).symm

theorem cut_size {r : List UInt8} (hr : Cut r) (tail : List UInt8) :
    r.length < byteAt (r ++ tail) 1 + 2 := by
  by_cases hshort : r.length < 2
  · omega
  · rw [byteAt_append_left (by omega)]
    exact hr

theorem getIeExFrom_list {pre r tail : List UInt8} {l : List Elem} {inIe inLen n cnt : ℕ}
    (hr : Cut r) (hlen : inLen = cnt + (encode l ++ r).length) (hpre : pre.length = inIe + cnt)
    (hn : (encode l ++ r).length ≤ n) (hfits : inLen < 2 ^ 31) :
    getIeExFrom (pre ++ (encode l ++ (r ++ tail))) inIe inLen eid oui n cnt =
      search eid oui r tail l pre.length := by
  induction l generalizing pre n cnt with
  | nil =>
    rw [encode_nil, List.nil_append] at hlen hn ⊢
    rw [search]
    by_cases hnil : r = []
    · subst hnil
      rw [if_neg fun h : EndTaken eid oui [] tail => h.1 rfl]
      cases n with
      | zero => rfl
      | succ n => exact if_neg (by simp [hlen])
    · have hpos := List.length_pos_iff.mpr hnil
      have hsize := cut_size hr tail
      have hbyte := byteAt_lt (r ++ tail) 1
      have hlenByte : byteAt (pre ++ (r ++ tail)) (pre.length + 1) = byteAt (r ++ tail) 1 :=
        byteAt_append_right pre (r ++ tail) 1
      cases n with
      | zero => omega
      | succ n =>
        rw [getIeExFrom, if_pos (by omega), ← hpre, hlenByte]
        by_cases htaken : EndTaken eid oui r tail
        · rw [if_pos ((matchesAt_end pre hnil tail).mpr htaken), if_pos htaken]
        · rw [if_neg fun h => htaken ((matchesAt_end pre hnil tail).mp h), if_neg htaken]
          have hnext : u32 (cnt + (byteAt (r ++ tail) 1 + 2)) = cnt + (byteAt (r ++ tail) 1 + 2) :=
            Nat.mod_eq_of_lt (by omega)
          rw [hnext]
          cases n with
          | zero => rfl
          | succ n => exact if_neg (by omega)
  | cons e l ih =>
    have hat := at_append pre e (encode l ++ (r ++ tail))
    have hsplit : encode (e :: l) ++ (r ++ tail) = e.bytes ++ (encode l ++ (r ++ tail)) := by
      rw [encode_cons, List.append_assoc]
    rw [List.length_append, encode_length_cons] at hlen hn
    rw [hsplit, search]
    cases n with
    | zero => omega
    | succ n =>
      rw [getIeExFrom, if_pos (by omega), ← hpre, hat.len]
      by_cases htaken : Taken eid oui e (encode l ++ (r ++ tail))
      · rw [if_pos ((matchesAt_iff hat).mpr htaken), if_pos htaken]
      · have hfit := e.fits
        have hnext : u32 (cnt + (e.data.length + 2)) = cnt + (e.data.length + 2) :=
          Nat.mod_eq_of_lt (by omega)
        have hstart : (pre ++ e.bytes).length = pre.length + (e.data.length + 2) := by
          rw [List.length_append, e.bytes_length]
        rw [if_neg fun h => htaken ((matchesAt_iff hat).mp h), if_neg htaken, hnext, ← hstart,
          ← List.append_assoc]
        apply ih
        · rw [List.length_append]
          omega
        · omega
        · rw [List.length_append]
          omega

theorem rtwGetIeEx_list {pre r tail : List UInt8} {l : List Elem} {inLen : ℕ} (hr : Cut r)
    (hlen : inLen = (encode l ++ r).length) (hfits : inLen < 2 ^ 31) :
    rtwGetIeEx (pre ++ (encode l ++ (r ++ tail))) pre.length inLen eid oui =
      search eid oui r tail l pre.length := by
  apply getIeExFrom_list hr _ rfl _ hfits
  · rw [hlen, Nat.zero_add]
  · exact Nat.le_of_eq hlen.symm

theorem search_ge {r tail : List UInt8} {l : List Elem} {start p n : ℕ}
    (h : search eid oui r tail l start = some (p, n)) : start ≤ p := by
  induction l generalizing start with
  | nil =>
    rw [search] at h
    split_ifs at h
    cases h
    exact Nat.le_refl _
  | cons e l ih =>
    rw [search] at h
    split_ifs at h
    · cases h
      exact Nat.le_refl _
    · exact (Nat.le_add_right _ _).trans (ih h)

/-! ## What is kept -/

/-- The bytes behind the list when an element in front of `kept` is removed. -/
def leftBehind (e : Elem) (kept tail : List UInt8) : List UInt8 :=
  (e.bytes ++ kept).drop kept.length ++ tail

variable (eid oui) in
def kept (r : List UInt8) : List Elem → List UInt8 → List Elem
  | [], _ => []
  | e :: l, tail =>
    if Taken eid oui e (encode l ++ (r ++ tail)) then
      kept r l (leftBehind e (encode l ++ r) tail)
    else e :: kept r l tail

variable (eid oui) in
def tailAfter (r : List UInt8) : List Elem → List UInt8 → List UInt8
  | [], tail => tail
  | e :: l, tail =>
    if Taken eid oui e (encode l ++ (r ++ tail)) then
      tailAfter r l (leftBehind e (encode l ++ r) tail)
    else tailAfter r l tail

variable (eid oui) in
def OnlyWanted : List Elem → List UInt8 → Prop
  | [], _ => True
  | e :: l, tail =>
    if Taken eid oui e (encode l ++ tail) then
      Wanted eid oui e ∧ OnlyWanted l (leftBehind e (encode l) tail)
    else OnlyWanted l tail

/-! ## The loop -/

section Loop

variable {pre r tail : List UInt8} {e : Elem} {l : List Elem} {s : Ies}

structure Stands (pre r tail : List UInt8) (l : List Elem) (s : Ies) : Prop where
  cut : Cut r
  mem : s.mem = pre ++ (encode l ++ (r ++ tail))
  len : s.iesLen = pre.length + (encode l ++ r).length
  fits : s.iesLen < 2 ^ 31

theorem Stands.search_eq (h : Stands pre r tail l s) :
    rtwGetIeEx s.mem pre.length (encode l ++ r).length eid oui =
      search eid oui r tail l pre.length := by
  have hfits := h.fits
  rw [h.len] at hfits
  rw [h.mem]
  exact rtwGetIeEx_list h.cut rfl (by omega)

theorem Stands.skip (h : Stands pre r tail (e :: l) s) : Stands (pre ++ e.bytes) r tail l s where
  cut := h.cut
  mem := by rw [h.mem, encode_cons, List.append_assoc, List.append_assoc]
  len := by
    have hlen := h.len
    rw [List.length_append, encode_length_cons] at hlen
    rw [hlen, List.length_append, List.length_append, e.bytes_length]
    omega
  fits := h.fits

theorem removeFrom_skip (n : ℕ) (h : Stands pre r tail (e :: l) s)
    (htaken : ¬ Taken eid oui e (encode l ++ (r ++ tail))) :
    removeFrom eid oui n pre.length (encode (e :: l) ++ r).length s =
      removeFrom eid oui n (pre ++ e.bytes).length (encode l ++ r).length s := by
  cases n with
  | zero => rfl
  | succ n =>
    have hstart : (pre ++ e.bytes).length = pre.length + (e.data.length + 2) := by
      rw [List.length_append, e.bytes_length]
    have hsame : search eid oui r tail (e :: l) pre.length =
        search eid oui r tail l (pre ++ e.bytes).length := by
      rw [search, if_neg htaken, hstart]
    rw [removeFrom, removeFrom, h.search_eq, h.skip.search_eq, hsame]
    cases hfound : search eid oui r tail l (pre ++ e.bytes).length with
    | none => rfl
    | some found =>
      obtain ⟨p, size⟩ := found
      have hge := search_ge hfound
      have hlen : (encode (e :: l) ++ r).length =
          e.data.length + 2 + (encode l ++ r).length := by
        rw [List.length_append, encode_length_cons, List.length_append, Nat.add_assoc]
      have hremain : usub (encode (e :: l) ++ r).length (p + size - pre.length) =
          usub (encode l ++ r).length (p + size - (pre ++ e.bytes).length) := by
        rw [usub, usub, hlen, hstart]
        congr 1
        omega
      dsimp only
      rw [hremain]

variable (pre r e l) in
def removed (tail : List UInt8) (s : Ies) : Ies where
  mem := pre ++ (encode l ++ (r ++ leftBehind e (encode l ++ r) tail))
  iesLen := pre.length + (encode l ++ r).length
  ops := s.ops ++ [.bytes (pre.length + (e.data.length + 2) : ℕ) (encode l ++ r).length,
    .bytes pre.length (encode l ++ r).length, .length (s.iesLen - (e.data.length + 2 : ℕ))]
  ret := true

theorem Stands.removed (h : Stands pre r tail (e :: l) s) :
    Stands pre r (leftBehind e (encode l ++ r) tail) l (removed pre r e l tail s) where
  cut := h.cut
  mem := rfl
  len := rfl
  fits := by
    have hfits := h.fits
    rw [h.len, List.length_append, encode_length_cons] at hfits
    change pre.length + (encode l ++ r).length < _
    rw [List.length_append]
    omega

theorem removeFrom_take (n : ℕ) (h : Stands pre r tail (e :: l) s)
    (htaken : Taken eid oui e (encode l ++ (r ++ tail))) :
    removeFrom eid oui (n + 1) pre.length (encode (e :: l) ++ r).length s =
      removeFrom eid oui n pre.length (encode l ++ r).length (removed pre r e l tail s) := by
  have hfits := h.fits
  have hlen := h.len
  have hall : (encode (e :: l) ++ r).length = e.data.length + 2 + (encode l ++ r).length := by
    rw [List.length_append, encode_length_cons, List.length_append, Nat.add_assoc]
  have hremain : usub (encode (e :: l) ++ r).length
      (pre.length + (e.data.length + 2) - pre.length) = (encode l ++ r).length := by
    rw [usub, u32, hall]
    omega
  have hies : usub s.iesLen (e.data.length + 2) = pre.length + (encode l ++ r).length := by
    rw [usub, u32]
    omega
  have hmove : moveBytes s.mem pre.length (pre.length + (e.data.length + 2)) (encode l ++ r).length =
      pre ++ (encode l ++ (r ++ leftBehind e (encode l ++ r) tail)) := by
    have hmem : s.mem = pre ++ (e.bytes ++ ((encode l ++ r) ++ tail)) := by
      rw [h.mem, encode_cons, List.append_assoc, List.append_assoc]
    rw [hmem, ← e.bytes_length, moveBytes_down, leftBehind, List.append_assoc]
  rw [removeFrom, h.search_eq, search, if_pos htaken]
  dsimp only
  rw [hremain, hies, hmove]
  rfl

theorem removeFrom_ops (n start searchLen : ℕ) (s : Ies) :
    ∀ op ∈ s.ops, op ∈ (removeFrom eid oui n start searchLen s).ops := by
  induction n generalizing start searchLen s with
  | zero => exact fun op hop => hop
  | succ n ih =>
    intro op hop
    rw [removeFrom]
    split
    · exact hop
    · exact ih _ _ _ op (List.mem_append_left _ hop)

variable (eid oui) in
/-- What the loop does where the end of the list is not taken for an element. -/
structure Cleared (pre r tail : List UInt8) (l : List Elem) (s out : Ies) : Prop where
  mem : out.mem = pre ++ (encode (kept eid oui r l tail) ++ (r ++ tailAfter eid oui r l tail))
  len : out.iesLen = pre.length + (encode (kept eid oui r l tail) ++ r).length
  ret : out.ret = true ↔ s.ret = true ∨ kept eid oui r l tail ≠ l
  ops : ∀ len, s.iesLen ≤ len → Within len s.ops → Within len out.ops

variable (eid oui) in
theorem kept_length_le (r : List UInt8) (l : List Elem) (tail : List UInt8) :
    (kept eid oui r l tail).length ≤ l.length := by
  induction l generalizing tail with
  | nil => exact Nat.le_refl _
  | cons e l ih =>
    rw [kept]
    split_ifs
    · exact (ih _).trans (Nat.le_succ _)
    · exact Nat.succ_le_succ (ih _)

theorem removeFrom_cleared {n : ℕ} (h : Stands pre r tail l s) (hn : l.length ≤ n)
    (hend : ¬ EndTaken eid oui r (tailAfter eid oui r l tail)) :
    Cleared eid oui pre r tail l s
      (removeFrom eid oui n pre.length (encode l ++ r).length s) := by
  induction l generalizing pre tail s n with
  | nil =>
    rw [tailAfter] at hend
    have hout : removeFrom eid oui n pre.length (encode [] ++ r).length s = s := by
      cases n with
      | zero => rfl
      | succ n => rw [removeFrom, h.search_eq, search, if_neg hend]
    rw [hout]
    exact ⟨h.mem, h.len, by simp [kept], fun _ _ hops => hops⟩
  | cons e l ih =>
    have hlen := h.len
    rw [List.length_append, encode_length_cons] at hlen
    rw [tailAfter] at hend
    by_cases htaken : Taken eid oui e (encode l ++ (r ++ tail))
    · rw [if_pos htaken] at hend
      cases n with
      | zero => exact absurd hn (Nat.not_succ_le_zero _)
      | succ n =>
        rw [removeFrom_take n h htaken]
        obtain ⟨hmem, hlen', hret, hops⟩ := ih h.removed (Nat.le_of_succ_le_succ hn) hend
        have hkept : kept eid oui r (e :: l) tail =
            kept eid oui r l (leftBehind e (encode l ++ r) tail) := by rw [kept, if_pos htaken]
        have htail : tailAfter eid oui r (e :: l) tail =
            tailAfter eid oui r l (leftBehind e (encode l ++ r) tail) := by
          rw [tailAfter, if_pos htaken]
        have hshort := kept_length_le eid oui r l
          (leftBehind e (encode l ++ r) tail)
        refine ⟨by rw [hkept, htail, hmem], by rw [hkept, hlen'], ?_, ?_⟩
        · refine iff_of_true (hret.mpr (.inl rfl)) (.inr fun heq => ?_)
          rw [hkept] at heq
          rw [heq, List.length_cons] at hshort
          omega
        · intro len hle hin
          have hrlen : (encode l ++ r).length = (encode l).length + r.length := List.length_append
          apply hops len
          · change pre.length + (encode l ++ r).length ≤ len
            omega
          · refine (within_append _ _).mpr ⟨hin, ?_⟩
            refine (within_cons _ _).mpr ⟨?_, (within_cons _ _).mpr ⟨?_, (within_cons _ _).mpr ⟨?_,
              within_nil⟩⟩⟩
            · exact bytes_within _ (by omega)
            · exact bytes_within _ (by omega)
            · change 0 ≤ (s.iesLen : ℤ) - ((e.data.length + 2 : ℕ) : ℤ)
              omega
    · rw [if_neg htaken] at hend
      rw [removeFrom_skip n h htaken]
      obtain ⟨hmem, hlen', hret, hops⟩ := ih h.skip (Nat.le_of_succ_le hn) hend
      have hkept : kept eid oui r (e :: l) tail = e :: kept eid oui r l tail := by
        rw [kept, if_neg htaken]
      have htail : tailAfter eid oui r (e :: l) tail = tailAfter eid oui r l tail := by
        rw [tailAfter, if_neg htaken]
      refine ⟨?_, ?_, ?_, hops⟩
      · rw [hkept, htail, hmem, encode_cons, List.append_assoc, List.append_assoc]
      · rw [hkept, hlen', encode_cons]
        simp only [List.length_append]
        omega
      · rw [hkept, hret]
        exact or_congr_right (not_congr (List.cons_inj_right e).symm)

/-- The end of the list taken for an element: more is moved than there is. -/
theorem removeFrom_overruns {n len : ℕ} (h : Stands pre r tail l s) (hn : l.length < n)
    (hlen : len < 2 ^ 31) (hend : EndTaken eid oui r (tailAfter eid oui r l tail)) :
    ¬ Within len (removeFrom eid oui n pre.length (encode l ++ r).length s).ops := by
  induction l generalizing pre tail s n with
  | nil =>
    rw [tailAfter] at hend
    cases n with
    | zero => exact absurd hn (Nat.not_lt_zero _)
    | succ n =>
      have hsize := cut_size h.cut tail
      have hbyte := byteAt_lt (r ++ tail) 1
      have hfits := h.fits
      have hrlen : (encode [] ++ r).length = r.length := rfl
      have hslen := h.len
      rw [hrlen] at hslen
      intro hin
      rw [removeFrom, h.search_eq, search, if_pos hend, hrlen] at hin
      have hremain : usub r.length (pre.length + (byteAt (r ++ tail) 1 + 2) - pre.length) =
          r.length + 2 ^ 32 - (byteAt (r ++ tail) 1 + 2) := by
        rw [usub, u32, Nat.add_sub_cancel_left]
        exact Nat.mod_eq_of_lt (by omega)
      dsimp only at hin
      rw [hremain] at hin
      have hmove := hin _ (removeFrom_ops _ _ _ _ _ (List.mem_append_right _ List.mem_cons_self))
      have hinside := (bytes_within_iff _ (by omega)).mp hmove
      omega
  | cons e l ih =>
    rw [tailAfter] at hend
    rw [List.length_cons] at hn
    by_cases htaken : Taken eid oui e (encode l ++ (r ++ tail))
    · rw [if_pos htaken] at hend
      cases n with
      | zero => exact absurd hn (Nat.not_lt_zero _)
      | succ n =>
        rw [removeFrom_take n h htaken]
        exact ih h.removed (by omega) hend
    · rw [if_neg htaken] at hend
      rw [removeFrom_skip n h htaken]
      exact ih h.skip (by omega) hend

end Loop

/-! ## Removing as a filter -/

theorem filter_wanted {e : Elem} (l : List Elem) (h : Wanted eid oui e) :
    (e :: l).filter (¬ Wanted eid oui ·) = l.filter (¬ Wanted eid oui ·) :=
  List.filter_cons_of_neg (by simpa using h)

theorem filter_other {e : Elem} (l : List Elem) (h : ¬ Wanted eid oui e) :
    (e :: l).filter (¬ Wanted eid oui ·) = e :: l.filter (¬ Wanted eid oui ·) :=
  List.filter_cons_of_pos (by simpa using h)

variable (eid oui) in
theorem filter_length_ge (l : List Elem) (tail : List UInt8) :
    (kept eid oui [] l tail).length ≤ (l.filter (¬ Wanted eid oui ·)).length := by
  induction l generalizing tail with
  | nil => exact Nat.le_refl _
  | cons e l ih =>
    rw [kept]
    split_ifs with htaken
    · refine (ih _).trans ?_
      rw [List.filter_cons]
      split_ifs
      · exact Nat.le_succ _
      · exact Nat.le_refl _
    · rw [filter_other l fun h => htaken (h.taken _)]
      exact Nat.succ_le_succ (ih _)

theorem kept_eq_filter_iff (l : List Elem) (tail : List UInt8) :
    kept eid oui [] l tail = l.filter (¬ Wanted eid oui ·) ↔ OnlyWanted eid oui l tail := by
  induction l generalizing tail with
  | nil => exact iff_of_true rfl trivial
  | cons e l ih =>
    rw [kept, OnlyWanted, List.nil_append]
    split_ifs with htaken
    · by_cases hwanted : Wanted eid oui e
      · rw [filter_wanted l hwanted, List.append_nil, ih]
        exact (and_iff_right hwanted).symm
      · rw [filter_other l hwanted]
        refine iff_of_false (fun heq => ?_) fun h => hwanted h.1
        have hle := filter_length_ge eid oui l
          (leftBehind e (encode l ++ []) tail)
        rw [heq, List.length_cons] at hle
        omega
    · rw [filter_other l fun h => htaken (h.taken _), List.cons_inj_right, ih]

structure Request where
  ies : List UInt8
  iesLen : ℕ
  offset : ℕ
  eid : UInt8
  oui : List UInt8
  holds : iesLen ≤ ies.length
  fits : iesLen < 2 ^ 31

namespace Request

variable (q : Request)

def out : Ies := rtwIesRemoveIe q.ies q.iesLen q.offset q.eid q.oui

/-- From the offset on the elements `l` and a cut-off end `r`. -/
def Splits (l : List Elem) (r : List UInt8) : Prop :=
  q.ies.take q.iesLen = q.ies.take q.offset ++ (encode l ++ r) ∧ Cut r

/-- A list without its matches, and nothing moved from or to outside. -/
structure Filters : Prop where
  filtered : ∀ l, q.Splits l [] →
    let left := q.ies.take q.offset ++ encode (l.filter (¬ Wanted q.eid q.oui ·))
    q.out.mem.take q.out.iesLen = left ∧ q.out.iesLen = left.length ∧
      (q.out.ret = true ↔ ∃ e ∈ l, Wanted q.eid q.oui e)
  stays : Within q.iesLen q.out.ops

/-- In a list no element is matched with the bytes behind it; a cut-off end is not matched. -/
def Spared : Prop :=
  (∀ l, q.Splits l [] → OnlyWanted q.eid q.oui l (q.ies.drop q.iesLen)) ∧
    ∀ l r, q.Splits l r →
      ¬ EndTaken q.eid q.oui r (tailAfter q.eid q.oui r l (q.ies.drop q.iesLen))

theorem splits_nil {l : List Elem} {r : List UInt8} (hoff : q.iesLen ≤ q.offset)
    (h : q.Splits l r) : l = [] ∧ r = [] := by
  have hlen := congrArg List.length h.1
  have hholds := q.holds
  simp only [List.length_append, List.length_take] at hlen
  constructor
  · by_contra hne
    have hpos := encode_length_pos hne
    omega
  · apply List.eq_nil_of_length_eq_zero
    omega

theorem stands {l : List Elem} {r : List UInt8} (hoff : q.offset < q.iesLen)
    (h : q.Splits l r) : (q.ies.take q.offset).length = q.offset ∧
      (encode l ++ r).length = q.iesLen - q.offset ∧
      Stands (q.ies.take q.offset) r (q.ies.drop q.iesLen) l { mem := q.ies, iesLen := q.iesLen } := by
  have hholds := q.holds
  have hpre : (q.ies.take q.offset).length = q.offset := List.length_take_of_le (by omega)
  have hlen : (q.ies.take q.iesLen).length = q.iesLen := List.length_take_of_le hholds
  rw [h.1, List.length_append, hpre] at hlen
  refine ⟨hpre, by omega, h.2, ?_, ?_, q.fits⟩
  · rw [← List.append_assoc (encode l), ← List.append_assoc, ← h.1, List.take_append_drop]
  · rw [hpre]
    exact hlen.symm

theorem out_eq {l : List Elem} {r : List UInt8} (hoff : q.offset < q.iesLen) (h : q.Splits l r) :
    q.out = removeFrom q.eid q.oui q.iesLen (q.ies.take q.offset).length (encode l ++ r).length
      { mem := q.ies, iesLen := q.iesLen } := by
  obtain ⟨hpre, hlen, -⟩ := q.stands hoff h
  rw [out, rtwIesRemoveIe, if_neg (Nat.not_le_of_lt hoff), hpre, hlen]

theorem exists_splits (hoff : q.offset < q.iesLen) : ∃ l r, q.Splits l r := by
  obtain ⟨l, r, hsplit, hr⟩ := exists_elements ((q.ies.take q.iesLen).drop q.offset)
  refine ⟨l, r, ?_, hr⟩
  have htake : (q.ies.take q.iesLen).take q.offset = q.ies.take q.offset := by
    rw [List.take_take, Nat.min_eq_left (Nat.le_of_lt hoff)]
  rw [← hsplit, ← htake]
  exact (List.take_append_drop q.offset _).symm

theorem kept_eq_self_iff {l : List Elem} : l.filter (¬ Wanted q.eid q.oui ·) = l ↔
    ¬ ∃ e ∈ l, Wanted q.eid q.oui e := by
  rw [List.filter_eq_self]
  simp

theorem out_cleared {l : List Elem} {r : List UInt8} (hoff : q.offset < q.iesLen)
    (h : q.Splits l r)
    (hend : ¬ EndTaken q.eid q.oui r (tailAfter q.eid q.oui r l (q.ies.drop q.iesLen))) :
    Cleared q.eid q.oui (q.ies.take q.offset) r (q.ies.drop q.iesLen) l
      { mem := q.ies, iesLen := q.iesLen } q.out := by
  obtain ⟨-, hlen, hstands⟩ := q.stands hoff h
  have hle := length_le_encode l
  rw [List.length_append] at hlen
  rw [q.out_eq hoff h]
  exact removeFrom_cleared hstands (by omega) hend

theorem out_list {l : List Elem} (hoff : q.offset < q.iesLen) (h : q.Splits l []) :
    let left := kept q.eid q.oui [] l (q.ies.drop q.iesLen)
    q.out.mem.take q.out.iesLen = q.ies.take q.offset ++ encode left ∧
      q.out.iesLen = (q.ies.take q.offset ++ encode left).length ∧
      (q.out.ret = true ↔ left ≠ l) := by
  have hcleared := q.out_cleared hoff h fun hend => hend.1 rfl
  have hlen := hcleared.len
  have hmem := hcleared.mem
  rw [List.append_nil] at hlen
  rw [List.nil_append, ← List.append_assoc] at hmem
  refine ⟨?_, by rw [hlen, List.length_append], ?_⟩
  · rw [hmem, hlen, ← List.length_append, List.take_left]
  · exact hcleared.ret.trans (or_iff_right Bool.false_ne_true)

theorem filters_of_spared {l : List Elem} {r : List UInt8} (hoff : q.offset < q.iesLen)
    (h : q.Splits l r) (hspared : q.Spared) : q.Filters := by
  have hcleared := q.out_cleared hoff h (hspared.2 l r h)
  refine ⟨?_, hcleared.ops q.iesLen (Nat.le_refl _) within_nil⟩
  intro m hm
  have hkept := (kept_eq_filter_iff m _).mpr (hspared.1 m hm)
  obtain ⟨hmem, hlen, hret⟩ := q.out_list hoff hm
  rw [hkept] at hmem hlen hret
  exact ⟨hmem, hlen, hret.trans ((not_congr q.kept_eq_self_iff).trans not_not)⟩

theorem spared_of_filters (hoff : q.offset < q.iesLen) (hfilters : q.Filters) : q.Spared := by
  constructor
  · intro m hm
    have hmem := (hfilters.filtered m hm).1.symm.trans (q.out_list hoff hm).1
    rw [List.append_cancel_left_eq] at hmem
    exact (kept_eq_filter_iff m _).mp (encode_injective hmem.symm)
  · intro m s hm hend
    obtain ⟨-, hlen, hstands⟩ := q.stands hoff hm
    have hle := length_le_encode m
    have hpos := List.length_pos_iff.mpr hend.1
    have hstays := hfilters.stays
    rw [q.out_eq hoff hm] at hstays
    rw [List.length_append] at hlen
    exact removeFrom_overruns hstands (by omega) q.fits hend hstays

/-- The elements that do not match are what is left, and nothing outside is moved, if and only if
no comparison runs into what stands behind the element. -/
theorem removes_matching_iff : q.Filters ↔ q.Spared := by
  by_cases hoff : q.iesLen ≤ q.offset
  · have hout : q.out = { mem := q.ies, iesLen := q.iesLen } := if_pos hoff
    refine iff_of_true ⟨?_, ?_⟩ ⟨?_, ?_⟩
    · intro l h
      obtain ⟨rfl, -⟩ := q.splits_nil hoff h
      have hsame : q.ies.take q.iesLen = q.ies.take q.offset ++ encode [] := h.1
      have hlen := congrArg List.length hsame
      rw [List.length_take_of_le q.holds] at hlen
      rw [hout]
      exact ⟨hsame, hlen, iff_of_false Bool.false_ne_true fun ⟨_, hmem, _⟩ => nomatch hmem⟩
    · rw [hout]
      exact within_nil
    · intro l h
      obtain ⟨rfl, -⟩ := q.splits_nil hoff h
      trivial
    · intro l r h hend
      exact hend.1 (q.splits_nil hoff h).2
  · have hlt := Nat.lt_of_not_le hoff
    obtain ⟨l, r, h⟩ := q.exists_splits hlt
    exact ⟨q.spared_of_filters hlt, q.filters_of_spared hlt h⟩

end Request

def cutOff : Request where
  ies := [221, 5, 1]
  iesLen := 3
  offset := 0
  eid := 221
  oui := []
  holds := Nat.le_refl 3
  fits := by decide

def piecedOui : Request where
  ies := [221, 0, 0x50, 2, 0x9a, 0x09]
  iesLen := 6
  offset := 0
  eid := 221
  oui := [0x50, 2, 0x9a, 0x09]
  holds := Nat.le_refl 6
  fits := by decide

def piecedElems : List Elem := [⟨221, [], Elem.nil_fits⟩, ⟨0x50, [0x9a, 0x09], by decide⟩]

theorem removes_others : ¬ cutOff.Filters ∧ ¬ piecedOui.Filters := by
  constructor
  · intro h
    exact (cutOff.spared_of_filters (by decide) h).2 [] [221, 5, 1] ⟨rfl, by decide⟩ (by decide)
  · intro h
    have hmem := (h.filtered piecedElems ⟨rfl, cut_nil⟩).1
    exact absurd hmem (by decide +kernel)

end Rtl8189.IeRemove
