import Mathlib.Algebra.Group.Int.Defs
import Rtl8189.P2pAttrs

/-!
# Merging P2P elements

`rtw_get_p2p_merged_ies_len` adds up what `rtw_p2p_merge_ies` copies behind one header: the
attributes of all P2P elements. The length byte of that header is written before, and stays.
-/
namespace Rtl8189.P2pMerge

open ElemList IeLookup IeRemove
open P2pAttrs (p2pOui)

def elOui : List UInt8 := [0xdd, 0x00, 0x50, 0x6f, 0x9a, 0x09]

def attrSize (inIe : List UInt8) (i : ℕ) : ℤ := byteAt inIe (i + 1) - 4

def mergedLenFrom (inIe : List UInt8) (inLen : ℕ) : ℕ → ℕ → ℤ → ℤ
  | 0, _, len => len
  | n + 1, i, len =>
    if i < inLen then
      mergedLenFrom inIe inLen n (i + (byteAt inIe (i + 1) + 2))
        (if MatchesAt inIe 221 p2pOui i then len + attrSize inIe i else len)
    else len

def rtwGetP2pMergedIesLen (inIe : List UInt8) (inLen : ℕ) : ℕ :=
  ((mergedLenFrom inIe inLen inLen 0 0 + 4) % 2 ^ 32).toNat

/-- What stands from `merge_ie` on, `len`, and the sizes that were copied. A negative one is a copy
without end. -/
structure Merge where
  mergeIe : List UInt8
  len : ℕ
  sizes : List ℤ

def Merge.copy (m : Merge) (src : List UInt8) (size : ℤ) : Merge where
  mergeIe := m.mergeIe ++ src.take size.toNat
  len := ((m.len + size) % 256).toNat
  sizes := m.sizes ++ [size]

def mergeFrom (inIe : List UInt8) (inLen : ℕ) : ℕ → ℕ → Merge → Merge
  | 0, _, m => m
  | n + 1, i, m =>
    if i < inLen then
      mergeFrom inIe inLen n (i + (byteAt inIe (i + 1) + 2))
        (if MatchesAt inIe 221 p2pOui i then m.copy (inIe.drop (i + 6)) (attrSize inIe i) else m)
    else m

def rtwP2pMergeIes (inIe : List UInt8) (inLen : ℕ) : Merge × ℕ :=
  let m := mergeFrom inIe inLen inLen 0 { mergeIe := elOui, len := 0, sizes := [] }
  (m, m.len + 4)

def attributes (l : List Elem) : List UInt8 :=
  (l.filter (Wanted 221 p2pOui ·)).flatMap fun e => e.data.drop 4

/-- One P2P element with the attributes of all, and with its length. -/
structure Merges (l : List Elem) (m : Merge) : Prop where
  length : byteAt m.mergeIe 1 = m.mergeIe.length - 2
  attributes : m.mergeIe.drop 6 = attributes l
  sizes : ∀ size ∈ m.sizes, 0 ≤ size

/-- No element is taken for a P2P element by what stands behind it. -/
def OwnOui : List Elem → List UInt8 → Prop
  | [], _ => True
  | e :: l, tail =>
    (Taken 221 p2pOui e (encode l ++ tail) → Wanted 221 p2pOui e) ∧ OwnOui l tail

section Rounds

variable {inIe : List UInt8} {inLen : ℕ}

theorem mergeFrom_header (n i : ℕ) {m : Merge} (h : elOui <+: m.mergeIe) :
    elOui <+: (mergeFrom inIe inLen n i m).mergeIe := by
  induction n generalizing i m with
  | zero => exact h
  | succ n ih =>
    rw [mergeFrom]
    split_ifs
    · exact ih _ (h.trans (List.prefix_append _ _))
    · exact ih _ h
    · exact h

end Rounds

theorem attributes_cons_own {e : Elem} (l : List Elem) (h : Wanted 221 p2pOui e) :
    attributes (e :: l) = e.data.drop 4 ++ attributes l := by
  rw [attributes, List.filter_cons_of_pos (by simpa using h), List.flatMap_cons, attributes]

theorem attributes_cons_other {e : Elem} (l : List Elem) (h : ¬ Wanted 221 p2pOui e) :
    attributes (e :: l) = attributes l := by
  rw [attributes, List.filter_cons_of_neg (by simpa using h), attributes]

theorem attributes_length_le (l : List Elem) : (attributes l).length ≤ (encode l).length := by
  induction l with
  | nil => exact Nat.le_refl 0
  | cons e l ih =>
    rw [encode_length_cons]
    by_cases hwanted : Wanted 221 p2pOui e
    · rw [attributes_cons_own l hwanted, List.length_append, List.length_drop]
      omega
    · rw [attributes_cons_other l hwanted]
      omega

/-- What the rounds have copied, beside what they have counted. -/
structure Counts (m : Merge) (len : ℤ) (old : List UInt8) : Prop where
  mergeIe : m.mergeIe.length = old.length + len
  len : (m.len : ℤ) = len % 256
  sizes : ∀ size ∈ m.sizes, 0 ≤ size

theorem Counts.copy_counts {m : Merge} {len : ℤ} {old src : List UInt8} {n : ℕ}
    (h : Counts m len old) (hsrc : n ≤ src.length) : Counts (m.copy src n) (len + n) old where
  mergeIe := by
    have hold := h.mergeIe
    change ((m.mergeIe ++ src.take n).length : ℤ) = _
    rw [List.length_append, List.length_take_of_le hsrc]
    omega
  len := by
    have hold := h.len
    change ((((m.len + n : ℤ) % 256).toNat : ℕ) : ℤ) = _
    omega
  sizes := List.forall_mem_append.mpr ⟨h.sizes, by simp⟩

/-- From a list without strange matches its attributes are copied, and counted. -/
theorem merge_rounds {pre tail : List UInt8} {l : List Elem} {n inLen : ℕ} {m : Merge} {len : ℤ}
    {old : List UInt8} (hown : OwnOui l tail) (hlen : inLen = pre.length + (encode l).length)
    (hn : (encode l).length ≤ n) (h : Counts m len old) :
    let out := mergeFrom (pre ++ (encode l ++ tail)) inLen n pre.length m
    out.mergeIe = m.mergeIe ++ attributes l ∧
      Counts out (mergedLenFrom (pre ++ (encode l ++ tail)) inLen n pre.length len) old := by
  induction l generalizing pre n m len with
  | nil =>
    have hnil : (encode []).length = 0 := rfl
    have hstop : ¬ pre.length < inLen := by omega
    cases n with
    | zero => exact ⟨(List.append_nil _).symm, h⟩
    | succ n =>
      rw [mergeFrom, mergedLenFrom, if_neg hstop, if_neg hstop]
      exact ⟨(List.append_nil _).symm, h⟩
  | cons e l ih =>
    obtain ⟨hmine, hrest⟩ := hown
    have hat := at_append pre e (encode l ++ tail)
    have htotal := encode_length_cons e l
    have hsplit : encode (e :: l) ++ tail = e.bytes ++ (encode l ++ tail) := by
      rw [encode_cons, List.append_assoc]
    have hstart : pre.length + (e.data.length + 2) = (pre ++ e.bytes).length := by
      rw [List.length_append, e.bytes_length]
    have hin : pre.length < inLen := by omega
    obtain ⟨k, rfl⟩ : ∃ k, n = k + 1 := ⟨n - 1, by omega⟩
    rw [hsplit, mergeFrom, mergedLenFrom, if_pos hin, if_pos hin, hat.len, attrSize,
      hat.len, hstart, ← List.append_assoc pre]
    by_cases htaken : Taken 221 p2pOui e (encode l ++ tail)
    · have hwanted := hmine htaken
      have hfour : 4 ≤ e.data.length := hwanted.2.length_le
      have hmatch : MatchesAt ((pre ++ e.bytes) ++ (encode l ++ tail)) 221 p2pOui pre.length := by
        rw [List.append_assoc]
        exact (matchesAt_iff hat).mpr htaken
      have hsize : (e.data.length : ℤ) - 4 = ((e.data.length - 4 : ℕ) : ℤ) := by omega
      have hsrc : ((pre ++ e.bytes) ++ (encode l ++ tail)).drop (pre.length + 6) =
          e.data.drop 4 ++ (encode l ++ tail) := by
        have hdata := hat.data
        rw [← List.append_assoc] at hdata
        rw [show pre.length + 6 = pre.length + 2 + 4 from rfl, ← List.drop_drop, hdata,
          List.drop_append_of_le_length hfour]
      have htake : (e.data.drop 4 ++ (encode l ++ tail)).take (e.data.length - 4) =
          e.data.drop 4 := by
        rw [← List.length_drop, List.take_left]
      rw [if_pos hmatch, if_pos hmatch, hsize, hsrc]
      have hthere : e.data.length - 4 ≤ (e.data.drop 4 ++ (encode l ++ tail)).length := by
        rw [List.length_append, List.length_drop]
        omega
      have hbehind : inLen = (pre ++ e.bytes).length + (encode l).length := by
        rw [← hstart]
        omega
      have hleft : (encode l).length ≤ k := by omega
      obtain ⟨hout, hcounts⟩ := ih hrest hbehind hleft (h.copy_counts hthere)
      have hcopy : (m.copy (e.data.drop 4 ++ (encode l ++ tail)) (e.data.length - 4 : ℕ)).mergeIe =
          m.mergeIe ++ e.data.drop 4 := congrArg (m.mergeIe ++ ·) htake
      refine ⟨?_, hcounts⟩
      rw [hout, hcopy, attributes_cons_own l hwanted, List.append_assoc]
    · have hother : ¬ Wanted 221 p2pOui e := fun hw => htaken (hw.taken _)
      have hmatch : ¬ MatchesAt ((pre ++ e.bytes) ++ (encode l ++ tail)) 221 p2pOui pre.length := by
        rw [List.append_assoc]
        exact fun hm => htaken ((matchesAt_iff hat).mp hm)
      rw [if_neg hmatch, if_neg hmatch, attributes_cons_other l hother]
      exact ih hrest (by rw [← hstart]; omega) (by omega) h

theorem merged_attributes (l : List Elem) (behind : List UInt8) (hown : OwnOui l behind)
    (hfits : (encode l).length < 2 ^ 31) :
    (rtwP2pMergeIes (encode l ++ behind) (encode l).length).1.mergeIe = elOui ++ attributes l ∧
      (∀ size ∈ (rtwP2pMergeIes (encode l ++ behind) (encode l).length).1.sizes, 0 ≤ size) ∧
      rtwGetP2pMergedIesLen (encode l ++ behind) (encode l).length = 4 + (attributes l).length ∧
      (rtwP2pMergeIes (encode l ++ behind) (encode l).length).2 =
        4 + (attributes l).length % 256 := by
  have hstart : Counts { mergeIe := elOui, len := 0, sizes := [] } 0 elOui :=
    ⟨(Int.add_zero _).symm, rfl, nofun⟩
  have hall : (encode l).length = ([] : List UInt8).length + (encode l).length :=
    (Nat.zero_add _).symm
  obtain ⟨hout, hmerge, hlen, hsizes⟩ := merge_rounds hown hall (Nat.le_refl _) hstart
  have hattrs := attributes_length_le l
  rw [hout, List.length_append] at hmerge
  dsimp only at hmerge
  refine ⟨hout, hsizes, ?_, ?_⟩
  · change ((mergedLenFrom ([] ++ (encode l ++ behind)) (encode l).length (encode l).length
      ([] : List UInt8).length 0 + 4) % 2 ^ 32).toNat = _
    omega
  · change (mergeFrom ([] ++ (encode l ++ behind)) (encode l).length (encode l).length
      ([] : List UInt8).length { mergeIe := elOui, len := 0, sizes := [] }).len + 4 = _
    omega

/-- The length byte is zero, whatever follows. -/
theorem p2p_never_merged (l : List Elem) (behind : List UInt8) :
    ¬ Merges l (rtwP2pMergeIes (encode l ++ behind) (encode l).length).1 := by
  intro h
  have hstart : elOui <+: ({ mergeIe := elOui, len := 0, sizes := [] } : Merge).mergeIe :=
    List.prefix_refl _
  obtain ⟨rest, hrest⟩ :=
    @mergeFrom_header (encode l ++ behind) (encode l).length (encode l).length 0 _ hstart
  have hlength := h.length
  have hmem : (rtwP2pMergeIes (encode l ++ behind) (encode l).length).1.mergeIe = elOui ++ rest :=
    hrest.symm
  rw [hmem, List.length_append] at hlength
  have hbyte : byteAt (elOui ++ rest) 1 = 0 := rfl
  have hsix : elOui.length = 6 := rfl
  omega

def oneP2p : List Elem := [⟨221, [0x50, 0x6f, 0x9a, 0x09, 2, 0, 0], by decide⟩]

theorem one_p2p_not_merged : ¬ Merges oneP2p (rtwP2pMergeIes (encode oneP2p) 9).1 :=
  fun h => absurd h.length (by decide)

end Rtl8189.P2pMerge
