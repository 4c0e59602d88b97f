import Rtl8189.BeaconEdit
import Rtl8189.TimElement

/-!
# The TIM element of the beacon

`update_BCNTIM` replaces the TIM element, or inserts one at a place that it finds by adding up
lengths.
-/
namespace Rtl8189.BeaconTim

open BeaconEdit ElemList IeLookup TimElement

def fieldLen (net : Network) (id : UInt8) : ℕ :=
  match rtwGetIe net.ies fixedIeLength id (net.ielength - fixedIeLength) with
  | some (_, tmpLen) => tmpLen + 2
  | none => 0

def timOffset (net : Network) : ℕ := fixedIeLength + fieldLen net 0 + fieldLen net 1 + 3

def updateBcntim (rtwMalloc : ℕ → Bool) (timBitmap : List UInt8) (net : Network) : Network :=
  let (new, step) := rtwSetTimIe 0 1 timBitmap
  match rtwGetIe net.ies fixedIeLength 5 (net.ielength - fixedIeLength) with
  | some (p, timIelen) =>
    if 0 < timIelen then
      rewrite rtwMalloc net p new step (p + (timIelen + 2))
        (usub net.ielength (p + (timIelen + 2)))
    else
      rewrite rtwMalloc net (timOffset net) new step (timOffset net)
        (usub net.ielength (timOffset net))
  | none =>
    rewrite rtwMalloc net (timOffset net) new step (timOffset net)
      (usub net.ielength (timOffset net))

def elemLen (id : UInt8) (l : List Elem) : ℕ :=
  match l.find? (fun e => e.id = id) with
  | some e => e.data.length + 2
  | none => 0

theorem elemLen_cons (id : UInt8) (e : Elem) (l : List Elem) :
    elemLen id (e :: l) = if e.id = id then e.data.length + 2 else elemLen id l := by
  by_cases hid : e.id = id
  · rw [if_pos hid, elemLen, List.find?_cons, decide_eq_true hid]
  · rw [if_neg hid, elemLen, List.find?_cons, decide_eq_false hid]
    rfl

theorem elemLen_le (id : UInt8) (l : List Elem) : elemLen id l ≤ (encode l).length := by
  induction l with
  | nil => exact Nat.le_refl 0
  | cons e l ih =>
    rw [elemLen_cons, encode_length_cons]
    split_ifs <;> omega

theorem elemLen_add_le {i j : UInt8} (hij : i ≠ j) (l : List Elem) :
    elemLen i l + elemLen j l ≤ (encode l).length := by
  induction l with
  | nil => exact Nat.le_refl 0
  | cons e l ih =>
    have hi := elemLen_le i l
    have hj := elemLen_le j l
    rw [elemLen_cons, elemLen_cons, encode_length_cons]
    split_ifs with hid hid'
    · exact absurd (hid.symm.trans hid') hij
    · omega
    · omega
    · omega

theorem fieldLen_eq (b : Beacon) (id : UInt8) : fieldLen b.network id = elemLen id b.elems := by
  delta fieldLen
  rw [lookup b.fixed_length b.shows]
  generalize b.elems = l
  generalize fixedIeLength = start
  induction l generalizing start with
  | nil => rfl
  | cons e l ih =>
    rw [elemLen_cons, locate]
    by_cases hid : e.id = id
    · rw [if_pos hid, if_pos (decide_eq_true hid)]
    · rw [if_neg hid, if_neg (by simpa using hid)]
      exact ih _

def timPlace (l : List Elem) : ℕ := elemLen 0 l + elemLen 1 l + 3

theorem timPlace_le (l : List Elem) : timPlace l ≤ (encode l).length + 3 :=
  Nat.add_le_add_right (elemLen_add_le (by decide) l) 3

theorem timOffset_eq (b : Beacon) :
    timOffset b.network = fixedIeLength + timPlace b.elems := by
  rw [timOffset, fieldLen_eq, fieldLen_eq, timPlace]
  omega

def timElem (bmp : TimBmp) : Elem where
  id := 5
  data := (rtwSetTimIe 0 1 bmp.octets).1.drop 2
  fits := by
    obtain ⟨-, -, htotal, -, -, -⟩ := rtwSetTimIe_fields 0 1 bmp
    have hlt := byteAt_lt (rtwSetTimIe 0 1 bmp.octets).1 1
    rw [List.length_drop]
    omega

section Tim

variable (bmp : TimBmp)

theorem timElem_bytes : (timElem bmp).bytes = (rtwSetTimIe 0 1 bmp.octets).1 := by
  obtain ⟨-, -, htotal, -, -, -⟩ := rtwSetTimIe_fields 0 1 bmp
  have hlen : UInt8.ofNat ((rtwSetTimIe 0 1 bmp.octets).1.drop 2).length =
      UInt8.ofNat (2 + 1 + (timRange bmp.octets).2) := by
    rw [List.length_drop, htotal, Nat.add_sub_cancel_left]
    exact UInt8.ofNat_toNat
  change 5 :: UInt8.ofNat ((rtwSetTimIe 0 1 bmp.octets).1.drop 2).length ::
    (rtwSetTimIe 0 1 bmp.octets).1.drop 2 = _
  rw [hlen]
  rfl

theorem timElem_shape : ∃ len ctrl octets,
    (timElem bmp).bytes = 5 :: len :: 0 :: 1 :: ctrl :: octets :=
  ⟨_, _, _, timElem_bytes bmp⟩

theorem timElem_data_ne_nil : (timElem bmp).data ≠ [] := List.cons_ne_nil _ _

theorem timElem_step :
    (rtwSetTimIe 0 1 bmp.octets).2 = if (timElem bmp).bytes.length < 256 then
      (timElem bmp).bytes.length else 0 := by
  have hle := bmp.le
  obtain ⟨-, -, hin, -, -, -⟩ := timRange_ranges bmp
  obtain ⟨-, hlength, htotal, -, -, -⟩ := rtwSetTimIe_fields 0 1 bmp
  rw [timElem_bytes, htotal, hlength]
  change u8 (2 + 2 + 1 + (timRange bmp.octets).2) = _
  rw [u8]
  split_ifs <;> omega

theorem timElem_step_le : (rtwSetTimIe 0 1 bmp.octets).2 ≤ (timElem bmp).bytes.length := by
  rw [timElem_step]
  split_ifs
  · exact Nat.le_refl _
  · exact Nat.zero_le _

variable {rtwMalloc : ℕ → Bool} (h : Mallocs rtwMalloc) (b : Beacon)

include h in
theorem update_replaced {A B : List Elem} {T : Elem} (hl : b.elems = A ++ T :: B)
    (hA : ∀ e ∈ A, e.id ≠ 5) (hT : T.id = 5) (hdata : T.data ≠ []) :
    Shows (updateBcntim rtwMalloc bmp.octets b.network) b.fixed
      (encode A ++ ((timElem bmp).bytes.take (rtwSetTimIe 0 1 bmp.octets).2 ++ encode B)) := by
  have hfound : locate (fun e => e.id = 5) b.elems fixedIeLength =
      some (fixedIeLength + (encode A).length, T.data.length) := by
    rw [hl]
    exact locate_first fixedIeLength (by simpa using hA) (decide_eq_true hT)
  have hsize : (encode [T]).length = T.data.length + 2 := by
    rw [encode_length_cons, encode_nil, List.length_nil]
  have hshows := b.shows
  have hfits := b.fits
  rw [hl] at hshows hfits
  delta updateBcntim
  rw [lookup b.fixed_length b.shows, hfound]
  dsimp only
  rw [if_pos (List.length_pos_iff.mpr hdata), ← hsize, ← timElem_bytes]
  exact rewrite_elems h b.fixed_length hshows (timElem_step_le bmp)
    (Elem.bytes_length_le (timElem bmp)) (hfits.trans (by decide))

theorem update_rewrite (hnone : ∀ p n,
    locate (fun e => e.id = 5) b.elems fixedIeLength = some (p, n) → n = 0) :
    updateBcntim rtwMalloc bmp.octets b.network =
      rewrite rtwMalloc b.network (fixedIeLength + timPlace b.elems) (timElem bmp).bytes
        (rtwSetTimIe 0 1 bmp.octets).2 (fixedIeLength + timPlace b.elems)
        (usub b.network.ielength (fixedIeLength + timPlace b.elems)) := by
  delta updateBcntim
  rw [lookup b.fixed_length b.shows, timOffset_eq, timElem_bytes]
  cases hfound : locate (fun e => e.id = 5) b.elems fixedIeLength with
  | none => rfl
  | some r =>
    obtain ⟨p, n⟩ := r
    dsimp only
    rw [if_neg (by rw [hnone p n hfound]; exact Nat.lt_irrefl 0)]

include h in
theorem update_inserted (hnone : ∀ p n,
    locate (fun e => e.id = 5) b.elems fixedIeLength = some (p, n) → n = 0) :
    (timPlace b.elems ≤ (encode b.elems).length ∧
      Shows (updateBcntim rtwMalloc bmp.octets b.network) b.fixed
        ((encode b.elems).take (timPlace b.elems) ++
          ((timElem bmp).bytes.take (rtwSetTimIe 0 1 bmp.octets).2 ++
            (encode b.elems).drop (timPlace b.elems)))) ∨
    (encode b.elems).length < timPlace b.elems ∧ ∃ gap : List UInt8,
      1 ≤ gap.length ∧ gap.length ≤ 3 ∧
      Shows (updateBcntim rtwMalloc bmp.octets b.network) b.fixed
        (encode b.elems ++ (gap ++ (timElem bmp).bytes).take (rtwSetTimIe 0 1 bmp.octets).2) := by
  have hfixed : b.fixed.length = 12 := b.fixed_length
  have hroom := b.room
  have hsize := b.fits
  have hplace := timPlace_le b.elems
  have hstep := timElem_step_le bmp
  have htim := Elem.bytes_length_le (timElem bmp)
  rw [update_rewrite bmp b hnone, ← b.fixed_length]
  by_cases hin : timPlace b.elems ≤ (encode b.elems).length
  · left
    refine ⟨hin, ?_⟩
    have htake : ((encode b.elems).take (timPlace b.elems)).length = timPlace b.elems :=
      List.length_take_of_le hin
    have hmem : b.network.ies = b.fixed ++ ((encode b.elems).take (timPlace b.elems) ++
        ([] ++ ((encode b.elems).drop (timPlace b.elems) ++ b.behind))) := by
      rw [List.nil_append, ← List.append_assoc (List.take _ _), List.take_append_drop]
      rfl
    have hdrop := List.length_drop (l := encode b.elems) (i := timPlace b.elems)
    have hshows := rewrite_shows h hstep hmem (by
      change b.fixed.length + (encode b.elems).length = _
      rw [htake, hdrop, List.length_nil]
      omega) (by
      rw [htake, hdrop]
      omega)
    rw [htake] at hshows
    exact hshows
  · right
    have hmem : b.network.ies = b.fixed ++ (encode b.elems ++
        (b.behind.take (timPlace b.elems - (encode b.elems).length) ++
          b.behind.drop (timPlace b.elems - (encode b.elems).length))) := by
      rw [List.take_append_drop]
      rfl
    have hgap : (b.behind.take (timPlace b.elems - (encode b.elems).length)).length =
        timPlace b.elems - (encode b.elems).length := List.length_take_of_le (by omega)
    have hlen : b.network.ielength = b.fixed.length + (encode b.elems).length := rfl
    have hat : b.network.ielength +
        (b.behind.take (timPlace b.elems - (encode b.elems).length)).length =
          b.fixed.length + timPlace b.elems := by
      rw [hgap, hlen]
      omega
    refine ⟨by omega, b.behind.take (timPlace b.elems - (encode b.elems).length), by omega,
      by omega, ?_⟩
    have hne : b.behind.take (timPlace b.elems - (encode b.elems).length) ≠ [] := by
      refine List.length_pos_iff.mp ?_
      omega
    have hshows := rewrite_beyond h hmem hstep hlen hne (by omega)
    rw [hat] at hshows
    exact hshows

/-- The elements but for the TIM elements, in their order, with one among them that is the
bitmap. -/
def Updated (net : Network) (fixed : List UInt8) (l : List Elem) : Prop :=
  announced (timElem bmp).bytes = aids bmp.octets ∧
    ∃ A B, l.filter (fun e => e.id ≠ 5) = A ++ B ∧ Shows net fixed (encode (A ++ timElem bmp :: B))

/-- The only TIM element has a body; or there is none, and the place is at the end of an element or
so far before it that the new one commutes with the bytes between. -/
def Insertable (l : List Elem) (tim : Elem) : Prop :=
  (∃ A T B, l = A ++ T :: B ∧ T.id = 5 ∧ T.data ≠ [] ∧ ∀ e ∈ A ++ B, e.id ≠ 5) ∨
    (∀ e ∈ l, e.id ≠ 5) ∧ ∃ A B, l = A ++ B ∧ timPlace l ≤ (encode A).length ∧
      tim.bytes ++ (encode A).drop (timPlace l) = (encode A).drop (timPlace l) ++ tim.bytes

/-- The first TIM element has a body, and the only other one is the new one. -/
def Standing (l : List Elem) (tim : Elem) : Prop :=
  ∃ A T B C, l = A ++ T :: (B ++ tim :: C) ∧ T.id = 5 ∧ T.data ≠ [] ∧
    ∀ e ∈ A ++ (B ++ C), e.id ≠ 5

/-- The returned length of an element of 256 bytes is zero. -/
def Updates (l : List Elem) (tim : Elem) : Prop :=
  if tim.bytes.length < 256 then Insertable l tim else Standing l tim

end Tim

/-! ## Lists with TIM elements -/

theorem filter_of_forall {l : List Elem} (h : ∀ e ∈ l, e.id ≠ 5) :
    l.filter (fun e => e.id ≠ 5) = l :=
  List.filter_eq_self.mpr fun e he => decide_eq_true (h e he)

theorem filter_cons_tim {T : Elem} (hT : T.id = 5) (A B : List Elem) :
    (A ++ T :: B).filter (fun e => e.id ≠ 5) = (A ++ B).filter (fun e => e.id ≠ 5) := by
  rw [List.filter_append, List.filter_cons_of_neg (by simpa using hT), List.filter_append]

theorem forall_of_filter {l A B : List Elem} (h : l.filter (fun e => e.id ≠ 5) = A ++ B) :
    ∀ e ∈ A ++ B, e.id ≠ 5 := by
  intro e he
  rw [← h] at he
  exact of_decide_eq_true (List.mem_filter.mp he).2

theorem free_left {A B : List Elem} (h : ∀ e ∈ A ++ B, e.id ≠ 5) : ∀ e ∈ A, e.id ≠ 5 :=
  fun e he => h e (List.mem_append_left B he)

theorem filter_length_lt {A B : List Elem} {T : Elem} (hT : T.id = 5) :
    (encode ((A ++ T :: B).filter (fun e => e.id ≠ 5))).length < (encode (A ++ T :: B)).length := by
  have hle : ∀ l : List Elem,
      (encode (l.filter (fun e => e.id ≠ 5))).length ≤ (encode l).length := by
    intro l
    induction l with
    | nil => exact Nat.le_refl 0
    | cons e l ih =>
      rw [List.filter_cons]
      split_ifs
      · rw [encode_length_cons, encode_length_cons]
        omega
      · rw [encode_length_cons]
        omega
  have hrest := hle (A ++ B)
  rw [filter_cons_tim hT]
  rw [encode_append, List.length_append] at hrest ⊢
  rw [encode_length_cons]
  omega

theorem first_tim {A B A' B' : List Elem} {T tim : Elem} (hT : T.id = 5) (htim : tim.id = 5)
    (hA : ∀ e ∈ A, e.id ≠ 5) (hA' : ∀ e ∈ A', e.id ≠ 5)
    (h : A ++ T :: B = A' ++ tim :: B') : A = A' ∧ T = tim ∧ B = B' :=
  first_unique (P := fun e => e.id = 5) hA hA' hT htim h

theorem no_tim_head {B : List Elem} (hB : ∀ e ∈ B, e.id ≠ 5) {tim : Elem} (htim : tim.id = 5)
    {u v : List UInt8} (hu : u ≠ []) (hpre : encode B = u ++ v) (s t : List UInt8) :
    u ++ s ≠ tim.bytes ++ t := by
  intro heq
  cases u with
  | nil => exact hu rfl
  | cons c u =>
    cases B with
    | nil => exact nomatch hpre
    | cons e B =>
      have hid : e.id = c := (List.cons.inj hpre).1
      have hc : c = tim.id := (List.cons.inj heq).1
      exact hB e List.mem_cons_self (hid.trans (hc.trans htim))

section Place

variable {A B : List Elem} {tim : Elem}

/-- A TIM element is inserted by its bytes exactly at the end of an element, or where it commutes
with the bytes up to there. -/
theorem splice_iff (hB : ∀ e ∈ B, e.id ≠ 5) (htim : tim.id = 5) {k : ℕ}
    (hk : k ≤ (encode (A ++ B)).length) :
    (encode (A ++ B)).take k ++ (tim.bytes ++ (encode (A ++ B)).drop k) = encode (A ++ tim :: B) ↔
      k ≤ (encode A).length ∧
        tim.bytes ++ (encode A).drop k = (encode A).drop k ++ tim.bytes := by
  rw [encode_insert, encode_append]
  by_cases hle : k ≤ (encode A).length
  · rw [List.take_append_of_le_length hle, List.drop_append_of_le_length hle]
    have hsplit : encode A ++ (tim.bytes ++ encode B) = (encode A).take k ++
        (((encode A).drop k ++ tim.bytes) ++ encode B) := by
      rw [List.append_assoc ((encode A).drop k), ← List.append_assoc ((encode A).take k),
        List.take_append_drop]
    rw [hsplit, List.append_cancel_left_eq, ← List.append_assoc tim.bytes,
      List.append_cancel_right_eq, and_iff_right hle]
  · rw [encode_append, List.length_append] at hk
    obtain ⟨n, rfl⟩ : ∃ n, k = (encode A).length + n := ⟨k - (encode A).length, by omega⟩
    have hne : (encode B).take n ≠ [] := by
      refine List.length_pos_iff.mp ?_
      rw [List.length_take_of_le (by omega)]
      omega
    refine iff_of_false (fun heq => ?_) fun hc => hle hc.1
    rw [List.take_length_add_append, List.append_assoc, List.append_cancel_left_eq] at heq
    exact no_tim_head hB htim hne (List.take_append_drop n _).symm _ _ heq

theorem gap_ne (hB : ∀ e ∈ B, e.id ≠ 5) (htim : tim.id = 5)
    (hshape : ∃ len ctrl octets, tim.bytes = 5 :: len :: 0 :: 1 :: ctrl :: octets)
    {gap : List UInt8} (hpos : 1 ≤ gap.length) (hle : gap.length ≤ 3) :
    encode (A ++ B) ++ (gap ++ tim.bytes).take tim.bytes.length ≠ encode (A ++ tim :: B) := by
  intro heq
  rw [encode_insert, encode_append, List.append_assoc, List.append_cancel_left_eq] at heq
  by_cases hne : B = []
  · subst hne
    obtain ⟨len, ctrl, octets, hbytes⟩ := hshape
    rw [encode_nil, List.nil_append, List.append_nil, hbytes] at heq
    match gap, hpos, hle with
    | [x], _, _ => simp at heq
    | [x, y], _, _ => simp at heq
    | [x, y, z], _, _ => simp at heq
  · have hbytes := List.length_pos_iff.mp (encode_length_pos hne)
    exact no_tim_head hB htim hbytes (List.append_nil _).symm _ _ heq

end Place

section Update

variable {rtwMalloc : ℕ → Bool} (h : Mallocs rtwMalloc) (bmp : TimBmp) (b : Beacon)

theorem updated_iff {net : Network} {fixed x : List UInt8} {l : List Elem}
    (hx : Shows net fixed x) :
    Updated bmp net fixed l ↔
      ∃ A B, l.filter (fun e => e.id ≠ 5) = A ++ B ∧ x = encode (A ++ timElem bmp :: B) := by
  have hbits : announced (timElem bmp).bytes = aids bmp.octets := by
    rw [timElem_bytes]
    exact announced_tim 0 1 bmp
  rw [Updated, and_iff_right hbits]
  constructor
  · rintro ⟨A, B, hAB, hshows⟩
    exact ⟨A, B, hAB, hx.unique hshows⟩
  · rintro ⟨A, B, hAB, rfl⟩
    exact ⟨A, B, hAB, hx⟩

include h in
theorem updated_short (hshort : (timElem bmp).bytes.length < 256) :
    Updated bmp (updateBcntim rtwMalloc bmp.octets b.network) b.fixed b.elems ↔
      Insertable b.elems (timElem bmp) := by
  have hstep : (timElem bmp).bytes.take (rtwSetTimIe 0 1 bmp.octets).2 = (timElem bmp).bytes := by
    rw [timElem_step, if_pos hshort, List.take_length]
  rcases exists_first (fun e => e.id = 5) b.elems with hnone | ⟨pre, T, post, hl, hpre, hT⟩
  · have hfree : ∀ e ∈ b.elems, e.id ≠ 5 := by simpa using hnone
    have hfirst : ∀ p n, locate (fun e => e.id = 5) b.elems fixedIeLength = some (p, n) → n = 0 := by
      intro p n hp
      rw [locate_none fixedIeLength hnone] at hp
      exact nomatch hp
    have hright : Insertable b.elems (timElem bmp) ↔ ∃ A B, b.elems = A ++ B ∧
        timPlace b.elems ≤ (encode A).length ∧ (timElem bmp).bytes ++
          (encode A).drop (timPlace b.elems) = (encode A).drop (timPlace b.elems) ++
            (timElem bmp).bytes := by
      rw [Insertable, and_iff_right hfree, or_iff_right]
      rintro ⟨A, T, B, hl, hT, -, -⟩
      exact hfree T (by rw [hl]; simp) hT
    rw [hright]
    rcases update_inserted bmp h b hfirst with ⟨hin, hshows⟩ | ⟨hout, gap, hpos, hle, hshows⟩
    · rw [updated_iff bmp hshows, filter_of_forall hfree, hstep]
      refine exists_congr fun A => exists_congr fun B => and_congr_right fun hAB => ?_
      rw [hAB] at hin hfree ⊢
      exact splice_iff (fun e he => hfree e (List.mem_append_right A he)) rfl hin
    · rw [updated_iff bmp hshows, filter_of_forall hfree, timElem_step, if_pos hshort]
      refine iff_of_false ?_ ?_
      · rintro ⟨A, B, hAB, hx⟩
        rw [hAB] at hfree hx
        exact gap_ne (fun e he => hfree e (List.mem_append_right A he)) rfl (timElem_shape bmp)
          hpos hle hx
      · rintro ⟨A, B, hAB, hin, -⟩
        rw [hAB, encode_append, List.length_append, ← hAB] at hout
        omega
  · have hpre' : ∀ e ∈ pre, e.id ≠ 5 := by simpa using hpre
    have hT' : T.id = 5 := of_decide_eq_true hT
    by_cases hdata : T.data = []
    · -- the TIM element without a body stays where it is, so the list is too long
      have hfirst : ∀ p n, locate (fun e => e.id = 5) b.elems fixedIeLength = some (p, n) →
          n = 0 := by
        intro p n hp
        rw [hl, locate_first fixedIeLength hpre hT, hdata] at hp
        cases hp
        rfl
      have hright : ¬ Insertable b.elems (timElem bmp) := by
        rintro (⟨A, T', B, hAB, hT'', hne, hfree⟩ | ⟨hfree, -⟩)
        · obtain ⟨-, rfl, -⟩ := first_tim hT' hT'' hpre' (free_left hfree) (hl.symm.trans hAB)
          exact hne hdata
        · exact hfree T (by rw [hl]; simp) hT'
      have hlong : ∀ x, x.length = (encode b.elems).length + (timElem bmp).bytes.length →
          ¬ ∃ A B, b.elems.filter (fun e => e.id ≠ 5) = A ++ B ∧
            x = encode (A ++ timElem bmp :: B) := by
        rintro x hx ⟨A, B, hAB, rfl⟩
        have hlt := filter_length_lt (A := pre) (B := post) hT'
        rw [← hl, hAB, encode_append, List.length_append] at hlt
        rw [encode_insert, List.length_append, List.length_append] at hx
        omega
      rcases update_inserted bmp h b hfirst with ⟨hin, hshows⟩ | ⟨-, gap, -, -, hshows⟩
      · rw [updated_iff bmp hshows, hstep]
        refine iff_of_false (hlong _ ?_) hright
        rw [List.length_append, List.length_append, List.length_take, List.length_drop]
        omega
      · rw [updated_iff bmp hshows, timElem_step, if_pos hshort]
        refine iff_of_false (hlong _ ?_) hright
        rw [List.length_append, List.length_take, List.length_append]
        omega
    · have hshows := update_replaced bmp h b hl hpre' hT' hdata
      rw [hstep, ← encode_insert] at hshows
      rw [updated_iff bmp hshows]
      constructor
      · rintro ⟨A, B, hAB, hx⟩
        have hfree := forall_of_filter hAB
        obtain ⟨rfl, -, rfl⟩ := first_tim rfl rfl hpre' (free_left hfree) (encode_injective hx)
        exact .inl ⟨pre, T, post, hl, hT', hdata, hfree⟩
      · rintro (⟨A, T', B, hAB, hT'', -, hfree⟩ | ⟨hfree, -⟩)
        · obtain ⟨rfl, rfl, rfl⟩ := first_tim hT' hT'' hpre' (free_left hfree) (hl.symm.trans hAB)
          refine ⟨pre, post, ?_, rfl⟩
          rw [hl, filter_cons_tim hT', filter_of_forall hfree]
        · exact absurd hT' (hfree T (by rw [hl]; simp))

include h in
theorem updated_wraps (hlong : ¬ (timElem bmp).bytes.length < 256) :
    Updated bmp (updateBcntim rtwMalloc bmp.octets b.network) b.fixed b.elems ↔
      Standing b.elems (timElem bmp) := by
  have hzero : (rtwSetTimIe 0 1 bmp.octets).2 = 0 := by rw [timElem_step, if_neg hlong]
  -- without a TIM element to replace the list stays as it is
  have hstays : (∀ p n, locate (fun e => e.id = 5) b.elems fixedIeLength = some (p, n) → n = 0) →
      Shows (updateBcntim rtwMalloc bmp.octets b.network) b.fixed (encode b.elems) := by
    intro hfirst
    rcases update_inserted bmp h b hfirst with ⟨-, hshows⟩ | ⟨-, gap, -, -, hshows⟩
    · rw [hzero, List.take_zero, List.nil_append, List.take_append_drop] at hshows
      exact hshows
    · rw [hzero, List.take_zero, List.append_nil] at hshows
      exact hshows
  rcases exists_first (fun e => e.id = 5) b.elems with hnone | ⟨pre, T, post, hl, hpre, hT⟩
  · have hfree : ∀ e ∈ b.elems, e.id ≠ 5 := by simpa using hnone
    have hshows := hstays (by
      intro p n hp
      rw [locate_none fixedIeLength hnone] at hp
      exact nomatch hp)
    rw [updated_iff bmp hshows]
    refine iff_of_false ?_ ?_
    · rintro ⟨A, B, -, hx⟩
      exact hfree (timElem bmp) (by rw [encode_injective hx]; simp) rfl
    · rintro ⟨A, T, B, C, hl, hT, -⟩
      exact hfree T (by rw [hl]; simp) hT
  · have hpre' : ∀ e ∈ pre, e.id ≠ 5 := by simpa using hpre
    have hT' : T.id = 5 := of_decide_eq_true hT
    by_cases hdata : T.data = []
    · have hshows := hstays (by
        intro p n hp
        rw [hl, locate_first fixedIeLength hpre hT, hdata] at hp
        cases hp
        rfl)
      rw [updated_iff bmp hshows]
      refine iff_of_false ?_ ?_
      · rintro ⟨A, B, hAB, hx⟩
        have hx' := encode_injective hx
        rw [hl] at hx'
        obtain ⟨-, rfl, -⟩ := first_tim hT' rfl hpre' (free_left (forall_of_filter hAB)) hx'
        exact timElem_data_ne_nil bmp hdata
      · rintro ⟨A, T', B, C, hAB, hT'', hne, hfree⟩
        obtain ⟨-, rfl, -⟩ := first_tim hT' hT'' hpre' (free_left hfree) (hl.symm.trans hAB)
        exact hne hdata
    · have hshows := update_replaced bmp h b hl hpre' hT' hdata
      rw [hzero, List.take_zero, List.nil_append, ← encode_append] at hshows
      rw [updated_iff bmp hshows, hl, filter_cons_tim hT']
      constructor
      · rintro ⟨A, B, hAB, hx⟩
        have hfree := forall_of_filter hAB
        have hlist := encode_injective hx
        rcases List.append_eq_append_iff.mp hlist with ⟨C, rfl, rfl⟩ | ⟨C, rfl, hC⟩
        · refine ⟨pre, T, C, B, rfl, hT', hdata, ?_⟩
          rw [List.append_assoc] at hfree
          exact hfree
        · cases C with
          | nil =>
            rw [List.nil_append] at hC
            subst hC
            refine ⟨A ++ [], T, [], B, rfl, hT', hdata, ?_⟩
            rw [List.append_nil]
            exact hfree
          | cons c C =>
            obtain ⟨rfl, -⟩ := List.cons.inj hC
            exact absurd rfl (hpre' (timElem bmp) (by simp))
      · rintro ⟨A, T', B, C, hAB, hT'', -, hfree⟩
        obtain ⟨rfl, rfl, rfl⟩ := first_tim hT' hT'' hpre' (free_left hfree) hAB
        refine ⟨pre ++ B, C, ?_, ?_⟩
        · rw [← List.append_assoc, filter_cons_tim rfl, filter_of_forall]
          rw [List.append_assoc]
          exact hfree
        · rw [List.append_assoc]

include h in
/-- The elements are updated exactly where the place fits. -/
theorem beacon_tim_updated :
    Updated bmp (updateBcntim rtwMalloc bmp.octets b.network) b.fixed b.elems ↔
      Updates b.elems (timElem bmp) := by
  rw [Updates]
  split_ifs with hshort
  · exact updated_short h bmp b hshort
  · exact updated_wraps h bmp b hshort

end Update

def noStations : TimBmp := ⟨[0], by decide, by decide⟩

theorem beacon_tim_updated_ds :
    Updated noStations (updateBcntim smallOnly noStations.octets
      (oneBeacon [ssidElem, ratesElem, dsElem, extRatesElem] (by decide)).network)
      (List.replicate 12 0) [ssidElem, ratesElem, dsElem, extRatesElem] := by
  refine (beacon_tim_updated smallOnly_mallocs noStations (oneBeacon _ (by decide))).mpr ?_
  have hshort : (timElem noStations).bytes.length < 256 := by decide
  rw [Updates, if_pos hshort]
  exact .inr ⟨by decide, [ssidElem, ratesElem, dsElem], [extRatesElem], rfl, by decide, by decide⟩

/-- Without a DS element the TIM element stands inside the extended rates. -/
theorem tim_in_ext_rates :
    ¬ Updated noStations (updateBcntim smallOnly noStations.octets
      (oneBeacon [ssidElem, ratesElem, extRatesElem] (by decide)).network)
      (List.replicate 12 0) [ssidElem, ratesElem, extRatesElem] := by
  intro hupdated
  have hshort : (timElem noStations).bytes.length < 256 := by decide
  rcases (updated_short smallOnly_mallocs noStations (oneBeacon _ (by decide)) hshort).mp
    hupdated with ⟨A, T, B, hl, hT, -, -⟩ | ⟨-, A, B, hl, hin, hcomm⟩
  · have hmem : T ∈ [ssidElem, ratesElem, extRatesElem] := by
      rw [show [ssidElem, ratesElem, extRatesElem] = A ++ T :: B from hl]
      simp
    have hall : ∀ e ∈ [ssidElem, ratesElem, extRatesElem], e.id ≠ 5 := by decide
    exact hall T hmem hT
  · have hsplit : [ssidElem, ratesElem, extRatesElem] = A ++ B := hl
    have hall : ∀ n < 4, 9 ≤ (encode ([ssidElem, ratesElem, extRatesElem].take n)).length →
        (timElem noStations).bytes ++
            (encode ([ssidElem, ratesElem, extRatesElem].take n)).drop 9 ≠
          (encode ([ssidElem, ratesElem, extRatesElem].take n)).drop 9 ++
            (timElem noStations).bytes := by decide
    have hlen : 3 = A.length + B.length := by
      rw [← List.length_append, ← hsplit]
      rfl
    have hA : A = [ssidElem, ratesElem, extRatesElem].take A.length := by
      rw [hsplit, List.take_left]
    rw [hA] at hin hcomm
    exact hall A.length (by omega) hin hcomm

end Rtl8189.BeaconTim
