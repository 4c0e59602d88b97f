import Mathlib.Logic.Function.Basic
import Rtl8189.ElementWalk

/-!
# The WMM element of an association request

`rtw_restruct_wmm_ie` goes over the elements of the network that is joined. Where one has the OUI
and the type of WMM, an information element goes to the end of what is there already.
-/
namespace Rtl8189.WmmAppend

open AccessTrace BufferWalk ElementWalk WalkCalls

open IeLookup (u32)

section Functions

variable (n : NetworkIes) (out : ℕ → UInt8) (initialOutLen : ℕ) (qosInfo : UInt8)

def wmmOui : List UInt8 := [0x00, 0x50, 0xf2, 0x02]

/-- How many bytes are compared with the OUI and the type. -/
def compared (mem : List UInt8) (i : ℕ) : ℕ :=
  if data mem i 0 ≠ 0x00 then 1
  else if data mem i 1 ≠ 0x50 then 2
  else if data mem i 2 ≠ 0xf2 then 3
  else 4

def Found (i : ℕ) : Prop :=
  elementId n.ies i = 221 ∧ Matches n.ies (i + 2) wmmOui ∧ i + 5 < n.ielength

instance (i : ℕ) : Decidable (Found n i) := inferInstanceAs (Decidable (_ ∧ _ ∧ _))

/-- Nine bytes, whatever the length of the element, and then three of them anew. -/
def append (i : ℕ) : ℕ → UInt8 :=
  let copied := fun j => if initialOutLen ≤ j ∧ j < initialOutLen + 9 then
    n.ies.getD (i + (j - initialOutLen)) 0 else out j
  Function.update (Function.update (Function.update copied (initialOutLen + 1) 0x07)
    (initialOutLen + 6) 0x00) (initialOutLen + 8) qosInfo

def wmmVisit (i : ℕ) : Visit ℕ Empty (ℕ × (ℕ → UInt8)) :=
  if elementId n.ies i = 221 then
    if Found n i then
      ⟨[.bytes (i + 2 : ℕ) (compared n.ies i), .bytes i 9],
        .inl (initialOutLen + 9, append n out initialOutLen qosInfo i)⟩
    else .on [.bytes (i + 2 : ℕ) (compared n.ies i)] initialOutLen
  else .on [] initialOutLen

/-- The length is taken over in the loop. -/
def rtwRestructWmmIe : ElemLoop ℕ Empty (ℕ × (ℕ → UInt8)) where
  base := 0
  start := .inr (12, 0)
  more i := i < n.ielength
  visit i _ := wmmVisit n out initialOutLen qosInfo i
  inner _ c := nomatch c
  done ielength := (ielength, out)

/-- What `rtw_joinbss_cmd` makes of the two lengths: the new one, and whether there is QoS. -/
def joinWmm (ieLength tmpLen : ℕ) : ℕ × Bool :=
  if ieLength ≠ tmpLen then (tmpLen, true) else (ieLength, false)

/-! ## What is asked for -/

def nextElement (i : ℕ) : ℕ := i + (length n.ies i + 2)

def InList : ℕ → Prop := Item (nextElement n) (fun i => n.ielength ≤ i) 12

def IsWmm (i : ℕ) : Prop :=
  elementId n.ies i = 221 ∧ 4 ≤ length n.ies i ∧ Matches n.ies (i + 2) wmmOui ∧
    i + 6 ≤ n.ielength

def HasWmm : Prop := ∃ i, InList n i ∧ IsWmm n i

def IsWmmInfo (out : ℕ → UInt8) (start : ℕ) : Prop :=
  ∃ version qosInfo, (List.range 9).map (fun k => out (start + k)) =
    [221, 7, 0x00, 0x50, 0xf2, 0x02, 0x00, version, qosInfo]

structure Restructured : Prop where
  bounded : Bounded ((rtwRestructWmmIe n out initialOutLen qosInfo).toLoop n.ies).round
    n.ielength .entry
  returned : ∀ r, Returns ((rtwRestructWmmIe n out initialOutLen qosInfo).toLoop n.ies).round
    .entry r → (∀ k < initialOutLen, r.2 k = out k) ∧ (¬ HasWmm n → r.1 = initialOutLen) ∧
      (HasWmm n → r.1 = initialOutLen + 9 ∧ IsWmmInfo r.2 initialOutLen) ∧
      initialOutLen ≤ (joinWmm initialOutLen r.1).1

/-! ## When the code does it -/

def Visited : ℕ → Prop := Item (nextElement n) (fun i => n.ielength ≤ i ∨ Found n i) 12

def wmmNeed (mem : List UInt8) (i : ℕ) : ℕ :=
  if elementId mem i = 221 then if Matches mem (i + 2) wmmOui then 9 else 2 + compared mem i
  else 2

structure Covered : Prop where
  list : n.ielength ≤ 12 → initialOutLen = 0
  reads : ∀ i, Visited n i → i < n.ielength → i + wmmNeed n.ies i ≤ n.ielength
  short : ∀ i, Visited n i → Found n i → length n.ies i < 4 → HasWmm n

end Functions

section Walk

variable {n : NetworkIes} {out : ℕ → UInt8} {initialOutLen : ℕ} {qosInfo : UInt8} {i : ℕ}

theorem matches_wmm (h : Matches n.ies (i + 2) wmmOui) :
    ∀ k, k < 4 → n.ies.getD (i + 2 + k) 0 = wmmOui.getD k 0 := by
  intro k hk
  have hread : ((n.ies.drop (i + 2)).take 4).getD k 0 = wmmOui.getD k 0 :=
    congrArg (fun l => List.getD l k 0) h
  rw [← hread, List.getD_eq_getElem?_getD, List.getD_eq_getElem?_getD, List.getElem?_take_of_lt hk,
    List.getElem?_drop]

theorem compared_wmm (h : Matches n.ies (i + 2) wmmOui) : compared n.ies i = 4 := by
  have hread : ∀ k, k < 4 → data n.ies i k = (wmmOui.getD k 0).toNat := fun k hk =>
    congrArg UInt8.toNat (matches_wmm h k hk)
  rw [compared, hread 0 (by decide), hread 1 (by decide), hread 2 (by decide)]
  rfl

theorem compared_pos (mem : List UInt8) (i : ℕ) : 0 < compared mem i := by
  unfold compared
  split_ifs <;> decide

theorem wmm_asks : (wmmVisit n out initialOutLen qosInfo i).Asks i n.ielength ↔
    i + wmmNeed n.ies i ≤ n.ielength := by
  have hpos := compared_pos n.ies i
  unfold wmmVisit wmmNeed
  by_cases hid : elementId n.ies i = 221
  · rw [if_pos hid, if_pos hid]
    by_cases houi : Matches n.ies (i + 2) wmmOui
    · have hfour := compared_wmm houi
      rw [if_pos houi]
      by_cases hin : i + 5 < n.ielength
      · rw [if_pos ⟨hid, houi, hin⟩, asks_inl, within_pair, hfour]
        omega
      · rw [if_neg fun h => hin h.2.2, asks_on, within_one, hfour]
        omega
    · rw [if_neg houi, if_neg fun h => houi h.2.1, asks_on, within_one]
      omega
  · rw [if_neg hid, if_neg hid, asks_on]
    exact and_iff_left within_nil

abbrev loop (n : NetworkIes) (out : ℕ → UInt8) (initialOutLen : ℕ) (qosInfo : UInt8) :
    Loop (ℕ × ℕ) Empty (ℕ × (ℕ → UInt8)) :=
  (rtwRestructWmmIe n out initialOutLen qosInfo).toLoop n.ies

theorem out_end {x : ℕ × ℕ} (h : n.ielength ≤ x.1) :
    (loop n out initialOutLen qosInfo).out x = .inl (x.2, out) := by
  have hmore : ¬ decide (x.1 < n.ielength) = true := by
    rw [decide_eq_true_eq]
    omega
  exact if_neg hmore

theorem visit_found (h : Found n i) : wmmVisit n out initialOutLen qosInfo i =
    ⟨[.bytes (i + 2 : ℕ) (compared n.ies i), .bytes i 9],
      .inl (initialOutLen + 9, append n out initialOutLen qosInfo i)⟩ := by
  rw [wmmVisit, if_pos h.1, if_pos h]

theorem visit_on (h : ¬ Found n i) :
    (wmmVisit n out initialOutLen qosInfo i).next = .inr (initialOutLen, none) := by
  unfold wmmVisit
  by_cases hid : elementId n.ies i = 221
  · rw [if_pos hid, if_neg h]
    rfl
  · rw [if_neg hid]
    rfl

theorem pos_eq (x : ℕ × ℕ) : (rtwRestructWmmIe n out initialOutLen qosInfo).pos x = x.1 :=
  Nat.zero_add x.1

theorem out_more {x : ℕ × ℕ} (hlt : x.1 < n.ielength) :
    (loop n out initialOutLen qosInfo).out x =
      (wmmVisit n out initialOutLen qosInfo x.1).next.map id Prod.snd := by
  have hout : (loop n out initialOutLen qosInfo).out x =
      ((rtwRestructWmmIe n out initialOutLen qosInfo).visit
        ((rtwRestructWmmIe n out initialOutLen qosInfo).pos x) x.2).next.map id Prod.snd :=
    if_pos (decide_eq_true hlt)
  rw [hout, pos_eq]
  rfl

theorem out_found {x : ℕ × ℕ} (h : Found n x.1) : (loop n out initialOutLen qosInfo).out x =
    .inl (initialOutLen + 9, append n out initialOutLen qosInfo x.1) := by
  have hlt : x.1 < n.ielength := by
    have hin := h.2.2
    omega
  rw [out_more hlt, visit_found h]
  rfl

theorem go_on {x : ℕ × ℕ} (hlt : x.1 < n.ielength) (h : ¬ Found n x.1) :
    (loop n out initialOutLen qosInfo).out x = .inr none ∧
      (loop n out initialOutLen qosInfo).step x = (nextElement n x.1, initialOutLen) := by
  have hfits := n.fits
  have hbyte := byteAt_lt n.ies (x.1 + 1)
  rw [out_more hlt, visit_on h]
  refine ⟨rfl, ?_⟩
  dsimp only [loop, ElemLoop.toLoop]
  rw [pos_eq]
  dsimp only [rtwRestructWmmIe]
  rw [visit_on h]
  refine Prod.ext (Nat.mod_eq_of_lt ?_) rfl
  omega

theorem stop_iff {x : ℕ × ℕ} : (loop n out initialOutLen qosInfo).Stop x ↔
    n.ielength ≤ x.1 ∨ Found n x.1 := by
  by_cases hfound : Found n x.1
  · exact iff_of_true ⟨_, out_found hfound⟩ (.inr hfound)
  · rw [or_iff_left hfound]
    by_cases hlt : x.1 < n.ielength
    · refine iff_of_false ?_ (Nat.not_le_of_lt hlt)
      rintro ⟨r, hr⟩
      rw [(go_on hlt hfound).1] at hr
      exact nomatch hr
    · exact iff_of_true ⟨_, out_end (Nat.le_of_not_lt hlt)⟩ (Nat.le_of_not_lt hlt)

def lengthAt (initialOutLen i : ℕ) : ℕ := if i = 12 then 0 else initialOutLen

theorem item_iff_visited {x : ℕ × ℕ} : Item (loop n out initialOutLen qosInfo).step
      (loop n out initialOutLen qosInfo).Stop (12, 0) x ↔
    Visited n x.1 ∧ x.2 = lengthAt initialOutLen x.1 := by
  have hge : ∀ {i}, Visited n i → 12 ≤ i := fun h => Sized.start_le h
  have hstep : ∀ {y : ℕ × ℕ}, ¬ (n.ielength ≤ y.1 ∨ Found n y.1) → Visited n y.1 →
      (loop n out initialOutLen qosInfo).step y =
        (nextElement n y.1, lengthAt initialOutLen (nextElement n y.1)) := by
    intro y hgo hy
    obtain ⟨hlt, hfound⟩ := not_or.mp hgo
    have hne : nextElement n y.1 ≠ 12 := by
      have hle := hge hy
      unfold nextElement
      omega
    rw [(go_on (Nat.lt_of_not_le hlt) hfound).2, lengthAt, if_neg hne]
  constructor
  · intro h
    induction h with
    | first => exact ⟨.first, rfl⟩
    | next _ hgo ih =>
      rw [stop_iff] at hgo
      rw [hstep hgo ih.1]
      exact ⟨ih.1.next hgo, rfl⟩
  · rintro ⟨hx, hlen⟩
    obtain ⟨i, a⟩ := x
    dsimp only at hx hlen
    subst hlen
    induction hx with
    | first => exact .first
    | @next i hi hgo ih =>
      have hnext := ih.next (mt stop_iff.mp hgo)
      rw [@hstep (i, lengthAt initialOutLen i) hgo hi] at hnext
      exact hnext

theorem bounded_iff_reads : Bounded (loop n out initialOutLen qosInfo).round n.ielength .entry ↔
    ∀ i, Visited n i → i < n.ielength → i + wmmNeed n.ies i ≤ n.ielength := by
  rw [ElemLoop.bounded_iff (n.fits.trans (by decide))]
  constructor
  · intro h i hi hlt
    have hturn := (h (12, 0) rfl (i, lengthAt initialOutLen i)
      ⟨item_iff_visited.mpr ⟨hi, rfl⟩, decide_eq_true hlt⟩).1
    rw [turn_within, pos_eq] at hturn
    exact wmm_asks.mp hturn
  · rintro h x₀ hstart x ⟨hx, hlt⟩
    cases hstart
    obtain ⟨hvisited, -⟩ := item_iff_visited.mp hx
    refine ⟨?_, fun _ c => nomatch c⟩
    rw [turn_within, pos_eq]
    exact wmm_asks.mpr (h x.1 hvisited (of_decide_eq_true hlt))

theorem returned_cases {r : ℕ × (ℕ → UInt8)}
    (h : Returns (loop n out initialOutLen qosInfo).round .entry r) :
    ∃ i, Visited n i ∧ ((n.ielength ≤ i ∧ r = (lengthAt initialOutLen i, out)) ∨
      (Found n i ∧ r = (initialOutLen + 9, append n out initialOutLen qosInfo i))) := by
  obtain ⟨t, ht, hdone⟩ := returns_iff.mp h
  have hcases := Loop.reaches_cases (l := loop n out initialOutLen qosInfo) rfl ht
  cases t with
  | entry => cases hdone
  | call _ c => cases c
  | item x =>
    obtain ⟨hvisited, hlen⟩ := item_iff_visited.mp hcases
    refine ⟨x.1, hvisited, ?_⟩
    by_cases hfound : Found n x.1
    · rw [Loop.round, out_found hfound] at hdone
      exact .inr ⟨hfound, (Sum.inl.inj hdone).symm⟩
    · by_cases hlt : x.1 < n.ielength
      · rw [Loop.next_pass (go_on hlt hfound).1] at hdone
        cases hdone
      · rw [Loop.round, out_end (Nat.le_of_not_lt hlt), hlen] at hdone
        exact .inl ⟨Nat.le_of_not_lt hlt, (Sum.inl.inj hdone).symm⟩

theorem returns_found (h : Bounded (loop n out initialOutLen qosInfo).round n.ielength .entry)
    (hi : Visited n i) (hfound : Found n i) :
    Returns (loop n out initialOutLen qosInfo).round .entry
      (initialOutLen + 9, append n out initialOutLen qosInfo i) := by
  have hitem : Item (loop n out initialOutLen qosInfo).step (loop n out initialOutLen qosInfo).Stop
      (12, 0) (i, lengthAt initialOutLen i) := item_iff_visited.mpr ⟨hi, rfl⟩
  have hreach := Loop.reaches_item h rfl hitem
  refine returns_iff.mpr ⟨_, hreach, ?_⟩
  rw [Loop.round, out_found hfound]
  rfl

theorem returns_empty (hlen : n.ielength ≤ 12) :
    Returns (loop n out initialOutLen qosInfo).round .entry (0, out) := by
  refine returns_iff.mpr ⟨.item (12, 0), .next .start rfl, ?_⟩
  rw [Loop.round, out_end hlen]
  rfl

/-! ## The list and the loop -/

theorem Visited.inList (h : Visited n i) : InList n i := by
  induction h with
  | first => exact .first
  | next _ hgo ih => exact ih.next fun hend => hgo (.inl hend)

theorem InList.visited (h : InList n i) :
    Visited n i ∨ ∃ j, Visited n j ∧ Found n j := by
  induction h with
  | first => exact .inl .first
  | @next i _ hgo ih =>
    obtain hi | hfound := ih
    · by_cases hfound : Found n i
      · exact .inr ⟨i, hi, hfound⟩
      · exact .inl (hi.next (not_or.mpr ⟨hgo, hfound⟩))
    · exact .inr hfound

theorem IsWmm.found (h : IsWmm n i) : Found n i := by
  obtain ⟨hid, -, houi, hin⟩ := h
  exact ⟨hid, houi, by omega⟩

theorem exists_found (h : HasWmm n) : ∃ i, Visited n i ∧ Found n i := by
  obtain ⟨i, hi, hwmm⟩ := h
  obtain hvisited | hfound := hi.visited
  · exact ⟨i, hvisited, hwmm.found⟩
  · exact hfound

theorem append_kept {k : ℕ} (hk : k < initialOutLen) :
    append n out initialOutLen qosInfo i k = out k := by
  have hfirst : ¬ (initialOutLen ≤ k ∧ k < initialOutLen + 9) := by omega
  rw [append, Function.update_of_ne (by omega), Function.update_of_ne (by omega),
    Function.update_of_ne (by omega)]
  exact if_neg hfirst

theorem append_info (h : Found n i) :
    IsWmmInfo (append n out initialOutLen qosInfo i) initialOutLen := by
  have hcopy : ∀ k < 9, k ≠ 1 → k ≠ 6 → k ≠ 8 →
      append n out initialOutLen qosInfo i (initialOutLen + k) = n.ies.getD (i + k) 0 := by
    intro k hk hone hsix height
    have hin : initialOutLen ≤ initialOutLen + k ∧ initialOutLen + k < initialOutLen + 9 := by omega
    rw [append, Function.update_of_ne (by omega), Function.update_of_ne (by omega),
      Function.update_of_ne (by omega)]
    rw [if_pos hin, Nat.add_sub_cancel_left]
  have hid : n.ies.getD i 0 = 221 := UInt8.toNat_inj.mp h.1
  have houi : ∀ k < 4, append n out initialOutLen qosInfo i (initialOutLen + (2 + k)) =
      wmmOui.getD k 0 := by
    intro k hk
    rw [hcopy (2 + k) (by omega) (by omega) (by omega) (by omega), ← Nat.add_assoc]
    exact matches_wmm h.2.1 k hk
  have hlength : append n out initialOutLen qosInfo i (initialOutLen + 1) = 7 := by
    rw [append, Function.update_of_ne (by omega), Function.update_of_ne (by omega),
      Function.update_self]
  have hsubtype : append n out initialOutLen qosInfo i (initialOutLen + 6) = 0 := by
    rw [append, Function.update_of_ne (by omega), Function.update_self]
  refine ⟨n.ies.getD (i + 7) 0, qosInfo, ?_⟩
  simp only [List.range_succ, List.range_zero, List.nil_append, List.map_cons,
    List.map_nil, List.cons_append, hlength, hsubtype]
  rw [hcopy 0 (by decide) (by decide) (by decide) (by decide), Nat.add_zero, hid,
    houi 0 (by decide), houi 1 (by decide), houi 2 (by decide), houi 3 (by decide),
    hcopy 7 (by decide) (by decide) (by decide) (by decide), append, Function.update_self]
  rfl

theorem joinWmm_length (ieLength tmpLen : ℕ) : (joinWmm ieLength tmpLen).1 = tmpLen := by
  unfold joinWmm
  split_ifs with h
  · rfl
  · exact not_not.mp h

/-- The code appends the element where it reads inside, there is an element to start with, and no
short element is taken for WMM. -/
theorem restructured_iff (n : NetworkIes) (out : ℕ → UInt8) (initialOutLen : ℕ) (qosInfo : UInt8) :
    Restructured n out initialOutLen qosInfo ↔ Covered n initialOutLen := by
  constructor
  · rintro ⟨hbounded, hreturned⟩
    refine ⟨fun hlen => ?_, bounded_iff_reads.mp hbounded, fun i hi hfound _ => ?_⟩
    · obtain ⟨-, -, -, hjoin⟩ := hreturned _ (returns_empty hlen)
      rw [joinWmm_length] at hjoin
      exact Nat.le_zero.mp hjoin
    · by_contra hwmm
      obtain ⟨-, habsent, -⟩ := hreturned _ (returns_found hbounded hi hfound)
      have hlen := habsent hwmm
      omega
  · rintro ⟨hlist, hreads, hshort⟩
    refine ⟨bounded_iff_reads.mpr hreads, fun r hr => ?_⟩
    obtain ⟨i, hi, ⟨hend, rfl⟩ | ⟨hfound, rfl⟩⟩ := returned_cases hr
    · have hlen : lengthAt initialOutLen i = initialOutLen := by
        unfold lengthAt
        split_ifs with hfirst
        · exact (hlist (hfirst ▸ hend)).symm
        · rfl
      have hnone : ¬ HasWmm n := by
        intro hwmm
        obtain ⟨j, hj, hfound⟩ := exists_found hwmm
        have heq := Item.unique hi (.inl hend) hj (.inr hfound)
        have hin := hfound.2.2
        omega
      refine ⟨fun _ _ => rfl, fun _ => hlen, fun hwmm => absurd hwmm hnone, ?_⟩
      rw [joinWmm_length, hlen]
    · have hwmm : HasWmm n := by
        by_cases hfour : 4 ≤ length n.ies i
        · exact ⟨i, hi.inList, hfound.1, hfour, hfound.2.1, hfound.2.2⟩
        · exact hshort i hi hfound (by omega)
      refine ⟨fun k hk => append_kept hk, fun hnone => absurd hwmm hnone,
        fun _ => ⟨rfl, append_info hfound⟩, ?_⟩
      rw [joinWmm_length]
      omega

end Walk

def bareNetwork : NetworkIes := ⟨List.replicate 12 0, 12, by decide⟩

/-- The elements that are there already are lost. -/
theorem bareNetwork_loses : ¬ Restructured bareNetwork (fun _ => 1) 34 0 := by
  intro h
  obtain ⟨-, -, -, hjoin⟩ := h.returned _ (returns_empty (by decide))
  exact absurd hjoin (by decide)

end Rtl8189.WmmAppend
