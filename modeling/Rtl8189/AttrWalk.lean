import Rtl8189.BufferWalk
import Rtl8189.RecvFrame

/-!
# Attributes of vendor elements

The attributes of a WPS, P2P or WFD element follow one another, each with an id and a length.
The length of the data is added to that of the header in sixteen bits.
-/
namespace Rtl8189.AttrWalk

open AccessTrace BufferWalk

abbrev AttrPtr := Option ℕ

abbrev Attr := Option (ℕ × ℕ)

def wpsOui : List UInt8 := [0x00, 0x50, 0xF2, 0x04]

def p2pOui : List UInt8 := [0x50, 0x6F, 0x9A, 0x09]

def wfdOui : List UInt8 := [0x50, 0x6F, 0x9A, 0x0A]

def Opens (mem oui : List UInt8) : Prop := byteAt mem 0 = 221 ∧ (mem.drop 2).take 4 = oui

instance (mem oui : List UInt8) : Decidable (Opens mem oui) :=
  inferInstanceAs (Decidable (_ ∧ _))

def ouiOps (mem : List UInt8) : List Op :=
  .bytes 0 1 :: if byteAt mem 0 = 221 then [.bytes 2 4] else []

/-- `rtw_get_wps_attr` on the bytes from the element on. -/
def wpsRound (mem : List UInt8) (wpsIelen targetAttrId : ℕ) (bufAttr : Bool) :
    AttrPtr → Round AttrPtr Attr
  | none => ⟨ouiOps mem, if Opens mem wpsOui then .inr (some 6) else .inl none⟩
  | some attrPtr =>
    if attrPtr < wpsIelen then
      let attrId := be16 mem attrPtr
      let attrLen := (be16 mem (attrPtr + 2) + 4) % 65536
      if attrId = targetAttrId then
        ⟨.bytes attrPtr 4 :: if bufAttr then [.bytes attrPtr attrLen] else [],
          .inl (some (attrPtr, attrLen))⟩
      else ⟨[.bytes attrPtr 4], .inr (some (attrPtr + attrLen))⟩
    else ⟨[], .inl none⟩

/-- `rtw_get_p2p_attr` and `rtw_get_wfd_attr`, with the order of the bytes of a length. -/
def attrRound (get16 : List UInt8 → ℕ → ℕ) (oui mem : List UInt8) (ielen targetAttrId : ℕ)
    (bufAttr : Bool) : AttrPtr → Round AttrPtr Attr
  | none =>
    if ielen ≤ 6 then ⟨[], .inl none⟩
    else ⟨ouiOps mem, if Opens mem oui then .inr (some 6) else .inl none⟩
  | some attrPtr =>
    if attrPtr + 3 ≤ ielen then
      let attrId := byteAt mem attrPtr
      let attrLen := (get16 mem (attrPtr + 1) + 3) % 65536
      if ielen < attrPtr + attrLen then ⟨[.bytes attrPtr 3], .inl none⟩
      else if attrId = targetAttrId then
        ⟨.bytes attrPtr 3 :: if bufAttr then [.bytes attrPtr attrLen] else [],
          .inl (some (attrPtr, attrLen))⟩
      else ⟨[.bytes attrPtr 3], .inr (some (attrPtr + attrLen))⟩
    else ⟨[], .inl none⟩

def p2pRound : List UInt8 → ℕ → ℕ → Bool → AttrPtr → Round AttrPtr Attr := attrRound le16 p2pOui

def wfdRound : List UInt8 → ℕ → ℕ → Bool → AttrPtr → Round AttrPtr Attr := attrRound be16 wfdOui

def wpsSize (mem : List UInt8) (p : ℕ) : ℕ := be16 mem (p + 2) + 4

def attrSize (get16 : List UInt8 → ℕ → ℕ) (mem : List UInt8) (p : ℕ) : ℕ := get16 mem (p + 1) + 3

theorem le16_lt (b : List UInt8) (i : ℕ) : le16 b i < 65536 := by
  have hlo := byteAt_lt b i
  have hhi := byteAt_lt b (i + 1)
  rw [le16]
  omega

theorem ouiOps_within {mem : List UInt8} {total : ℕ} :
    Within total (ouiOps mem) ↔ 1 ≤ total ∧ (byteAt mem 0 = 221 → 6 ≤ total) := by
  have hone : (Op.bytes (0 : ℕ) 1).Within total ↔ 0 + 1 ≤ total := bytes_within_iff 0 Nat.one_pos
  have hfour : (Op.bytes (2 : ℕ) 4).Within total ↔ 2 + 4 ≤ total := bytes_within_iff 2 (by decide)
  rw [ouiOps, within_cons]
  refine and_congr hone ?_
  by_cases h : byteAt mem 0 = 221
  · rw [if_pos h, within_cons]
    exact ⟨fun hin _ => hfour.mp hin.1, fun hle => ⟨hfour.mpr (hle h), within_nil⟩⟩
  · rw [if_neg h]
    exact iff_of_true within_nil fun h' => absurd h' h

section Wps

variable {mem : List UInt8} {total target : ℕ} {buf : Bool}

theorem wpsRound_out {p : ℕ} (h : ¬ p < total) :
    wpsRound mem total target buf (some p) = ⟨[], .inl none⟩ := if_neg h

theorem wpsRound_found {p : ℕ} (h : p < total) (hid : be16 mem p = target) :
    wpsRound mem total target buf (some p) =
      ⟨.bytes p 4 :: if buf then [.bytes p (wpsSize mem p % 65536)] else [],
        .inl (some (p, wpsSize mem p % 65536))⟩ := by
  rw [wpsRound, if_pos h]
  exact if_pos hid

theorem wpsRound_next {p : ℕ} (h : p < total) (hid : be16 mem p ≠ target) :
    wpsRound mem total target buf (some p) =
      ⟨[.bytes p 4], .inr (some (p + wpsSize mem p % 65536))⟩ := by
  rw [wpsRound, if_pos h]
  exact if_neg hid

theorem wpsRound_header {p : ℕ} (h : p < total) :
    Op.bytes p 4 ∈ (wpsRound mem total target buf (some p)).ops := by
  by_cases hid : be16 mem p = target
  · rw [wpsRound_found h hid]
    exact List.mem_cons_self
  · rw [wpsRound_next h hid]
    exact List.mem_cons_self

theorem wps_item_sized
    (hc : Correct (wpsRound mem total target buf) (Opens mem wpsOui) (wpsSize mem)
      (be16 mem · = target) 6 total) (hopens : Opens mem wpsOui) {p : ℕ}
    (hreach : Reaches (wpsRound mem total target buf) none (some p))
    (hitem : Sized (wpsSize mem) (be16 mem · = target) 6 p) (hlt : p < total) :
    p + 4 ≤ total ∧ wpsSize mem p < 65536 ∧
      (be16 mem p = target → p + wpsSize mem p ≤ total) := by
  have hhead : p + 4 ≤ total :=
    (bytes_within_iff p (by decide)).mp (stays_iff.mp hc.stays _ hreach _ (wpsRound_header hlt))
  obtain ⟨r, hr, hlook, -⟩ := hc.finds
  have hend := hr.reached hreach
  have hdata := be16_lt mem (p + 2)
  have hsize : wpsSize mem p = be16 mem (p + 2) + 4 := rfl
  refine ⟨hhead, ?_⟩
  by_cases hid : be16 mem p = target
  · have hret : Returns (wpsRound mem total target buf) (some p)
        (some (p, wpsSize mem p % 65536)) :=
      returns_iff.mpr ⟨some p, .start, by rw [wpsRound_found hlt hid]⟩
    have heq := hend.unique hret
    cases r with
    | none => exact nomatch heq
    | some q =>
      rw [Option.map_some, Option.some.injEq, Prod.mk.injEq] at heq
      obtain ⟨rfl, heq⟩ := heq
      exact ⟨by omega, fun _ => (hlook hopens).2.2⟩
  · refine ⟨?_, fun h => absurd h hid⟩
    by_contra hwrap
    have hnext : (wpsRound mem total target buf (some p)).next =
        .inr (some (p + wpsSize mem p % 65536)) := by rw [wpsRound_next hlt hid]
    by_cases hzero : wpsSize mem p % 65536 = 0
    · rw [hzero] at hnext
      exact not_returns_of_stuck hreach hnext _ hr
    · have hin : p + wpsSize mem p % 65536 < total := by omega
      have hread := hc.aligned _ (hreach.next hnext)
        (List.ne_nil_of_mem (wpsRound_header hin))
      have hle := hitem.le_of_lt hread (by omega)
      omega

theorem wps_correct_iff :
    Correct (wpsRound mem total target buf) (Opens mem wpsOui) (wpsSize mem)
        (be16 mem · = target) 6 total ↔
      1 ≤ total ∧ (byteAt mem 0 = 221 → 6 ≤ total) ∧
        (Opens mem wpsOui → ∀ p, Sized (wpsSize mem) (be16 mem · = target) 6 p → p < total →
          p + 4 ≤ total ∧ wpsSize mem p < 65536 ∧
            (be16 mem p = target → p + wpsSize mem p ≤ total)) := by
  have hentry : (wpsRound mem total target buf none).next =
      if Opens mem wpsOui then .inr (some 6) else .inl none := rfl
  have hpos : ∀ p, 4 ≤ wpsSize mem p := fun p => Nat.le_add_left 4 _
  constructor
  · intro hc
    obtain ⟨hone, hsix⟩ := ouiOps_within.mp (stays_iff.mp hc.stays none .start)
    refine ⟨hone, hsix, fun hopens p hp hlt => ?_⟩
    rw [if_pos hopens] at hentry
    refine wps_item_sized hc hopens ?_ hp hlt
    refine hp.reached (.next .start hentry) (fun q hreach hq hid hle => ?_) hlt.le
    have hq4 := hpos q
    have hlt : q < total := by omega
    rw [wpsRound_next hlt hid, Nat.mod_eq_of_lt (wps_item_sized hc hopens hreach hq hlt).2.1]
  · rintro ⟨hone, hsix, hitems⟩
    refine Correct.of_honest hentry (fun hopens p hp => ?_) (ouiOps_within.mpr ⟨hone, hsix⟩)
      fun hopens p hp => ?_
    · have hp4 := hpos p
      rw [Honest]
      by_cases hlt : p < total
      · obtain ⟨-, hsize, hfits⟩ := hitems hopens p hp hlt
        by_cases hid : be16 mem p = target
        · rw [wpsRound_found hlt hid, Nat.mod_eq_of_lt hsize]
          exact ⟨rfl, hid, hfits hid⟩
        · rw [wpsRound_next hlt hid, Nat.mod_eq_of_lt hsize]
          exact ⟨hid, by omega, hlt, .inl rfl⟩
      · rw [wpsRound_out hlt]
        dsimp only
        omega
    · by_cases hlt : p < total
      · obtain ⟨hhead, hsize, hfits⟩ := hitems hopens p hp hlt
        by_cases hid : be16 mem p = target
        · rw [wpsRound_found hlt hid, Nat.mod_eq_of_lt hsize, within_cons]
          refine ⟨bytes_within p hhead, ?_⟩
          split
          · rw [within_cons]
            exact ⟨bytes_within p (hfits hid), within_nil⟩
          · exact within_nil
        · rw [wpsRound_next hlt hid, within_cons]
          exact ⟨bytes_within p hhead, within_nil⟩
      · rw [wpsRound_out hlt]
        exact within_nil

end Wps

section Attr

variable {get16 : List UInt8 → ℕ → ℕ} {oui mem : List UInt8} {total target : ℕ} {buf : Bool}

theorem attrRound_out {p : ℕ} (h : ¬ p + 3 ≤ total) :
    attrRound get16 oui mem total target buf (some p) = ⟨[], .inl none⟩ := if_neg h

theorem attrRound_unfit {p : ℕ} (h : p + 3 ≤ total)
    (hfit : total < p + attrSize get16 mem p % 65536) :
    attrRound get16 oui mem total target buf (some p) = ⟨[.bytes p 3], .inl none⟩ := by
  rw [attrRound, if_pos h]
  exact if_pos hfit

theorem attrRound_found {p : ℕ} (h : p + 3 ≤ total)
    (hfit : ¬ total < p + attrSize get16 mem p % 65536) (hid : byteAt mem p = target) :
    attrRound get16 oui mem total target buf (some p) =
      ⟨.bytes p 3 :: if buf then [.bytes p (attrSize get16 mem p % 65536)] else [],
        .inl (some (p, attrSize get16 mem p % 65536))⟩ := by
  rw [attrRound, if_pos h]
  exact (if_neg hfit).trans (if_pos hid)

theorem attrRound_next {p : ℕ} (h : p + 3 ≤ total)
    (hfit : ¬ total < p + attrSize get16 mem p % 65536) (hid : byteAt mem p ≠ target) :
    attrRound get16 oui mem total target buf (some p) =
      ⟨[.bytes p 3], .inr (some (p + attrSize get16 mem p % 65536))⟩ := by
  rw [attrRound, if_pos h]
  exact (if_neg hfit).trans (if_neg hid)

theorem attrRound_ops {p : ℕ} (h : p + 3 ≤ total) :
    (attrRound get16 oui mem total target buf (some p)).ops ≠ [] := by
  by_cases hfit : total < p + attrSize get16 mem p % 65536
  · rw [attrRound_unfit h hfit]
    exact List.cons_ne_nil _ _
  · by_cases hid : byteAt mem p = target
    · rw [attrRound_found h hfit hid]
      exact List.cons_ne_nil _ _
    · rw [attrRound_next h hfit hid]
      exact List.cons_ne_nil _ _

theorem attrRound_within {p : ℕ} :
    Within total (attrRound get16 oui mem total target buf (some p)).ops := by
  by_cases h : p + 3 ≤ total
  · by_cases hfit : total < p + attrSize get16 mem p % 65536
    · rw [attrRound_unfit h hfit, within_cons]
      exact ⟨bytes_within p h, within_nil⟩
    · by_cases hid : byteAt mem p = target
      · rw [attrRound_found h hfit hid, within_cons]
        refine ⟨bytes_within p h, ?_⟩
        split
        · rw [within_cons]
          exact ⟨bytes_within p (Nat.le_of_not_lt hfit), within_nil⟩
        · exact within_nil
      · rw [attrRound_next h hfit hid, within_cons]
        exact ⟨bytes_within p h, within_nil⟩
  · rw [attrRound_out h]
    exact within_nil

theorem attrRound_entry :
    (attrRound get16 oui mem total target buf none).next =
      if 6 < total ∧ Opens mem oui then .inr (some 6) else .inl none := by
  rw [attrRound]
  by_cases hlen : total ≤ 6
  · rw [if_pos hlen, if_neg fun h => absurd h.1 (Nat.not_lt_of_le hlen)]
  · rw [if_neg hlen]
    by_cases hopens : Opens mem oui
    · rw [if_pos hopens, if_pos ⟨Nat.lt_of_not_le hlen, hopens⟩]
    · rw [if_neg hopens, if_neg fun h => hopens h.2]

theorem attrRound_head : Within total (attrRound get16 oui mem total target buf none).ops := by
  rw [attrRound]
  split
  · exact within_nil
  · exact ouiOps_within.mpr ⟨by omega, fun _ => by omega⟩

/-- A length that does not fit into the sixteen bits is right where the walk comes to its end. -/
theorem attr_item_wraps (hget : ∀ b i, get16 b i < 65536)
    (hc : Correct (attrRound get16 oui mem total target buf) (6 < total ∧ Opens mem oui)
      (attrSize get16 mem) (byteAt mem · = target) 6 total)
    {p : ℕ} (hreach : Reaches (attrRound get16 oui mem total target buf) none (some p))
    (hitem : Sized (attrSize get16 mem) (byteAt mem · = target) 6 p) (hlt : p + 3 ≤ total)
    (hwrap : 65536 ≤ attrSize get16 mem p) :
    byteAt mem p ≠ target ∧ total < p + (attrSize get16 mem p - 65536) + 3 := by
  obtain ⟨r, hr, hlook, -⟩ := hc.finds
  have hend := hr.reached hreach
  have hdata := hget mem (p + 1)
  have hsize : attrSize get16 mem p = get16 mem (p + 1) + 3 := rfl
  have hfit : ¬ total < p + attrSize get16 mem p % 65536 := by omega
  have hid : byteAt mem p ≠ target := by
    intro hid
    have hret : Returns (attrRound get16 oui mem total target buf) (some p)
        (some (p, attrSize get16 mem p % 65536)) :=
      returns_iff.mpr ⟨some p, .start, by rw [attrRound_found hlt hfit hid]⟩
    have heq := hend.unique hret
    cases r with
    | none => exact nomatch heq
    | some q =>
      rw [Option.map_some, Option.some.injEq, Prod.mk.injEq] at heq
      obtain ⟨rfl, heq⟩ := heq
      omega
  refine ⟨hid, ?_⟩
  by_contra hin
  have hnext : (attrRound get16 oui mem total target buf (some p)).next =
      .inr (some (p + attrSize get16 mem p % 65536)) := by rw [attrRound_next hlt hfit hid]
  by_cases hzero : attrSize get16 mem p % 65536 = 0
  · rw [hzero] at hnext
    exact not_returns_of_stuck hreach hnext _ hr
  · have hread := hc.aligned _ (hreach.next hnext) (attrRound_ops (by omega))
    have hle := hitem.le_of_lt hread (by omega)
    omega

theorem attr_correct_iff (hget : ∀ b i, get16 b i < 65536) :
    Correct (attrRound get16 oui mem total target buf) (6 < total ∧ Opens mem oui)
        (attrSize get16 mem) (byteAt mem · = target) 6 total ↔
      (6 < total ∧ Opens mem oui → ∀ p, Sized (attrSize get16 mem) (byteAt mem · = target) 6 p →
        p + 3 ≤ total → 65536 ≤ attrSize get16 mem p →
          byteAt mem p ≠ target ∧ total < p + (attrSize get16 mem p - 65536) + 3) := by
  have hpos : ∀ p, 3 ≤ attrSize get16 mem p := fun p => Nat.le_add_left 3 _
  have hlt : ∀ p, attrSize get16 mem p < 65536 + 3 := fun p => Nat.add_lt_add_right (hget _ _) 3
  constructor
  · intro hc hopens p hp hhead hwrap
    refine attr_item_wraps hget hc ?_ hp hhead hwrap
    have hentry : (attrRound get16 oui mem total target buf none).next = .inr (some 6) := by
      rw [attrRound_entry, if_pos hopens]
    refine hp.reached (.next .start hentry) (fun q hreach hq hid hle => ?_) (by omega : p ≤ total)
    have hq3 := hpos q
    have hsized : attrSize get16 mem q < 65536 := by
      by_contra hge
      have hstop := (attr_item_wraps hget hc hreach hq (by omega) (by omega)).2
      have hqlt := hlt q
      omega
    have hmod := Nat.mod_eq_of_lt hsized
    rw [attrRound_next (by omega) (by omega) hid, hmod]
  · intro hitems
    refine Correct.of_honest attrRound_entry (fun hopens p hp => ?_) attrRound_head
      fun _ _ _ => attrRound_within
    have hp3 := hpos p
    have hplt := hlt p
    rw [Honest]
    by_cases hhead : p + 3 ≤ total
    · by_cases hwrap : 65536 ≤ attrSize get16 mem p
      · obtain ⟨hid, hstop⟩ := hitems hopens p hp hhead hwrap
        rw [attrRound_next hhead (by omega) hid]
        refine ⟨hid, by omega, by omega, .inr ⟨by omega, ?_⟩⟩
        rw [attrRound_out (by omega)]
        exact ⟨rfl, rfl⟩
      · have hmod := Nat.mod_eq_of_lt (Nat.lt_of_not_le hwrap)
        by_cases hfit : total < p + attrSize get16 mem p % 65536
        · rw [attrRound_unfit hhead hfit]
          dsimp only
          omega
        · by_cases hid : byteAt mem p = target
          · rw [attrRound_found hhead hfit hid, hmod]
            exact ⟨rfl, hid, by omega⟩
          · rw [attrRound_next hhead hfit hid, hmod]
            exact ⟨hid, by omega, by omega, .inl rfl⟩
    · rw [attrRound_out hhead]
      dsimp only
      omega

end Attr

/-- The three functions look up the first attribute asked for, whatever the bytes and the length
that is claimed, if and only if no length makes them stray: for WPS every attribute in the
element has a whole header and a length that stays below the wrap, and fits if it is the one
asked for; for P2P and WFD a length that wraps is met only where there is no room for another
header behind it. -/
theorem attributes_found (mem : List UInt8) (total target : ℕ) (buf : Bool) :
    (Correct (wpsRound mem total target buf) (Opens mem wpsOui) (wpsSize mem)
        (be16 mem · = target) 6 total ↔
      1 ≤ total ∧ (byteAt mem 0 = 221 → 6 ≤ total) ∧
        (Opens mem wpsOui → ∀ p, Sized (wpsSize mem) (be16 mem · = target) 6 p → p < total →
          p + 4 ≤ total ∧ wpsSize mem p < 65536 ∧
            (be16 mem p = target → p + wpsSize mem p ≤ total))) ∧
    (Correct (p2pRound mem total target buf) (6 < total ∧ Opens mem p2pOui)
        (attrSize le16 mem) (byteAt mem · = target) 6 total ↔
      (6 < total ∧ Opens mem p2pOui → ∀ p,
        Sized (attrSize le16 mem) (byteAt mem · = target) 6 p → p + 3 ≤ total →
          65536 ≤ attrSize le16 mem p →
            byteAt mem p ≠ target ∧ total < p + (attrSize le16 mem p - 65536) + 3)) ∧
    (Correct (wfdRound mem total target buf) (6 < total ∧ Opens mem wfdOui)
        (attrSize be16 mem) (byteAt mem · = target) 6 total ↔
      (6 < total ∧ Opens mem wfdOui → ∀ p,
        Sized (attrSize be16 mem) (byteAt mem · = target) 6 p → p + 3 ≤ total →
          65536 ≤ attrSize be16 mem p →
            byteAt mem p ≠ target ∧ total < p + (attrSize be16 mem p - 65536) + 3)) :=
  ⟨wps_correct_iff, attr_correct_iff le16_lt, attr_correct_iff be16_lt⟩

def wpsLoop : List UInt8 := [221, 8, 0x00, 0x50, 0xF2, 0x04, 0, 1, 0xFF, 0xFC]

def p2pLoop : List UInt8 := [221, 7, 0x50, 0x6F, 0x9A, 0x09, 1, 0xFD, 0xFF]

def wfdLoop : List UInt8 := [221, 7, 0x50, 0x6F, 0x9A, 0x0A, 1, 0xFF, 0xFD]

/-- The search for another attribute does not end. A WPS attribute that does not fit is returned,
and one of which a byte is there is read. -/
theorem attributes_lost :
    (∀ r, ¬ Returns (wpsRound wpsLoop 10 2 false) none r) ∧
      (∀ r, ¬ Returns (p2pRound p2pLoop 9 2 false) none r) ∧
      (∀ r, ¬ Returns (wfdRound wfdLoop 9 2 false) none r) ∧
      Returns (wpsRound [221, 8, 0x00, 0x50, 0xF2, 0x04, 0, 1, 0, 9] 10 1 false) none
        (some (6, 13)) ∧
      ¬ Stays (wpsRound wpsLoop 7 2 false) 7 none :=
  ⟨not_returns_of_stuck (t := some 6) (.next .start rfl) rfl,
    not_returns_of_stuck (t := some 6) (.next .start rfl) rfl,
    not_returns_of_stuck (t := some 6) (.next .start rfl) rfl,
    ⟨2, rfl⟩, fun h => absurd (h 2) (by decide)⟩

end Rtl8189.AttrWalk
