import Rtl8189.BufferWalk
import Rtl8189.RecvFrame

/-!
# Looking up information elements

`rtw_get_ie` and `rtw_get_ie_ex` walk over a list of elements up to the first that they look
for, `rtw_ieee802_11_parse_elems` over all of it. What lies behind the limit may be anything.
-/
namespace Rtl8189.IeLookup

open AccessTrace BufferWalk

/-- The element that is returned, with what is stored for its length. -/
abbrev Ie := Option (ℕ × ℕ)

/-- `i` as a `sint`. -/
def asSint (i : ℕ) : ℤ := (i : ℤ).bmod 4294967296

theorem asSint_eq {i : ℕ} (h : i < 2 ^ 31) : asSint i = i :=
  Int.bmod_eq_of_le (by omega) (by omega)

def ieNext (pbuf : List UInt8) (p : ℕ) : ℕ := p + (byteAt pbuf (p + 1) + 2)

/-- `rtw_get_ie`: `p` is `none` before it is set. -/
def getIeRound (pbuf : List UInt8) (index : ℕ) (limit : Int32) :
    Option ℕ → Round (Option ℕ) Ie
  | none => ⟨[], if limit.toInt < 1 then .inl none else .inr (some 0)⟩
  | some p =>
    ⟨[.bytes p 2],
      if byteAt pbuf p = index then .inl (some (p, byteAt pbuf (p + 1)))
      else if limit.toInt ≤ asSint (ieNext pbuf p) then .inl none
      else .inr (some (ieNext pbuf p))⟩

def u32 (n : ℕ) : ℕ := n % 2 ^ 32

/-- The comparison of `rtw_get_ie_ex`. -/
def MatchesEx (inIe : List UInt8) (eid : ℕ) (oui : Option (List UInt8)) (cnt : ℕ) : Prop :=
  byteAt inIe cnt = eid ∧ ∀ o ∈ oui, o <+: inIe.drop (u32 (cnt + 2))

instance (inIe : List UInt8) (eid : ℕ) (oui : Option (List UInt8)) (cnt : ℕ) :
    Decidable (MatchesEx inIe eid oui cnt) := inferInstanceAs (Decidable (_ ∧ _))

def exNext (inIe : List UInt8) (cnt : ℕ) : ℕ := u32 (cnt + (byteAt inIe (cnt + 1) + 2))

/-- What the comparison reads. It is not bounded by the length of the element. -/
def matchOps (inIe : List UInt8) (eid : ℕ) (oui : Option (List UInt8)) (cnt : ℕ) : List Op :=
  .bytes cnt 1 ::
    match oui with
    | some o => if byteAt inIe cnt = eid then [.bytes (u32 (cnt + 2) : ℕ) o.length] else []
    | none => []

/-- `rtw_get_ie_ex`; `ie` and `ielen` say which of the pointers are set. -/
def getIeExRound (inIe : List UInt8) (inLen : UInt32) (eid : ℕ) (oui : Option (List UInt8))
    (ie ielen : Bool) : Option ℕ → Round (Option ℕ) Ie
  | none => ⟨[], if inLen = 0 then .inl none else .inr (some 0)⟩
  | some cnt =>
    if cnt < inLen.toNat then
      let size := byteAt inIe (cnt + 1) + 2
      if MatchesEx inIe eid oui cnt then
        ⟨matchOps inIe eid oui cnt ++ ((if ie then [.bytes cnt size] else []) ++
            if ie ∨ ielen then [.bytes (cnt + 1 : ℕ) 1] else []),
          .inl (some (cnt, size))⟩
      else ⟨matchOps inIe eid oui cnt ++ [.bytes (cnt + 1 : ℕ) 1], .inr (some (exNext inIe cnt))⟩
    else ⟨[], .inl none⟩

inductive ElemField where
  | ssid | suppRates | fhParams | dsParams | cfParams | tim | ibssParams | challenge | erpInfo
  | extSuppRates | wpaIe | wme | wmeTspec | wpsIe | vendorHtCap | rsnIe | powerCap | suppChannels
  | mdie | ftie | timeoutInt | htCapabilities | htOperation | vhtCapabilities | vhtOperation
  | vhtOpModeNotify | rmEnCap
  deriving DecidableEq, Repr

/-- The elements of `rtw_ieee802_11_parse_elems` that are not vendor specific. -/
def elemField : ℕ → Option ElemField
  | 0 => some .ssid
  | 1 => some .suppRates
  | 2 => some .fhParams
  | 3 => some .dsParams
  | 4 => some .cfParams
  | 5 => some .tim
  | 6 => some .ibssParams
  | 16 => some .challenge
  | 42 => some .erpInfo
  | 50 => some .extSuppRates
  | 48 => some .rsnIe
  | 33 => some .powerCap
  | 36 => some .suppChannels
  | 54 => some .mdie
  | 55 => some .ftie
  | 56 => some .timeoutInt
  | 45 => some .htCapabilities
  | 61 => some .htOperation
  | 191 => some .vhtCapabilities
  | 192 => some .vhtOperation
  | 199 => some .vhtOpModeNotify
  | 70 => some .rmEnCap
  | _ => none

def ouiMicrosoft : ℕ := 0x0050f2

def ouiBroadcom : ℕ := 0x00904c

def be24 (b : List UInt8) (i : ℕ) : ℕ := 65536 * byteAt b i + be16 b (i + 1)

/-- `rtw_ieee802_11_parse_vendor_specific`; `none` where it returns -1. -/
def vendorField (b : List UInt8) (pos elen : ℕ) : Option ElemField :=
  if elen < 4 then none
  else if be24 b pos = ouiMicrosoft then
    match byteAt b (pos + 3) with
    | 1 => some .wpaIe
    | 2 =>
      if elen < 5 then none
      else match byteAt b (pos + 4) with
        | 0 | 1 => some .wme
        | 2 => some .wmeTspec
        | _ => none
    | 4 => some .wpsIe
    | _ => none
  else if be24 b pos = ouiBroadcom then
    match byteAt b (pos + 3) with
    | 0x33 => some .vendorHtCap
    | _ => none
  else none

def vendorOps (b : List UInt8) (pos elen : ℕ) : List Op :=
  if elen < 4 then []
  else .bytes pos 3 ::
    if be24 b pos = ouiMicrosoft ∨ be24 b pos = ouiBroadcom then
      .bytes (pos + 3 : ℕ) 1 ::
        if be24 b pos = ouiMicrosoft ∧ byteAt b (pos + 3) = 2 ∧ 5 ≤ elen then
          [.bytes (pos + 4 : ℕ) 1]
        else []
    else []

abbrev Elems := ElemField → Option (ℕ × ℕ)

inductive ParseRes where
  | ok
  | unknown
  | failed
  deriving DecidableEq, Repr

def Elems.record (elems : Elems) (pos elen : ℕ) : Option ElemField → Elems
  | some f => Function.update elems f (some (pos, elen))
  | none => elems

structure ParseState where
  pos : ℕ := 0
  left : ℕ
  unknown : ℕ := 0
  elems : Elems := fun _ => none

def ParseState.field (mem : List UInt8) (s : ParseState) : Option ElemField :=
  let id := byteAt mem s.pos
  if id = 221 then vendorField mem (s.pos + 2) (byteAt mem (s.pos + 1)) else elemField id

def ParseState.add (s : ParseState) (field : Option ElemField) (elen : ℕ) : ParseState where
  pos := s.pos + (elen + 2)
  left := s.left - 2 - elen
  unknown := if field = none then s.unknown + 1 else s.unknown
  elems := s.elems.record (s.pos + 2) elen field

/-- `rtw_ieee802_11_parse_elems` -/
def parseRound (mem : List UInt8) (s : ParseState) : Round ParseState (Elems × ParseRes) :=
  if s.left < 2 then
    ⟨[], .inl (s.elems,
      if s.left ≠ 0 then .failed else if s.unknown ≠ 0 then .unknown else .ok)⟩
  else
    let elen := byteAt mem (s.pos + 1)
    if s.left - 2 < elen then ⟨[.bytes s.pos 2], .inl (s.elems, .failed)⟩
    else ⟨.bytes s.pos 2 :: if byteAt mem s.pos = 221 then vendorOps mem (s.pos + 2) elen else [],
      .inr (s.add (s.field mem) elen)⟩

/-- Nothing is read behind the limit, and no element returned reaches beyond it. -/
def InBounds (round : Option ℕ → Round (Option ℕ) Ie) (total : ℕ) (size : ℕ → ℕ) : Prop :=
  Stays round total none ∧ ∀ p n, Returns round none (some (p, n)) → p + size n ≤ total

theorem inBounds_of_done {round : Option ℕ → Round (Option ℕ) Ie} {total : ℕ} {size : ℕ → ℕ}
    (hdone : (round none).next = .inl none) (hops : Within total (round none).ops) :
    InBounds round total size := by
  constructor
  · rw [stays_iff]
    intro t ht
    obtain rfl | ⟨t', hnext, -⟩ := ht.cases_head
    · exact hops
    · rw [hdone] at hnext
      exact nomatch hnext
  · intro p n h
    have hnone := h.unique (returns_iff.mpr ⟨none, .start, hdone⟩)
    exact nomatch hnone

/-! ## Any bytes -/

section GetIe

variable {pbuf : List UInt8} {index : ℕ} {limit : Int32}

/-- Where `rtw_get_ie` does not go on. -/
def IeStop (pbuf : List UInt8) (index : ℕ) (limit : Int32) (p : ℕ) : Prop :=
  byteAt pbuf p = index ∨ limit.toInt ≤ asSint (ieNext pbuf p)

theorem getIe_stop {p : ℕ} (h : IeStop pbuf index limit p) :
    ∃ r, (getIeRound pbuf index limit (some p)).next = .inl r := by
  dsimp only [getIeRound]
  by_cases hid : byteAt pbuf p = index
  · exact ⟨_, if_pos hid⟩
  · exact ⟨_, (if_neg hid).trans (if_pos (h.resolve_left hid))⟩

theorem getIe_go {p : ℕ} (h : ¬ IeStop pbuf index limit p) :
    (getIeRound pbuf index limit (some p)).next = .inr (some (ieNext pbuf p)) :=
  (if_neg fun hid => h (.inl hid)).trans (if_neg fun hend => h (.inr hend))

theorem getIe_in_bounds :
    InBounds (getIeRound pbuf index limit) limit.toInt.toNat (· + 2) ↔
      (1 ≤ limit.toInt → ∀ p, Item (ieNext pbuf) (IeStop pbuf index limit) 0 p →
        p + 2 ≤ limit.toInt.toNat ∧
          (byteAt pbuf p = index → ieNext pbuf p ≤ limit.toInt.toNat)) := by
  have hops : Within limit.toInt.toNat (getIeRound pbuf index limit none).ops := within_nil
  by_cases hlimit : 1 ≤ limit.toInt
  · have hentry : (getIeRound pbuf index limit none).next = .inr (some 0) := if_neg (by omega)
    rw [InBounds, chain_stays_iff hentry (fun _ => getIe_stop) (fun _ => getIe_go) hops]
    simp only [chain_returns_iff hentry (fun _ => getIe_stop) (fun _ => getIe_go)]
    have hhead : ∀ p, Within limit.toInt.toNat (getIeRound pbuf index limit (some p)).ops ↔
        p + 2 ≤ limit.toInt.toNat := by
      intro p
      exact (within_cons _ _).trans ((and_iff_left within_nil).trans
        (bytes_within_iff p Nat.two_pos))
    simp only [hhead]
    constructor
    · rintro ⟨hin, hret⟩ - p hp
      refine ⟨hin p hp, fun hid => ?_⟩
      exact hret p (byteAt pbuf (p + 1)) ⟨p, hp, if_pos hid⟩
    · intro h
      refine ⟨fun p hp => (h hlimit p hp).1, ?_⟩
      rintro p n ⟨q, hq, hdone⟩
      dsimp only [getIeRound] at hdone
      split at hdone
      · next hid =>
        cases hdone
        exact (h hlimit p hq).2 hid
      · split at hdone <;> exact nomatch hdone
  · have hentry : (getIeRound pbuf index limit none).next = .inl none := if_pos (by omega)
    exact iff_of_true (inBounds_of_done hentry hops) fun h => absurd h hlimit

end GetIe

section GetIeEx

variable {inIe : List UInt8} {inLen : UInt32} {eid : ℕ} {oui : Option (List UInt8)}
  {ie ielen : Bool}

def ExStop (inIe : List UInt8) (inLen : UInt32) (eid : ℕ) (oui : Option (List UInt8)) (p : ℕ) :
    Prop := inLen.toNat ≤ p ∨ MatchesEx inIe eid oui p

theorem getIeEx_out {p : ℕ} (h : inLen.toNat ≤ p) :
    getIeExRound inIe inLen eid oui ie ielen (some p) = ⟨[], .inl none⟩ := if_neg (by omega)

theorem getIeEx_found {p : ℕ} (h : p < inLen.toNat) (hm : MatchesEx inIe eid oui p) :
    getIeExRound inIe inLen eid oui ie ielen (some p) =
      ⟨matchOps inIe eid oui p ++ ((if ie then [Op.bytes p (byteAt inIe (p + 1) + 2)] else []) ++
          if ie ∨ ielen then [Op.bytes (p + 1 : ℕ) 1] else []),
        .inl (some (p, byteAt inIe (p + 1) + 2))⟩ := by
  rw [getIeExRound, if_pos h]
  exact if_pos hm

theorem getIeEx_pass {p : ℕ} (h : p < inLen.toNat) (hm : ¬ MatchesEx inIe eid oui p) :
    getIeExRound inIe inLen eid oui ie ielen (some p) =
      ⟨matchOps inIe eid oui p ++ [Op.bytes (p + 1 : ℕ) 1], .inr (some (exNext inIe p))⟩ := by
  rw [getIeExRound, if_pos h]
  exact if_neg hm

theorem getIeEx_stop {p : ℕ} (h : ExStop inIe inLen eid oui p) :
    ∃ r, (getIeExRound inIe inLen eid oui ie ielen (some p)).next = .inl r := by
  by_cases hlt : p < inLen.toNat
  · rw [getIeEx_found hlt (h.resolve_left (by omega))]
    exact ⟨_, rfl⟩
  · rw [getIeEx_out (by omega)]
    exact ⟨_, rfl⟩

theorem getIeEx_go {p : ℕ} (h : ¬ ExStop inIe inLen eid oui p) :
    (getIeExRound inIe inLen eid oui ie ielen (some p)).next = .inr (some (exNext inIe p)) := by
  have hlt : p < inLen.toNat := by
    by_contra hge
    exact h (.inl (by omega))
  rw [getIeEx_pass hlt fun hm => h (.inr hm)]

theorem matchOps_within {total p : ℕ} (hp : p + 2 < 2 ^ 32) :
    Within total (matchOps inIe eid oui p) ↔
      p + 1 ≤ total ∧ (byteAt inIe p = eid → ∀ o ∈ oui, o ≠ [] → p + 2 + o.length ≤ total) := by
  have hu32 : u32 (p + 2) = p + 2 := Nat.mod_eq_of_lt hp
  unfold matchOps
  rw [hu32, within_cons]
  refine and_congr (bytes_within_iff p Nat.one_pos) ?_
  cases oui with
  | none => exact iff_of_true within_nil fun _ o ho => nomatch ho
  | some o =>
    dsimp only
    by_cases hid : byteAt inIe p = eid
    · rw [if_pos hid, within_cons]
      constructor
      · rintro ⟨hin, -⟩ - o' ho hne
        cases ho
        exact (bytes_within_iff (p + 2) (List.length_pos_iff.mpr hne)).mp hin
      · intro h
        refine ⟨fun hpos => ?_, within_nil⟩
        exact bytes_within (p + 2) (h hid o rfl (List.length_pos_iff.mp hpos)) hpos
    · rw [if_neg hid]
      exact iff_of_true within_nil fun h => absurd h hid

/-- The two bytes of a header, and the bytes that are compared, lie inside, and so does an
element that matches. -/
def ExFits (inIe : List UInt8) (total eid : ℕ) (oui : Option (List UInt8)) (p : ℕ) : Prop :=
  p + 2 ≤ total ∧ (byteAt inIe p = eid → ∀ o ∈ oui, o ≠ [] → p + 2 + o.length ≤ total) ∧
    (MatchesEx inIe eid oui p → p + (byteAt inIe (p + 1) + 2) ≤ total)

theorem getIeEx_round_iff {p : ℕ} (hlt : p < inLen.toNat) :
    (Within inLen.toNat (getIeExRound inIe inLen eid oui ie ielen (some p)).ops ∧
        ∀ n, (getIeExRound inIe inLen eid oui ie ielen (some p)).next = .inl (some (p, n)) →
          p + n ≤ inLen.toNat) ↔ ExFits inIe inLen.toNat eid oui p := by
  have hmax := inLen.toNat_lt
  have hone : (Op.bytes (p + 1 : ℕ) 1).Within inLen.toNat ↔ p + 1 + 1 ≤ inLen.toNat :=
    bytes_within_iff (p + 1) Nat.one_pos
  by_cases hm : MatchesEx inIe eid oui p
  · rw [getIeEx_found hlt hm, within_append, within_append, ExFits]
    constructor
    · rintro ⟨⟨hmatch, -⟩, hret⟩
      have hfits := hret _ rfl
      exact ⟨by omega, ((matchOps_within (by omega)).mp hmatch).2, fun _ => hfits⟩
    · rintro ⟨hhead, hmatch, hfits⟩
      refine ⟨⟨(matchOps_within (by omega)).mpr ⟨by omega, hmatch⟩, ?_, ?_⟩, ?_⟩
      · split
        · rw [within_cons]
          exact ⟨bytes_within p (hfits hm), within_nil⟩
        · exact within_nil
      · split
        · rw [within_cons]
          exact ⟨hone.mpr hhead, within_nil⟩
        · exact within_nil
      · intro n hn
        cases hn
        exact hfits hm
  · rw [getIeEx_pass hlt hm, within_append, within_cons, hone, ExFits]
    constructor
    · rintro ⟨⟨hmatch, hhead, -⟩, -⟩
      exact ⟨hhead, ((matchOps_within (by omega)).mp hmatch).2, fun h => absurd h hm⟩
    · rintro ⟨hhead, hmatch, -⟩
      exact ⟨⟨(matchOps_within (by omega)).mpr ⟨by omega, hmatch⟩, hhead, within_nil⟩,
        fun n hn => nomatch hn⟩

theorem getIeEx_in_bounds :
    InBounds (getIeExRound inIe inLen eid oui ie ielen) inLen.toNat id ↔
      ∀ p, Item (exNext inIe) (ExStop inIe inLen eid oui) 0 p → p < inLen.toNat →
        ExFits inIe inLen.toNat eid oui p := by
  have hops : Within inLen.toNat (getIeExRound inIe inLen eid oui ie ielen none).ops := within_nil
  by_cases hlen : inLen = 0
  · have hzero : inLen.toNat = 0 := by rw [hlen]; rfl
    have hentry : (getIeExRound inIe inLen eid oui ie ielen none).next = .inl none := if_pos hlen
    exact iff_of_true (inBounds_of_done hentry hops) fun p _ hlt => by omega
  · have hentry : (getIeExRound inIe inLen eid oui ie ielen none).next = .inr (some 0) :=
      if_neg hlen
    rw [InBounds, chain_stays_iff hentry (fun _ => getIeEx_stop) (fun _ => getIeEx_go) hops]
    simp only [chain_returns_iff hentry (fun _ => getIeEx_stop) (fun _ => getIeEx_go)]
    constructor
    · rintro ⟨hin, hret⟩ p hp hlt
      exact (getIeEx_round_iff hlt).mp ⟨hin p hp, fun n hn => hret p n ⟨p, hp, hn⟩⟩
    · intro h
      refine ⟨fun p hp => ?_, ?_⟩
      · by_cases hlt : p < inLen.toNat
        · exact ((getIeEx_round_iff hlt).mpr (h p hp hlt)).1
        · rw [getIeEx_out (by omega)]
          exact within_nil
      · rintro p n ⟨q, hq, hdone⟩
        by_cases hlt : q < inLen.toNat
        · by_cases hm : MatchesEx inIe eid oui q
          · rw [getIeEx_found hlt hm] at hdone
            cases hdone
            exact (h p hq hlt).2.2 hm
          · rw [getIeEx_pass hlt hm] at hdone
            exact nomatch hdone
        · rw [getIeEx_out (by omega)] at hdone
          exact nomatch hdone

end GetIeEx

section Parse

variable {mem : List UInt8}

theorem parse_fits {s : ParseState} (h : ¬ s.left < 2)
    (hfit : ¬ s.left - 2 < byteAt mem (s.pos + 1)) :
    parseRound mem s =
      ⟨.bytes s.pos 2 :: if byteAt mem s.pos = 221 then
          vendorOps mem (s.pos + 2) (byteAt mem (s.pos + 1)) else [],
        .inr (s.add (s.field mem) (byteAt mem (s.pos + 1)))⟩ := by
  rw [parseRound, if_neg h]
  exact if_neg hfit

theorem vendorOps_within {len pos elen : ℕ} (h : pos + elen ≤ len) :
    Within len (vendorOps mem pos elen) := by
  rw [vendorOps]
  split
  · exact within_nil
  · rw [within_cons]
    refine ⟨bytes_within pos (by omega), ?_⟩
    split
    · rw [within_cons]
      refine ⟨bytes_within (pos + 3) (by omega), ?_⟩
      split
      · rw [within_cons]
        exact ⟨bytes_within (pos + 4) (by omega), within_nil⟩
      · exact within_nil
    · exact within_nil

theorem parse_stays (len : ℕ) : Stays (parseRound mem) len { left := len } := by
  rw [stays_iff]
  intro s hs
  suffices hsum : s.pos + s.left = len by
    by_cases hleft : s.left < 2
    · rw [parseRound, if_pos hleft]
      exact within_nil
    · by_cases hfit : s.left - 2 < byteAt mem (s.pos + 1)
      · rw [parseRound, if_neg hleft]
        dsimp only
        rw [if_pos hfit, within_cons]
        exact ⟨bytes_within s.pos (by omega), within_nil⟩
      · rw [parse_fits hleft hfit, within_cons]
        refine ⟨bytes_within s.pos (by omega), ?_⟩
        split
        · exact vendorOps_within (by omega)
        · exact within_nil
  induction hs with
  | start => exact Nat.zero_add len
  | @next s s' _ hnext ih =>
    by_cases hleft : s.left < 2
    · rw [parseRound, if_pos hleft] at hnext
      exact nomatch hnext
    · by_cases hfit : s.left - 2 < byteAt mem (s.pos + 1)
      · rw [parseRound, if_neg hleft] at hnext
        dsimp only at hnext
        rw [if_pos hfit] at hnext
        exact nomatch hnext
      · rw [parse_fits hleft hfit] at hnext
        cases hnext
        dsimp only [ParseState.add]
        omega

end Parse

/-! ## Well-formed lists -/

structure Elem where
  id : UInt8
  data : List UInt8
  fits : data.length < 256

theorem Elem.nil_fits : ([] : List UInt8).length < 256 := by decide

def Elem.bytes (e : Elem) : List UInt8 := e.id :: UInt8.ofNat e.data.length :: e.data

def encode (l : List Elem) : List UInt8 := l.flatMap Elem.bytes

/-- The first element that is wanted, of those that start at `start`: where it starts, and the
length of its data. -/
def locate (wanted : Elem → Bool) : List Elem → ℕ → Option (ℕ × ℕ)
  | [], _ => none
  | e :: l, start =>
    if wanted e then some (start, e.data.length)
    else locate wanted l (start + (e.data.length + 2))

theorem Elem.bytes_length (e : Elem) : e.bytes.length = e.data.length + 2 := rfl

theorem encode_cons (e : Elem) (l : List Elem) : encode (e :: l) = e.bytes ++ encode l :=
  List.flatMap_cons

theorem encode_length_cons (e : Elem) (l : List Elem) :
    (encode (e :: l)).length = e.data.length + 2 + (encode l).length := by
  rw [encode_cons, List.length_append, e.bytes_length]

theorem encode_length_pos {l : List Elem} (h : l ≠ []) : 0 < (encode l).length := by
  cases l with
  | nil => exact absurd rfl h
  | cons e l =>
    rw [encode_length_cons]
    omega

structure At (mem : List UInt8) (start : ℕ) (e : Elem) (tail : List UInt8) : Prop where
  id : byteAt mem start = e.id.toNat
  len : byteAt mem (start + 1) = e.data.length
  data : mem.drop (start + 2) = e.data ++ tail

theorem at_append (pre : List UInt8) (e : Elem) (tail : List UInt8) :
    At (pre ++ (e.bytes ++ tail)) pre.length e tail where
  id := byteAt_append_right pre (e.bytes ++ tail) 0
  len := by
    rw [byteAt_append_right]
    change (UInt8.ofNat e.data.length).toNat = _
    rw [UInt8.toNat_ofNat']
    exact Nat.mod_eq_of_lt e.fits
  data := by
    rw [← List.drop_drop, List.drop_left]
    rfl

/-- A list of elements from `start` on. -/
def Holds (mem : List UInt8) (start : ℕ) (l : List Elem) (rest : List UInt8) : Prop :=
  ∃ pre, mem = pre ++ (encode l ++ rest) ∧ pre.length = start

theorem Holds.head {mem rest : List UInt8} {start : ℕ} {e : Elem} {l : List Elem}
    (h : Holds mem start (e :: l) rest) : At mem start e (encode l ++ rest) := by
  obtain ⟨pre, rfl, rfl⟩ := h
  rw [encode_cons, List.append_assoc]
  exact at_append pre e (encode l ++ rest)

theorem Holds.tail {mem rest : List UInt8} {start : ℕ} {e : Elem} {l : List Elem}
    (h : Holds mem start (e :: l) rest) : Holds mem (start + (e.data.length + 2)) l rest := by
  obtain ⟨pre, rfl, rfl⟩ := h
  refine ⟨pre ++ e.bytes, ?_, ?_⟩
  · rw [encode_cons, List.append_assoc, List.append_assoc]
  · rw [List.length_append, e.bytes_length]

theorem getIe_locates {mem rest : List UInt8} {start : ℕ} {l : List Elem} {limit : Int32}
    (index : ℕ) (h : Holds mem start l rest) (hne : l ≠ [])
    (hlimit : limit.toInt = (start + (encode l).length : ℕ)) :
    Returns (getIeRound mem index limit) (some start)
      (locate (fun e => e.id.toNat = index) l start) := by
  have hmax := limit.toInt_lt
  induction l generalizing start with
  | nil => exact absurd rfl hne
  | cons e l ih =>
    have hat := h.head
    rw [encode_length_cons] at hlimit
    rw [locate]
    by_cases hid : e.id.toNat = index
    · rw [if_pos (decide_eq_true hid), ← hat.len]
      exact ⟨1, by rw [result, getIeRound, if_pos (hat.id.trans hid)]⟩
    · have hstep : ieNext mem start = start + (e.data.length + 2) := by rw [ieNext, hat.len]
      have hsint : asSint (ieNext mem start) = start + (e.data.length + 2) := by
        rw [hstep, asSint_eq (by omega)]
        rfl
      have hno : byteAt mem start ≠ index := fun heq => hid (hat.id.symm.trans heq)
      rw [if_neg (by simpa using hid)]
      by_cases hlast : l = []
      · subst hlast
        refine ⟨1, ?_⟩
        have hend : limit.toInt ≤ asSint (ieNext mem start) := by
          rw [hsint, hlimit]
          change (((start + (e.data.length + 2 + 0) : ℕ) : ℤ)) ≤ _
          omega
        rw [result, getIeRound, if_neg hno, if_pos hend, locate]
      · have hmore := encode_length_pos hlast
        have hgo : ¬ limit.toInt ≤ asSint (ieNext mem start) := by omega
        have hnext : (getIeRound mem index limit (some start)).next =
            .inr (some (start + (e.data.length + 2))) := by
          rw [getIeRound, if_neg hno, if_neg hgo, hstep]
        rw [Returns.of_next hnext]
        exact ih h.tail hlast (by omega)

theorem locate_ge {wanted : Elem → Bool} {l : List Elem} {start p n : ℕ}
    (h : locate wanted l start = some (p, n)) : start ≤ p := by
  induction l generalizing start with
  | nil => exact nomatch h
  | cons e l ih =>
    rw [locate] at h
    split at h
    · cases h
      exact Nat.le_refl _
    · exact (Nat.le_add_right _ _).trans (ih h)

def wanted (eid : ℕ) (oui : Option (List UInt8)) (e : Elem) : Bool :=
  e.id.toNat = eid ∧ ∀ o ∈ oui, o <+: e.data

/-- Up to the first element that is wanted, none with the id is shorter than the OUI and looks
as if it had it, by the bytes behind it. -/
def NoSpill (eid : ℕ) (oui : Option (List UInt8)) (l : List Elem) (rest : List UInt8) : Prop :=
  ∀ pre e post, l = pre ++ e :: post → (∀ d ∈ pre, wanted eid oui d = false) →
    e.id.toNat = eid → ∀ o ∈ oui, o <+: e.data ++ (encode post ++ rest) → o.length ≤ e.data.length

theorem noSpill_wanted {eid : ℕ} {oui : Option (List UInt8)} {e : Elem} {l : List Elem}
    {rest : List UInt8} (h : wanted eid oui e = true) : NoSpill eid oui (e :: l) rest := by
  intro pre d post hl hpre hid o ho hprefix
  cases pre with
  | nil =>
    cases hl
    exact ((of_decide_eq_true h).2 o ho).length_le
  | cons c pre =>
    cases hl
    have hno := hpre e List.mem_cons_self
    rw [h] at hno
    exact nomatch hno

theorem noSpill_cons {eid : ℕ} {oui : Option (List UInt8)} {e : Elem} {l : List Elem}
    {rest : List UInt8} (hw : wanted eid oui e = false)
    (hspill : ¬ (e.id.toNat = eid ∧ ∀ o ∈ oui, o <+: e.data ++ (encode l ++ rest))) :
    NoSpill eid oui (e :: l) rest ↔ NoSpill eid oui l rest := by
  constructor
  · intro h pre d post hl hpre
    refine h (e :: pre) d post (hl ▸ rfl) fun c hc => ?_
    rcases List.mem_cons.mp hc with rfl | hc
    · exact hw
    · exact hpre c hc
  · intro h pre d post hl hpre hid o ho hprefix
    cases pre with
    | nil =>
      cases hl
      refine absurd ⟨hid, fun o' ho' => ?_⟩ hspill
      rw [Option.mem_unique ho' ho]
      exact hprefix
    | cons c pre =>
      cases hl
      exact h pre d post rfl (fun d hd => hpre d (List.mem_cons_of_mem _ hd)) hid o ho hprefix

theorem getIeEx_locates {mem rest : List UInt8} {start : ℕ} {l : List Elem} {inLen : UInt32}
    (eid : ℕ) (oui : Option (List UInt8)) (ie ielen : Bool) (h : Holds mem start l rest)
    (hlen : inLen.toNat = start + (encode l).length) :
    Returns (getIeExRound mem inLen eid oui ie ielen) (some start)
        ((locate (wanted eid oui) l start).map fun x => (x.1, x.2 + 2)) ↔
      NoSpill eid oui l rest := by
  have hmax := inLen.toNat_lt
  induction l generalizing start with
  | nil =>
    refine iff_of_true ⟨1, ?_⟩ fun pre e post hl => ?_
    · have hend : inLen.toNat ≤ start := Nat.le_of_eq hlen
      rw [result, getIeEx_out hend]
      rfl
    · exact absurd hl.symm (List.append_ne_nil_of_right_ne_nil _ (List.cons_ne_nil e post))
  | cons e l ih =>
    have hat := h.head
    rw [encode_length_cons] at hlen
    have hlt : start < inLen.toNat := by omega
    have hu32 : u32 (start + 2) = start + 2 := Nat.mod_eq_of_lt (by omega)
    have hmatch : MatchesEx mem eid oui start ↔
        e.id.toNat = eid ∧ ∀ o ∈ oui, o <+: e.data ++ (encode l ++ rest) := by
      rw [MatchesEx, hat.id, hu32, hat.data]
    rw [locate]
    cases hw : wanted eid oui e with
    | true =>
      obtain ⟨hid, hoff⟩ := of_decide_eq_true hw
      have hm : MatchesEx mem eid oui start :=
        hmatch.mpr ⟨hid, fun o ho => (hoff o ho).trans (List.prefix_append _ _)⟩
      refine iff_of_true ⟨1, ?_⟩ (noSpill_wanted hw)
      rw [result, getIeEx_found hlt hm, hat.len]
      rfl
    | false =>
      rw [if_neg Bool.false_ne_true]
      by_cases hm : MatchesEx mem eid oui start
      · refine iff_of_false (fun hret => ?_) fun hno => ?_
        · have hhere : Returns (getIeExRound mem inLen eid oui ie ielen) (some start)
              (some (start, byteAt mem (start + 1) + 2)) :=
            returns_iff.mpr ⟨some start, .start, by rw [getIeEx_found hlt hm]⟩
          obtain ⟨⟨p, n⟩, hloc, heq⟩ := Option.map_eq_some_iff.mp (hret.unique hhere)
          have hge := locate_ge hloc
          have hp : p = start := congrArg Prod.fst heq
          omega
        · obtain ⟨hid, hoff⟩ := hmatch.mp hm
          have hyes : wanted eid oui e = true := by
            refine decide_eq_true ⟨hid, fun o ho => ?_⟩
            have hle := hno [] e l rfl (List.forall_mem_nil _) hid o ho (hoff o ho)
            exact List.prefix_of_prefix_length_le (hoff o ho) (List.prefix_append _ _) hle
          rw [hw] at hyes
          cases hyes
      · have hstep : exNext mem start = start + (e.data.length + 2) := by
          rw [exNext, hat.len]
          exact Nat.mod_eq_of_lt (by omega)
        have hnext : (getIeExRound mem inLen eid oui ie ielen (some start)).next =
            .inr (some (start + (e.data.length + 2))) := by rw [getIeEx_pass hlt hm, hstep]
        rw [Returns.of_next hnext, noSpill_cons hw fun h => hm (hmatch.mpr h)]
        exact ih h.tail (by omega)

/-! ## What the parser records -/

def Elem.field (e : Elem) : Option ElemField :=
  if e.id.toNat = 221 then vendorField e.data 0 e.data.length else elemField e.id.toNat

def recordAll : List Elem → ℕ → Elems → Elems
  | [], _, elems => elems
  | e :: l, start, elems =>
    recordAll l (start + (e.data.length + 2)) (elems.record (start + 2) e.data.length e.field)

theorem Elems.record_other (elems : Elems) (pos elen : ℕ) {field : Option ElemField}
    {f : ElemField} (h : field ≠ some f) : elems.record pos elen field f = elems f := by
  cases field with
  | none => rfl
  | some g => exact Function.update_of_ne (fun heq => h (congrArg some heq.symm)) _ _

theorem vendorField_congr {b c : List UInt8} {pos q elen : ℕ}
    (h : ∀ i < elen, byteAt b (pos + i) = byteAt c (q + i)) :
    vendorField b pos elen = vendorField c q elen := by
  rw [vendorField, vendorField]
  by_cases hshort : elen < 4
  · rw [if_pos hshort, if_pos hshort]
  · have h0 : byteAt b pos = byteAt c q := h 0 (by omega)
    have h1 := h 1 (by omega)
    have h2 := h 2 (by omega)
    have houi : be24 b pos = be24 c q := by
      rw [be24, be24, be16, be16, h0, h1]
      exact congrArg (fun n => 65536 * byteAt c q + (256 * byteAt c (q + 1) + n)) h2
    rw [if_neg hshort, if_neg hshort, houi, h 3 (by omega)]
    by_cases h5 : elen < 5
    · rw [if_pos h5, if_pos h5]
    · rw [if_neg h5, if_neg h5, h 4 (by omega)]

theorem At.field_eq {mem tail : List UInt8} {e : Elem} {s : ParseState}
    (h : At mem s.pos e tail) : s.field mem = e.field := by
  rw [ParseState.field, Elem.field, h.id, h.len]
  congr 1
  refine vendorField_congr fun i hi => ?_
  rw [← byteAt_drop, h.data, byteAt_append_left hi, Nat.zero_add]

theorem parse_records {mem rest : List UInt8} {l : List Elem} {s : ParseState}
    (h : Holds mem s.pos l rest) (hleft : s.left = (encode l).length) :
    ∃ res, res ≠ .failed ∧ Returns (parseRound mem) s (recordAll l s.pos s.elems, res) := by
  induction l generalizing s with
  | nil =>
    have hzero : s.left = 0 := hleft
    refine ⟨if s.unknown ≠ 0 then .unknown else .ok, ?_, 1, ?_⟩
    · split <;> decide
    · rw [result, parseRound, if_pos (by omega), if_neg (not_not.mpr hzero)]
      rfl
  | cons e l ih =>
    have hat := h.head
    rw [encode_length_cons] at hleft
    have hshort : ¬ s.left - 2 < byteAt mem (s.pos + 1) := by
      rw [hat.len]
      omega
    have hfits := parse_fits (by omega) hshort
    rw [hat.field_eq, hat.len] at hfits
    obtain ⟨res, hres, hret⟩ := ih (s := s.add e.field e.data.length) h.tail
      (by dsimp only [ParseState.add]; omega)
    refine ⟨res, hres, ?_⟩
    rw [Returns.of_next (congrArg Round.next hfits)]
    exact hret

theorem recordAll_absent {l : List Elem} {f : ElemField} (start : ℕ) (elems : Elems)
    (h : ∀ e ∈ l, e.field ≠ some f) : recordAll l start elems f = elems f := by
  induction l generalizing start elems with
  | nil => rfl
  | cons e l ih =>
    rw [recordAll, ih _ _ fun e he => h e (List.mem_cons_of_mem _ he)]
    exact elems.record_other _ _ (h e List.mem_cons_self)

theorem recordAll_once {l : List Elem} {f : ElemField} (start : ℕ) (elems : Elems)
    (honce : (l.filter (·.field = some f)).length ≤ 1) (hnone : elems f = none) :
    recordAll l start elems f =
      (locate (·.field = some f) l start).map fun x => (x.1 + 2, x.2) := by
  induction l generalizing start elems with
  | nil => exact hnone
  | cons e l ih =>
    rw [recordAll, locate]
    by_cases hf : e.field = some f
    · rw [List.filter_cons, if_pos (decide_eq_true hf), List.length_cons] at honce
      have hnil : l.filter (·.field = some f) = [] := List.eq_nil_of_length_eq_zero (by omega)
      have hrest : ∀ e' ∈ l, e'.field ≠ some f := fun e' he' => by
        simpa using List.filter_eq_nil_iff.mp hnil e' he'
      rw [recordAll_absent _ _ hrest, if_pos (decide_eq_true hf), hf]
      exact Function.update_self _ _ _
    · rw [List.filter_cons, if_neg (by simpa using hf)] at honce
      rw [if_neg (by simpa using hf)]
      exact ih _ _ honce ((elems.record_other _ _ hf).trans hnone)

/-- The id, and the OUI and type behind it, of the elements that a pointer is for. WMM elements
of two subtypes share one. -/
def ElemField.key : ElemField → Option (ℕ × List UInt8)
  | .ssid => some (0, [])
  | .suppRates => some (1, [])
  | .fhParams => some (2, [])
  | .dsParams => some (3, [])
  | .cfParams => some (4, [])
  | .tim => some (5, [])
  | .ibssParams => some (6, [])
  | .challenge => some (16, [])
  | .erpInfo => some (42, [])
  | .extSuppRates => some (50, [])
  | .wpaIe => some (221, [0x00, 0x50, 0xf2, 1])
  | .wme => none
  | .wmeTspec => some (221, [0x00, 0x50, 0xf2, 2, 2])
  | .wpsIe => some (221, [0x00, 0x50, 0xf2, 4])
  | .vendorHtCap => some (221, [0x00, 0x90, 0x4c, 0x33])
  | .rsnIe => some (48, [])
  | .powerCap => some (33, [])
  | .suppChannels => some (36, [])
  | .mdie => some (54, [])
  | .ftie => some (55, [])
  | .timeoutInt => some (56, [])
  | .htCapabilities => some (45, [])
  | .htOperation => some (61, [])
  | .vhtCapabilities => some (191, [])
  | .vhtOperation => some (192, [])
  | .vhtOpModeNotify => some (199, [])
  | .rmEnCap => some (70, [])

theorem key_of_elemField {id : ℕ} {f : ElemField} (h : elemField id = some f) :
    f.key = some (id, []) := by
  unfold elemField at h
  split at h <;> cases h <;> rfl

theorem elemField_of_key {id : ℕ} {f : ElemField} (h : f.key = some (id, [])) :
    id ≠ 221 ∧ elemField id = some f := by
  cases f <;> cases h <;> exact ⟨by decide, rfl⟩

theorem cons_prefix_iff (x : UInt8) (o b : List UInt8) :
    x :: o <+: b ↔ 0 < b.length ∧ byteAt b 0 = x.toNat ∧ o <+: b.drop 1 := by
  cases b with
  | nil => simp
  | cons y b =>
    rw [List.cons_prefix_cons]
    change _ ↔ 0 < b.length + 1 ∧ y.toNat = x.toNat ∧ o <+: b
    rw [UInt8.toNat_inj]
    exact ⟨fun h => ⟨Nat.succ_pos _, h.1.symm, h.2⟩, fun h => ⟨h.2.1.symm, h.2.2⟩⟩

theorem vendorField_iff {b oui : List UInt8} {f : ElemField} (h : f.key = some (221, oui)) :
    vendorField b 0 b.length = some f ↔ oui <+: b := by
  have h0 := byteAt_lt b 0
  have h1 := byteAt_lt b 1
  have h2 := byteAt_lt b 2
  have hbe : be24 b 0 = 65536 * byteAt b 0 + (256 * byteAt b 1 + byteAt b 2) := rfl
  have hms : be24 b 0 = ouiMicrosoft ↔ byteAt b 0 = 0 ∧ byteAt b 1 = 0x50 ∧ byteAt b 2 = 0xf2 := by
    rw [hbe, ouiMicrosoft]
    omega
  have hbc : be24 b 0 = ouiBroadcom ↔ byteAt b 0 = 0 ∧ byteAt b 1 = 0x90 ∧ byteAt b 2 = 0x4c := by
    rw [hbe, ouiBroadcom]
    omega
  unfold vendorField
  simp only [hms, hbc, Nat.zero_add]
  clear hms hbc hbe h0 h1 h2
  cases f <;> cases h <;>
    simp only [cons_prefix_iff, List.nil_prefix, List.length_drop, List.drop_drop, byteAt_drop,
      UInt8.reduceToNat] <;>
    grind

theorem vendorField_key {b : List UInt8} {pos elen : ℕ} {f : ElemField}
    (h : vendorField b pos elen = some f) {id : ℕ} {oui : List UInt8}
    (hkey : f.key = some (id, oui)) : id = 221 := by
  unfold vendorField at h
  repeat' split at h
  all_goals cases h <;> cases hkey <;> rfl

theorem key_oui {f : ElemField} {id : ℕ} {oui : List UInt8} (h : f.key = some (id, oui))
    (hid : id ≠ 221) : oui = [] := by
  cases f <;> cases h <;> first | rfl | exact absurd rfl hid

theorem Elem.field_iff {f : ElemField} {id : ℕ} {oui : List UInt8} (h : f.key = some (id, oui))
    (e : Elem) : e.field = some f ↔ e.id.toNat = id ∧ oui <+: e.data := by
  rw [Elem.field]
  by_cases hvendor : e.id.toNat = 221
  · rw [if_pos hvendor]
    constructor
    · intro hf
      obtain rfl := vendorField_key hf h
      exact ⟨hvendor, (vendorField_iff h).mp hf⟩
    · rintro ⟨hid, hoff⟩
      rw [hvendor] at hid
      exact (vendorField_iff (hid ▸ h)).mpr hoff
  · rw [if_neg hvendor]
    constructor
    · intro hf
      have hkey := Option.some.inj (h.symm.trans (key_of_elemField hf))
      rw [Prod.mk.injEq] at hkey
      exact ⟨hkey.1.symm, hkey.2 ▸ List.nil_prefix⟩
    · rintro ⟨rfl, -⟩
      exact (elemField_of_key (key_oui h hvendor ▸ h)).2

/-! ## Both together -/

theorem holds_encode (l : List Elem) (rest : List UInt8) : Holds (encode l ++ rest) 0 l rest :=
  ⟨[], rfl, rfl⟩

theorem getIe_list {l : List Elem} (rest : List UInt8) (index : ℕ) {limit : Int32}
    (hlimit : limit.toInt = (encode l).length) :
    Returns (getIeRound (encode l ++ rest) index limit) none
      (locate (fun e => e.id.toNat = index) l 0) := by
  cases l with
  | nil =>
    have hzero : limit.toInt = 0 := hlimit
    have hdone : (getIeRound (encode [] ++ rest) index limit none).next = .inl none :=
      if_pos (by omega)
    exact returns_iff.mpr ⟨none, .start, hdone⟩
  | cons e l =>
    have hpos := encode_length_pos (List.cons_ne_nil e l)
    have hentry : (getIeRound (encode (e :: l) ++ rest) index limit none).next = .inr (some 0) :=
      if_neg (by omega)
    rw [Returns.of_next hentry]
    exact getIe_locates index (holds_encode (e :: l) rest) (List.cons_ne_nil e l) (by omega)

theorem getIeEx_list {l : List Elem} (rest : List UInt8) (eid : ℕ) (oui : Option (List UInt8))
    (ie ielen : Bool) {inLen : UInt32} (hlen : inLen.toNat = (encode l).length) :
    Returns (getIeExRound (encode l ++ rest) inLen eid oui ie ielen) none
        ((locate (wanted eid oui) l 0).map fun x => (x.1, x.2 + 2)) ↔ NoSpill eid oui l rest := by
  have hlocates := getIeEx_locates eid oui ie ielen (holds_encode l rest)
    (hlen.trans (Nat.zero_add _).symm)
  by_cases hzero : inLen = 0
  · have hdone : (getIeExRound (encode l ++ rest) inLen eid oui ie ielen none).next = .inl none :=
      if_pos hzero
    have hnil : l = [] := by
      by_contra hne
      have hpos := encode_length_pos hne
      rw [hzero] at hlen
      exact absurd hlen (Nat.ne_of_lt hpos)
    subst hnil
    exact iff_of_true (returns_iff.mpr ⟨none, .start, hdone⟩) fun pre e post hl =>
      absurd hl.symm (List.append_ne_nil_of_right_ne_nil _ (List.cons_ne_nil e post))
  · rw [Returns.of_next (if_neg hzero)]
    exact hlocates

theorem parse_list (l : List Elem) (rest : List UInt8) {f : ElemField} {id : ℕ}
    {oui : List UInt8} (hkey : f.key = some (id, oui))
    (honce : (l.filter (wanted id (some oui))).length ≤ 1) :
    ∃ elems res, res ≠ .failed ∧
      Returns (parseRound (encode l ++ rest)) { left := (encode l).length } (elems, res) ∧
      elems f = (locate (wanted id (some oui)) l 0).map fun x => (x.1 + 2, x.2) := by
  have hwanted : (fun e : Elem => decide (e.field = some f)) = wanted id (some oui) := by
    funext e
    rw [wanted]
    simp only [Elem.field_iff hkey, Option.mem_some_iff, forall_eq']
  obtain ⟨res, hres, hret⟩ := parse_records (s := { left := (encode l).length })
    (holds_encode l rest) rfl
  refine ⟨_, res, hres, hret, ?_⟩
  rw [← hwanted] at honce ⊢
  exact recordAll_once 0 _ honce rfl

/-- Both functions stay inside the limit if and only if each element that they come to has its
header inside, and the one they return is inside as a whole; `rtw_get_ie_ex` needs the bytes of
the OUI behind each header with the id as well. On a list of elements `rtw_get_ie` returns the
first with the id, `rtw_get_ie_ex` does so where no OUI is pieced together from the bytes behind
a short element, and what is there once is what the parser records. -/
theorem ie_lookup (pbuf : List UInt8) (index : ℕ) (limit : Int32) (inIe : List UInt8)
    (inLen : UInt32) (eid : ℕ) (oui : Option (List UInt8)) (ie ielen : Bool) (l : List Elem)
    (rest : List UInt8) :
    (InBounds (getIeRound pbuf index limit) limit.toInt.toNat (· + 2) ↔
        (1 ≤ limit.toInt → ∀ p, Item (ieNext pbuf) (IeStop pbuf index limit) 0 p →
          p + 2 ≤ limit.toInt.toNat ∧
            (byteAt pbuf p = index → ieNext pbuf p ≤ limit.toInt.toNat))) ∧
    (InBounds (getIeExRound inIe inLen eid oui ie ielen) inLen.toNat id ↔
        ∀ p, Item (exNext inIe) (ExStop inIe inLen eid oui) 0 p → p < inLen.toNat →
          ExFits inIe inLen.toNat eid oui p) ∧
    (limit.toInt = (encode l).length →
      Returns (getIeRound (encode l ++ rest) index limit) none
        (locate (fun e => e.id.toNat = index) l 0)) ∧
    (inLen.toNat = (encode l).length →
      (Returns (getIeExRound (encode l ++ rest) inLen eid oui ie ielen) none
        ((locate (wanted eid oui) l 0).map fun x => (x.1, x.2 + 2)) ↔
          NoSpill eid oui l rest)) ∧
    ∀ (f : ElemField) (id : ℕ) (oui : List UInt8), f.key = some (id, oui) →
      (l.filter (wanted id (some oui))).length ≤ 1 → ∃ elems res, res ≠ .failed ∧
        Returns (parseRound (encode l ++ rest)) { left := (encode l).length } (elems, res) ∧
        elems f = (locate (wanted id (some oui)) l 0).map fun x => (x.1 + 2, x.2) := by
  refine ⟨getIe_in_bounds, getIeEx_in_bounds, getIe_list rest index,
    getIeEx_list rest eid oui ie ielen, ?_⟩
  intro f id oui hkey honce
  exact parse_list l rest hkey honce

def elem (id : UInt8) (data : List UInt8) (fits : data.length < 256) : Elem := ⟨id, data, fits⟩

def twoElems : List Elem := [elem 0 [65] (by decide), elem 221 [0x00, 0x50, 0xf2, 1] (by decide)]

theorem ie_lookup_two :
    Returns (getIeRound (encode twoElems ++ []) 0 9) none (some (0, 1)) ∧
      (Returns (getIeExRound (encode twoElems ++ []) 9 221 (some [0x00, 0x50, 0xf2, 1]) false true)
        none (some (3, 6)) ↔ NoSpill 221 (some [0x00, 0x50, 0xf2, 1]) twoElems []) ∧
      ∃ elems res, res ≠ .failed ∧
        Returns (parseRound (encode twoElems ++ [])) { left := 9 } (elems, res) ∧
        elems .wpaIe = some (5, 4) :=
  have hlookup := (ie_lookup [] 0 9 [] 9 221 (some [0x00, 0x50, 0xf2, 1]) false true twoElems []).2.2
  ⟨hlookup.1 (by decide), hlookup.2.1 (by decide),
    hlookup.2.2 .wpaIe 221 [0x00, 0x50, 0xf2, 1] rfl (by decide)⟩

/-- A header of which one byte is there is read, an element that does not fit is returned, and an
OUI is found that no element has. -/
theorem ie_lookup_strays :
    ¬ InBounds (getIeRound [7, 1] 5 1) 1 (· + 2) ∧ ¬ InBounds (getIeRound [5, 9] 5 2) 2 (· + 2) ∧
      ¬ InBounds (getIeExRound [5, 9] 2 5 none false true) 2 id ∧
      Returns (getIeExRound (encode [elem 221 [7] (by decide), elem 3 [9] (by decide)]) 6 221
        (some [7, 3, 1]) false true) none (some (0, 3)) ∧
      ¬ ∃ e ∈ [elem 221 [7] (by decide), elem 3 [9] (by decide)],
        wanted 221 (some [7, 3, 1]) e = true :=
  ⟨fun h => absurd (h.1 2) (by decide), fun h => absurd (h.2 0 9 ⟨2, rfl⟩) (by decide),
    fun h => absurd (h.2 0 11 ⟨2, rfl⟩) (by decide), ⟨2, rfl⟩, by decide⟩

end Rtl8189.IeLookup
