import Rtl8189.AssocReq
import Rtl8189.CollectBss
import Rtl8189.ElemList

/-!
# Keys of a beacon

`rtw_get_bcn_keys` sums a beacon up in a record of fixed size. Some elements are taken from a
parse of all of them, which keeps the last of a kind, and some from a search for the first.
-/
namespace Rtl8189.BcnKeys

open AssocReq (Bits Wpa2Ie rtwGetWpaCipherSuite rtwParseWpa2Ie suites)

open BufferWalk IeLookup

open CollectBss (SurveyFrame)

inductive ChannelWidth where
  | w20
  | w40
  | w80
  deriving DecidableEq, Repr

inductive ChnlOffset where
  | dontCare
  | lower
  | upper
  deriving DecidableEq, Repr

inductive EncrypProtocol where
  | openSys
  | wep
  | wpa
  | wpa2
  deriving DecidableEq, Repr

structure Chbw where
  ch : ℕ
  bw : ChannelWidth
  offset : ChnlOffset
  deriving DecidableEq

structure Protection where
  encrypProtocol : EncrypProtocol := .openSys
  pairwiseCipher : Bits := 0
  groupCipher : Bits := 0
  akm : Bits := 0
  deriving DecidableEq

/-- A name of at most 32 bytes in a buffer of 32, behind which anything may stand. -/
structure Ssid where
  ssid : List UInt8
  ssidLen : ℕ
  size : ssid.length = 32
  fits : ssidLen ≤ 32
  deriving DecidableEq

/-- `beacon_keys`. The memory is cleared before it is filled in, so two of them have the same
bytes if and only if they have the same fields. -/
structure BeaconKeys extends Ssid, Chbw, Protection where
  protoCap : BitVec 8
  rateSet : List UInt8
  rateNum : ℕ
  deriving DecidableEq

namespace Ssid

def shown (s : Ssid) : List UInt8 := s.ssid.take s.ssidLen

/-- `is_hidden_ssid` -/
def Hidden (name : List UInt8) : Prop := ∀ b ∈ name, b = 0

instance (name : List UInt8) : Decidable (Hidden name) :=
  inferInstanceAs (Decidable (∀ b ∈ name, b = 0))

def ofName (name : List UInt8) (h : name.length ≤ 32) : Ssid where
  ssid := name ++ List.replicate (32 - name.length) 0
  ssidLen := name.length
  size := by
    rw [List.length_append, List.length_replicate]
    omega
  fits := h

/-- The first bytes of `cur` over those of `recv`. -/
def patch (recv cur : Ssid) : Ssid where
  ssid := putBytes recv.ssid 0 cur.shown
  ssidLen := cur.ssidLen
  size := by
    have hrecv := recv.size
    have hcur := cur.size
    simp only [putBytes, shown, List.take_zero, List.nil_append, List.length_append,
      List.length_take, List.length_drop]
    omega
  fits := cur.fits

def Clean (s : Ssid) : Prop := ∀ b ∈ s.ssid.drop s.ssidLen, b = 0

instance (s : Ssid) : Decidable s.Clean :=
  inferInstanceAs (Decidable (∀ b ∈ s.ssid.drop s.ssidLen, b = 0))

end Ssid

/-- What `_rtw_memset` leaves. -/
def zeroKeys : BeaconKeys where
  toSsid := .ofName [] (Nat.zero_le 32)
  toChbw := ⟨0, .w20, .dontCare⟩
  toProtection := {}
  protoCap := 0
  rateSet := List.replicate 12 0
  rateNum := 0

/-! ## Parsing -/

def rtwParseElems (ies : List UInt8) : Elems × ParseRes :=
  (result (parseRound ies) (ies.length + 1) { left := ies.length }).getD (fun _ => none, .failed)

section Elements

variable (ies : List UInt8)

/-- `rtw_get_ie` -/
def getIe (id : UInt8) : Option (ℕ × ℕ) := ElemList.rtwGetIe ies 0 id ies.length

def content (x : ℕ × ℕ) : List UInt8 := (ies.drop x.1).take x.2

def rateBytes (id : UInt8) : List UInt8 :=
  match getIe ies id with
  | none => []
  | some (p, n) => content ies (p + 2, n)

def supportRateTbl : List UInt8 := [2, 4, 11, 22, 12, 18, 24, 36, 48, 72, 96, 108]

def rtwIesGetSupportedRate : List UInt8 :=
  let rates := rateBytes ies 1 ++ rateBytes ies 50
  (supportRateTbl.filter fun r => rates.any fun p => p &&& 0x7f = r).map fun r =>
    if rates.any fun p => p &&& 0x7f = r ∧ p &&& 0x80 ≠ 0 then r ||| 0x80 else r

def isCck (rate : UInt8) : Bool := decide (rate &&& 0x7f ∈ [2, 4, 11, 22])

def protoCap11B : BitVec 8 := 1

def protoCap11G : BitVec 8 := 2

def protoCap11N : BitVec 8 := 4

def protoCap11AC : BitVec 8 := 8

def protoCapOf (rates : List UInt8) (elems : Elems) : BitVec 8 :=
  (if rates.all isCck then protoCap11B
    else if rates.any isCck then protoCap11B ||| protoCap11G
    else protoCap11G) |||
  (if (elems .htCapabilities).isSome ∧ (elems .htOperation).isSome then protoCap11N else 0) |||
  (if (elems .vhtCapabilities).isSome ∧ (elems .vhtOperation).isSome then protoCap11AC else 0)

def secondOffset : ℕ → ChnlOffset
  | 1 => .lower
  | 3 => .upper
  | _ => .dontCare

/-- What the HT operation element at `p` makes of the setting. -/
def htOperation (p dsCh : ℕ) (capBw : ChannelWidth) : Chbw :=
  let bw := if (byteAt ies (p + 3)).testBit 2 then capBw else .w20
  { ch := if dsCh = 0 then byteAt ies (p + 2) else dsCh
    bw := bw
    offset := if bw = .w40 then secondOffset (byteAt ies (p + 3) % 4) else .dontCare }

/-- `rtw_ies_get_chbw`. The VHT elements are not looked at in this build. -/
def rtwIesGetChbw : Chbw :=
  let dsCh := match getIe ies 3 with
    | some (p, n) => if 0 < n then byteAt ies (p + 2) else 0
    | none => 0
  let capBw := match getIe ies 45 with
    | some (p, n) => if n ≠ 0 ∧ (byteAt ies (p + 2)).testBit 1 then .w40 else .w20
    | none => .w20
  match getIe ies 61 with
  | some (p, n) => if n ≠ 0 then htOperation ies p dsCh capBw else ⟨dsCh, capBw, .dontCare⟩
  | none => ⟨dsCh, capBw, .dontCare⟩

end Elements

def wlanAkmType8021X : Bits := 1

/-- The AKM suite of `rtw_parse_wpa_ie`, from the group cipher on: only the first is looked at,
and only behind pairwise ciphers. -/
def wpaAkm (pos : List UInt8) : Bits :=
  let suite := pos.drop (4 + 2 + 4 * le16 pos 4)
  if 6 ≤ suite.length ∧ (suite.drop 2).take 4 = [0x00, 0x50, 0xf2, 1] then wlanAkmType8021X else 0

/-- The RSN element is looked at first, then the WPA element, then the capability. What an
element that cannot be parsed sets before it fails is kept. -/
def protectionOf (ies : List UInt8) (elems : Elems) (capability : ℕ) : Protection :=
  let rsn := ((elems .rsnIe).map (content ies)).getD []
  let wpa := ((elems .wpaIe).map (content ies)).getD []
  if rsn ≠ [] then
    match rtwParseWpa2Ie rsn with
    | some w => ⟨.wpa2, w.pairwiseCipher, w.groupCipher, w.akm⟩
    | none => { encrypProtocol := .wpa2 }
  else if wpa ≠ [] then
    let w := ConnectSettings.rtwParseWpaIe (wpa.drop 6)
    ⟨.wpa, w.pairwiseCipher, w.groupCipher, if w.ok then wpaAkm (wpa.drop 6) else 0⟩
  else if capability.testBit 4 then { encrypProtocol := .wep }
  else {}

def elemLengths : List (ElemField × ℕ) :=
  [(.htCapabilities, 26), (.htOperation, 22), (.vhtCapabilities, 12), (.vhtOperation, 5)]

def WrongLength (elems : Elems) : Prop := ∃ x ∈ elemLengths, ∃ e ∈ elems x.1, e.2 ≠ x.2

instance (elems : Elems) : Decidable (WrongLength elems) :=
  inferInstanceAs (Decidable (∃ x ∈ elemLengths, ∃ e ∈ elems x.1, e.2 ≠ x.2))

def beaconIes (f : SurveyFrame) : List UInt8 := f.bytes.drop 36

def fillKeys (f : SurveyFrame) (curChannel : ℕ) (elems : Elems) (name : List UInt8)
    (h : name.length ≤ 32) : BeaconKeys :=
  let ies := beaconIes f
  let rates := rtwIesGetSupportedRate ies
  let chbw := rtwIesGetChbw ies
  { toSsid := .ofName name h
    toChbw := if chbw.ch = 0 then { chbw with ch := curChannel } else chbw
    toProtection := protectionOf ies elems (le16 f.bytes 34)
    protoCap := protoCapOf rates elems
    rateSet := putBytes (List.replicate 12 0) 0 rates
    rateNum := rates.length }

/-- `rtw_get_bcn_keys` -/
def rtwGetBcnKeys (f : SurveyFrame) (curChannel : ℕ) : Option BeaconKeys :=
  let ies := beaconIes f
  let (elems, res) := rtwParseElems ies
  let name := ((elems .ssid).map (content ies)).getD []
  if res = .failed ∨ WrongLength elems ∨ rtwIesGetSupportedRate ies = [] then none
  else if h : name.length ≤ 32 then some (fillKeys f curChannel elems name h)
  else none

/-! ## What is read -/

theorem parse_ends (ies : List UInt8) :
    ∃ r, result (parseRound ies) (ies.length + 1) { left := ies.length } = some r := by
  refine result_of_measure (fun s => s.left) (fun s s' _ hnext => ?_) (Nat.lt_succ_self _)
  by_cases hleft : s.left < 2
  · rw [parseRound, if_pos hleft] at hnext
    cases hnext
  · by_cases hfit : s.left - 2 < byteAt ies (s.pos + 1)
    · rw [parseRound, if_neg hleft] at hnext
      dsimp only at hnext
      rw [if_pos hfit] at hnext
      cases hnext
    · rw [parse_fits hleft hfit] at hnext
      cases hnext
      dsimp only [ParseState.add]
      omega

theorem parseElems_returns (ies : List UInt8) :
    Returns (parseRound ies) { left := ies.length } (rtwParseElems ies) := by
  obtain ⟨r, hr⟩ := parse_ends ies
  refine ⟨ies.length + 1, ?_⟩
  rw [rtwParseElems, hr, Option.getD_some]

namespace Ssid

variable {s t : Ssid} {name : List UInt8}

@[simp] theorem shown_ofName (h : name.length ≤ 32) : (ofName name h).shown = name :=
  List.take_left

@[simp] theorem clean_ofName (h : name.length ≤ 32) : (ofName name h).Clean := by
  intro b hb
  rw [ofName, List.drop_left] at hb
  exact List.eq_of_mem_replicate hb

theorem length_shown : s.shown.length = s.ssidLen :=
  List.length_take_of_le (s.size ▸ s.fits)

theorem Clean.eq_ofName (h : s.Clean) : s = ofName s.shown (length_shown ▸ s.fits) := by
  have hzero : s.ssid.drop s.ssidLen = List.replicate (32 - s.shown.length) 0 := by
    rw [List.eq_replicate_iff, List.length_drop, s.size, length_shown]
    exact ⟨rfl, h⟩
  have hssid : s.ssid = s.shown ++ List.replicate (32 - s.shown.length) 0 := by
    rw [← hzero, shown, List.take_append_drop]
  have hlen : s.ssidLen = s.shown.length := length_shown.symm
  obtain ⟨ssid, ssidLen, size, fits⟩ := s
  simp only [ofName, mk.injEq]
  exact ⟨hssid, hlen⟩

theorem Clean.eq_iff (hs : s.Clean) (ht : t.Clean) : s = t ↔ s.shown = t.shown := by
  constructor
  · rintro rfl
    rfl
  · intro h
    rw [hs.eq_ofName, ht.eq_ofName]
    simp only [h]

theorem ssid_patch (recv cur : Ssid) :
    (recv.patch cur).ssid = cur.shown ++ recv.ssid.drop cur.ssidLen := by
  change putBytes recv.ssid 0 cur.shown = _
  rw [putBytes, List.take_zero, List.nil_append, Nat.zero_add, length_shown]

@[simp] theorem shown_patch (recv cur : Ssid) : (recv.patch cur).shown = cur.shown := by
  rw [shown, ssid_patch]
  exact List.take_left' length_shown

theorem Clean.patch {recv cur : Ssid} (hrecv : recv.Clean) (hhidden : Hidden recv.shown) :
    (recv.patch cur).Clean := by
  have hzero : ∀ b ∈ recv.ssid, b = 0 := by
    intro b hb
    rw [← List.take_append_drop recv.ssidLen recv.ssid, List.mem_append] at hb
    exact hb.elim (hhidden b) (hrecv b)
  have hbehind : (recv.patch cur).ssid.drop (recv.patch cur).ssidLen =
      recv.ssid.drop cur.ssidLen := by
    rw [ssid_patch]
    exact List.drop_left' length_shown
  intro b hb
  rw [hbehind] at hb
  exact hzero b (List.mem_of_mem_drop hb)

end Ssid

theorem keys_clean {f : SurveyFrame} {curChannel : ℕ} {k : BeaconKeys}
    (h : rtwGetBcnKeys f curChannel = some k) : k.toSsid.Clean := by
  simp only [rtwGetBcnKeys] at h
  split_ifs at h
  cases h
  exact Ssid.clean_ofName _

end Rtl8189.BcnKeys
