import Rtl8189.AttrWalk
import Rtl8189.ConnectSettings
import Rtl8189.IeSearch

/-!
# Collecting what a scan finds

`collect_bss_info` copies the body of a beacon, a probe response or a probe request, looks up
the elements one by one, and copies what they hold to the fields of the network.
-/
namespace Rtl8189.CollectBss

open AccessProg AccessTrace AttrWalk BlockModes BufferWalk IeLookup IeSearch

open ConnectSettings (maxIeSz)

/-- A frame from `rx_data` on; `pkt_len` is a `u16`. -/
structure SurveyFrame where
  bytes : List UInt8
  header : 24 ≤ bytes.length
  fits : bytes.length < 65536

/-- What else the function reads of the adapter: whether a dump is printed, whether the rate is
one of OFDM, and the number of paths, four at most. -/
structure Adapter where
  dumps : Bool
  ofdm : Bool
  numTotalRfPath : Fin 5
  curChannel : ℕ
  operCh : ℕ
  wifiSpec : Bool
  bwmodeUpdated : Bool

inductive BssType where
  | bcn
  | probRsp
  | probReq
  | undefined
  deriving DecidableEq, Repr

inductive InfrastructureMode where
  | ibss
  | infrastructure
  | mesh
  deriving DecidableEq, Repr

/-- `WLAN_BSSID_EX` without what is copied from the signal attributes. `fortyMhzIntolerant` is
what is counted for the coexistence of the bandwidths. -/
structure Bss where
  reserved : BssType
  ielength : ℕ
  ies : List UInt8
  ssid : List UInt8
  supportedRates : List UInt8
  dsConfig : ℕ
  beaconPeriod : ℕ := 0
  infrastructureMode : InfrastructureMode
  macAddress : List UInt8
  meshId : List UInt8 := []
  privacy : Bool
  fortyMhzIntolerant : Option Bool := none

/-- The frame, the `IEs` as they are read, and all that is written. -/
inductive Region where
  | frame
  | ies
  | iesStore
  | ssid
  | rates
  | meshId
  | listenCh
  | rxSnr
  deriving DecidableEq

namespace SurveyFrame

variable (f : SurveyFrame) (env : Adapter)

def len : ℕ := f.bytes.length - 24

def subtype : ℕ := byteAt f.bytes 0 &&& 0xfc

def wifiProbereq : ℕ := 0x40

def wifiProbersp : ℕ := 0x50

def wifiBeacon : ℕ := 0x80

def bssType : BssType :=
  if f.subtype = wifiBeacon then .bcn
  else if f.subtype = wifiProbersp then .probRsp
  else if f.subtype = wifiProbereq then .probReq
  else .undefined

/-- `ie_offset` -/
def ieOffset : ℕ :=
  match f.bssType with
  | .bcn | .probRsp | .undefined => 12
  | .probReq => 0

/-- `bssid->IEs`, all of it. -/
def ies : List UInt8 := f.bytes.drop 24 ++ List.replicate (maxIeSz - f.len) 0

def mem : Mem := fun i => f.ies.getD i 0

theorem ieOffset_le : f.ieOffset ≤ 12 := by
  unfold ieOffset
  cases f.bssType <;> decide

theorem len_lt : f.len < 65536 := Nat.lt_of_le_of_lt (Nat.sub_le _ _) f.fits

def search : Search := ⟨f.ies, f.ieOffset, f.len⟩

theorem small : f.search.Small := ⟨f.ieOffset_le, f.len_lt⟩

def getIe (id : ℕ) : Prog Region Ie := f.search.lookUp .ies id

def content (p n : ℕ) : List UInt8 := bytesAt f.mem (f.ieOffset + p + 2) n

def touchContent (p n : ℕ) : Prog Region Unit := .touch .ies (f.ieOffset + p + 2) n

def getAddr2 : List UInt8 := (f.bytes.drop 10).take 6

def getAddr3 : List UInt8 := (f.bytes.drop 16).take 6

def takeSsid : Prog Region (List UInt8) := do
  match ← f.getIe 0 with
  | none => .giveUp
  | some (p, n) =>
    if n = 0 then pure []
    else if 32 < n then .giveUp
    else
      f.touchContent p n
      .touch .ssid 0 n
      pure (f.content p n)

/-- `support_rate_ranges` -/
def supportRateRanges : List UInt8 := [2, 4, 11, 22, 12, 18, 24, 36, 48, 72, 96, 108]

def matchRanges (rate : UInt8) : Bool := decide (rate &&& 0x7f ∈ supportRateRanges)

def rtwValidateValue (rates : List UInt8) : Bool := rates.all matchRanges

/-- `rtw_validate_value` reads up to the first rate that it refuses. -/
def validateReads (rates : List UInt8) : ℕ := min (rates.findIdx (!matchRanges ·) + 1) rates.length

/-- What `rtw_absorb_ssid_ifneed` reads of the frame, to find the record that it may change. -/
def absorbSsidIfneed : Prog Region Unit := do
  .touch .frame 0 2
  .touch .frame 10 6

/-- The rates of an element, to `SupportedRates + i`. -/
def takeRates (id i : ℕ) : Prog Region (List UInt8) := do
  match ← f.getIe id with
  | none => pure []
  | some (p, n) =>
    if 16 - i < n then .giveUp
    else
      f.touchContent p (validateReads (f.content p n))
      if rtwValidateValue (f.content p n) then
        f.touchContent p n
        .touch .rates i n
        pure (f.content p n)
      else
        absorbSsidIfneed
        .touch .ies (f.ieOffset + p) (if env.dumps then n + 2 else 0)
        .giveUp

def p2pNext (cnt : ℕ) : ℕ := cnt + ((f.mem (cnt + 1)).toNat + 2)

def P2pMatch (cnt : ℕ) : Prop := f.mem cnt = 221 ∧ bytesAt f.mem (cnt + 2) 4 = p2pOui

instance (cnt : ℕ) : Decidable (f.P2pMatch cnt) := inferInstanceAs (Decidable (_ ∧ _))

/-- `rtw_get_p2p_ie`; `cnt` is `none` before it is set. -/
def p2pIeRound : Option ℕ → Round (Option ℕ) (Option ℕ)
  | none => ⟨[], if f.len = 0 then .inl none else .inr (some 0)⟩
  | some cnt =>
    if cnt + 1 + 4 < f.len then
      if maxIeSz ≤ cnt + 1 + 4 then ⟨[.bytes cnt 1], .inl none⟩
      else
        ⟨[.bytes cnt 1, .bytes (cnt + 2 : ℕ) (if f.mem cnt = 221 then 4 else 0),
            .bytes (cnt + 1 : ℕ) 1],
          if f.P2pMatch cnt then .inl (some cnt) else .inr (some (f.p2pNext cnt))⟩
    else ⟨[], .inl none⟩

def p2pIe : Prog Region (Option ℕ) := .walk .ies 0 f.p2pIeRound (f.len + 2) none

/-- `p2p_ielen` of the element at `c`. -/
def p2pIelen (c : ℕ) : ℕ := (f.mem (c + 1)).toNat + 2

def p2pAttrs (c : ℕ) : AttrPtr → Round AttrPtr Attr :=
  p2pRound (f.ies.drop c) (f.p2pIelen c) 6 false

/-- `attr_len - 3`, a `u32`. -/
def contentLen (attrLen : ℕ) : ℕ := (attrLen + 4294967296 - 3) % 4294967296

/-- `rtw_get_p2p_attr_content`, and `listen_ch[4]`. The search may not end. -/
def listenChannel (fuel c : ℕ) : Prog Region ℕ := do
  match ← .walk .ies c (f.p2pAttrs c) fuel none with
  | none => pure 0
  | some (q, attrLen) =>
    if attrLen = 0 then pure 0
    else
      .touch .ies (c + q + 3) (contentLen attrLen)
      .touch .listenCh 0 (contentLen attrLen)
      pure (if 4 < contentLen attrLen then (f.mem (c + q + 3 + 4)).toNat else 0)

/-- `DSConfig` of a probe request. -/
def probereqChannel (fuel : ℕ) : Prog Region ℕ := do
  match ← f.p2pIe with
  | none => pure env.curChannel
  | some c => f.listenChannel fuel c

def collectProbereq (fuel : ℕ) (bss : Bss) : Prog Region Bss := do
  let dsConfig ← f.probereqChannel env fuel
  .touch .frame 10 6
  pure { bss with
    dsConfig, infrastructureMode := .infrastructure, macAddress := f.getAddr2, privacy := true }

def dsConfig : Prog Region ℕ := do
  match ← f.getIe 3 with
  | some (p, _) =>
    f.touchContent p 1
    pure (f.mem (f.ieOffset + p + 2)).toNat
  | none =>
    match ← f.getIe 61 with
    | some (p, _) =>
      f.touchContent p 1
      pure (f.mem (f.ieOffset + p + 2)).toNat
    | none => pure env.operCh

def capability : ℕ := le16 f.ies 10

def checkMesh (meshId meshConf : Ie) : Prog Region (InfrastructureMode × List UInt8) := do
  match meshId with
  | none => if meshConf = none then pure (.ibss, []) else .giveUp
  | some (p, n) =>
    if 32 < n then .giveUp
    else
      f.touchContent p n
      .touch .meshId 0 n
      if meshConf.map Prod.snd = some 7 then pure (.mesh, f.content p n) else .giveUp

def takeMesh : Prog Region (InfrastructureMode × List UInt8) := do
  let meshId ← f.getIe 114
  let meshConf ← f.getIe 113
  f.checkMesh meshId meshConf

/-- The mode, the address and the mesh id. With both bits set they stay as they were cleared. -/
def takeMode : Prog Region (InfrastructureMode × List UInt8 × List UInt8) := do
  match f.capability % 4 with
  | 1 =>
    .touch .frame 10 6
    pure (.infrastructure, f.getAddr2, [])
  | 2 =>
    .touch .frame 16 6
    pure (.ibss, f.getAddr3, [])
  | 0 =>
    let (mode, meshId) ← f.takeMesh
    .touch .frame 16 6
    pure (mode, f.getAddr3, meshId)
  | _ => pure (.ibss, List.replicate 6 0, [])

/-- `BIT(14)` of the HT capabilities; `none` where there are none. -/
def htIntolerant : Prog Region (Option Bool) := do
  match ← f.getIe 45 with
  | none => pure none
  | some (p, n) =>
    if n = 0 then pure none
    else
      f.touchContent p 2
      pure (some ((f.mem (f.ieOffset + p + 3)).toNat.testBit 6))

def coexistence : Prog Region (Option Bool) :=
  if env.wifiSpec ∧ ¬ env.bwmodeUpdated then f.htIntolerant else pure none

def collectOther (bss : Bss) : Prog Region Bss := do
  if f.len < 12 then .giveUp
  else
    let dsConfig ← f.dsConfig env
    .touch .ies 8 2
    .touch .ies 10 2
    let (mode, mac, meshId) ← f.takeMode
    let intolerant ← f.coexistence env
    pure { bss with
      dsConfig, meshId, infrastructureMode := mode, macAddress := mac
      beaconPeriod := le16 f.ies 8, privacy := f.capability.testBit 4
      fortyMhzIntolerant := intolerant }

/-- The network after the rates, with the rest still cleared. -/
def surveyed (ssid rates extRates : List UInt8) : Bss where
  reserved := f.bssType
  ielength := f.len
  ies := f.ies
  ssid := ssid
  supportedRates := putBytes (putBytes (List.replicate 16 0) 0 rates) rates.length extRates
  dsConfig := 0
  infrastructureMode := .ibss
  macAddress := List.replicate 6 0
  privacy := false

def collectRest (fuel : ℕ) (bss : Bss) : Prog Region Bss :=
  if f.subtype = wifiProbereq then f.collectProbereq env fuel bss else f.collectOther env bss

/-- `collect_bss_info`; the fuel is for the search for the P2P attribute. -/
def collect (fuel : ℕ) : Prog Region Bss := do
  if maxIeSz < f.len then .giveUp
  else
    .touch .frame 0 2
    .touch .frame 24 f.len
    .touch .iesStore 0 f.len
    .touch .rxSnr 0 (if env.ofdm then env.numTotalRfPath else 0)
    let ssid ← f.takeSsid
    let rates ← f.takeRates env 1 0
    let extRates ← f.takeRates env 50 rates.length
    f.collectRest env fuel (f.surveyed ssid rates extRates)

end SurveyFrame

/-- The two readings of the copied buffer: what was copied, or all of `IEs`. -/
inductive IeBuffer where
  | copied
  | whole

def size (f : SurveyFrame) (buffer : IeBuffer) : Region → ℕ
  | .frame => f.bytes.length
  | .ies =>
    match buffer with
    | .copied => f.len
    | .whole => maxIeSz
  | .iesStore => maxIeSz
  | .ssid => 32
  | .rates => 16
  | .meshId => 32
  | .listenCh => 5
  | .rxSnr => 4

end Rtl8189.CollectBss
