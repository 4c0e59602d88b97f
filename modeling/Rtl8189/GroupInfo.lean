import Mathlib.Logic.Function.Basic
import Rtl8189.EventRun
import Rtl8189.RecvFrame

/-!
# The client list of a P2P group owner

An association request leaves what its Device Info attribute says in the record
of the station. Much later a probe response lists all associated P2P clients in
one Group Info attribute. A read outside the copied attribute or a field of the
station, or a write outside a buffer of `MAX_P2P_IE_LEN` bytes, ends a
computation with `none`.
-/
namespace Rtl8189.GroupInfo

open Rtl8189.EventRun

def fieldLen : ℕ := 32

def wpsAttrDeviceName : ℕ := 0x1011

def p2pAttrGroupInfo : UInt8 := 0x0E

def maxP2pIeLen : ℕ := 256

structure StaInfo where
  macAddr : MacAddr
  isP2pDevice : Bool := false
  devAddr : MacAddr := Vector.replicate 6 0
  devCap : UInt8 := 0
  configMethods : ℕ := 0
  primaryDevType : Vector UInt8 8 := Vector.replicate 8 0
  numOfSecdevType : UInt8 := 0
  secdevTypesList : Vector UInt8 fieldLen := Vector.replicate fieldLen 0
  devNameLen : ℕ := 0
  devName : Vector UInt8 fieldLen := Vector.replicate fieldLen 0
  devNameLen_le : devNameLen ≤ fieldLen := by decide

/-- `n` bytes from `i` on, all inside. -/
def read (src : List UInt8) (i n : ℕ) : Option (List UInt8) :=
  if i + n ≤ src.length then some ((src.drop i).take n) else none

def copyTo {n : ℕ} (field : Vector UInt8 n) (bs : List UInt8) : Vector UInt8 n :=
  Vector.ofFn fun i => bs.getD i field[i]

/-- What `process_assoc_req_p2p_ie` finds in one P2P element; `alloc` tells whether there was
memory for the copy of the Device Info attribute. -/
structure P2pIe where
  capability : Option UInt16
  deviceInfo : Option (List UInt8)
  alloc : Bool := true

namespace StaInfo

def processDeviceName (sta : StaInfo) (attr : List UInt8) (i : ℕ) : Option StaInfo := do
  let sta := { sta with devNameLen := 0, devNameLen_le := Nat.zero_le _ }
  let type ← read attr i 2
  if be16 type 0 = wpsAttrDeviceName then
    let nameLen ← read attr (i + 2) 2
    let name ← read attr (i + 4) (min fieldLen (be16 nameLen 0))
    return { sta with
      devNameLen := min fieldLen (be16 nameLen 0), devNameLen_le := Nat.min_le_left _ _
      devName := copyTo sta.devName name }
  else
    return sta

/-- The copy of the secondary device types is cut to the field, their number is not. -/
def processDeviceInfo (sta : StaInfo) (attr : List UInt8) : Option StaInfo := do
  let devAddr ← read attr 0 6
  let configMethods ← read attr 6 2
  let primaryDevType ← read attr 8 8
  let num ← attr[16]?
  let types ← read attr 17 (min fieldLen (num.toNat * 8))
  let sta := { sta with
    devAddr := copyTo sta.devAddr devAddr, configMethods := be16 configMethods 0
    primaryDevType := copyTo sta.primaryDevType primaryDevType, numOfSecdevType := num
    secdevTypesList := copyTo sta.secdevTypesList types }
  sta.processDeviceName attr (17 + num.toNat * 8)

def processCapability (sta : StaInfo) : Option UInt16 → StaInfo
  | some capAttr => { sta with devCap := capAttr.toUInt8 }
  | none => sta

def processP2pIe (sta : StaInfo) (ie : P2pIe) : Option StaInfo :=
  let sta := sta.processCapability ie.capability
  match ie.deviceInfo with
  | some attr => if ie.alloc then sta.processDeviceInfo attr else some sta
  | none => some sta

def processAssocReqP2pIe (sta : StaInfo) (ies : List P2pIe) : Option StaInfo :=
  ies.foldlM processP2pIe sta

end StaInfo

structure Cursor where
  buf : List UInt8
  pstart : ℕ
  pcur : ℕ
  attrLen : ℕ

namespace Cursor

def put (c : Cursor) (bs : List UInt8) : Option Cursor :=
  if c.pcur + bs.length ≤ maxP2pIeLen then
    some { c with buf := putBytes c.buf c.pcur bs, pcur := c.pcur + bs.length }
  else none

def putDevName (c : Cursor) (sta : StaInfo) : Option Cursor :=
  if sta.devNameLen > 0 then do
    let c ← c.put (be16Bytes wpsAttrDeviceName)
    let c ← c.put (be16Bytes sta.devNameLen)
    let name ← read sta.devName.toList 0 sta.devNameLen
    c.put name
  else some c

def closeDescriptor (c : Cursor) : Cursor :=
  let tmplen := UInt8.ofNat (c.pcur - c.pstart)
  { buf := putBytes c.buf c.pstart [tmplen - 1], pstart := c.pcur, pcur := c.pcur
    attrLen := (c.attrLen + tmplen.toNat) % 2 ^ 16 }

def putInfo (c : Cursor) (sta : StaInfo) : Option Cursor := do
  let c ← c.put sta.devAddr.toList
  let c ← c.put sta.macAddr.toList
  let c ← c.put [sta.devCap]
  let c ← c.put (be16Bytes sta.configMethods)
  let c ← c.put sta.primaryDevType.toList
  let c ← c.put [sta.numOfSecdevType]
  let types ← read sta.secdevTypesList.toList 0 (sta.numOfSecdevType.toNat * 8)
  let c ← c.put types
  c.putDevName sta

def addSta (c : Cursor) (sta : StaInfo) : Option Cursor :=
  if sta.isP2pDevice then
    ({ c with pcur := c.pcur + 1 }.putInfo sta).map closeDescriptor
  else some c

end Cursor

/-- The attribute, written behind `p2pielen` bytes of the element. -/
def rtwSetP2pAttrContent (p2pielen : ℕ) (attrId : UInt8) (data : List UInt8) :
    Option (List UInt8) :=
  if p2pielen + 3 + data.length ≤ maxP2pIeLen then
    some ([attrId, UInt8.ofNat data.length, UInt8.ofNat (data.length / 256)] ++ data)
  else none

def goAddGroupInfoAttr (alloc : Bool) (asocList : List StaInfo) (p2pielen : ℕ) :
    Option (List UInt8) :=
  if alloc then do
    let c ← asocList.foldlM Cursor.addSta ⟨List.replicate maxP2pIeLen 0, 0, 0, 0⟩
    if c.attrLen > 0 then
      let data ← read c.buf 0 c.attrLen
      rtwSetP2pAttrContent p2pielen p2pAttrGroupInfo data
    else some []
  else some []

section Attribute

theorem read_eq_some {src bs : List UInt8} {i n : ℕ} :
    read src i n = some bs ↔ i + n ≤ src.length ∧ bs = (src.drop i).take n := by
  rw [read]
  split
  · next h => exact ⟨fun hs => ⟨h, (Option.some.inj hs).symm⟩, fun hs => by rw [hs.2]⟩
  · next h => exact ⟨nofun, fun hs => absurd hs.1 h⟩

theorem read_isSome {src : List UInt8} {i n : ℕ} :
    (read src i n).isSome ↔ i + n ≤ src.length := by
  rw [read]
  split <;> simp_all

def Fits (attr : List UInt8) : Prop :=
  let i := 17 + byteAt attr 16 * 8
  i + 2 ≤ attr.length ∧ (be16 attr i = wpsAttrDeviceName →
    i + 4 + min fieldLen (be16 attr (i + 2)) ≤ attr.length)

instance (attr : List UInt8) : Decidable (Fits attr) := by
  unfold Fits
  infer_instance

theorem be16_read {src bs : List UInt8} {i : ℕ} (h : read src i 2 = some bs) :
    be16 bs 0 = be16 src i := by
  obtain ⟨hle, rfl⟩ := read_eq_some.1 h
  have hlen : ((src.drop i).take 2).length = 2 := by
    rw [List.length_take, List.length_drop]
    omega
  rw [← Nat.add_zero i, ← be16_drop, Nat.add_zero]
  conv_rhs => rw [← List.take_append_drop 2 (src.drop i)]
  rw [be16, be16, byteAt_append_left (by omega), byteAt_append_left (by omega)]

theorem processDeviceName_isSome (sta : StaInfo) (attr : List UInt8) (i : ℕ) :
    (sta.processDeviceName attr i).isSome ↔
      i + 2 ≤ attr.length ∧ (be16 attr i = wpsAttrDeviceName →
        i + 4 + min fieldLen (be16 attr (i + 2)) ≤ attr.length) := by
  rw [StaInfo.processDeviceName]
  cases htype : read attr i 2 with
  | none =>
    have hlt : ¬ i + 2 ≤ attr.length := fun hle => by
      have := read_isSome.2 hle
      rw [htype] at this
      cases this
    exact ⟨nofun, fun h => absurd h.1 hlt⟩
  | some type =>
    have hle : i + 2 ≤ attr.length := (read_eq_some.1 htype).1
    have htypeEq := be16_read htype
    rw [Option.bind_eq_bind, Option.bind_some, htypeEq]
    by_cases hname : be16 attr i = wpsAttrDeviceName
    · rw [if_pos hname]
      cases hlen : read attr (i + 2) 2 with
      | none =>
        have hlt : ¬ i + 2 + 2 ≤ attr.length := fun hle => by
          have := read_isSome.2 hle
          rw [hlen] at this
          cases this
        refine ⟨nofun, fun h => absurd (h.2 hname) (by omega)⟩
      | some nameLen =>
        rw [Option.bind_some, ← be16_read hlen]
        have hname' : (read attr (i + 4) (min fieldLen (be16 nameLen 0))).isSome ↔ _ :=
          read_isSome
        cases hread : read attr (i + 4) (min fieldLen (be16 nameLen 0)) with
        | none =>
          rw [hread] at hname'
          exact ⟨nofun, fun h => absurd (hname'.2 (h.2 hname)) nofun⟩
        | some name =>
          rw [hread] at hname'
          exact ⟨fun _ => ⟨hle, fun _ => hname'.1 rfl⟩, fun _ => rfl⟩
    · rw [if_neg hname]
      exact ⟨fun _ => ⟨hle, fun h => absurd h hname⟩, fun _ => rfl⟩

theorem processDeviceInfo_isSome (sta : StaInfo) (attr : List UInt8) :
    (sta.processDeviceInfo attr).isSome ↔ Fits attr := by
  have hnum : byteAt attr 16 = (attr.getD 16 0).toNat := rfl
  rw [StaInfo.processDeviceInfo, Fits]
  by_cases hlen : 17 ≤ attr.length
  · have hat : attr[16]? = some (attr.getD 16 0) := by
      rw [List.getD_eq_getElem?_getD, List.getElem?_eq_getElem (by omega)]
      rfl
    obtain ⟨da, hda⟩ := Option.isSome_iff_exists.1 (read_isSome.2 (by omega : 0 + 6 ≤ attr.length))
    obtain ⟨cm, hcm⟩ := Option.isSome_iff_exists.1 (read_isSome.2 (by omega : 6 + 2 ≤ attr.length))
    obtain ⟨pd, hpd⟩ := Option.isSome_iff_exists.1 (read_isSome.2 (by omega : 8 + 8 ≤ attr.length))
    rw [hda, hcm, hpd, hat]
    simp only [Option.bind_eq_bind, Option.bind_some]
    rw [← hnum]
    cases htypes : read attr 17 (min fieldLen (byteAt attr 16 * 8)) with
    | none =>
      refine ⟨nofun, fun h => ?_⟩
      have hle : 17 + min fieldLen (byteAt attr 16 * 8) ≤ attr.length := by omega
      have := read_isSome.2 hle
      rw [htypes] at this
      cases this
    | some types => exact processDeviceName_isSome _ attr _
  · refine ⟨fun h => ?_, fun h => absurd h.1 (by omega)⟩
    have hat : attr[16]? = none := List.getElem?_eq_none (by omega)
    rw [hat] at h
    cases hda : read attr 0 6 <;> cases hcm : read attr 6 2 <;> cases hpd : read attr 8 8 <;>
      rw [hda, hcm, hpd] at h <;> cases h

theorem processP2pIe_isSome (sta : StaInfo) (ie : P2pIe) :
    (sta.processP2pIe ie).isSome ↔ (ie.alloc = true → ∀ attr ∈ ie.deviceInfo, Fits attr) := by
  obtain ⟨capability, deviceInfo, alloc⟩ := ie
  cases deviceInfo with
  | none => exact ⟨fun _ _ _ h => absurd h nofun, fun _ => rfl⟩
  | some attr =>
    cases alloc with
    | false => exact ⟨fun _ h => absurd h nofun, fun _ => rfl⟩
    | true =>
      refine (processDeviceInfo_isSome _ attr).trans ⟨fun h _ a ha => ?_, fun h => h rfl attr rfl⟩
      obtain rfl : attr = a := Option.some.inj ha
      exact h

theorem processAssocReqP2pIe_isSome (sta : StaInfo) (ies : List P2pIe) :
    (sta.processAssocReqP2pIe ies).isSome ↔
      ∀ ie ∈ ies, ie.alloc = true → ∀ attr ∈ ie.deviceInfo, Fits attr := by
  rw [StaInfo.processAssocReqP2pIe]
  induction ies generalizing sta with
  | nil => exact ⟨fun _ _ h => absurd h List.not_mem_nil, fun _ => rfl⟩
  | cons ie ies ih =>
    rw [List.foldlM_cons, List.forall_mem_cons, ← processP2pIe_isSome sta ie]
    cases hie : sta.processP2pIe ie with
    | none => exact ⟨nofun, fun h => absurd h.1 nofun⟩
    | some sta' => exact (ih sta').trans ⟨fun h => ⟨rfl, h⟩, fun h => h.2⟩

end Attribute

section Descriptors

def clientInfo (sta : StaInfo) : List UInt8 :=
  sta.devAddr.toList ++ sta.macAddr.toList ++ [sta.devCap] ++ be16Bytes sta.configMethods ++
    sta.primaryDevType.toList ++ [sta.numOfSecdevType] ++
    sta.secdevTypesList.toList.take (sta.numOfSecdevType.toNat * 8) ++
    if sta.devNameLen > 0 then
      be16Bytes wpsAttrDeviceName ++ be16Bytes sta.devNameLen ++
        sta.devName.toList.take sta.devNameLen
    else []

def clientDescriptor (sta : StaInfo) : List UInt8 :=
  UInt8.ofNat (clientInfo sta).length :: clientInfo sta

def clients (asocList : List StaInfo) : List StaInfo := asocList.filter (·.isP2pDevice)

def descriptors (asocList : List StaInfo) : List UInt8 :=
  (clients asocList).flatMap clientDescriptor

namespace Cursor

/-- The cursor behind the bytes `p`, the rest of the buffer still zero. -/
def behind (p : List UInt8) (pstart attrLen : ℕ) : Cursor :=
  ⟨p ++ List.replicate (maxP2pIeLen - p.length) 0, pstart, p.length, attrLen⟩

theorem put_behind (p bs : List UInt8) (pstart attrLen : ℕ) :
    (behind p pstart attrLen).put bs =
      if p.length + bs.length ≤ maxP2pIeLen then some (behind (p ++ bs) pstart attrLen)
      else none := by
  rw [put]
  by_cases hle : p.length + bs.length ≤ maxP2pIeLen
  · have hsplit : List.replicate (maxP2pIeLen - p.length) (0 : UInt8) =
        List.replicate bs.length 0 ++ List.replicate (maxP2pIeLen - (p ++ bs).length) 0 := by
      rw [List.replicate_append_replicate, List.length_append]
      congr 1
      omega
    rw [if_pos hle, behind, if_pos hle, hsplit, ← List.append_assoc,
      putBytes_append _ _ _ (List.length_replicate).symm, behind, List.length_append]
  · rw [behind, if_neg hle, if_neg hle]

theorem put_put (p : List UInt8) {a b : List UInt8} (pstart attrLen : ℕ)
    {f : Cursor → Option Cursor} (hf : ∀ q, q.length ≤ maxP2pIeLen →
      f (behind q pstart attrLen) = (behind q pstart attrLen).put b) :
    ((behind p pstart attrLen).put a).bind f = (behind p pstart attrLen).put (a ++ b) := by
  rw [put_behind, put_behind, List.length_append]
  split
  · next hle =>
    rw [Option.bind_some, hf _ (by rw [List.length_append]; exact hle), put_behind,
      List.length_append, List.append_assoc, Nat.add_assoc]
  · rw [if_neg (by omega)]
    rfl

theorem put_none (p : List UInt8) {a : List UInt8} (pstart attrLen : ℕ)
    {f : Cursor → Option Cursor} (hf : ∀ q, f (behind q pstart attrLen) = none) :
    ((behind p pstart attrLen).put a).bind f = none := by
  rw [put_behind]
  split
  · rw [Option.bind_some, hf]
  · rfl

theorem putDevName_behind {p : List UInt8} (hp : p.length ≤ maxP2pIeLen) (pstart attrLen : ℕ)
    (sta : StaInfo) :
    (behind p pstart attrLen).putDevName sta = (behind p pstart attrLen).put
      (if sta.devNameLen > 0 then
        be16Bytes wpsAttrDeviceName ++ be16Bytes sta.devNameLen ++
          sta.devName.toList.take sta.devNameLen
      else []) := by
  rw [putDevName]
  by_cases hpos : sta.devNameLen > 0
  · have hread : read sta.devName.toList 0 sta.devNameLen =
        some (sta.devName.toList.take sta.devNameLen) := by
      refine read_eq_some.2 ⟨?_, rfl⟩
      rw [Nat.zero_add, Vector.length_toList]
      exact sta.devNameLen_le
    rw [if_pos hpos, if_pos hpos, hread, List.append_assoc]
    exact put_put p _ _ fun q _ => put_put q _ _ fun _ _ => rfl
  · rw [if_neg hpos, if_neg hpos, put, putBytes]
    have hle : (behind p pstart attrLen).pcur + 0 ≤ maxP2pIeLen := hp
    rw [List.length_nil, if_pos hle, Nat.add_zero, List.append_nil, List.take_append_drop]

theorem putInfo_behind (p : List UInt8) (pstart attrLen : ℕ) (sta : StaInfo) :
    (behind p pstart attrLen).putInfo sta =
      if sta.numOfSecdevType.toNat ≤ 4 then (behind p pstart attrLen).put (clientInfo sta)
      else none := by
  rw [putInfo]
  by_cases hnum : sta.numOfSecdevType.toNat ≤ 4
  · have hread : read sta.secdevTypesList.toList 0 (sta.numOfSecdevType.toNat * 8) =
        some (sta.secdevTypesList.toList.take (sta.numOfSecdevType.toNat * 8)) := by
      refine read_eq_some.2 ⟨?_, rfl⟩
      rw [Vector.length_toList, fieldLen]
      omega
    rw [if_pos hnum, hread]
    simp only [clientInfo, List.append_assoc]
    refine put_put p _ _ fun q _ => put_put q _ _ fun q _ => put_put q _ _ fun q _ =>
      put_put q _ _ fun q _ => put_put q _ _ fun q _ => put_put q _ _ fun q _ => ?_
    refine put_put q _ _ fun q hq => ?_
    rw [putDevName_behind hq, List.append_assoc]
  · have hread : read sta.secdevTypesList.toList 0 (sta.numOfSecdevType.toNat * 8) = none := by
      rw [read, if_neg]
      rw [Vector.length_toList, fieldLen]
      omega
    rw [if_neg hnum, hread]
    exact put_none p _ _ fun q => put_none q _ _ fun q => put_none q _ _ fun q =>
      put_none q _ _ fun q => put_none q _ _ fun q => put_none q _ _ fun q => rfl

theorem clientInfo_length {sta : StaInfo} (hnum : sta.numOfSecdevType.toNat ≤ 4) :
    (clientInfo sta).length < 255 := by
  have := sta.devNameLen_le
  simp only [clientInfo, List.length_append, List.length_take, Vector.length_toList, be16Bytes,
    List.length_cons, List.length_nil, fieldLen] at this ⊢
  split
  · simp only [List.length_append, List.length_take, List.length_cons, List.length_nil]
    omega
  · rw [List.length_nil]
    omega

theorem closeDescriptor_behind (p : List UInt8) {bs : List UInt8} (hbs : bs.length < 255)
    (attrLen : ℕ) :
    (behind (p ++ [0] ++ bs) p.length attrLen).closeDescriptor =
      behind (p ++ UInt8.ofNat bs.length :: bs) (p ++ UInt8.ofNat bs.length :: bs).length
        ((attrLen + (bs.length + 1)) % 2 ^ 16) := by
  have htmp : UInt8.ofNat (bs.length + 1) - 1 = UInt8.ofNat bs.length := by
    rw [UInt8.ofNat_add]
    exact UInt8.add_sub_cancel _ _
  have hnat : (UInt8.ofNat (bs.length + 1)).toNat = bs.length + 1 := by
    rw [UInt8.toNat_ofNat']
    exact Nat.mod_eq_of_lt (by omega)
  have hput : ∀ r, putBytes (p ++ [0] ++ r) p.length [UInt8.ofNat bs.length] =
      p ++ [UInt8.ofNat bs.length] ++ r := fun r => putBytes_append p [0] r rfl
  have hold : behind (p ++ [0] ++ bs) p.length attrLen =
      ⟨p ++ [0] ++ (bs ++ List.replicate (maxP2pIeLen - (p.length + (bs.length + 1))) 0),
        p.length, p.length + (bs.length + 1), attrLen⟩ := by
    have hlen : (p ++ [0] ++ bs).length = p.length + (bs.length + 1) := by
      simp only [List.length_append, List.length_singleton]
      omega
    rw [behind, hlen, List.append_assoc]
  simp only [hold, closeDescriptor, Nat.add_sub_cancel_left, htmp, hnat, hput]
  rw [behind, List.length_append, List.length_cons, List.append_assoc, List.append_assoc]
  rfl

/-- A client adds its descriptor, where its types are in the field and there is room. -/
theorem addSta_behind {p : List UInt8} (hp : p.length ≤ maxP2pIeLen) (attrLen : ℕ)
    {sta : StaInfo} (hp2p : sta.isP2pDevice = true) :
    (behind p p.length attrLen).addSta sta =
      if sta.numOfSecdevType.toNat ≤ 4 ∧
          p.length + (clientDescriptor sta).length ≤ maxP2pIeLen then
        some (behind (p ++ clientDescriptor sta) (p ++ clientDescriptor sta).length
          ((attrLen + (clientDescriptor sta).length) % 2 ^ 16))
      else none := by
  rw [addSta, if_pos hp2p]
  have hlen : (clientDescriptor sta).length = (clientInfo sta).length + 1 := List.length_cons
  by_cases hfull : p.length = maxP2pIeLen
  · have hput : Cursor.put { behind p p.length attrLen with pcur := p.length + 1 }
        sta.devAddr.toList = none := by
      rw [put, if_neg]
      change ¬ p.length + 1 + _ ≤ _
      rw [Vector.length_toList]
      omega
    have hpcur : (behind p p.length attrLen).pcur = p.length := rfl
    rw [hpcur, putInfo, hput, if_neg (by omega)]
    rfl
  have hskip : { behind p p.length attrLen with pcur := p.length + 1 } =
      behind (p ++ [0]) p.length attrLen := by
    have hrep : List.replicate (maxP2pIeLen - p.length) (0 : UInt8) =
        [0] ++ List.replicate (maxP2pIeLen - (p ++ [0]).length) 0 := by
      rw [← List.replicate_one, List.replicate_append_replicate, List.length_append,
        List.length_replicate]
      congr 1
      omega
    rw [behind, behind, hrep, List.append_assoc, List.length_append]
    rfl
  have hpcur : (behind p p.length attrLen).pcur = p.length := rfl
  rw [hpcur, hskip, putInfo_behind]
  by_cases hnum : sta.numOfSecdevType.toNat ≤ 4
  · have hzero : (p ++ [0]).length + (clientInfo sta).length =
        p.length + (clientDescriptor sta).length := by
      rw [List.length_append, hlen, List.length_singleton]
      omega
    rw [if_pos hnum, put_behind, hzero]
    by_cases hroom : p.length + (clientDescriptor sta).length ≤ maxP2pIeLen
    · have hsmall := clientInfo_length hnum
      rw [if_pos hroom, if_pos ⟨hnum, hroom⟩, Option.map_some, closeDescriptor_behind p hsmall,
        hlen]
      rfl
    · rw [if_neg hroom, if_neg fun h => hroom h.2]
      rfl
  · rw [if_neg hnum, if_neg fun h => hnum h.1]
    rfl

/-- All associated clients are listed, where their types are in the field and there is room. -/
theorem addStas_behind {p : List UInt8} (hp : p.length ≤ maxP2pIeLen) (asocList : List StaInfo) :
    asocList.foldlM addSta (behind p p.length p.length) =
      if (∀ sta ∈ clients asocList, sta.numOfSecdevType.toNat ≤ 4) ∧
          p.length + (descriptors asocList).length ≤ maxP2pIeLen then
        some (behind (p ++ descriptors asocList) (p ++ descriptors asocList).length
          (p ++ descriptors asocList).length)
      else none := by
  induction asocList generalizing p with
  | nil =>
    have hnil : descriptors [] = [] := rfl
    rw [hnil, List.append_nil, if_pos ⟨fun _ h => absurd h List.not_mem_nil, hp⟩]
    rfl
  | cons sta asocList ih =>
    rw [List.foldlM_cons]
    by_cases hp2p : sta.isP2pDevice = true
    · have hclients : clients (sta :: asocList) = sta :: clients asocList :=
        List.filter_cons_of_pos hp2p
      have hdesc : descriptors (sta :: asocList) =
          clientDescriptor sta ++ descriptors asocList := by
        rw [descriptors, hclients, List.flatMap_cons]
        rfl
      rw [addSta_behind hp p.length hp2p, hclients, hdesc]
      have happ : (clientDescriptor sta ++ descriptors asocList).length =
          (clientDescriptor sta).length + (descriptors asocList).length := List.length_append
      by_cases hone : sta.numOfSecdevType.toNat ≤ 4 ∧
          p.length + (clientDescriptor sta).length ≤ maxP2pIeLen
      · have hlen : (p ++ clientDescriptor sta).length ≤ maxP2pIeLen := by
          rw [List.length_append]
          exact hone.2
        have hmod : (p.length + (clientDescriptor sta).length) % 2 ^ 16 =
            (p ++ clientDescriptor sta).length := by
          rw [List.length_append, maxP2pIeLen] at *
          exact Nat.mod_eq_of_lt (by omega)
        rw [if_pos hone, hmod, Option.bind_eq_bind, Option.bind_some, ih hlen, List.append_assoc]
        refine if_congr ?_ rfl rfl
        rw [List.length_append, happ, Nat.add_assoc, List.forall_mem_cons, and_assoc]
        exact ⟨fun h => ⟨hone.1, h⟩, fun h => h.2⟩
      · rw [if_neg hone, if_neg fun h => hone ⟨h.1 sta List.mem_cons_self, by omega⟩]
        rfl
    · have hclients : clients (sta :: asocList) = clients asocList :=
        List.filter_cons_of_neg hp2p
      have hdesc : descriptors (sta :: asocList) = descriptors asocList := by
        rw [descriptors, hclients]
        rfl
      have hskip : (behind p p.length p.length).addSta sta = some (behind p p.length p.length) :=
        if_neg hp2p
      rw [hskip, Option.bind_eq_bind, Option.bind_some, ih hp, hclients, hdesc]

end Cursor

/-- The Group Info attribute as it should be, nothing without a client. -/
def groupInfoAttr (asocList : List StaInfo) : List UInt8 :=
  let data := descriptors asocList
  if clients asocList = [] then []
  else [p2pAttrGroupInfo, UInt8.ofNat data.length, UInt8.ofNat (data.length / 256)] ++ data

/-- All secondary device types of the clients were recorded, and the attribute has room behind
the element so far. -/
def Listable (asocList : List StaInfo) (p2pielen : ℕ) : Prop :=
  (∀ sta ∈ clients asocList, sta.numOfSecdevType.toNat ≤ 4) ∧
    (clients asocList ≠ [] → p2pielen + 3 + (descriptors asocList).length ≤ maxP2pIeLen)

instance (asocList : List StaInfo) (p2pielen : ℕ) : Decidable (Listable asocList p2pielen) := by
  unfold Listable
  infer_instance

theorem descriptors_pos {asocList : List StaInfo} (h : clients asocList ≠ []) :
    0 < (descriptors asocList).length := by
  cases hcl : clients asocList with
  | nil => exact absurd hcl h
  | cons sta stas =>
    rw [descriptors, hcl, List.flatMap_cons, clientDescriptor]
    exact Nat.succ_pos _

theorem goAddGroupInfoAttr_eq (asocList : List StaInfo) (p2pielen : ℕ) :
    goAddGroupInfoAttr true asocList p2pielen =
      if Listable asocList p2pielen then some (groupInfoAttr asocList) else none := by
  have hstart : (⟨List.replicate maxP2pIeLen 0, 0, 0, 0⟩ : Cursor) = Cursor.behind [] 0 0 := rfl
  have hall := Cursor.addStas_behind (p := []) (Nat.zero_le maxP2pIeLen) asocList
  rw [List.length_nil, Nat.zero_add, List.nil_append] at hall
  rw [goAddGroupInfoAttr, if_pos rfl, hstart, hall, groupInfoAttr]
  by_cases hnil : clients asocList = []
  · have hdesc : descriptors asocList = [] := by
      rw [descriptors, hnil]
      rfl
    have hnone : ∀ sta ∈ clients asocList, sta.numOfSecdevType.toNat ≤ 4 := by
      rw [hnil]
      exact fun _ h => absurd h List.not_mem_nil
    rw [if_pos ⟨hnone, by rw [hdesc]; exact Nat.zero_le _⟩, hdesc, if_pos hnil,
      if_pos ⟨hnone, fun h => absurd hnil h⟩]
    rfl
  · have hpos := descriptors_pos hnil
    by_cases hfits : (∀ sta ∈ clients asocList, sta.numOfSecdevType.toNat ≤ 4) ∧
        (descriptors asocList).length ≤ maxP2pIeLen
    · have hread : read (Cursor.behind (descriptors asocList) (descriptors asocList).length
          (descriptors asocList).length).buf 0 (descriptors asocList).length =
          some (descriptors asocList) := by
        refine read_eq_some.2 ⟨?_, ?_⟩
        · rw [Cursor.behind, List.length_append, Nat.zero_add]
          exact Nat.le_add_right _ _
        · rw [List.drop_zero, Cursor.behind, List.take_left]
      have hattrLen : (Cursor.behind (descriptors asocList) (descriptors asocList).length
          (descriptors asocList).length).attrLen = (descriptors asocList).length := rfl
      rw [if_pos hfits, Option.bind_eq_bind, Option.bind_some, hattrLen, if_pos hpos, hread,
        Option.bind_eq_bind, Option.bind_some, rtwSetP2pAttrContent, if_neg hnil]
      refine if_congr ?_ rfl rfl
      exact ⟨fun h => ⟨hfits.1, fun _ => h⟩, fun h => h.2 hnil⟩
    · rw [if_neg hfits, if_neg fun h => hfits ⟨h.1, by have := h.2 hnil; omega⟩]
      rfl

end Descriptors

structure ApState where
  sta : MacAddr → Option StaInfo
  asocList : List MacAddr

inductive Event where
  | allocStainfo (mac : MacAddr)
  | onAssocReq (mac : MacAddr) (ies : List P2pIe) (success : Bool)
  | freeStainfo (mac : MacAddr)

namespace ApState

def init : ApState := ⟨fun _ => none, []⟩

def asocStas (s : ApState) : List StaInfo := s.asocList.filterMap s.sta

/-- A new record is zero; an association request without a P2P element is not from a P2P
client, and leaves the rest of the record. -/
def step (s : ApState) : Event → Option ApState
  | .allocStainfo mac =>
    match s.sta mac with
    | none => some { s with sta := Function.update s.sta mac (some { macAddr := mac }) }
    | some _ => some s
  | .onAssocReq mac ies success =>
    match s.sta mac with
    | none => some s
    | some sta => ({ sta with isP2pDevice := !ies.isEmpty }.processAssocReqP2pIe ies).map fun sta =>
      { sta := Function.update s.sta mac (some sta)
        asocList := if success ∧ mac ∉ s.asocList then s.asocList ++ [mac] else s.asocList }
  | .freeStainfo mac => some
    { sta := Function.update s.sta mac none, asocList := s.asocList.filter (· ≠ mac) }

end ApState

def onEvent (o : Option ApState) (e : Event) : Option ApState := o.bind (·.step e)

/-- Every Device Info attribute copied holds what its own counts announce. -/
def AttrsFit (o : Option ApState) : Event → Prop
  | .onAssocReq mac ies _ => ∀ s ∈ o, (s.sta mac).isSome →
    ∀ ie ∈ ies, ie.alloc = true → ∀ attr ∈ ie.deviceInfo, Fits attr
  | _ => True

/-- All reads and writes of the run and of the listing behind it are inside, and the attribute
has one descriptor for each associated client, in the order of the list and of correct length. -/
def Sound (es : List Event) (p2pielen : ℕ) : Prop :=
  ∃ s, run onEvent (some ApState.init) es = some s ∧
    goAddGroupInfoAttr true s.asocStas p2pielen = some (groupInfoAttr s.asocStas) ∧
    s.asocStas.map (·.macAddr) = s.asocList ∧ s.asocList.Nodup ∧
    ∀ sta ∈ clients s.asocStas, (UInt8.ofNat (clientInfo sta).length).toNat =
      (clientInfo sta).length

section Run

theorem processDeviceName_macAddr {sta sta' : StaInfo} {attr : List UInt8} {i : ℕ}
    (h : sta.processDeviceName attr i = some sta') : sta'.macAddr = sta.macAddr := by
  rw [StaInfo.processDeviceName] at h
  obtain ⟨type, -, h⟩ := Option.bind_eq_some_iff.1 h
  split at h
  · obtain ⟨nameLen, -, h⟩ := Option.bind_eq_some_iff.1 h
    obtain ⟨name, -, h⟩ := Option.bind_eq_some_iff.1 h
    cases h
    rfl
  · cases h
    rfl

theorem processDeviceInfo_macAddr {sta sta' : StaInfo} {attr : List UInt8}
    (h : sta.processDeviceInfo attr = some sta') : sta'.macAddr = sta.macAddr := by
  rw [StaInfo.processDeviceInfo] at h
  obtain ⟨devAddr, -, h⟩ := Option.bind_eq_some_iff.1 h
  obtain ⟨configMethods, -, h⟩ := Option.bind_eq_some_iff.1 h
  obtain ⟨primaryDevType, -, h⟩ := Option.bind_eq_some_iff.1 h
  obtain ⟨num, -, h⟩ := Option.bind_eq_some_iff.1 h
  obtain ⟨types, -, h⟩ := Option.bind_eq_some_iff.1 h
  have hmac := processDeviceName_macAddr h
  exact hmac

theorem processP2pIe_macAddr {sta sta' : StaInfo} {ie : P2pIe}
    (h : sta.processP2pIe ie = some sta') : sta'.macAddr = sta.macAddr := by
  obtain ⟨capability, deviceInfo, alloc⟩ := ie
  have hcap : (sta.processCapability capability).macAddr = sta.macAddr := by
    cases capability <;> rfl
  refine .trans ?_ hcap
  cases deviceInfo with
  | none =>
    have heq : sta.processCapability capability = sta' := Option.some.inj h
    rw [heq]
  | some attr =>
    cases alloc with
    | false =>
      have heq : sta.processCapability capability = sta' := Option.some.inj h
      rw [heq]
    | true => exact processDeviceInfo_macAddr h

theorem processAssocReqP2pIe_macAddr {sta sta' : StaInfo} {ies : List P2pIe}
    (h : sta.processAssocReqP2pIe ies = some sta') : sta'.macAddr = sta.macAddr := by
  rw [StaInfo.processAssocReqP2pIe] at h
  induction ies generalizing sta with
  | nil =>
    cases h
    rfl
  | cons ie ies ih =>
    obtain ⟨mid, hie, hrest⟩ := Option.bind_eq_some_iff.1 h
    exact (ih hrest).trans (processP2pIe_macAddr hie)

/-- The list names stations that have their own record, each once. -/
structure Recorded (s : ApState) : Prop where
  own : ∀ mac sta, s.sta mac = some sta → sta.macAddr = mac
  allocated : ∀ mac ∈ s.asocList, (s.sta mac).isSome
  nodup : s.asocList.Nodup

theorem Recorded.update {s : ApState} (h : Recorded s) {mac : MacAddr} {sta : StaInfo}
    (hmac : sta.macAddr = mac) {asocList : List MacAddr}
    (hlist : ∀ m ∈ asocList, m = mac ∨ m ∈ s.asocList) (hnodup : asocList.Nodup) :
    Recorded ⟨Function.update s.sta mac (some sta), asocList⟩ := by
  refine ⟨fun m sta' hm => ?_, fun m hm => ?_, hnodup⟩
  · change Function.update s.sta mac (some sta) m = some sta' at hm
    by_cases hmm : m = mac
    · rw [hmm, Function.update_self] at hm
      obtain rfl := Option.some.inj hm
      exact hmac.trans hmm.symm
    · rw [Function.update_of_ne hmm] at hm
      exact h.own m sta' hm
  · change (Function.update s.sta mac (some sta) m).isSome
    by_cases hmm : m = mac
    · rw [hmm, Function.update_self]
      rfl
    · rw [Function.update_of_ne hmm]
      exact h.allocated m ((hlist m hm).resolve_left hmm)

theorem Recorded.step {s s' : ApState} (h : Recorded s) {e : Event} (hs : s.step e = some s') :
    Recorded s' := by
  cases e with
  | allocStainfo mac =>
    cases hsta : s.sta mac with
    | none =>
      simp only [ApState.step, hsta, Option.some.injEq] at hs
      subst hs
      have hmac : ({ macAddr := mac } : StaInfo).macAddr = mac := rfl
      exact h.update hmac (fun m hm => .inr hm) h.nodup
    | some sta =>
      simp only [ApState.step, hsta, Option.some.injEq] at hs
      subst hs
      exact h
  | onAssocReq mac ies success =>
    cases hsta : s.sta mac with
    | none =>
      simp only [ApState.step, hsta, Option.some.injEq] at hs
      subst hs
      exact h
    | some sta =>
      simp only [ApState.step, hsta, Option.map_eq_some_iff] at hs
      obtain ⟨sta', hproc, rfl⟩ := hs
      refine h.update ((processAssocReqP2pIe_macAddr hproc).trans (h.own mac sta hsta)) ?_ ?_
      · intro m hm
        split at hm
        · rcases List.mem_append.1 hm with hold | hnew
          · exact .inr hold
          · exact .inl (List.mem_singleton.1 hnew)
        · exact .inr hm
      · split
        · next hnew => exact List.nodup_append.2 ⟨h.nodup, List.pairwise_singleton _ mac,
            fun a ha b hb => by
              rw [List.mem_singleton.1 hb]
              rintro rfl
              exact hnew.2 ha⟩
        · exact h.nodup
  | freeStainfo mac =>
    simp only [ApState.step, Option.some.injEq] at hs
    subst hs
    refine ⟨fun m sta hm => ?_, fun m hm => ?_, h.nodup.filter _⟩
    · change Function.update s.sta mac none m = some sta at hm
      by_cases hmm : m = mac
      · rw [hmm, Function.update_self] at hm
        cases hm
      · rw [Function.update_of_ne hmm] at hm
        exact h.own m sta hm
    · obtain ⟨hin, hne⟩ := List.mem_filter.1 hm
      change (Function.update s.sta mac none m).isSome
      rw [Function.update_of_ne (by simpa using hne)]
      exact h.allocated m hin

theorem Recorded.asocStas {s : ApState} (h : Recorded s) :
    s.asocStas.map (·.macAddr) = s.asocList := by
  have hall : ∀ l : List MacAddr, (∀ mac ∈ l, (s.sta mac).isSome) →
      (l.filterMap s.sta).map (·.macAddr) = l := by
    intro l hl
    induction l with
    | nil => rfl
    | cons mac l ih =>
      obtain ⟨hmac, hrest⟩ := List.forall_mem_cons.1 hl
      obtain ⟨sta, hsta⟩ := Option.isSome_iff_exists.1 hmac
      rw [List.filterMap_cons_some hsta, List.map_cons, ih hrest, h.own mac sta hsta]
  exact hall s.asocList h.allocated

theorem step_isSome (s : ApState) (e : Event) :
    (s.step e).isSome ↔ AttrsFit (some s) e := by
  cases e with
  | allocStainfo mac =>
    refine ⟨fun _ => trivial, fun _ => ?_⟩
    cases hsta : s.sta mac <;> simp only [ApState.step, hsta] <;> rfl
  | onAssocReq mac ies success =>
    cases hsta : s.sta mac with
    | none =>
      simp only [ApState.step, hsta]
      refine ⟨fun _ t ht hmac => ?_, fun _ => rfl⟩
      obtain rfl : s = t := Option.some.inj ht
      rw [hsta] at hmac
      cases hmac
    | some sta =>
      simp only [ApState.step, hsta, Option.isSome_map, processAssocReqP2pIe_isSome]
      refine ⟨fun h t ht _ => h, fun h => h s rfl ?_⟩
      rw [hsta]
      rfl
  | freeStainfo mac => exact ⟨fun _ => trivial, fun _ => rfl⟩

theorem onEvent_none (es : List Event) : run onEvent none es = none := by
  induction es with
  | nil => rfl
  | cons e es ih => exact ih

theorem run_isSome (s : ApState) (es : List Event) :
    (run onEvent (some s) es).isSome ↔ Along onEvent AttrsFit (some s) es := by
  induction es generalizing s with
  | nil => exact ⟨fun _ => trivial, fun _ => rfl⟩
  | cons e es ih =>
    rw [run_cons, Along, ← step_isSome, onEvent, Option.bind_some]
    cases hstep : s.step e with
    | none =>
      rw [onEvent_none]
      exact ⟨nofun, fun h => h.1⟩
    | some s' => exact (ih s').trans ⟨fun h => ⟨rfl, h⟩, fun h => h.2⟩

theorem run_recorded {s s' : ApState} (h : Recorded s) {es : List Event}
    (hrun : run onEvent (some s) es = some s') : Recorded s' := by
  induction es generalizing s with
  | nil =>
    cases hrun
    exact h
  | cons e es ih =>
    rw [run_cons, onEvent, Option.bind_some] at hrun
    cases hstep : s.step e with
    | none =>
      rw [hstep, onEvent_none] at hrun
      cases hrun
    | some mid =>
      rw [hstep] at hrun
      exact ih (h.step hstep) hrun

theorem init_recorded : Recorded ApState.init :=
  ⟨nofun, nofun, List.nodup_nil⟩

/-- The listing is sound if and only if every attribute copied is as long as its counts say, and
at the end no client has announced more types than are recorded and the listing has room. -/
theorem group_info_sound (es : List Event) (p2pielen : ℕ) :
    Sound es p2pielen ↔ Along onEvent AttrsFit (some ApState.init) es ∧
      ∀ s, run onEvent (some ApState.init) es = some s → Listable s.asocStas p2pielen := by
  rw [← run_isSome]
  constructor
  · rintro ⟨s, hrun, hgo, -⟩
    rw [hrun]
    refine ⟨rfl, fun t ht => ?_⟩
    obtain rfl : s = t := Option.some.inj ht
    by_contra hnot
    rw [goAddGroupInfoAttr_eq, if_neg hnot] at hgo
    cases hgo
  · rintro ⟨hsome, hlist⟩
    obtain ⟨s, hrun⟩ := Option.isSome_iff_exists.1 hsome
    have hlistable := hlist s hrun
    have hrec := run_recorded init_recorded hrun
    refine ⟨s, hrun, ?_, hrec.asocStas, hrec.nodup, fun sta hsta => ?_⟩
    · rw [goAddGroupInfoAttr_eq, if_pos hlistable]
    · have := Cursor.clientInfo_length (hlistable.1 sta hsta)
      rw [UInt8.toNat_ofNat']
      exact Nat.mod_eq_of_lt (by omega)

theorem not_sound {es : List Event} {p2pielen : ℕ}
    (h : ((run onEvent (some ApState.init) es).bind fun s =>
      goAddGroupInfoAttr true s.asocStas p2pielen) = none) : ¬ Sound es p2pielen := by
  rintro ⟨s, hrun, hgo, -⟩
  rw [hrun, Option.bind_some, hgo] at h
  cases h

end Run

/-- Association of a station whose Device Info attribute has `num` secondary types and no
name. -/
def joins (last num : UInt8) : List Event :=
  let mac : MacAddr := macOf 2 0 0 0 0 last
  [.allocStainfo mac, .onAssocReq mac
    [⟨some 0x25, some (List.replicate 16 0 ++ num :: List.replicate (num.toNat * 8 + 2) 0), true⟩]
    true]

/-- An empty Device Info attribute, one with five secondary types, and eleven clients that
announce nothing. -/
theorem unsound_runs :
    ¬ Sound [.allocStainfo #v[2, 0, 0, 0, 0, 1],
      .onAssocReq #v[2, 0, 0, 0, 0, 1] [⟨none, some [], true⟩] true] 0 ∧
    ¬ Sound (joins 1 5) 0 ∧
    ¬ Sound ((List.range 11).flatMap fun i => joins (UInt8.ofNat i) 0) 0 :=
  ⟨not_sound (by decide +kernel), not_sound (by decide +kernel), not_sound (by decide +kernel)⟩

end Rtl8189.GroupInfo
