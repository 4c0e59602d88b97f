import Rtl8189.AttrCopy
import Rtl8189.P2pMerge

/-!
# Handlers of P2P attributes

The handlers of the group owner negotiation, of an invitation request and of the notice of absence
in a beacon. A handler settles when it ends and each copy is in its buffer.
-/
namespace Rtl8189.P2pHandlers

open AccessProg AttrCopy ChannelList ElemList GoNego IeLookup

def ChangesChannel (role : Role) (operatingChannel : ℕ) (incl : List ℕ) : Prop :=
  incl ≠ [] ∧ role = .go ∧ operatingChannel ∉ incl

instance (role : Role) (operatingChannel : ℕ) (incl : List ℕ) :
    Decidable (ChangesChannel role operatingChannel incl) :=
  inferInstanceAs (Decidable (_ ∧ _))

def operatingChOf (ie : Attrs) : UInt8 := ((ie attrOperatingCh).getD []).getD 4 0

/-- `operatingch_info` is read only for a change of the channel. -/
def copyOperatingCh (role : Role) (operatingChannel : ℕ) (incl : List ℕ) (ie : Attrs) :
    Prog Dest Unit :=
  if ChangesChannel role operatingChannel incl then
    copyTo .operatingchInfo (ie attrOperatingCh)
  else pure ()

theorem settles_copyOperatingCh_bind {role : Role} {operatingChannel : ℕ} {incl : List ℕ}
    {ie : Attrs} {α : Type} {f : Unit → Prog Dest α} {a : α} :
    (copyOperatingCh role operatingChannel incl ie >>= f).Settles Dest.size a ↔
      (ChangesChannel role operatingChannel incl → AtMost 5 (ie attrOperatingCh)) ∧
        (f ()).Settles Dest.size a := by
  rw [copyOperatingCh]
  by_cases h : ChangesChannel role operatingChannel incl
  · rw [if_pos h, settles_copyTo_bind]
    exact and_congr ⟨fun hle _ => hle, fun hle => hle h⟩ Iff.rfl
  · rw [if_neg h, Prog.settles_bind]
    constructor
    · rintro ⟨u, -, hf⟩
      exact ⟨fun hc => absurd hc h, hf⟩
    · rintro ⟨-, hf⟩
      exact ⟨(), Prog.settles_pure.mpr rfl, hf⟩

/-! ## The request -/

section Request

def readAttrs (r : Device × NegoStatus) (ie : Attrs) : Device × NegoStatus :=
  let w := ({ r.1 with state := .gonegoIng }).readIntent r.2 (ie attrGoIntent)
  ((w.1.readListenCh (ie attrListenCh)).readIfAddr (ie attrIntendedIfAddr), w.2)

/-- Without a common channel the loop over the elements ends. -/
def settleChannel (r : Device × NegoStatus) (ie : Attrs) (incl : List ℕ) :
    Device × NegoStatus ⊕ Device × NegoStatus :=
  if incl = [] then .inl ({ r.1 with state := .gonegoFail }, .failNoCommonCh)
  else .inr (r.1.takeChannel incl (operatingChOf ie).toNat, r.2)

def reqChannels (r : Device × NegoStatus) (ie : Attrs) (incl : List ℕ) :
    Prog Dest (Device × NegoStatus ⊕ Device × NegoStatus) := do
  copyOperatingCh r.1.role r.1.operatingChannel incl ie
  pure (settleChannel r ie incl)

def reqIe (n : ℕ) (r : Device × NegoStatus) (ie : Attrs) :
    Prog Dest (Device × NegoStatus ⊕ Device × NegoStatus) := do
  copyTo .capAttr (ie attrCapability)
  copyTo .attrContent (ie attrGoIntent)
  copyTo .listenChAttr (ie attrListenCh)
  copyTo .p2pPeerInterfaceAddr (ie attrIntendedIfAddr)
  copyTo .chContent (ie attrChList)
  match ie attrChList with
  | none => pure (.inr (readAttrs r ie))
  | some content =>
    commonChannels n r.1.channelSet content (List.replicate (100 - content.length) 0) >>=
      reqChannels (readAttrs r ie) ie

/-- `process_p2p_group_negotation_req`, of whether there is a WPS element. -/
def processP2pGroupNegotationReq (n : ℕ) (w : Device) (wpsIe : Bool)
    (f : Body publicActionIeOffset) : Prog Dest (Device × NegoStatus) :=
  if wpsIe = false then pure ({ w with state := .gonegoFail }, .failIncompatibleParam)
  else
    .forEach (reqIe n)
        (if f.p2pIes = [] then ({ w with state := .gonegoFail }, .failIncompatibleParam)
          else (w, .success)) f.attrs >>= fun r =>
      pure
        (if r.1.uiGotWpsInfo = false then
          ({ r.1 with state := .txInforNoready }, .failInfoUnavailable)
        else r)

/-- The attributes of an element fit, and its channel list is one. -/
structure ReqFits (r : Device × NegoStatus) (ie : Attrs) : Prop where
  capability : AtMost 2 (ie attrCapability)
  goIntent : AtMost 1 (ie attrGoIntent)
  listenCh : AtMost 5 (ie attrListenCh)
  intendedIfAddr : AtMost 6 (ie attrIntendedIfAddr)
  chList : AtMost 100 (ie attrChList)
  channels : ∀ content ∈ ie attrChList, ∃ incl, common r.1.channelSet content = some incl ∧
    (ChangesChannel (readAttrs r ie).1.role (readAttrs r ie).1.operatingChannel incl →
      AtMost 5 (ie attrOperatingCh))

def reqNext (r : Device × NegoStatus) (ie : Attrs) : Device × NegoStatus ⊕ Device × NegoStatus :=
  match ie attrChList with
  | none => .inr (readAttrs r ie)
  | some content =>
    settleChannel (readAttrs r ie) ie ((common r.1.channelSet content).getD [])

variable {r : Device × NegoStatus} {ie : Attrs}

theorem reqIe_settles {n : ℕ} {out : Device × NegoStatus ⊕ Device × NegoStatus}
    (h : (reqIe n r ie).Settles Dest.size out) : ReqFits r ie ∧ out = reqNext r ie := by
  rw [reqIe] at h
  simp only [settles_copyTo_bind] at h
  obtain ⟨hcap, hintent, hlisten, haddr, hlist, h⟩ := h
  cases hcontent : ie attrChList with
  | none =>
    rw [hcontent] at h
    refine ⟨⟨hcap, hintent, hlisten, haddr, hlist, ?_⟩, ?_⟩
    · rw [hcontent]
      exact nofun
    · rw [reqNext, hcontent]
      exact Prog.settles_pure.mp h
  | some content =>
    rw [hcontent] at h
    obtain ⟨incl, hincl, hrest⟩ := Prog.settles_bind.mp h
    have hcommon := common_of_settles (hlist content hcontent) hincl
    obtain ⟨hop, hout⟩ := settles_copyOperatingCh_bind.mp hrest
    refine ⟨⟨hcap, hintent, hlisten, haddr, hlist, fun c hc => ?_⟩, ?_⟩
    · obtain rfl := Option.some.inj (hcontent.symm.trans hc)
      exact ⟨incl, hcommon, hop⟩
    · rw [reqNext, hcontent]
      dsimp only
      rw [hcommon]
      exact Prog.settles_pure.mp hout

theorem reqIe_of_fits (h : ReqFits r ie) : (reqIe 100 r ie).Settles Dest.size (reqNext r ie) := by
  rw [reqIe]
  simp only [settles_copyTo_bind]
  refine ⟨h.capability, h.goIntent, h.listenCh, h.intendedIfAddr, h.chList, ?_⟩
  rw [reqNext]
  cases hcontent : ie attrChList with
  | none => exact Prog.settles_pure.mpr rfl
  | some content =>
    obtain ⟨incl, hcommon, hop⟩ := h.channels content hcontent
    dsimp only
    rw [hcommon]
    exact Prog.settles_bind.mpr ⟨incl, commonChannels_settles (h.chList content hcontent) hcommon,
      settles_copyOperatingCh_bind.mpr ⟨hop, Prog.settles_pure.mpr rfl⟩⟩

theorem reqIes_iff {ies : List Attrs} :
    (∃ n out, (Prog.forEach (reqIe n) r ies).Settles Dest.size out) ↔
      Prog.Each ReqFits reqNext r ies :=
  Prog.settles_forEach (fun _ _ _ _ h => reqIe_settles h) fun _ _ h => reqIe_of_fits h

theorem attrs_nil {offset : ℕ} {f : Body offset} (h : f.p2pIes = []) : f.attrs = [] := by
  rw [Body.attrs, h, List.map_nil]

theorem request_iff {w : Device} {wpsIe : Bool} {f : Body publicActionIeOffset} :
    (∃ n out, (processP2pGroupNegotationReq n w wpsIe f).Settles Dest.size out) ↔
      (wpsIe = true → Prog.Each ReqFits reqNext (w, .success) f.attrs) := by
  by_cases hwps : wpsIe = false
  · refine iff_of_true ?_ fun h => absurd (hwps.symm.trans h) Bool.false_ne_true
    refine ⟨0, ({ w with state := .gonegoFail }, .failIncompatibleParam), ?_⟩
    rw [processP2pGroupNegotationReq, if_pos hwps]
    exact Prog.settles_pure.mpr rfl
  · have hloop : (∃ n out, (processP2pGroupNegotationReq n w wpsIe f).Settles Dest.size out) ↔
        Prog.Each ReqFits reqNext
          (if f.p2pIes = [] then ({ w with state := .gonegoFail }, .failIncompatibleParam)
            else (w, .success)) f.attrs := by
      refine Iff.trans (exists_congr fun n => ?_) reqIes_iff
      rw [processP2pGroupNegotationReq, if_neg hwps]
      constructor
      · rintro ⟨out, hout⟩
        obtain ⟨r, hr, -⟩ := Prog.settles_bind.mp hout
        exact ⟨r, hr⟩
      · rintro ⟨r, hr⟩
        exact ⟨_, Prog.settles_bind.mpr ⟨r, hr, Prog.settles_pure.mpr rfl⟩⟩
    have hyes : wpsIe = true := by
      rw [← Bool.not_eq_false]
      exact hwps
    rw [hloop, forall_prop_of_true hyes]
    by_cases hnone : f.p2pIes = []
    · rw [attrs_nil hnone]
      exact iff_of_true trivial trivial
    · rw [if_neg hnone]

end Request

/-! ## The response and the confirm frame -/

structure Negotiator where
  state : P2pState
  preState : P2pState
  role : Role
  intent : UInt8
  peerIntent : UInt8
  deviceAddr : List UInt8
  /-- of `nego_ssidlen` bytes -/
  negoSsid : List UInt8
  p2pPeerInterfaceAddr : List UInt8
  peerOperatingCh : UInt8
  channelListAttr : List UInt8
  operatingChannel : ℕ
  /-- `groupid_info.go_device_addr` -/
  goDeviceAddr : List UInt8
  /-- `groupid_info.ssid` -/
  ssid : List UInt8
  channelSet : List ℕ

def overwrite (old new : List UInt8) : List UInt8 := new ++ old.drop new.length

def refusal : Option (List UInt8) → Option UInt8
  | some [status] => if status = 0 then none else some status
  | _ => none

namespace Negotiator

variable (w : Negotiator)

def refused (status : UInt8) : Negotiator :=
  { w with
    state := if status = 1 then .rxInforNoready else .gonegoFail
    role := .device }

def readIfAddr : Option (List UInt8) → Negotiator
  | none => w
  | some content =>
    { w with
      p2pPeerInterfaceAddr := if content.length = 6 then content else List.replicate 6 0 }

def decided (peerIntent : UInt8) : Negotiator :=
  if BothGointent15 w.intent peerIntent then
    { w with peerIntent := peerIntent, role := .device, state := .gonegoFail }
  else
    { w with
      peerIntent := peerIntent
      role := decideRole w.intent peerIntent
      state := .gonegoOk
      preState := .gonegoOk }

def storeGroup : Negotiator :=
  if w.role = .go then
    { w with goDeviceAddr := w.deviceAddr, ssid := overwrite w.ssid w.negoSsid }
  else w

def readOperatingCh : Option (List UInt8) → Negotiator
  | none => w
  | some content => { w with peerOperatingCh := content.getD 4 0 }

def readChList : Option (List UInt8) → Negotiator
  | none => w
  | some content => { w with channelListAttr := overwrite w.channelListAttr content }

def readGroupId : Option (List UInt8) → Negotiator
  | none => w
  | some content =>
    { w with
      goDeviceAddr := content.take 6
      ssid := overwrite w.ssid (content.drop 6) }

def takeChannel (incl : List ℕ) (ie : Attrs) : Negotiator :=
  if ChangesChannel w.role w.operatingChannel incl then
    { w with
      operatingChannel :=
        if (operatingChOf ie).toNat ∈ incl then (operatingChOf ie).toNat else incl.headD 0 }
  else w

end Negotiator

def copyGroupId : Option (List UInt8) → Prog Dest Unit
  | none => pure ()
  | some content => do
    .touch .groupid 0 content.length
    .touch .groupid 6 (usub content.length 6)
    .touch .groupidInfoSsid 0 (usub content.length 6)

def GroupIdFits (content : Option (List UInt8)) : Prop :=
  ∀ c ∈ content, 6 ≤ c.length ∧ c.length ≤ 38

theorem settles_copyGroupId_bind {content : Option (List UInt8)} {α : Type}
    {f : Unit → Prog Dest α} {a : α} :
    (copyGroupId content >>= f).Settles Dest.size a ↔
      GroupIdFits content ∧ (f ()).Settles Dest.size a := by
  cases content with
  | none =>
    rw [copyGroupId, Prog.settles_bind]
    constructor
    · rintro ⟨u, -, h⟩
      exact ⟨nofun, h⟩
    · rintro ⟨-, h⟩
      exact ⟨(), Prog.settles_pure.mpr rfl, h⟩
  | some c =>
    have hfits : GroupIdFits (some c) ↔ 6 ≤ c.length ∧ c.length ≤ 38 :=
      ⟨fun h => h c rfl, fun h b hb => by
        obtain rfl := Option.mem_some.mp hb
        exact h⟩
    rw [hfits, Prog.settles_bind]
    constructor
    · rintro ⟨u, hu, h⟩
      rw [copyGroupId, Prog.settles_touch_bind, Prog.settles_touch_bind] at hu
      obtain ⟨hall, -, hssid⟩ := hu
      have hssid' := (Prog.inside_touch _ _ _).mp hssid.inside
      change _ ∨ 0 + c.length ≤ 38 at hall
      change _ ∨ 0 + usub c.length 6 ≤ 32 at hssid'
      rw [usub, u32] at hssid'
      exact ⟨by omega, h⟩
    · rintro ⟨hin, h⟩
      have hsub : usub c.length 6 = c.length - 6 := by
        rw [usub, u32]
        omega
      refine ⟨(), ?_, h⟩
      rw [copyGroupId, Prog.settles_touch_bind, Prog.settles_touch_bind, hsub]
      refine ⟨.inr ?_, .inr ?_, rfl, (Prog.inside_touch _ _ _).mpr (.inr ?_)⟩
      · change 0 + c.length ≤ 38
        omega
      · change 6 + (c.length - 6) ≤ 38
        omega
      · change 0 + (c.length - 6) ≤ 32
        omega

section Response

def readIntent (r : Negotiator × UInt8) : Option (List UInt8) → Negotiator × UInt8
  | none => r
  | some content =>
    ((r.1.decided (content.getD 0 0)).storeGroup,
      if BothGointent15 r.1.intent (content.getD 0 0) then 9 else r.2)

def respRead (r : Negotiator × UInt8) (ie : Attrs) : Negotiator × UInt8 :=
  let r := readIntent (r.1.readIfAddr (ie attrIntendedIfAddr), r.2) (ie attrGoIntent)
  ((r.1.readOperatingCh (ie attrOperatingCh)).readChList (ie attrChList), r.2)

def respGroup (r : Negotiator × UInt8) (ie : Attrs) :
    Prog Dest (Negotiator × UInt8 ⊕ Negotiator × UInt8) := do
  copyGroupId (ie attrGroupId)
  pure (.inr (r.1.readGroupId (ie attrGroupId), r.2))

def respChannels (r : Negotiator × UInt8) (ie : Attrs) (incl : List ℕ) :
    Prog Dest (Negotiator × UInt8 ⊕ Negotiator × UInt8) :=
  if incl = [] then pure (.inl ({ r.1 with state := .gonegoFail }, 7))
  else do
    copyOperatingCh r.1.role r.1.operatingChannel incl ie
    respGroup (r.1.takeChannel incl ie, r.2) ie

def respIe (n : ℕ) (r : Negotiator × UInt8) (ie : Attrs) :
    Prog Dest (Negotiator × UInt8 ⊕ Negotiator × UInt8) := do
  copyTo .capAttr (ie attrCapability)
  copyTo .attrContent (ie attrStatus)
  match refusal (ie attrStatus) with
  | some status => pure (.inl (r.1.refused status, status))
  | none => do
    copyTo .p2pPeerInterfaceAddr (ie attrIntendedIfAddr)
    copyTo .attrContent (ie attrGoIntent)
    copyTo .operatingchInfo (ie attrOperatingCh)
    copyTo .channelListAttr (ie attrChList)
    match ie attrChList with
    | none => respGroup (respRead r ie) ie
    | some content =>
      commonChannels n r.1.channelSet content (r.1.channelListAttr.drop content.length) >>=
        respChannels (respRead r ie) ie

/-- `process_p2p_group_negotation_resp`, of whether there is a WPS element. -/
def processP2pGroupNegotationResp (n : ℕ) (w : Negotiator) (wpsIe : Bool)
    (f : Body publicActionIeOffset) : Prog Dest (Negotiator × UInt8) :=
  if f.p2pIes = [] then pure ({ w with role := .device, state := .gonegoFail }, 2)
  else
    .forEach (respIe n) (if wpsIe then (w, 0) else ({ w with state := .gonegoFail }, 2)) f.attrs

/-- The attributes of an element fit, as far as they are copied. -/
structure RespFits (r : Negotiator × UInt8) (ie : Attrs) : Prop where
  capability : AtMost 2 (ie attrCapability)
  status : AtMost 1 (ie attrStatus)
  intendedIfAddr : refusal (ie attrStatus) = none → AtMost 6 (ie attrIntendedIfAddr)
  goIntent : refusal (ie attrStatus) = none → AtMost 1 (ie attrGoIntent)
  operatingCh : refusal (ie attrStatus) = none → AtMost 5 (ie attrOperatingCh)
  chList : refusal (ie attrStatus) = none → AtMost 100 (ie attrChList)
  channels : refusal (ie attrStatus) = none → ∀ content ∈ ie attrChList,
    ∃ incl, common r.1.channelSet content = some incl
  groupId : refusal (ie attrStatus) = none →
    (∀ content ∈ ie attrChList, common r.1.channelSet content ≠ some []) →
      GroupIdFits (ie attrGroupId)

def respNext (r : Negotiator × UInt8) (ie : Attrs) : Negotiator × UInt8 ⊕ Negotiator × UInt8 :=
  match refusal (ie attrStatus), ie attrChList with
  | some status, _ => .inl (r.1.refused status, status)
  | none, none =>
    .inr ((respRead r ie).1.readGroupId (ie attrGroupId), (respRead r ie).2)
  | none, some content =>
    if common r.1.channelSet content = some [] then
      .inl ({ (respRead r ie).1 with state := .gonegoFail }, 7)
    else
      .inr (((respRead r ie).1.takeChannel ((common r.1.channelSet content).getD []) ie).readGroupId
        (ie attrGroupId), (respRead r ie).2)

variable {r : Negotiator × UInt8} {ie : Attrs}

theorem respGroup_settles {out : Negotiator × UInt8 ⊕ Negotiator × UInt8} :
    (respGroup r ie).Settles Dest.size out ↔ GroupIdFits (ie attrGroupId) ∧
      out = .inr (r.1.readGroupId (ie attrGroupId), r.2) := by
  rw [respGroup, settles_copyGroupId_bind, Prog.settles_pure]

theorem respIe_settles {n : ℕ} {out : Negotiator × UInt8 ⊕ Negotiator × UInt8}
    (h : (respIe n r ie).Settles Dest.size out) : RespFits r ie ∧ out = respNext r ie := by
  rw [respIe] at h
  simp only [settles_copyTo_bind] at h
  obtain ⟨hcap, hstatus, h⟩ := h
  cases hrefusal : refusal (ie attrStatus) with
  | some status =>
    rw [hrefusal] at h
    have hno : refusal (ie attrStatus) ≠ none := by
      rw [hrefusal]
      exact nofun
    refine ⟨⟨hcap, hstatus, fun h => absurd h hno, fun h => absurd h hno, fun h => absurd h hno,
      fun h => absurd h hno, fun h => absurd h hno, fun h => absurd h hno⟩, ?_⟩
    rw [respNext, hrefusal]
    exact Prog.settles_pure.mp h
  | none =>
    rw [hrefusal] at h
    simp only [settles_copyTo_bind] at h
    obtain ⟨haddr, hintent, hop, hlist, h⟩ := h
    cases hcontent : ie attrChList with
    | none =>
      rw [hcontent] at h
      obtain ⟨hgroup, hout⟩ := respGroup_settles.mp h
      refine ⟨⟨hcap, hstatus, fun _ => haddr, fun _ => hintent, fun _ => hop, fun _ => hlist,
        fun _ => ?_, fun _ _ => hgroup⟩, ?_⟩
      · rw [hcontent]
        exact nofun
      · rw [respNext, hrefusal, hcontent]
        exact hout
    | some content =>
      rw [hcontent] at h
      obtain ⟨incl, hincl, hrest⟩ := Prog.settles_bind.mp h
      have hcommon := common_of_settles (hlist content hcontent) hincl
      rw [respChannels] at hrest
      have hchannels : ∀ c ∈ ie attrChList, ∃ incl, common r.1.channelSet c = some incl :=
        fun c hc => by
          obtain rfl := Option.some.inj (hcontent.symm.trans hc)
          exact ⟨incl, hcommon⟩
      by_cases hnone : incl = []
      · rw [if_pos hnone] at hrest
        rw [hnone] at hcommon
        refine ⟨⟨hcap, hstatus, fun _ => haddr, fun _ => hintent, fun _ => hop, fun _ => hlist,
          fun _ => hchannels, fun _ h => absurd hcommon (h content hcontent)⟩, ?_⟩
        rw [respNext, hrefusal, hcontent]
        dsimp only
        rw [if_pos hcommon]
        exact Prog.settles_pure.mp hrest
      · rw [if_neg hnone] at hrest
        obtain ⟨-, hgroup, hout⟩ :=
          (settles_copyOperatingCh_bind.trans (and_congr Iff.rfl respGroup_settles)).mp hrest
        refine ⟨⟨hcap, hstatus, fun _ => haddr, fun _ => hintent, fun _ => hop, fun _ => hlist,
          fun _ => hchannels, fun _ _ => hgroup⟩, ?_⟩
        rw [respNext, hrefusal, hcontent]
        dsimp only
        rw [hcommon, if_neg fun h => hnone (Option.some.inj h)]
        exact hout

theorem respIe_of_fits (h : RespFits r ie) :
    (respIe 100 r ie).Settles Dest.size (respNext r ie) := by
  rw [respIe]
  simp only [settles_copyTo_bind]
  refine ⟨h.capability, h.status, ?_⟩
  rw [respNext]
  cases hrefusal : refusal (ie attrStatus) with
  | some status => exact Prog.settles_pure.mpr rfl
  | none =>
    simp only [settles_copyTo_bind]
    refine ⟨h.intendedIfAddr hrefusal, h.goIntent hrefusal, h.operatingCh hrefusal,
      h.chList hrefusal, ?_⟩
    cases hcontent : ie attrChList with
    | none =>
      refine respGroup_settles.mpr ⟨h.groupId hrefusal ?_, rfl⟩
      rw [hcontent]
      exact nofun
    | some content =>
      obtain ⟨incl, hcommon⟩ := h.channels hrefusal content hcontent
      refine Prog.settles_bind.mpr ⟨incl,
        commonChannels_settles (h.chList hrefusal content hcontent) hcommon, ?_⟩
      rw [respChannels]
      dsimp only
      rw [hcommon]
      by_cases hnone : incl = []
      · rw [if_pos hnone, if_pos (congrArg some hnone)]
        exact Prog.settles_pure.mpr rfl
      · have hsome : some incl ≠ some [] := fun h => hnone (Option.some.inj h)
        rw [if_neg hnone, if_neg hsome]
        refine settles_copyOperatingCh_bind.mpr ⟨fun _ => h.operatingCh hrefusal,
          respGroup_settles.mpr ⟨h.groupId hrefusal fun c hc => ?_, rfl⟩⟩
        obtain rfl := Option.some.inj (hcontent.symm.trans hc)
        rw [hcommon]
        exact hsome

theorem respIes_iff {ies : List Attrs} :
    (∃ n out, (Prog.forEach (respIe n) r ies).Settles Dest.size out) ↔
      Prog.Each RespFits respNext r ies :=
  Prog.settles_forEach (fun _ _ _ _ h => respIe_settles h) fun _ _ h => respIe_of_fits h

theorem response_iff {w : Negotiator} {wpsIe : Bool} {f : Body publicActionIeOffset} :
    (∃ n out, (processP2pGroupNegotationResp n w wpsIe f).Settles Dest.size out) ↔
      Prog.Each RespFits respNext
        (if wpsIe then (w, 0) else ({ w with state := .gonegoFail }, 2)) f.attrs := by
  refine Iff.trans (exists_congr fun n => ?_) respIes_iff
  rw [processP2pGroupNegotationResp]
  by_cases hnone : f.p2pIes = []
  · rw [if_pos hnone, attrs_nil hnone]
    exact iff_of_true ⟨_, Prog.settles_pure.mpr rfl⟩ ⟨_, Prog.settles_pure.mpr rfl⟩
  · rw [if_neg hnone]

end Response

section Confirm

def confRead (r : Negotiator × UInt8) (ie : Attrs) : Negotiator × UInt8 :=
  let r :=
    if ie attrStatus = some [0] then
      ({ r.1 with
          state := .gonegoOk
          preState := .gonegoOk
          role := WifidirectInfo.roleOf r.1.intent.toNat r.1.peerIntent.toNat }, 0)
    else r
  ((r.1.readGroupId (ie attrGroupId)).readOperatingCh (ie attrOperatingCh), r.2)

def confIe (r : Negotiator × UInt8) (ie : Attrs) :
    Prog Dest (Negotiator × UInt8 ⊕ Negotiator × UInt8) := do
  copyTo .attrContent (ie attrStatus)
  match refusal (ie attrStatus) with
  | some status => pure (.inl ({ r.1 with role := .device, state := .gonegoFail }, status))
  | none => do
    copyGroupId (ie attrGroupId)
    copyTo .operatingchInfo (ie attrOperatingCh)
    pure (.inr (confRead r ie))

def processP2pGroupNegotationConfirm (w : Negotiator) (f : Body publicActionIeOffset) :
    Prog Dest (Negotiator × UInt8) :=
  .forEach confIe (w, 0) f.attrs

structure ConfFits (ie : Attrs) : Prop where
  status : AtMost 1 (ie attrStatus)
  groupId : refusal (ie attrStatus) = none → GroupIdFits (ie attrGroupId)
  operatingCh : refusal (ie attrStatus) = none → AtMost 5 (ie attrOperatingCh)

def confNext (r : Negotiator × UInt8) (ie : Attrs) : Negotiator × UInt8 ⊕ Negotiator × UInt8 :=
  match refusal (ie attrStatus) with
  | some status => .inl ({ r.1 with role := .device, state := .gonegoFail }, status)
  | none => .inr (confRead r ie)

theorem confIe_settles {r : Negotiator × UInt8} {ie : Attrs}
    {out : Negotiator × UInt8 ⊕ Negotiator × UInt8} :
    (confIe r ie).Settles Dest.size out ↔ ConfFits ie ∧ out = confNext r ie := by
  rw [confIe, settles_copyTo_bind, confNext]
  cases hrefusal : refusal (ie attrStatus) with
  | some status =>
    have hno : refusal (ie attrStatus) ≠ none := by
      rw [hrefusal]
      exact nofun
    refine (and_congr ⟨fun h => ?_, ConfFits.status⟩ Prog.settles_pure)
    exact ⟨h, fun h => absurd h hno, fun h => absurd h hno⟩
  | none =>
    dsimp only
    rw [settles_copyGroupId_bind, settles_copyTo_bind, Prog.settles_pure]
    constructor
    · rintro ⟨hstatus, hgroup, hop, hout⟩
      exact ⟨⟨hstatus, fun _ => hgroup, fun _ => hop⟩, hout⟩
    · rintro ⟨h, hout⟩
      exact ⟨h.status, h.groupId hrefusal, h.operatingCh hrefusal, hout⟩

theorem confirm_iff {w : Negotiator} {f : Body publicActionIeOffset} :
    (∃ out, (processP2pGroupNegotationConfirm w f).Settles Dest.size out) ↔
      Prog.Each (fun _ => ConfFits) confNext (w, 0) f.attrs :=
  Prog.settles_forEach_iff fun _ _ _ => confIe_settles

end Confirm

/-! ## The invitation request -/

inductive InviteState where
  | go
  | matched
  | dismatch
  | join
  deriving DecidableEq

structure Invitee where
  macAddr : List UInt8
  p2pPeerInterfaceAddr : List UInt8
  p2pPeerDeviceAddr : List UInt8
  /-- the `peermac` of `profileinfo` -/
  profiles : List (List UInt8)
  channelSet : List ℕ
  /-- the state, where it was changed -/
  state : Option InviteState
  role : Role
  /-- `rx_invitereq_info.operation_ch[0]` -/
  operationCh : UInt8

/-- A frame body whose attributes are as long as they say in the merged element, too. -/
structure InviteBody extends Body publicActionIeOffset where
  merged_fits :
    let m := P2pMerge.rtwP2pMergeIes (mem.drop publicActionIeOffset) (usub len publicActionIeOffset)
    lengthsFit m.1.mergeIe 0 m.2 m.2 6 = true

namespace InviteBody

variable (f : InviteBody)

def merged : P2pMerge.Merge × ℕ :=
  P2pMerge.rtwP2pMergeIes (f.mem.drop publicActionIeOffset) (usub f.len publicActionIeOffset)

def mergedAttrs : Attrs := rtwGetP2pAttrContent f.merged.1.mergeIe 0 f.merged.2

end InviteBody

namespace Invitee

variable (w : Invitee) (m : Attrs)

def readBssid : Invitee :=
  { w with
    p2pPeerInterfaceAddr :=
      overwrite w.p2pPeerInterfaceAddr ((m attrGroupBssid).getD []) }

def goDeviceAddr : List UInt8 := (overwrite (List.replicate 38 0) ((m attrGroupId).getD [])).take 6

def Persistent : Prop := ((m attrInvitationFlags).getD []).getD 0 0 &&& 1 ≠ 0

instance : Decidable (Persistent m) := inferInstanceAs (Decidable (_ ≠ _))

def Reinvoked : Prop :=
  Persistent m ∧ goDeviceAddr m ≠ w.macAddr ∧ (w.readBssid m).p2pPeerInterfaceAddr ∈ w.profiles

instance : Decidable (w.Reinvoked m) := inferInstanceAs (Decidable (_ ∧ _))

def takeOperatingCh : Option (List UInt8) → Invitee × UInt8
  | none => ({ w with state := some .matched, role := .client }, 0)
  | some content =>
    if (content.getD 4 0).toNat ∈ w.channelSet then
      ({ w with
          operationCh := content.getD 4 0
          state := some .matched
          role := .client }, 0)
    else ({ w with state := some .dismatch, role := .device }, 7)

def judged : Invitee × UInt8 :=
  if Persistent m then
    if goDeviceAddr m = w.macAddr then ({ w with state := some .go, role := .go }, 0)
    else ({ w with state := some .dismatch }, 8)
  else if goDeviceAddr m = w.macAddr then ({ w with state := some .dismatch }, 1)
  else
    ({ w with
        p2pPeerDeviceAddr := goDeviceAddr m
        role := .client
        state := some .join }, 0)

end Invitee

/-- An attribute that is there and has a content: `attr_contentlen` is not zero. -/
def HasContent (content : Option (List UInt8)) : Prop := content.getD [] ≠ []

instance (content : Option (List UInt8)) : Decidable (HasContent content) :=
  inferInstanceAs (Decidable (_ ≠ _))

/-- The group id is copied for a persistent group, and for one to join. -/
def inviteGroup (w : Invitee) (m : Attrs) : Prog Dest (Invitee × UInt8) := do
  copyTo .groupId (m attrGroupId)
  if ¬ HasContent (m attrGroupId) then pure (w.readBssid m, 1)
  else if w.Reinvoked m then do
    copyTo .operatingchInfo (m attrOperatingCh)
    pure ((w.readBssid m).takeOperatingCh (m attrOperatingCh))
  else pure ((w.readBssid m).judged m)

def inviteMerged (w : Invitee) (m : Attrs) : Prog Dest (Invitee × UInt8) := do
  copyTo .invitationFlag (m attrInvitationFlags)
  if HasContent (m attrInvitationFlags) then do
    copyTo .p2pPeerInterfaceAddr (m attrGroupBssid)
    inviteGroup w m
  else pure (w, 1)

/-- The invitation request of `on_action_public_p2p`, with the status of the response. A merge with
a negative size is a copy without end. -/
def onInvitReq (w : Invitee) (f : InviteBody) : Prog Dest (Invitee × Option UInt8) :=
  if f.p2pIes = [] then pure (w, none)
  else if ∃ size ∈ f.merged.1.sizes, size < 0 then .giveUp
  else inviteMerged w f.mergedAttrs >>= fun r => pure (r.1, some r.2)

structure InviteFits (w : Invitee) (m : Attrs) : Prop where
  flags : AtMost 1 (m attrInvitationFlags)
  bssid : HasContent (m attrInvitationFlags) → AtMost 6 (m attrGroupBssid)
  groupId : HasContent (m attrInvitationFlags) → AtMost 38 (m attrGroupId)
  operatingCh : HasContent (m attrInvitationFlags) → HasContent (m attrGroupId) → w.Reinvoked m →
    AtMost 5 (m attrOperatingCh)

theorem inviteMerged_iff {w : Invitee} {m : Attrs} :
    (∃ out, (inviteMerged w m).Settles Dest.size out) ↔ InviteFits w m := by
  constructor
  · rintro ⟨out, h⟩
    rw [inviteMerged, settles_copyTo_bind] at h
    obtain ⟨hflags, h⟩ := h
    by_cases hcontent : HasContent (m attrInvitationFlags)
    · rw [if_pos hcontent, settles_copyTo_bind, inviteGroup, settles_copyTo_bind] at h
      obtain ⟨hbssid, hgroup, h⟩ := h
      refine ⟨hflags, fun _ => hbssid, fun _ => hgroup, fun _ hid hagain => ?_⟩
      rw [if_neg (not_not.mpr hid), if_pos hagain, settles_copyTo_bind] at h
      exact h.1
    · exact ⟨hflags, fun h => absurd h hcontent, fun h => absurd h hcontent,
        fun h => absurd h hcontent⟩
  · intro h
    simp only [inviteMerged, settles_copyTo_bind]
    by_cases hcontent : HasContent (m attrInvitationFlags)
    · rw [if_pos hcontent]
      simp only [inviteGroup, settles_copyTo_bind]
      by_cases hid : HasContent (m attrGroupId)
      · rw [if_neg (not_not.mpr hid)]
        by_cases hagain : w.Reinvoked m
        · rw [if_pos hagain]
          simp only [settles_copyTo_bind]
          exact ⟨_, h.flags, h.bssid hcontent, h.groupId hcontent,
            h.operatingCh hcontent hid hagain, Prog.settles_pure.mpr rfl⟩
        · rw [if_neg hagain]
          exact ⟨_, h.flags, h.bssid hcontent, h.groupId hcontent, Prog.settles_pure.mpr rfl⟩
      · rw [if_pos hid]
        exact ⟨_, h.flags, h.bssid hcontent, h.groupId hcontent, Prog.settles_pure.mpr rfl⟩
    · rw [if_neg hcontent]
      exact ⟨_, h.flags, Prog.settles_pure.mpr rfl⟩

theorem invitation_iff {w : Invitee} {f : InviteBody} :
    (∃ out, (onInvitReq w f).Settles Dest.size out) ↔
      (f.p2pIes ≠ [] → (∀ size ∈ f.merged.1.sizes, 0 ≤ size) ∧ InviteFits w f.mergedAttrs) := by
  by_cases hnone : f.p2pIes = []
  · refine iff_of_true ⟨(w, none), ?_⟩ fun h => absurd hnone h
    rw [onInvitReq, if_pos hnone]
    exact Prog.settles_pure.mpr rfl
  · rw [forall_prop_of_true hnone, ← inviteMerged_iff]
    constructor
    · rintro ⟨out, h⟩
      rw [onInvitReq, if_neg hnone] at h
      by_cases hend : ∃ size ∈ f.merged.1.sizes, size < 0
      · rw [if_pos hend] at h
        exact absurd h Prog.not_settles_giveUp
      · rw [if_neg hend] at h
        obtain ⟨r, hr, -⟩ := Prog.settles_bind.mp h
        exact ⟨fun size hsize => Int.not_lt.mp fun hneg => hend ⟨size, hsize, hneg⟩, r, hr⟩
    · rintro ⟨hsizes, r, hr⟩
      have hend : ¬ ∃ size ∈ f.merged.1.sizes, size < 0 := by
        rintro ⟨size, hsize, hneg⟩
        exact Int.not_lt.mpr (hsizes size hsize) hneg
      refine ⟨(r.1, some r.2), ?_⟩
      rw [onInvitReq, if_neg hnone, if_neg hend]
      exact Prog.settles_bind.mpr ⟨r, hr, Prog.settles_pure.mpr rfl⟩

/-! ## The notice of absence -/

inductive PsMode where
  | none
  | ctwindow
  | noa
  deriving DecidableEq

structure PsInfo where
  /-- the state is `P2P_STATE_NONE` -/
  stateNone : Bool
  psMode : PsMode
  noaIndex : UInt8
  oppPs : UInt8
  ctwindow : UInt8
  noaNum : UInt8
  noaCount : List UInt8
  noaDuration : List (List UInt8)
  noaInterval : List (List UInt8)
  noaStartTime : List (List UInt8)
  fwCurrentInPsMode : Bool
  /-- what `p2p_ps_wk_cmd` was called with, `true` for `P2P_PS_ENABLE` -/
  wkCmds : List Bool

namespace PsInfo

variable (w : PsInfo)

/-- A new index, or none yet. -/
def Reconfigures (noaAttr : List UInt8) : Prop :=
  w.psMode = .none ∨ noaAttr.getD 0 0 ≠ w.noaIndex

instance (noaAttr : List UInt8) : Decidable (w.Reconfigures noaAttr) :=
  inferInstanceAs (Decidable (_ ∨ _))

def readIndex (noaAttr : List UInt8) : PsInfo :=
  { w with
    noaIndex := noaAttr.getD 0 0
    oppPs := noaAttr.getD 1 0 >>> 7
    ctwindow := if noaAttr.getD 1 0 >>> 7 = 1 then noaAttr.getD 1 0 &&& 0x7F else 0
    noaNum := 0 }

def setNoa (noaAttr : List UInt8) (noaOffset noaNum : UInt8) : PsInfo :=
  { w with
    noaCount := w.noaCount.set noaNum.toNat (noaAttr.getD noaOffset.toNat 0)
    noaDuration := w.noaDuration.set noaNum.toNat (bytesFrom noaAttr (noaOffset + 1).toNat 4)
    noaInterval := w.noaInterval.set noaNum.toNat (bytesFrom noaAttr (noaOffset + 5).toNat 4)
    noaStartTime := w.noaStartTime.set noaNum.toNat (bytesFrom noaAttr (noaOffset + 9).toNat 4) }

def enter : PsInfo :=
  if w.oppPs = 1 then
    { w with
      psMode := .ctwindow
      wkCmds := if w.fwCurrentInPsMode then w.wkCmds ++ [true] else w.wkCmds }
  else if 0 < w.noaNum then { w with psMode := .noa, wkCmds := w.wkCmds ++ [true] }
  else if w.psMode ≠ .none then { w with wkCmds := w.wkCmds ++ [false] }
  else w

end PsInfo

def noaLoop (noaAttr : List UInt8) (attrContentlen : ℕ) :
    ℕ → UInt8 → UInt8 → PsInfo → Prog Dest PsInfo
  | 0, _, _, _ => .giveUp
  | n + 1, noaOffset, noaNum, w =>
    if noaOffset.toNat < attrContentlen then do
      .touch .noaAttr noaOffset.toNat 1
      .touch .noaCount noaNum.toNat 1
      .touch .noaAttr (noaOffset + 1).toNat 4
      .touch .noaDuration (4 * noaNum.toNat) 4
      .touch .noaAttr (noaOffset + 5).toNat 4
      .touch .noaInterval (4 * noaNum.toNat) 4
      .touch .noaAttr (noaOffset + 9).toNat 4
      .touch .noaStartTime (4 * noaNum.toNat) 4
      noaLoop noaAttr attrContentlen n (noaOffset + 13) (noaNum + 1)
        (w.setNoa noaAttr noaOffset noaNum)
    else pure { w with noaNum := noaNum }

def readNoa (n : ℕ) (w : PsInfo) (noaAttr : List UInt8) (attrContentlen : ℕ) : Prog Dest PsInfo :=
  if w.Reconfigures noaAttr then
    (if 2 < attrContentlen then noaLoop noaAttr attrContentlen n 2 0 (w.readIndex noaAttr)
      else pure (w.readIndex noaAttr)) >>= fun w => pure w.enter
  else pure w

def readNotices (n : ℕ) (w : PsInfo) : List Attrs → Prog Dest (PsInfo × Bool)
  | [] => pure (w, false)
  | ie :: ies => do
    copyTo .noaAttr (ie attrNoa)
    match ie attrNoa with
    | none => readNotices n w ies
    | some content =>
      readNoa n w (content ++ List.replicate (256 - content.length) 0) content.length >>=
        fun w => pure (w, true)

def processP2pPsIe (n : ℕ) (w : PsInfo) (f : Body beaconIeOffset) : Prog Dest PsInfo :=
  if w.stateNone ∨ f.len ≤ beaconIeOffset then pure w
  else
    readNotices n w f.attrs >>= fun r =>
      pure (if f.p2pIes ≠ [] ∧ r.1.psMode ≠ .none ∧ r.2 = false then
          { r.1 with wkCmds := r.1.wkCmds ++ [false] }
        else r.1)

section Notice

variable {noaAttr : List UInt8} {len : ℕ} {noaOffset noaNum : UInt8} {w : PsInfo}

theorem noaLoop_turn {n : ℕ} {out : PsInfo} (hlt : noaOffset.toNat < len) :
    (noaLoop noaAttr len (n + 1) noaOffset noaNum w).Settles Dest.size out ↔
      (noaOffset.toNat < 256 ∧ (noaOffset + 1).toNat + 4 ≤ 256 ∧
          (noaOffset + 5).toNat + 4 ≤ 256 ∧ (noaOffset + 9).toNat + 4 ≤ 256 ∧ noaNum.toNat < 2) ∧
        (noaLoop noaAttr len n (noaOffset + 13) (noaNum + 1)
          (w.setNoa noaAttr noaOffset noaNum)).Settles Dest.size out := by
  rw [noaLoop, if_pos hlt]
  simp only [Prog.settles_touch_bind, Dest.size]
  constructor
  · rintro ⟨h₁, h₂, h₃, -, h₅, -, h₇, -, h⟩
    exact ⟨by omega, h⟩
  · rintro ⟨hin, h⟩
    refine ⟨?_, ?_, ?_, ?_, ?_, ?_, ?_, ?_, h⟩
    all_goals omega

theorem noaLoop_end {n : ℕ} (hend : ¬ noaOffset.toNat < len) :
    (noaLoop noaAttr len (n + 1) noaOffset noaNum w).Settles Dest.size
      { w with noaNum := noaNum } := by
  rw [noaLoop, if_neg hend]
  exact Prog.settles_pure.mpr rfl

theorem noaLoop_fuel {n : ℕ} {out : PsInfo}
    (h : (noaLoop noaAttr len n noaOffset noaNum w).Settles Dest.size out) : ∃ m, n = m + 1 := by
  cases n with
  | zero => exact absurd h Prog.not_settles_giveUp
  | succ m => exact ⟨m, rfl⟩

theorem noaLoop_iff :
    (∃ n out, (noaLoop noaAttr len n 2 0 w).Settles Dest.size out) ↔ len ≤ 28 := by
  constructor
  · rintro ⟨n, out, h⟩
    by_contra hlong
    have hfirst : (2 : UInt8).toNat < len := Nat.lt_of_le_of_lt (by decide) (Nat.lt_of_not_le hlong)
    have hsecond : (2 + 13 : UInt8).toNat < len :=
      Nat.lt_of_le_of_lt (by decide) (Nat.lt_of_not_le hlong)
    have hthird : (2 + 13 + 13 : UInt8).toNat < len :=
      Nat.lt_of_le_of_lt (by decide) (Nat.lt_of_not_le hlong)
    obtain ⟨n, rfl⟩ := noaLoop_fuel h
    have h := ((noaLoop_turn hfirst).mp h).2
    obtain ⟨n, rfl⟩ := noaLoop_fuel h
    have h := ((noaLoop_turn hsecond).mp h).2
    obtain ⟨n, rfl⟩ := noaLoop_fuel h
    have hroom := ((noaLoop_turn hthird).mp h).1.2.2.2.2
    exact absurd hroom (by decide)
  · intro hlen
    refine ⟨3, ?_⟩
    by_cases hone : 2 < len
    · by_cases htwo : 15 < len
      · exact ⟨_, (noaLoop_turn hone).mpr ⟨by decide, (noaLoop_turn htwo).mpr ⟨by decide,
          noaLoop_end (by change ¬ 28 < len; omega)⟩⟩⟩
      · exact ⟨_, (noaLoop_turn hone).mpr ⟨by decide, noaLoop_end htwo⟩⟩
    · exact ⟨_, noaLoop_end hone⟩

theorem readNoa_iff :
    (∃ n out, (readNoa n w noaAttr len).Settles Dest.size out) ↔
      (w.Reconfigures noaAttr → len ≤ 28) := by
  by_cases hnew : w.Reconfigures noaAttr
  swap
  · refine iff_of_true ⟨0, w, ?_⟩ fun h => absurd h hnew
    rw [readNoa, if_neg hnew]
    exact Prog.settles_pure.mpr rfl
  rw [forall_prop_of_true hnew]
  by_cases hlen : 2 < len
  · rw [← @noaLoop_iff noaAttr len (w.readIndex noaAttr)]
    refine exists_congr fun n => ?_
    rw [readNoa, if_pos hnew, if_pos hlen]
    constructor
    · rintro ⟨out, h⟩
      obtain ⟨w', hw', -⟩ := Prog.settles_bind.mp h
      exact ⟨w', hw'⟩
    · rintro ⟨w', hw'⟩
      exact ⟨w'.enter, Prog.settles_bind.mpr ⟨w', hw', Prog.settles_pure.mpr rfl⟩⟩
  · refine iff_of_true ⟨0, (w.readIndex noaAttr).enter, ?_⟩ (by omega)
    rw [readNoa, if_pos hnew, if_neg hlen]
    exact Prog.settles_bind.mpr ⟨_, Prog.settles_pure.mpr rfl, Prog.settles_pure.mpr rfl⟩

end Notice

def firstNotice (ies : List Attrs) : Option (List UInt8) := ies.findSome? (· attrNoa)

def NoticeFits (w : PsInfo) (ies : List Attrs) : Prop :=
  ∀ content ∈ firstNotice ies, w.Reconfigures content → content.length ≤ 28

theorem reconfigures_padded {w : PsInfo} {content : List UInt8} {n : ℕ} :
    w.Reconfigures (content ++ List.replicate n 0) ↔ w.Reconfigures content := by
  have hindex : (content ++ List.replicate n 0).getD 0 0 = content.getD 0 0 := by
    cases content with
    | nil =>
      rw [List.nil_append]
      cases n <;> rfl
    | cons c content => rfl
  rw [PsInfo.Reconfigures, PsInfo.Reconfigures, hindex]

theorem readNotices_iff {w : PsInfo} {ies : List Attrs}
    (hle : ∀ ie ∈ ies, AtMost 256 (ie attrNoa)) :
    (∃ n out, (readNotices n w ies).Settles Dest.size out) ↔ NoticeFits w ies := by
  induction ies with
  | nil =>
    refine iff_of_true ⟨0, (w, false), Prog.settles_pure.mpr rfl⟩ ?_
    exact fun content hcontent => nomatch hcontent
  | cons ie ies ih =>
    obtain ⟨hhead, htail⟩ := List.forall_mem_cons.mp hle
    simp only [readNotices, settles_copyTo_bind, NoticeFits, firstNotice, List.findSome?_cons]
    cases hnoa : ie attrNoa with
    | none =>
      dsimp only
      rw [← firstNotice]
      refine Iff.trans (exists_congr fun n => exists_congr fun out => ?_) (ih htail)
      exact and_iff_right nofun
    | some content =>
      rw [hnoa] at hhead
      dsimp only
      have hfits : (∀ c ∈ some content, w.Reconfigures c → c.length ≤ 28) ↔
          (w.Reconfigures (content ++ List.replicate (256 - content.length) 0) →
            content.length ≤ 28) := by
        rw [reconfigures_padded]
        exact ⟨fun h => h content rfl, fun h c hc => by
          obtain rfl := Option.mem_some.mp hc
          exact h⟩
      rw [hfits, ← @readNoa_iff _ _ w]
      refine exists_congr fun n => ?_
      constructor
      · rintro ⟨out, -, h⟩
        obtain ⟨w', hw', -⟩ := Prog.settles_bind.mp h
        exact ⟨w', hw'⟩
      · rintro ⟨w', hw'⟩
        exact ⟨(w', true), hhead, Prog.settles_bind.mpr ⟨w', hw', Prog.settles_pure.mpr rfl⟩⟩

theorem notice_iff {w : PsInfo} {f : Body beaconIeOffset} :
    (∃ n out, (processP2pPsIe n w f).Settles Dest.size out) ↔
      (w.stateNone = false → beaconIeOffset < f.len → NoticeFits w f.attrs) := by
  by_cases hskip : w.stateNone ∨ f.len ≤ beaconIeOffset
  · refine iff_of_true ⟨0, w, ?_⟩ fun hstate hlen => ?_
    · rw [processP2pPsIe, if_pos hskip]
      exact Prog.settles_pure.mpr rfl
    · rcases hskip with hnone | hshort
      · exact absurd (hnone.symm.trans hstate) nofun
      · exact absurd hlen (Nat.not_lt_of_le hshort)
  · have hstate : w.stateNone = false := (Bool.not_eq_true _).mp fun h => hskip (.inl h)
    have hlen : beaconIeOffset < f.len := Nat.lt_of_not_le fun h => hskip (.inr h)
    rw [forall_prop_of_true hstate, forall_prop_of_true hlen, ← readNotices_iff fun ie hie c hc =>
      Nat.le_trans (attrs_le f ie hie attrNoa c hc) (by decide)]
    refine exists_congr fun n => ?_
    rw [processP2pPsIe, if_neg hskip]
    constructor
    · rintro ⟨out, h⟩
      obtain ⟨r, hr, -⟩ := Prog.settles_bind.mp h
      exact ⟨r, hr⟩
    · rintro ⟨r, hr⟩
      exact ⟨_, Prog.settles_bind.mpr ⟨r, hr, Prog.settles_pure.mpr rfl⟩⟩

/-- Each handler ends with every copy in its buffer if and only if the attributes fit that it comes
to: each in its destination, a channel list of whole classes, a group id with an address and at most
32 bytes behind it, and two descriptors of a notice that is taken over. -/
theorem attributes_fit (dev : Device) (nego : Negotiator) (inv : Invitee) (ps : PsInfo)
    (wpsIe : Bool) (f : Body publicActionIeOffset) (g : InviteBody) (b : Body beaconIeOffset) :
    ((∃ n out, (processP2pGroupNegotationReq n dev wpsIe f).Settles Dest.size out) ↔
      (wpsIe = true → Prog.Each ReqFits reqNext (dev, .success) f.attrs)) ∧
    ((∃ n out, (processP2pGroupNegotationResp n nego wpsIe f).Settles Dest.size out) ↔
      Prog.Each RespFits respNext
        (if wpsIe then (nego, 0) else ({ nego with state := .gonegoFail }, 2)) f.attrs) ∧
    ((∃ out, (processP2pGroupNegotationConfirm nego f).Settles Dest.size out) ↔
      Prog.Each (fun _ => ConfFits) confNext (nego, 0) f.attrs) ∧
    ((∃ out, (onInvitReq inv g).Settles Dest.size out) ↔
      (g.p2pIes ≠ [] → (∀ size ∈ g.merged.1.sizes, 0 ≤ size) ∧ InviteFits inv g.mergedAttrs)) ∧
    ((∃ n out, (processP2pPsIe n ps b).Settles Dest.size out) ↔
      (ps.stateNone = false → beaconIeOffset < b.len → NoticeFits ps b.attrs)) :=
  ⟨request_iff, response_iff, confirm_iff, invitation_iff, notice_iff⟩

def oneAttr (offset : ℕ) (id : UInt8) (content : List UInt8) : List UInt8 :=
  List.replicate offset 0 ++ 221 :: UInt8.ofNat (content.length + 7) ::
    (P2pAttrs.p2pOui ++ id :: UInt8.ofNat content.length :: 0 :: content)

def longStatus : Body publicActionIeOffset :=
  ⟨oneAttr 8 attrStatus [0, 0], 19, by decide +kernel⟩

def cutList : Body publicActionIeOffset :=
  ⟨oneAttr 8 attrChList [0x58, 0x58, 4, 81], 21, by decide +kernel⟩

def threeDescriptors : Body beaconIeOffset :=
  ⟨oneAttr 12 attrNoa (List.replicate 41 1), 62, by decide +kernel⟩

def negotiator : Negotiator where
  state := .gonegoIng
  preState := .listen
  role := .device
  intent := 7
  peerIntent := 0
  deviceAddr := List.replicate 6 0
  negoSsid := []
  p2pPeerInterfaceAddr := List.replicate 6 0
  peerOperatingCh := 0
  channelListAttr := List.replicate 100 0
  operatingChannel := 1
  goDeviceAddr := List.replicate 6 0
  ssid := List.replicate 32 0
  channelSet := List.range' 1 13

def associated : PsInfo where
  stateNone := false
  psMode := .none
  noaIndex := 0
  oppPs := 0
  ctwindow := 0
  noaNum := 0
  noaCount := List.replicate 2 0
  noaDuration := List.replicate 2 []
  noaInterval := List.replicate 2 []
  noaStartTime := List.replicate 2 []
  fwCurrentInPsMode := false
  wkCmds := []

/-- The status is copied behind a byte, the walk goes on behind the list, and the third descriptor
has no entry. -/
theorem attributes_overflow :
    (¬ ∃ out, (processP2pGroupNegotationConfirm negotiator longStatus).Settles Dest.size out) ∧
      (¬ ∃ n out, (processP2pGroupNegotationReq n (device (List.range' 1 13)) true cutList).Settles
        Dest.size out) ∧
      ¬ ∃ n out, (processP2pPsIe n associated threeDescriptors).Settles Dest.size out := by
  have hstatus : longStatus.p2pIes = [(8, 11)] := by decide +kernel
  have hlist : cutList.p2pIes = [(8, 13)] := by decide +kernel
  have hnotice : threeDescriptors.p2pIes = [(12, 50)] := by decide +kernel
  refine ⟨fun h => ?_, fun h => ?_, fun h => ?_⟩
  · have hfits := confirm_iff.mp h
    rw [Body.attrs, hstatus] at hfits
    have hone := hfits.1.status [0, 0] (by decide +kernel)
    exact absurd hone (by decide)
  · have hfits := request_iff.mp h rfl
    rw [Body.attrs, hlist] at hfits
    obtain ⟨incl, hincl, -⟩ := hfits.1.channels [0x58, 0x58, 4, 81] (by decide +kernel)
    have hnone : listChannels [0x58, 0x58, 4, 81] = none := by decide +kernel
    rw [common, hnone] at hincl
    cases hincl
  · have hfits := notice_iff.mp h rfl (by decide)
    rw [Body.attrs, hnotice] at hfits
    have hlong := hfits (List.replicate 41 1) (by decide +kernel) (by decide +kernel)
    exact absurd hlong (by decide)

end Rtl8189.P2pHandlers
