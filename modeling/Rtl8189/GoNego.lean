import Mathlib.Logic.Function.Basic
import Rtl8189.EventRun
import Rtl8189.FieldWidths

/-!
# Group owner negotiation

Two devices negotiate which becomes the group owner by a request, a response
and a confirm frame, handled in the driver with the WPS information given. The
air holds the frames that are not yet delivered; each can be delivered, lost or
doubled. Of the information elements a frame is what the other side reads of
it: the status, the GO intent with its tie breaker, the operating channel and
the channel list.
-/
namespace Rtl8189.GoNego

open Rtl8189.EventRun

/-- The states of `enum P2P_STATE` that the negotiation uses. -/
inductive P2pState where
  | none
  | idle
  | listen
  | gonegoIng
  | gonegoOk
  | gonegoFail
  | rxInforNoready
  deriving DecidableEq

inductive Role where
  | device
  | client
  | go
  deriving DecidableEq

inductive Status where
  | success
  | failInfoUnavailable
  | failNoCommonCh
  | failBothGointent15
  deriving DecidableEq

def p2pMaxIntent : ℕ := 15

structure WifidirectInfo where
  state : P2pState
  preState : P2pState
  role : Role
  intent : Fin 16
  /-- intent and tie breaker as received -/
  peerIntent : ℕ
  operatingChannel : ℕ
  peerOperatingCh : ℕ
  /-- `nego_req_info.benable`: a request waits for the probe response of the peer -/
  benable : Bool
  operationCh : ℕ
  scanOpChOnly : Bool
  /-- regulatory classes with their channels, as sent -/
  channelList : List (ℕ × List ℕ)
  channelSet : List ℕ

inductive Frame where
  | req (goIntent operatingCh : ℕ) (chList : List (ℕ × List ℕ))
  | resp (status : Status) (goIntent operatingCh : ℕ) (chList : List (ℕ × List ℕ))
  | conf (status : Status) (operatingCh : ℕ)
  deriving DecidableEq

def rtwP2pGetPeerChList (chContent : List (ℕ × List ℕ)) : List ℕ := chContent.flatMap Prod.snd

def rtwP2pChInclusion (channelSet : List ℕ) : List ℕ → ℕ → List ℕ
  | [], _ => []
  | c :: cs, temp =>
    match (channelSet.drop temp).findIdx? (· = c) with
    | some j => c :: rtwP2pChInclusion channelSet cs (temp + j)
    | Option.none => rtwP2pChInclusion channelSet cs temp

namespace WifidirectInfo

def chInclusion (w : WifidirectInfo) (chContent : List (ℕ × List ℕ)) : List ℕ :=
  rtwP2pChInclusion w.channelSet (rtwP2pGetPeerChList chContent) 0

/-- The operating channel of a group owner, moved to a common channel where it is none. -/
def chooseOpCh (w : WifidirectInfo) (incl : List ℕ) (peerOpCh : ℕ) : WifidirectInfo :=
  if w.operatingChannel ∈ incl then w
  else { w with operatingChannel := if peerOpCh ∈ incl then peerOpCh else incl.headD 0 }

/-- The tie breaker where the intents are equal, else the higher intent. -/
def roleOf (intent peerIntent : ℕ) : Role :=
  if intent = peerIntent / 2 then (if peerIntent % 2 = 1 then .client else .go)
  else if intent > peerIntent / 2 then .go
  else .client

/-- The channel list of the peer: without a common channel the negotiation fails. -/
def settleChannel (w : WifidirectInfo) (result : Status) (operatingCh : ℕ)
    (chList : List (ℕ × List ℕ)) : WifidirectInfo × Status :=
  let incl := w.chInclusion chList
  if incl = [] then ({ w with state := .gonegoFail }, .failNoCommonCh)
  else (if w.role = .go then w.chooseOpCh incl operatingCh else w, result)

def processReq (w : WifidirectInfo) (goIntent operatingCh : ℕ) (chList : List (ℕ × List ℕ)) :
    WifidirectInfo × Status :=
  let w := { w with state := .gonegoIng, peerIntent := goIntent }
  let both15 := w.intent.val = goIntent / 2 ∧ w.intent.val = p2pMaxIntent
  if both15 then
    { w with role := .device }.settleChannel .failBothGointent15 operatingCh chList
  else
    { w with role := roleOf w.intent goIntent }.settleChannel .success operatingCh chList

def processResp (w : WifidirectInfo) (status : Status) (goIntent operatingCh : ℕ)
    (chList : List (ℕ × List ℕ)) : WifidirectInfo × Status :=
  if status ≠ .success then
    ({ w with
        state := if status = .failInfoUnavailable then .rxInforNoready else .gonegoFail
        role := .device }, status)
  else
    let w := { w with peerIntent := goIntent, peerOperatingCh := operatingCh }
    let both15 := w.intent.val = goIntent / 2 ∧ w.intent.val = p2pMaxIntent
    if both15 then
      { w with role := .device, state := .gonegoFail }.settleChannel .failBothGointent15
        operatingCh chList
    else
      { w with
        state := .gonegoOk, preState := .gonegoOk
        role := roleOf w.intent goIntent }.settleChannel .success operatingCh chList

def processConf (w : WifidirectInfo) (status : Status) (operatingCh : ℕ) :
    WifidirectInfo × Status :=
  if status ≠ .success then ({ w with role := .device, state := .gonegoFail }, status)
  else ({ w with
    state := .gonegoOk, preState := .gonegoOk
    role := roleOf w.intent w.peerIntent, peerOperatingCh := operatingCh }, status)

/-- The tie breaker bit of a request is always 0. -/
def goRequest (w : WifidirectInfo) : Frame :=
  .req (w.intent.val * 2) w.operatingChannel w.channelList

/-- The tie breaker bit of a response is the peer's inverted. -/
def goResponse (w : WifidirectInfo) (result : Status) : Frame :=
  .resp result (w.intent.val * 2 + if w.peerIntent % 2 = 1 then 0 else 1) w.operatingChannel
    w.channelList

def goConfirm (w : WifidirectInfo) (result : Status) : Frame :=
  .conf result (if w.role = .client then w.peerOperatingCh else w.operatingChannel)

def scanOpCh (w : WifidirectInfo) (result : Status) : WifidirectInfo :=
  if result = .success ∧ w.role = .client then
    { w with operationCh := w.peerOperatingCh, scanOpChOnly := true }
  else w

def onActionPublicP2p (w : WifidirectInfo) (f : Frame) : WifidirectInfo × Option Frame :=
  if w.state = .none ∨ w.state = .idle then (w, Option.none)
  else match f with
  | .req goIntent operatingCh chList =>
    let w := if w.state = .gonegoFail then { w with state := w.preState } else w
    let w := if w.state ≠ .gonegoIng then { w with preState := w.state } else w
    let (w, result) := w.processReq goIntent operatingCh chList
    (w, some (w.goResponse result))
  | .resp status goIntent operatingCh chList =>
    if w.state = .gonegoIng then
      let w := { w with benable := false }
      let (w, result) := w.processResp status goIntent operatingCh chList
      (w.scanOpCh result, some (w.goConfirm result))
    else (w, Option.none)
  | .conf status operatingCh =>
    let (w, result) := w.processConf status operatingCh
    (w.scanOpCh result, Option.none)

def rtwP2pConnect (w : WifidirectInfo) : WifidirectInfo :=
  if w.state = .none then w
  else
    let w := { w with benable := true }
    let w := if w.state ≠ .gonegoOk then { w with state := .listen } else w
    { w with preState := w.state, state := .gonegoIng }

def onProbeRsp (w : WifidirectInfo) : WifidirectInfo × Option Frame :=
  if w.state = .gonegoIng ∧ w.benable = true then
    ({ w with benable := false }, some w.goRequest)
  else (w, Option.none)

def restoreP2pState (w : WifidirectInfo) : WifidirectInfo :=
  let w := if w.state = .gonegoIng ∨ w.state = .gonegoFail then { w with role := .device } else w
  { w with state := w.preState }

end WifidirectInfo

structure Link where
  dev : Bool → WifidirectInfo
  air : List (Bool × Frame)
  /-- the sender of the last request -/
  owner : Option Bool

inductive Event where
  | connect (d : Bool)
  | probeRsp (d : Bool)
  | deliver (i : ℕ)
  | lose (i : ℕ)
  | double (i : ℕ)
  | restoreTimer (d : Bool)

namespace Link

def set (l : Link) (d : Bool) (w : WifidirectInfo) : Link :=
  { l with dev := Function.update l.dev d w }

def send (l : Link) (d : Bool) (f : Option Frame) : Link :=
  { l with air := l.air ++ (f.map (Prod.mk d)).toList }

def step (l : Link) : Event → Link
  | .connect d => l.set d (l.dev d).rtwP2pConnect
  | .probeRsp d =>
    let r := (l.dev d).onProbeRsp
    let l := (l.set d r.1).send d r.2
    if r.2.isSome then { l with owner := some d } else l
  | .deliver i =>
    match l.air[i]? with
    | some (e, f) =>
      let r := (l.dev (!e)).onActionPublicP2p f
      ({ l with air := l.air.eraseIdx i }.set (!e) r.1).send (!e) r.2
    | Option.none => l
  | .lose i => { l with air := l.air.eraseIdx i }
  | .double i => { l with air := l.air ++ l.air[i]?.toList }
  | .restoreTimer d => l.set d (l.dev d).restoreP2pState

end Link

namespace WifidirectInfo

variable {w : WifidirectInfo}

structure SameSetup (w w' : WifidirectInfo) : Prop where
  intent : w'.intent = w.intent
  channelList : w'.channelList = w.channelList
  channelSet : w'.channelSet = w.channelSet

theorem settleChannel_spec (w : WifidirectInfo) (result : Status) (operatingCh : ℕ)
    (chList : List (ℕ × List ℕ)) :
    w.settleChannel result operatingCh chList = ({ w with state := .gonegoFail }, .failNoCommonCh) ∨
      ∃ op, w.settleChannel result operatingCh chList =
          ({ w with operatingChannel := op }, result) ∧
        (w.role = .go → op ∈ w.chInclusion chList) ∧
        (w.operatingChannel ∈ w.chInclusion chList → op = w.operatingChannel) := by
  simp only [settleChannel]
  by_cases hincl : w.chInclusion chList = []
  · exact .inl (if_pos hincl)
  · rw [if_neg hincl]
    refine .inr ?_
    by_cases hgo : w.role = .go
    · rw [if_pos hgo, chooseOpCh]
      by_cases hop : w.operatingChannel ∈ w.chInclusion chList
      · rw [if_pos hop]
        exact ⟨w.operatingChannel, rfl, fun _ => hop, fun _ => rfl⟩
      · rw [if_neg hop]
        refine ⟨_, rfl, fun _ => ?_, fun h => absurd h hop⟩
        split
        · assumption
        · cases hl : w.chInclusion chList with
          | nil => exact absurd hl hincl
          | cons c cs => exact List.mem_cons_self
    · rw [if_neg hgo]
      exact ⟨w.operatingChannel, rfl, fun h => absurd h hgo, fun _ => rfl⟩

/-- Reading a request: a device that agrees has the role of its intent, as a group owner on a
common channel, and is not yet done. -/
theorem processReq_spec (w : WifidirectInfo) (goIntent operatingCh : ℕ)
    (chList : List (ℕ × List ℕ)) :
    ∃ w' result, w.processReq goIntent operatingCh chList = (w', result) ∧ SameSetup w w' ∧
      w'.peerIntent = goIntent ∧ w'.state ≠ .gonegoOk ∧
      (w.operatingChannel ∈ w.chInclusion chList → w'.operatingChannel = w.operatingChannel) ∧
      (result = .success → ¬ (w.intent.val = goIntent / 2 ∧ w.intent.val = 15) ∧
        (roleOf w.intent goIntent = .go → w'.operatingChannel ∈ w.chInclusion chList)) := by
  simp only [processReq]
  split
  · rcases settleChannel_spec { w with
        state := .gonegoIng, peerIntent := goIntent, role := .device } .failBothGointent15
        operatingCh chList with heq | ⟨op, heq, -, hsame⟩
    · exact ⟨_, _, heq, ⟨rfl, rfl, rfl⟩, rfl, nofun, fun _ => rfl, nofun⟩
    · exact ⟨_, _, heq, ⟨rfl, rfl, rfl⟩, rfl, nofun, hsame, nofun⟩
  · next hnot =>
    rcases settleChannel_spec { w with
        state := .gonegoIng, peerIntent := goIntent, role := roleOf w.intent goIntent } .success
        operatingCh chList with heq | ⟨op, heq, hgo, hsame⟩
    · exact ⟨_, _, heq, ⟨rfl, rfl, rfl⟩, rfl, nofun, fun _ => rfl, nofun⟩
    · exact ⟨_, _, heq, ⟨rfl, rfl, rfl⟩, rfl, nofun, hsame, fun _ => ⟨hnot, hgo⟩⟩

theorem processResp_spec (w : WifidirectInfo) (status : Status) (goIntent operatingCh : ℕ)
    (chList : List (ℕ × List ℕ)) :
    ∃ w' result, w.processResp status goIntent operatingCh chList = (w', result) ∧
      SameSetup w w' ∧ (w'.peerIntent = w.peerIntent ∨ w'.peerIntent = goIntent) ∧
      (w.operatingChannel ∈ w.chInclusion chList → w'.operatingChannel = w.operatingChannel) ∧
      (w'.state = .gonegoOk → result = .success) ∧
      (result = .success → status = .success ∧ w'.state = .gonegoOk ∧ w'.preState = .gonegoOk ∧
        w'.peerIntent = goIntent ∧ w'.role = roleOf w.intent goIntent ∧
        w'.peerOperatingCh = operatingCh ∧
        ¬ (w.intent.val = goIntent / 2 ∧ w.intent.val = 15) ∧
        (roleOf w.intent goIntent = .go → w'.operatingChannel ∈ w.chInclusion chList)) := by
  simp only [processResp]
  split
  · next hst =>
    refine ⟨_, _, rfl, ⟨rfl, rfl, rfl⟩, .inl rfl, fun _ => rfl, ?_, fun h => absurd h hst⟩
    intro hok
    have : (if status = .failInfoUnavailable then P2pState.rxInforNoready else .gonegoFail) ≠
        .gonegoOk := by split <;> decide
    exact absurd hok this
  · next hst =>
    split
    · rcases settleChannel_spec { w with
          peerIntent := goIntent, peerOperatingCh := operatingCh
          role := .device, state := .gonegoFail } .failBothGointent15 operatingCh chList with
        heq | ⟨op, heq, -, hsame⟩
      · exact ⟨_, _, heq, ⟨rfl, rfl, rfl⟩, .inr rfl, fun _ => rfl, nofun, nofun⟩
      · exact ⟨_, _, heq, ⟨rfl, rfl, rfl⟩, .inr rfl, hsame, nofun, nofun⟩
    · next hnot =>
      rcases settleChannel_spec { w with
          peerIntent := goIntent, peerOperatingCh := operatingCh
          state := .gonegoOk, preState := .gonegoOk, role := roleOf w.intent goIntent } .success
          operatingCh chList with heq | ⟨op, heq, hgo, hsame⟩
      · exact ⟨_, _, heq, ⟨rfl, rfl, rfl⟩, .inr rfl, fun _ => rfl, nofun, nofun⟩
      · exact ⟨_, _, heq, ⟨rfl, rfl, rfl⟩, .inr rfl, hsame, fun _ => rfl,
          fun _ => ⟨Decidable.not_not.1 hst, rfl, rfl, rfl, rfl, rfl, hnot, hgo⟩⟩

end WifidirectInfo

def negotiationOf : Bool × Frame → Bool
  | (d, .req ..) => d
  | (d, .resp ..) => !d
  | (d, .conf ..) => d

def Frame.isReq : Frame → Bool
  | .req .. => true
  | _ => false

section Inv

variable (I : Bool → Fin 16) (L : Bool → List (ℕ × List ℕ)) (S : Bool → List ℕ)

def Both15 : Prop := ∀ d, (I d).val = 15

def incl (d : Bool) : List ℕ := rtwP2pChInclusion (S d) (rtwP2pGetPeerChList (L (!d))) 0

def OnCommon (dev : Bool → WifidirectInfo) (d : Bool) : Prop :=
  (dev d).operatingChannel ∈ incl L S d

/-- A frame tells the truth about its sender, and its receiver has read what led to it. -/
def FrameOk (dev : Bool → WifidirectInfo) : Bool × Frame → Prop
  | (d, .req goIntent _ chList) => goIntent = (I d).val * 2 ∧ chList = L d
  | (d, .resp status goIntent operatingCh chList) =>
    goIntent = (I d).val * 2 + 1 ∧ chList = L d ∧ (dev d).peerIntent / 2 = I (!d) ∧
      (status = .success → ¬ Both15 I ∧ ((I (!d)).val ≤ I d →
        OnCommon L S dev d ∧ operatingCh = (dev d).operatingChannel))
  | (d, .conf status operatingCh) =>
    (dev !d).peerIntent / 2 = I d ∧
      (status = .success → ¬ Both15 I ∧ ((I (!d)).val < I d →
        OnCommon L S dev d ∧ operatingCh = (dev d).operatingChannel))

structure DevOk (dev : Bool → WifidirectInfo) (d : Bool) : Prop where
  preState : (dev d).preState = .gonegoOk
  role : (dev d).role = WifidirectInfo.roleOf (I d) (dev d).peerIntent
  peerIntent : (dev d).peerIntent / 2 = I (!d)
  not15 : ¬ Both15 I
  channel : (dev d).role = .client →
    OnCommon L S dev (!d) ∧ (dev d).peerOperatingCh = (dev !d).operatingChannel

/-- With equal intents only the negotiation of `x` is under way: it read the response last, its
peer the request. -/
structure Owned (l : Link) (x : Bool) : Prop where
  air : ∀ p ∈ l.air, negotiationOf p = x
  tie : (l.dev x).state = .gonegoOk →
    (l.dev x).peerIntent % 2 = 1 ∧ (l.dev !x).peerIntent % 2 = 0
  answered : ∀ p ∈ l.air, p.2.isReq = false → (l.dev !x).peerIntent % 2 = 0

structure Inv (l : Link) : Prop where
  intent : ∀ d, (l.dev d).intent = I d
  channelList : ∀ d, (l.dev d).channelList = L d
  channelSet : ∀ d, (l.dev d).channelSet = S d
  frame : ∀ p ∈ l.air, FrameOk I L S l.dev p
  dev : ∀ d, (l.dev d).state = .gonegoOk → DevOk I L S l.dev d
  fresh : l.owner = none → l.air = [] ∧ ∀ d, (l.dev d).state ≠ .gonegoOk
  owned : I true = I false → ¬ Both15 I → ∀ x, l.owner = some x → Owned l x

end Inv

/-- With equal intents a request is sent only when no frame of a negotiation of the peer is in
the air, and the restore timer does not bring back `P2P_STATE_GONEGO_OK`. -/
def Clean (l : Link) : Event → Prop
  | .probeRsp d =>
    (l.dev true).intent = (l.dev false).intent ∧ (l.dev true).intent.val ≠ 15 →
      (l.dev d).state = .gonegoIng ∧ (l.dev d).benable = true →
        ∀ p ∈ l.air, negotiationOf p = d
  | .restoreTimer d => (l.dev d).state ≠ .gonegoOk → (l.dev d).preState ≠ .gonegoOk
  | _ => True

instance (l : Link) (e : Event) : Decidable (Clean l e) := by
  cases e <;> unfold Clean <;> infer_instance

variable {I : Bool → Fin 16} {L : Bool → List (ℕ × List ℕ)} {S : Bool → List ℕ}

/-- A change of device `d` that the frames in the air and the other device do not notice. -/
structure Quiet (I : Bool → Fin 16) (L : Bool → List (ℕ × List ℕ)) (S : Bool → List ℕ)
    (dev : Bool → WifidirectInfo) (d : Bool) (w : WifidirectInfo) : Prop where
  peerIntent : (dev d).peerIntent / 2 = I (!d) → w.peerIntent / 2 = I (!d)
  operatingChannel : OnCommon L S dev d → w.operatingChannel = (dev d).operatingChannel

theorem Quiet.onCommon {dev : Bool → WifidirectInfo} {d : Bool} {w : WifidirectInfo}
    (h : Quiet I L S dev d w) (e : Bool) (he : OnCommon L S dev e) :
    OnCommon L S (Function.update dev d w) e ∧
      (Function.update dev d w e).operatingChannel = (dev e).operatingChannel := by
  by_cases hed : e = d
  · subst hed
    have hop := h.operatingChannel he
    simp only [OnCommon, Function.update_self, hop]
    exact ⟨he, trivial⟩
  · simp only [OnCommon, Function.update_of_ne hed]
    exact ⟨he, trivial⟩

theorem Quiet.peer {dev : Bool → WifidirectInfo} {d : Bool} {w : WifidirectInfo}
    (h : Quiet I L S dev d w) (e : Bool) (he : (dev e).peerIntent / 2 = I (!e)) :
    (Function.update dev d w e).peerIntent / 2 = I (!e) := by
  by_cases hed : e = d
  · subst hed
    rw [Function.update_self]
    exact h.peerIntent he
  · rw [Function.update_of_ne hed]
    exact he

theorem Quiet.frame {dev : Bool → WifidirectInfo} {d : Bool} {w : WifidirectInfo}
    (h : Quiet I L S dev d w) {p : Bool × Frame} (hp : FrameOk I L S dev p) :
    FrameOk I L S (Function.update dev d w) p := by
  obtain ⟨e, f⟩ := p
  cases f with
  | req goIntent operatingCh chList => exact hp
  | resp status goIntent operatingCh chList =>
    obtain ⟨hgi, hcl, hpeer, hsucc⟩ := hp
    refine ⟨hgi, hcl, h.peer e hpeer, fun hst => ⟨(hsucc hst).1, fun hle => ?_⟩⟩
    obtain ⟨hon, hop⟩ := (hsucc hst).2 hle
    obtain ⟨hon', hop'⟩ := h.onCommon e hon
    exact ⟨hon', hop.trans hop'.symm⟩
  | conf status operatingCh =>
    obtain ⟨hpeer, hsucc⟩ := hp
    refine ⟨?_, fun hst => ⟨(hsucc hst).1, fun hlt => ?_⟩⟩
    · have := h.peer (!e) (by rw [Bool.not_not]; exact hpeer)
      rw [Bool.not_not] at this
      exact this
    · obtain ⟨hon, hop⟩ := (hsucc hst).2 hlt
      obtain ⟨hon', hop'⟩ := h.onCommon e hon
      exact ⟨hon', hop.trans hop'.symm⟩

theorem Quiet.other {dev : Bool → WifidirectInfo} {d : Bool} {w : WifidirectInfo}
    (h : Quiet I L S dev d w) (hd : DevOk I L S dev (!d)) :
    DevOk I L S (Function.update dev d w) (!d) := by
  have hne : (!d) ≠ d := by cases d <;> decide
  refine ⟨?_, ?_, ?_, hd.not15, ?_⟩
  · rw [Function.update_of_ne hne]
    exact hd.preState
  · rw [Function.update_of_ne hne]
    exact hd.role
  · rw [Function.update_of_ne hne]
    exact hd.peerIntent
  · rw [Function.update_of_ne hne]
    intro hrole
    obtain ⟨hon, hop⟩ := hd.channel hrole
    rw [Bool.not_not] at hon hop ⊢
    obtain ⟨hon', hop'⟩ := h.onCommon d hon
    exact ⟨hon', hop.trans hop'.symm⟩

namespace WifidirectInfo

theorem roleOf_eq_client {i p : ℕ} (h : roleOf i p = .client) :
    i < p / 2 ∨ i = p / 2 ∧ p % 2 = 1 := by
  rw [roleOf] at h
  split at h
  · next heq =>
    split at h
    · next htie => exact .inr ⟨heq, htie⟩
    · cases h
  · next hne =>
    split at h
    · cases h
    · exact .inl (by omega)

theorem roleOf_go {i p : ℕ} (h : p / 2 < i ∨ p / 2 = i ∧ p % 2 = 0) : roleOf i p = .go := by
  rw [roleOf]
  rcases h with hlt | ⟨heq, htie⟩
  · rw [if_neg (by omega), if_pos hlt]
  · rw [if_pos heq.symm, if_neg (by omega)]

theorem scanOpCh_rest (w : WifidirectInfo) (result : Status) :
    ∃ ch only, w.scanOpCh result = { w with operationCh := ch, scanOpChOnly := only } := by
  rw [scanOpCh]
  split
  · exact ⟨_, _, rfl⟩
  · exact ⟨w.operationCh, w.scanOpChOnly, rfl⟩

theorem state_self {w : WifidirectInfo} {state : P2pState} (h : w.state = state) :
    { w with state := state } = w := by
  subst h
  rfl

theorem onActionPublicP2p_req {w : WifidirectInfo} (h : ¬ (w.state = .none ∨ w.state = .idle))
    (goIntent operatingCh : ℕ) (chList : List (ℕ × List ℕ)) :
    ∃ state preState r,
      { w with state := state, preState := preState }.processReq goIntent operatingCh chList = r ∧
      w.onActionPublicP2p (.req goIntent operatingCh chList) =
        (r.1, some (r.1.goResponse r.2)) := by
  simp only [onActionPublicP2p, if_neg h]
  by_cases hfail : w.state = .gonegoFail
  · simp only [if_pos hfail]
    by_cases hing : w.preState ≠ .gonegoIng
    · simp only [if_pos hing]
      exact ⟨w.preState, w.preState, _, rfl, rfl⟩
    · simp only [if_neg hing]
      exact ⟨w.preState, w.preState, _, rfl, rfl⟩
  · simp only [if_neg hfail]
    by_cases hing : w.state ≠ .gonegoIng
    · simp only [if_pos hing]
      exact ⟨w.state, w.state, _, rfl, rfl⟩
    · simp only [if_neg hing]
      exact ⟨w.state, w.preState, _, rfl, rfl⟩

theorem rtwP2pConnect_eq {w : WifidirectInfo} (h : w.state ≠ .none) :
    ∃ pre, w.rtwP2pConnect = { w with benable := true, preState := pre, state := .gonegoIng } := by
  rw [rtwP2pConnect, if_neg h]
  by_cases hok : w.state ≠ .gonegoOk
  · exact ⟨.listen, by simp only [if_pos hok]⟩
  · exact ⟨w.state, by simp only [if_neg hok]⟩

theorem restoreP2pState_eq (w : WifidirectInfo) :
    ∃ role, w.restoreP2pState = { w with role := role, state := w.preState } := by
  rw [restoreP2pState]
  by_cases h : w.state = .gonegoIng ∨ w.state = .gonegoFail
  · exact ⟨.device, by simp only [if_pos h]⟩
  · exact ⟨w.role, by simp only [if_neg h]⟩

end WifidirectInfo

theorem not_self (d : Bool) : (!d) ≠ d := by cases d <;> decide

theorem eq_not_of_ne {x d : Bool} (h : x ≠ d) : x = !d := by
  cases x <;> cases d <;> simp_all

theorem Inv.subset {l : Link} (h : Inv I L S l) {air : List (Bool × Frame)}
    (hair : ∀ p ∈ air, p ∈ l.air) : Inv I L S { l with air := air } := by
  refine ⟨h.intent, h.channelList, h.channelSet, fun p hp => h.frame p (hair p hp), ?_, ?_, ?_⟩
  · intro d hd
    have hok := h.dev d hd
    exact ⟨hok.preState, hok.role, hok.peerIntent, hok.not15, hok.channel⟩
  · intro hown
    obtain ⟨hnil, hst⟩ := h.fresh hown
    refine ⟨List.eq_nil_iff_forall_not_mem.2 fun p hp => ?_, hst⟩
    have := hair p hp
    rw [hnil] at this
    cases this
  · intro heq h15 x hx
    have ho := h.owned heq h15 x hx
    exact ⟨fun p hp => ho.air p (hair p hp), ho.tie, fun p hp => ho.answered p (hair p hp)⟩

/-- Device `d` changes, and may send: what is left to show is about `d`, its frame, and with
equal intents the negotiation under way. -/
theorem Inv.update {l : Link} (h : Inv I L S l) {d : Bool} {w : WifidirectInfo}
    {air : List (Bool × Frame)} (owner : Option Bool)
    (hsetup : WifidirectInfo.SameSetup (l.dev d) w) (hq : Quiet I L S l.dev d w)
    (hok : w.state = .gonegoOk → DevOk I L S (Function.update l.dev d w) d)
    (hair : ∀ p ∈ air, p ∈ l.air ∨ FrameOk I L S (Function.update l.dev d w) p)
    (hfresh : owner = none → l.owner = none ∧ air = [] ∧ w.state ≠ .gonegoOk)
    (howned : I true = I false → ¬ Both15 I → ∀ x, owner = some x →
      Owned ⟨Function.update l.dev d w, air, owner⟩ x) :
    Inv I L S ⟨Function.update l.dev d w, air, owner⟩ := by
  have hcases : ∀ e : Bool, e = d ∨ e = !d := by
    intro e
    by_cases hed : e = d
    · exact .inl hed
    · exact .inr (eq_not_of_ne hed)
  refine ⟨?_, ?_, ?_, ?_, ?_, ?_, howned⟩
  · intro e
    change (Function.update l.dev d w e).intent = I e
    rcases hcases e with rfl | rfl
    · rw [Function.update_self, hsetup.intent, h.intent]
    · rw [Function.update_of_ne (not_self d), h.intent]
  · intro e
    change (Function.update l.dev d w e).channelList = L e
    rcases hcases e with rfl | rfl
    · rw [Function.update_self, hsetup.channelList, h.channelList]
    · rw [Function.update_of_ne (not_self d), h.channelList]
  · intro e
    change (Function.update l.dev d w e).channelSet = S e
    rcases hcases e with rfl | rfl
    · rw [Function.update_self, hsetup.channelSet, h.channelSet]
    · rw [Function.update_of_ne (not_self d), h.channelSet]
  · intro p hp
    rcases hair p hp with hin | hnew
    · exact hq.frame (h.frame p hin)
    · exact hnew
  · intro e he
    change (Function.update l.dev d w e).state = .gonegoOk at he
    rcases hcases e with rfl | rfl
    · rw [Function.update_self] at he
      exact hok he
    · rw [Function.update_of_ne (not_self d)] at he
      exact hq.other (h.dev _ he)
  · intro hown
    obtain ⟨hown', hnil, hst⟩ := hfresh hown
    refine ⟨hnil, fun e => ?_⟩
    change (Function.update l.dev d w e).state ≠ .gonegoOk
    rcases hcases e with rfl | rfl
    · rw [Function.update_self]
      exact hst
    · rw [Function.update_of_ne (not_self d)]
      exact (h.fresh hown').2 _

theorem Inv.update_same {l : Link} (h : Inv I L S l) {d : Bool} {w : WifidirectInfo}
    {air : List (Bool × Frame)} (hsetup : WifidirectInfo.SameSetup (l.dev d) w)
    (hpeer : w.peerIntent = (l.dev d).peerIntent)
    (hop : w.operatingChannel = (l.dev d).operatingChannel) (hst : w.state ≠ .gonegoOk)
    (hair : ∀ p ∈ air, p ∈ l.air) : Inv I L S ⟨Function.update l.dev d w, air, l.owner⟩ := by
  have hpeers : ∀ e, (Function.update l.dev d w e).peerIntent = (l.dev e).peerIntent := by
    intro e
    by_cases hed : e = d
    · rw [hed, Function.update_self, hpeer]
    · rw [Function.update_of_ne hed]
  refine h.update l.owner hsetup ⟨fun hp => hpeer ▸ hp, fun _ => hop⟩ (fun hok => absurd hok hst)
    (fun p hp => .inl (hair p hp)) ?_ ?_
  · intro hown
    refine ⟨hown, (h.subset hair).fresh hown |>.1, hst⟩
  · intro heq h15 x hx
    have ho := h.owned heq h15 x hx
    refine ⟨fun p hp => ho.air p (hair p hp), ?_, ?_⟩
    · intro hxok
      change (Function.update l.dev d w x).state = .gonegoOk at hxok
      change (Function.update l.dev d w x).peerIntent % 2 = 1 ∧
        (Function.update l.dev d w (!x)).peerIntent % 2 = 0
      rw [hpeers, hpeers]
      by_cases hxd : x = d
      · rw [hxd, Function.update_self] at hxok
        exact absurd hxok hst
      · rw [Function.update_of_ne hxd] at hxok
        exact ho.tie hxok
    · intro p hp hreq
      change (Function.update l.dev d w (!x)).peerIntent % 2 = 0
      rw [hpeers]
      exact ho.answered p (hair p hp) hreq

theorem Inv.unchanged {l : Link} (h : Inv I L S l) (d : Bool) {air : List (Bool × Frame)}
    (hair : ∀ p ∈ air, p ∈ l.air) :
    Inv I L S ⟨Function.update l.dev d (l.dev d), air, l.owner⟩ := by
  rw [Function.update_eq_self]
  exact h.subset hair

theorem Inv.connect {l : Link} (h : Inv I L S l) (d : Bool) :
    Inv I L S (l.set d (l.dev d).rtwP2pConnect) := by
  by_cases hst : (l.dev d).state = .none
  · rw [WifidirectInfo.rtwP2pConnect, if_pos hst]
    exact h.unchanged d fun _ hp => hp
  · obtain ⟨pre, heq⟩ := WifidirectInfo.rtwP2pConnect_eq hst
    rw [heq]
    exact h.update_same ⟨rfl, rfl, rfl⟩ rfl rfl nofun fun _ hp => hp

theorem Inv.restoreTimer {l : Link} (h : Inv I L S l) {d : Bool}
    (hclean : Clean l (.restoreTimer d)) : Inv I L S (l.set d (l.dev d).restoreP2pState) := by
  by_cases hst : (l.dev d).state = .gonegoOk
  · have hsame : (l.dev d).restoreP2pState = l.dev d := by
      have hpre : (l.dev d).preState = (l.dev d).state := (h.dev d hst).preState.trans hst.symm
      have hne : ¬ ((l.dev d).state = .gonegoIng ∨ (l.dev d).state = .gonegoFail) := by
        rw [hst]
        nofun
      simp only [WifidirectInfo.restoreP2pState, if_neg hne]
      exact WifidirectInfo.state_self hpre.symm
    rw [hsame]
    exact h.unchanged d fun _ hp => hp
  · obtain ⟨role, heq⟩ := WifidirectInfo.restoreP2pState_eq (l.dev d)
    rw [heq]
    exact h.update_same ⟨rfl, rfl, rfl⟩ rfl rfl (hclean hst) fun _ hp => hp

/-- With equal intents a request sent takes the negotiation over: what is still in the air is
of an earlier one of the same sender. -/
theorem Inv.probeRsp {l : Link} (h : Inv I L S l) {d : Bool} (hclean : Clean l (.probeRsp d)) :
    Inv I L S (l.step (.probeRsp d)) := by
  simp only [Link.step, WifidirectInfo.onProbeRsp]
  split
  · next hsend =>
    have hst : (l.dev d).state ≠ .gonegoOk := by rw [hsend.1]; nofun
    have hq : Quiet I L S l.dev d { l.dev d with benable := false } := ⟨id, fun _ => rfl⟩
    have hsent : ∀ p ∈ l.air ++ [(d, (l.dev d).goRequest)],
        p ∈ l.air ∨ p = (d, (l.dev d).goRequest) := by
      simp
    refine h.update (some d) ⟨rfl, rfl, rfl⟩ hq (fun hok => absurd hok hst) ?_ nofun ?_
    · intro p hp
      rcases hsent p hp with hin | rfl
      · exact .inl hin
      · exact .inr ⟨by rw [h.intent], h.channelList d⟩
    · intro heq h15 x hx
      obtain rfl : d = x := Option.some.inj hx
      have hmine : ∀ p ∈ l.air, negotiationOf p = d := by
        refine hclean ⟨?_, ?_⟩ hsend
        · rw [h.intent, h.intent, heq]
        · rw [h.intent]
          intro h15t
          refine h15 fun e => ?_
          cases e with
          | true => exact h15t
          | false => rw [← heq]; exact h15t
      have hother : (Function.update l.dev d { l.dev d with benable := false } (!d)) =
          l.dev !d := Function.update_of_ne (not_self d) _ _
      refine ⟨?_, ?_, ?_⟩
      · intro p hp
        rcases hsent p hp with hin | rfl
        · exact hmine p hin
        · rfl
      · intro hok
        change (Function.update l.dev d _ d).state = .gonegoOk at hok
        rw [Function.update_self] at hok
        exact absurd hok hst
      · intro p hp hreq
        change (Function.update l.dev d _ (!d)).peerIntent % 2 = 0
        rw [hother]
        rcases hsent p hp with hin | rfl
        · cases hown : l.owner with
          | none =>
            rw [(h.fresh hown).1] at hin
            cases hin
          | some x =>
            have ho := h.owned heq h15 x hown
            obtain rfl : d = x := (hmine p hin).symm.trans (ho.air p hin)
            exact ho.answered p hin hreq
        · cases hreq
  · have : (if (none : Option Frame).isSome = true then
        { (l.set d (l.dev d)).send d none with owner := some d }
        else (l.set d (l.dev d)).send d none) =
        ⟨Function.update l.dev d (l.dev d), l.air ++ [], l.owner⟩ := rfl
    rw [this, List.append_nil]
    exact h.unchanged d fun _ hp => hp

theorem Inv.dropped {l : Link} (h : Inv I L S l) (i : ℕ) (d : Bool) :
    Inv I L S (({ l with air := l.air.eraseIdx i }.set d (l.dev d)).send d none) := by
  have : (({ l with air := l.air.eraseIdx i }.set d (l.dev d)).send d none) =
      ⟨Function.update l.dev d (l.dev d), l.air.eraseIdx i ++ [], l.owner⟩ := rfl
  rw [this, List.append_nil]
  exact h.unchanged d fun _ hp => List.mem_of_mem_eraseIdx hp

theorem Inv.common {l : Link} (h : Inv I L S l) (d : Bool) :
    (l.dev d).chInclusion (L (!d)) = incl L S d := by
  rw [WifidirectInfo.chInclusion, h.channelSet, incl]

theorem Inv.owned_of_mem {l : Link} (h : Inv I L S l) (heq : I true = I false)
    (h15 : ¬ Both15 I) {p : Bool × Frame} (hp : p ∈ l.air) : Owned l (negotiationOf p) := by
  cases hown : l.owner with
  | none =>
    rw [(h.fresh hown).1] at hp
    cases hp
  | some x =>
    have ho := h.owned heq h15 x hown
    rw [ho.air p hp]
    exact ho

theorem mem_send {air : List (Bool × Frame)} {i : ℕ} {d : Bool} {f : Frame} {p : Bool × Frame}
    (hp : p ∈ air.eraseIdx i ++ [(d, f)]) : p ∈ air ∨ p = (d, f) := by
  rcases List.mem_append.1 hp with hin | hnew
  · exact .inl (List.mem_of_mem_eraseIdx hin)
  · exact .inr (List.mem_singleton.1 hnew)

theorem Inv.deliverReq {l : Link} (h : Inv I L S l) (i : ℕ) {d : Bool} {goIntent operatingCh : ℕ}
    {chList : List (ℕ × List ℕ)} (hp : (!d, Frame.req goIntent operatingCh chList) ∈ l.air) :
    Inv I L S (({ l with air := l.air.eraseIdx i }.set d
      ((l.dev d).onActionPublicP2p (.req goIntent operatingCh chList)).1).send d
      ((l.dev d).onActionPublicP2p (.req goIntent operatingCh chList)).2) := by
  obtain ⟨hgi, hcl⟩ := h.frame _ hp
  by_cases hst : (l.dev d).state = .none ∨ (l.dev d).state = .idle
  · simp only [WifidirectInfo.onActionPublicP2p, if_pos hst]
    exact h.dropped i d
  · obtain ⟨state, preState, r, hr, heq⟩ :=
      WifidirectInfo.onActionPublicP2p_req hst goIntent operatingCh chList
    obtain ⟨w', result, hspec, hsetup, hpi, hnok, hch, hsucc⟩ :=
      WifidirectInfo.processReq_spec { l.dev d with state := state, preState := preState }
        goIntent operatingCh chList
    obtain rfl : (w', result) = r := hspec.symm.trans hr
    have hincl : WifidirectInfo.chInclusion { l.dev d with state := state, preState := preState }
        chList = incl L S d := by
      rw [hcl]
      exact h.common d
    have hint : (l.dev d).intent = I d := h.intent d
    rw [heq]
    have hsetup' : WifidirectInfo.SameSetup (l.dev d) w' :=
      ⟨hsetup.intent, hsetup.channelList, hsetup.channelSet⟩
    have hq : Quiet I L S l.dev d w' :=
      ⟨fun _ => by rw [hpi, hgi]; omega, fun hon => hch (by rw [hincl]; exact hon)⟩
    have hself : ∀ w, Function.update l.dev d w d = w := fun w => Function.update_self d w l.dev
    refine h.update l.owner hsetup' hq (fun hok => absurd hok hnok) ?_ ?_ ?_
    · intro p hpin
      rcases mem_send hpin with hold | rfl
      · exact .inl hold
      · refine .inr ⟨?_, ?_, ?_, ?_⟩
        · change w'.intent.val * 2 + _ = (I d).val * 2 + 1
          rw [hsetup'.intent, hint, if_neg (by rw [hpi, hgi]; omega)]
        · exact hsetup'.channelList.trans (h.channelList d)
        · rw [hself, hpi, hgi]
          omega
        · intro hres
          obtain ⟨hnot, hgo⟩ := hsucc hres
          refine ⟨fun hboth => hnot ?_, fun hle => ⟨?_, ?_⟩⟩
          · change (l.dev d).intent.val = goIntent / 2 ∧ (l.dev d).intent.val = 15
            rw [hint, hgi, hboth d, hboth (!d)]
            exact ⟨by omega, rfl⟩
          · rw [OnCommon, hself, ← hincl]
            refine hgo (WifidirectInfo.roleOf_go ?_)
            change goIntent / 2 < (l.dev d).intent.val ∨ _
            rw [hint, hgi]
            omega
          · rw [hself]
    · intro hown
      rw [(h.fresh hown).1] at hp
      cases hp
    · intro heqI h15 x hx
      have ho := h.owned heqI h15 x hx
      obtain rfl : (!d) = x := ho.air _ hp
      have htie : w'.peerIntent % 2 = 0 := by
        rw [hpi, hgi]
        omega
      refine ⟨?_, ?_, ?_⟩
      · intro p hpin
        rcases mem_send hpin with hold | rfl
        · exact ho.air p hold
        · rfl
      · intro hok
        change (Function.update l.dev d w' (!d)).state = .gonegoOk at hok
        change (Function.update l.dev d w' (!d)).peerIntent % 2 = 1 ∧
          (Function.update l.dev d w' (!!d)).peerIntent % 2 = 0
        rw [Function.update_of_ne (not_self d)] at hok ⊢
        rw [Bool.not_not, hself]
        exact ⟨(ho.tie hok).1, htie⟩
      · intro p _ _
        change (Function.update l.dev d w' (!!d)).peerIntent % 2 = 0
        rw [Bool.not_not, hself]
        exact htie

theorem Inv.deliverResp {l : Link} (h : Inv I L S l) (i : ℕ) {d : Bool} {status : Status}
    {goIntent operatingCh : ℕ} {chList : List (ℕ × List ℕ)}
    (hp : (!d, Frame.resp status goIntent operatingCh chList) ∈ l.air) :
    Inv I L S (({ l with air := l.air.eraseIdx i }.set d
      ((l.dev d).onActionPublicP2p (.resp status goIntent operatingCh chList)).1).send d
      ((l.dev d).onActionPublicP2p (.resp status goIntent operatingCh chList)).2) := by
  obtain ⟨hgi, hcl, hpeer, hframe⟩ := h.frame _ hp
  rw [Bool.not_not] at hpeer hframe
  by_cases hst : (l.dev d).state = .none ∨ (l.dev d).state = .idle
  · simp only [WifidirectInfo.onActionPublicP2p, if_pos hst]
    exact h.dropped i d
  by_cases hing : (l.dev d).state = .gonegoIng
  · obtain ⟨w', result, hspec, hsetup, hpi, hch, hok, hsucc⟩ :=
      WifidirectInfo.processResp_spec { l.dev d with benable := false } status goIntent
        operatingCh chList
    obtain ⟨ch, only, hscan⟩ := w'.scanOpCh_rest result
    simp only [WifidirectInfo.onActionPublicP2p, if_neg hst, if_pos hing, hspec, hscan]
    have hincl : WifidirectInfo.chInclusion { l.dev d with benable := false } chList =
        incl L S d := by
      rw [hcl]
      exact h.common d
    have hint : (l.dev d).intent = I d := h.intent d
    have hself : ∀ w, Function.update l.dev d w d = w := fun w => Function.update_self d w l.dev
    have hnew : ∀ w, Function.update l.dev d w (!d) = l.dev !d :=
      fun w => Function.update_of_ne (not_self d) w l.dev
    refine h.update l.owner
      ⟨hsetup.intent, hsetup.channelList, hsetup.channelSet⟩ ?_ ?_ ?_ ?_ ?_
    · refine ⟨fun hold => ?_, fun hon => hch (by rw [hincl]; exact hon)⟩
      rcases hpi with hpi | hpi
      · exact (congrArg (· / 2) hpi).trans hold
      · change w'.peerIntent / 2 = _
        rw [hpi, hgi]
        omega
    · intro hdone
      obtain ⟨hstat, -, hpre, hpi, hrole, hpoc, hnot, -⟩ := hsucc (hok hdone)
      have hnot15 : ¬ Both15 I := (hframe hstat).1
      refine ⟨?_, ?_, ?_, hnot15, ?_⟩
      · rw [hself]
        exact hpre
      · rw [hself]
        change w'.role = WifidirectInfo.roleOf (I d) w'.peerIntent
        rw [hrole, hpi]
        change WifidirectInfo.roleOf (l.dev d).intent goIntent = _
        rw [hint]
      · rw [hself]
        change w'.peerIntent / 2 = _
        rw [hpi, hgi]
        omega
      · rw [hself]
        intro hclient
        have hclient' : WifidirectInfo.roleOf (l.dev d).intent goIntent = .client :=
          hrole.symm.trans hclient
        rw [hint, hgi] at hclient'
        have hle : (I d).val ≤ I !d := by
          have := WifidirectInfo.roleOf_eq_client hclient'
          omega
        obtain ⟨hon, hop⟩ := (hframe hstat).2 hle
        rw [OnCommon, hnew]
        exact ⟨hon, hpoc.trans hop⟩
    · intro p hpin
      rcases mem_send hpin with hold | rfl
      · exact .inl hold
      · refine .inr ⟨?_, fun hres => ?_⟩
        · rw [hnew]
          exact hpeer
        · obtain ⟨hstat, -, -, -, hrole, -, -, hgo⟩ := hsucc hres
          refine ⟨(hframe hstat).1, fun hlt => ?_⟩
          have hr : WifidirectInfo.roleOf (l.dev d).intent goIntent = .go := by
            rw [hint, hgi]
            exact WifidirectInfo.roleOf_go (.inl (by omega))
          rw [OnCommon, hself, ← hincl]
          refine ⟨hgo hr, ?_⟩
          change (if w'.role = .client then _ else _) = w'.operatingChannel
          rw [if_neg]
          rw [hrole]
          change WifidirectInfo.roleOf (l.dev d).intent goIntent ≠ .client
          rw [hr]
          nofun
    · intro hown
      rw [(h.fresh hown).1] at hp
      cases hp
    · intro heqI h15 x hx
      have ho := h.owned heqI h15 x hx
      obtain rfl : (!!d) = x := ho.air _ hp
      rw [Bool.not_not] at ho ⊢
      have hanswered : (l.dev !d).peerIntent % 2 = 0 := ho.answered _ hp rfl
      refine ⟨?_, ?_, ?_⟩
      · intro p hpin
        rcases mem_send hpin with hold | rfl
        · exact ho.air p hold
        · rfl
      · intro hdone
        change (Function.update l.dev d _ d).peerIntent % 2 = 1 ∧
          (Function.update l.dev d _ (!d)).peerIntent % 2 = 0
        change (Function.update l.dev d _ d).state = .gonegoOk at hdone
        rw [hself] at hdone ⊢
        rw [hnew]
        obtain ⟨-, -, -, hpi, -⟩ := hsucc (hok hdone)
        refine ⟨?_, hanswered⟩
        change w'.peerIntent % 2 = 1
        rw [hpi, hgi]
        omega
      · intro p _ _
        change (Function.update l.dev d _ (!d)).peerIntent % 2 = 0
        rw [hnew]
        exact hanswered
  · simp only [WifidirectInfo.onActionPublicP2p, if_neg hst, if_neg hing]
    exact h.dropped i d

theorem Inv.deliverConf {l : Link} (h : Inv I L S l) (i : ℕ) {d : Bool} {status : Status}
    {operatingCh : ℕ} (hp : (!d, Frame.conf status operatingCh) ∈ l.air) :
    Inv I L S (({ l with air := l.air.eraseIdx i }.set d
      ((l.dev d).onActionPublicP2p (.conf status operatingCh)).1).send d
      ((l.dev d).onActionPublicP2p (.conf status operatingCh)).2) := by
  obtain ⟨hpeer, hframe⟩ := h.frame _ hp
  rw [Bool.not_not] at hpeer hframe
  by_cases hst : (l.dev d).state = .none ∨ (l.dev d).state = .idle
  · simp only [WifidirectInfo.onActionPublicP2p, if_pos hst]
    exact h.dropped i d
  have hair : ∀ p ∈ l.air.eraseIdx i ++ [], p ∈ l.air := by
    rw [List.append_nil]
    exact fun p hpin => List.mem_of_mem_eraseIdx hpin
  by_cases hstat : status ≠ .success
  · obtain ⟨ch, only, hscan⟩ :=
      WifidirectInfo.scanOpCh_rest { l.dev d with role := .device, state := .gonegoFail } status
    simp only [WifidirectInfo.onActionPublicP2p, if_neg hst, WifidirectInfo.processConf,
      if_pos hstat, hscan]
    exact h.update_same ⟨rfl, rfl, rfl⟩ rfl rfl nofun hair
  · obtain ⟨ch, only, hscan⟩ := WifidirectInfo.scanOpCh_rest { l.dev d with
        state := .gonegoOk, preState := .gonegoOk
        role := WifidirectInfo.roleOf (l.dev d).intent (l.dev d).peerIntent
        peerOperatingCh := operatingCh } status
    simp only [WifidirectInfo.onActionPublicP2p, if_neg hst, WifidirectInfo.processConf,
      if_neg hstat, hscan]
    obtain ⟨hnot15, hgo⟩ := hframe (Decidable.not_not.1 hstat)
    have hself : ∀ w, Function.update l.dev d w d = w := fun w => Function.update_self d w l.dev
    have hnew : ∀ w, Function.update l.dev d w (!d) = l.dev !d :=
      fun w => Function.update_of_ne (not_self d) w l.dev
    have htie : I true = I false → (l.dev d).peerIntent % 2 = 0 := by
      intro heqI
      have := (h.owned_of_mem heqI hnot15 hp).answered _ hp rfl
      rwa [show negotiationOf (!d, Frame.conf status operatingCh) = !d from rfl,
        Bool.not_not] at this
    refine h.update l.owner ⟨rfl, rfl, rfl⟩ ⟨id, fun _ => rfl⟩ (fun _ => ?_)
      (fun p hpin => .inl (hair p hpin)) ?_ ?_
    · refine ⟨?_, ?_, ?_, hnot15, ?_⟩
      · rw [hself]
      · rw [hself]
        change WifidirectInfo.roleOf (l.dev d).intent _ = WifidirectInfo.roleOf (I d) _
        rw [h.intent]
      · rw [hself]
        exact hpeer
      · rw [hself]
        intro hclient
        have hclient' : WifidirectInfo.roleOf (l.dev d).intent (l.dev d).peerIntent = .client :=
          hclient
        rw [h.intent] at hclient'
        have hlt : (I d).val < I !d := by
          rcases WifidirectInfo.roleOf_eq_client hclient' with hlt | ⟨heq, hodd⟩
          · omega
          · have heqI : I true = I false := by
              have hval : I d = I !d := Fin.ext (by omega)
              cases d with
              | true => exact hval
              | false => exact hval.symm
            have := htie heqI
            omega
        rw [OnCommon, hnew]
        exact hgo hlt
    · intro hown
      rw [(h.fresh hown).1] at hp
      cases hp
    · intro heqI h15 x hx
      have ho := h.owned heqI h15 x hx
      obtain rfl : (!d) = x := ho.air _ hp
      refine ⟨fun p hpin => ho.air p (hair p hpin), ?_, ?_⟩
      · intro hok
        change (Function.update l.dev d _ (!d)).state = .gonegoOk at hok
        change (Function.update l.dev d _ (!d)).peerIntent % 2 = 1 ∧
          (Function.update l.dev d _ (!!d)).peerIntent % 2 = 0
        rw [hnew] at hok ⊢
        rw [Bool.not_not, hself]
        exact ⟨(ho.tie hok).1, htie heqI⟩
      · intro p _ _
        change (Function.update l.dev d _ (!!d)).peerIntent % 2 = 0
        rw [Bool.not_not, hself]
        exact htie heqI

theorem Inv.deliver {l : Link} (h : Inv I L S l) (i : ℕ) : Inv I L S (l.step (.deliver i)) := by
  simp only [Link.step]
  cases hi : l.air[i]? with
  | none => exact h
  | some p =>
    obtain ⟨e, f⟩ := p
    have hp : (!!e, f) ∈ l.air := by
      rw [Bool.not_not]
      exact List.mem_of_getElem? hi
    cases f with
    | req goIntent operatingCh chList => exact h.deliverReq i hp
    | resp status goIntent operatingCh chList => exact h.deliverResp i hp
    | conf status operatingCh => exact h.deliverConf i hp

theorem Inv.step {l : Link} (h : Inv I L S l) (e : Event) (hclean : Clean l e) :
    Inv I L S (l.step e) := by
  cases e with
  | connect d => exact h.connect d
  | probeRsp d => exact h.probeRsp hclean
  | deliver i => exact h.deliver i
  | lose i => exact h.subset fun _ hp => List.mem_of_mem_eraseIdx hp
  | double i =>
    refine h.subset fun p hp => ?_
    rcases List.mem_append.1 hp with hin | htwice
    · exact hin
    · exact List.mem_of_getElem? (Option.mem_toList.1 htwice)
  | restoreTimer d => exact h.restoreTimer hclean

/-- Both are done, and nothing is in the air: one is the group owner, the other its client and
on its channel. -/
def Agreement (l : Link) : Prop :=
  (∀ d, (l.dev d).state = .gonegoOk) → l.air = [] →
    ∃ g, (l.dev g).role = .go ∧ (l.dev !g).role = .client ∧
      (l.dev !g).peerOperatingCh = (l.dev g).operatingChannel

instance (l : Link) : Decidable (Agreement l) := by
  unfold Agreement
  infer_instance

theorem Inv.agreement {l : Link} (h : Inv I L S l) : Agreement l := by
  intro hok _
  have hdev := fun d => h.dev d (hok d)
  suffices ∃ g, (l.dev g).role = .go ∧ (l.dev !g).role = .client by
    obtain ⟨g, hgo, hclient⟩ := this
    have hch := ((hdev !g).channel hclient).2
    rw [Bool.not_not] at hch
    exact ⟨g, hgo, hclient, hch⟩
  have hhigher : ∀ g, (I !g).val < I g →
      (l.dev g).role = .go ∧ (l.dev !g).role = .client := by
    intro g hlt
    have hpeer := (hdev !g).peerIntent
    rw [Bool.not_not] at hpeer
    refine ⟨?_, ?_⟩
    · rw [(hdev g).role]
      exact WifidirectInfo.roleOf_go (.inl (by rw [(hdev g).peerIntent]; exact hlt))
    · rw [(hdev !g).role, WifidirectInfo.roleOf, if_neg (by omega), if_neg (by omega)]
  rcases Nat.lt_trichotomy (I true).val (I false).val with hlt | heq | hlt
  · exact ⟨false, hhigher false hlt⟩
  · have heqI : I true = I false := Fin.ext heq
    cases hown : l.owner with
    | none => exact absurd (hok true) ((h.fresh hown).2 true)
    | some x =>
      obtain ⟨hx, hnx⟩ := (h.owned heqI (hdev true).not15 x hown).tie (hok x)
      have hpeerx := (hdev x).peerIntent
      have hpeern := (hdev !x).peerIntent
      have hsame : (I x).val = I !x := by
        cases x with
        | true => exact heq
        | false => exact heq.symm
      rw [Bool.not_not] at hpeern
      refine ⟨!x, ?_, ?_⟩
      · rw [(hdev !x).role]
        exact WifidirectInfo.roleOf_go (.inr ⟨by omega, hnx⟩)
      · rw [Bool.not_not, (hdev x).role, WifidirectInfo.roleOf, if_pos (by omega), if_pos hx]
  · exact ⟨true, hhigher true hlt⟩

structure Start (l : Link) : Prop where
  state : ∀ d, (l.dev d).state ≠ .gonegoOk
  air : l.air = []
  owner : l.owner = none

theorem agreement_run {l : Link} (hstart : Start l) {es : List Event}
    (hes : Along Link.step Clean l es) : Agreement (run Link.step l es) := by
  have hinv : Inv (fun d => (l.dev d).intent) (fun d => (l.dev d).channelList)
      (fun d => (l.dev d).channelSet) l := by
    refine ⟨fun _ => rfl, fun _ => rfl, fun _ => rfl, ?_, ?_, ?_, ?_⟩
    · intro p hp
      rw [hstart.air] at hp
      cases hp
    · exact fun d hd => absurd hd (hstart.state d)
    · exact fun _ => ⟨hstart.air, hstart.state⟩
    · intro _ _ x hx
      rw [hstart.owner] at hx
      cases hx
  exact (run_spec Clean _ (fun l e h hclean => h.step e hclean) hinv hes).agreement

def listening (intent : Fin 16) (operatingChannel : ℕ) : WifidirectInfo where
  state := .listen
  preState := .listen
  role := .device
  intent := intent
  peerIntent := 0
  operatingChannel := operatingChannel
  peerOperatingCh := 0
  benable := false
  operationCh := 0
  scanOpChOnly := false
  channelList := [(81, [1, 6, 11])]
  channelSet := [1, 6, 11]

def listeners (it itf : Fin 16) : Link :=
  ⟨fun d => if d then listening it 6 else listening itf 11, [], none⟩

theorem listeners_start (it itf : Fin 16) : Start (listeners it itf) := by
  refine ⟨fun d => ?_, rfl, rfl⟩
  cases d <;> exact nofun

/-- One device asks, its request is doubled, and all frames are delivered. -/
theorem agreement_run_doubled :
    let es := [.connect true, .probeRsp true, .double 0, .deliver 0, .deliver 0, .deliver 0,
      .lose 0, .deliver 0]
    Agreement (run Link.step (listeners 7 7) es) ∧
      ∀ d, ((run Link.step (listeners 7 7) es).dev d).state = .gonegoOk :=
  ⟨agreement_run (listeners_start 7 7) (by decide +kernel), by decide +kernel⟩

/-- Crossing requests with equal intents make two clients; and the restore timer after a failed
second negotiation makes a device that is done and has no role. -/
theorem crossing_not_agreement :
    ¬ Agreement (run Link.step (listeners 7 7)
      [.connect true, .connect false, .probeRsp true, .probeRsp false,
        .deliver 0, .deliver 0, .deliver 0, .deliver 0, .deliver 0, .deliver 0]) ∧
    ¬ Agreement (run Link.step (listeners 7 9)
      [.connect true, .probeRsp true, .deliver 0, .deliver 0, .deliver 0, .connect true,
        .restoreTimer true]) := by
  decide +kernel

end Rtl8189.GoNego
