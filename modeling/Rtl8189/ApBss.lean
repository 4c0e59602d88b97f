import Mathlib.Logic.Relation
import Rtl8189.MlmeProtect

/-!
# The stations of an access point

What moves a station in and out of `auth_list`, `asoc_list` and the table:
management frames, the expiry timer, the commands of the host, and the deletion
events that `ap_free_sta` queues. A station that leaves `asoc_list` through
`ap_free_sta` gives back its capability flags; one that authenticates again is
taken off the list without that.
-/
namespace Rtl8189.ApBss

open EventRun StaInfo MlmeProtect

open RecvFrame (addr2 getFrameSubType)

/-- The `*_set` flags of a station, and the `num_sta_*` counters of the BSS. -/
inductive Cap where
  | noShortPreamble
  | nonErp
  | noShortSlotTime
  | noHt
  | htNoGf
  | ht20mhz
  | ht40mhzIntolerant
  deriving DecidableEq

/-- The access point with its state word `WIFI_FW_AP_STATE`; `sta_info_update` keeps
the address and the AID. -/
structure ApAdapter where
  ad : Adapter
  myBssid : MacAddr
  /-- `ht_enable && is_supported_ht(wireless_mode)` -/
  htSupported : Bool := true
  pmlmeinfoState : ad.pmlmeinfoState = 3
  staInfoUpdate_macAddr : ∀ sta, (ad.staInfoUpdate sta).macAddr = sta.macAddr
  staInfoUpdate_aid : ∀ sta, (ad.staInfoUpdate sta).aid = sta.aid

structure Ap where
  priv : StaPriv
  capSet : ℕ → Cap → Bool := fun _ _ => false
  numSta : Cap → ℤ := fun _ => 0
  /-- Taken off `asoc_list` by the call at work, `ap_free_sta` still to come. -/
  picked : List ℕ := []
  /-- The addresses of the queued `_DelSTA` events. -/
  delEvents : List MacAddr := []

def unlinkSta (psta : Sta) : Sta := { psta with state := { psta.state with linked := false } }

namespace Ap

def setSta (s : Ap) (i : ℕ) (sta : Sta) : Ap := { s with priv := s.priv.setSta i sta }

def allocated (s : Ap) (priv : StaPriv) (i : ℕ) : Ap :=
  { s with priv, capSet := Function.update s.capSet i fun _ => false }

def freeSta (ad : Adapter) (s : Ap) (i : ℕ) : Ap :=
  { s with priv := rtwFreeStainfo ad s.priv i }

def addAuth (s : Ap) (i : ℕ) : Ap :=
  { s with priv := { s.priv with
      authList := s.priv.authList ++ [i]
      authListCnt := s.priv.authListCnt + 1 } }

def delAuth (s : Ap) (i : ℕ) : Ap :=
  { s with priv := { s.priv with
      authList := s.priv.authList.erase i
      authListCnt := s.priv.authListCnt - 1 } }

def addAsoc (s : Ap) (i : ℕ) : Ap :=
  { s with priv := { s.priv with
      asocList := s.priv.asocList ++ [i]
      asocListCnt := s.priv.asocListCnt + 1 } }

def delAsoc (s : Ap) (i : ℕ) : Ap :=
  { s with priv := { s.priv with
      asocList := s.priv.asocList.erase i
      asocListCnt := s.priv.asocListCnt - 1 } }

def pick (s : Ap) (i : ℕ) : Ap := { s.delAsoc i with picked := s.picked ++ [i] }

/-! ## Capability counters -/

def setCap (s : Ap) (i : ℕ) (c : Cap) : Ap :=
  if s.capSet i c then s
  else
    { s with
      capSet := Function.update s.capSet i (Function.update (s.capSet i) c true)
      numSta := Function.update s.numSta c (s.numSta c + 1) }

def clearCap (s : Ap) (i : ℕ) (c : Cap) : Ap :=
  if s.capSet i c then
    { s with
      capSet := Function.update s.capSet i (Function.update (s.capSet i) c false)
      numSta := Function.update s.numSta c (s.numSta c - 1) }
  else s

def putCap (s : Ap) (i : ℕ) (c : Cap) (b : Bool) : Ap := if b then s.setCap i c else s.clearCap i c

/-- The flag for 40 MHz intolerance is cleared even where the counter is not positive. -/
def clearIntolerant (s : Ap) (i : ℕ) : Ap :=
  if s.capSet i .ht40mhzIntolerant ∧ s.numSta .ht40mhzIntolerant ≤ 0 then
    { s with capSet :=
        Function.update s.capSet i (Function.update (s.capSet i) .ht40mhzIntolerant false) }
  else s.clearCap i .ht40mhzIntolerant

def bssCapUpdateOnStaJoin (htSupported : Bool) (s : Ap) (i : ℕ) (psta : Sta) : Ap :=
  let s := s.putCap i .noShortPreamble !psta.flags.shortPreamble
  let s := s.putCap i .nonErp psta.flags.nonErp
  let s := s.putCap i .noShortSlotTime !psta.capability.testBit 10
  if htSupported = false then s
  else if psta.flags.ht then
    let htCapab := le16 psta.htCap 0
    let s := s.clearCap i .noHt
    let s := if htCapab.testBit 4 then s else s.setCap i .htNoGf
    let s := if htCapab.testBit 1 then s else s.setCap i .ht20mhz
    if htCapab.testBit 14 then s.setCap i .ht40mhzIntolerant else s
  else s.setCap i .noHt

def bssCapUpdateOnStaLeave (s : Ap) (i : ℕ) : Ap :=
  let s := s.clearCap i .noShortPreamble
  let s := s.clearCap i .nonErp
  let s := s.clearCap i .noShortSlotTime
  let s := s.clearCap i .htNoGf
  let s := s.clearCap i .noHt
  let s := s.clearCap i .ht20mhz
  s.clearIntolerant i

/-! ## Leaving -/

def rtwStadelEventCallback (ad : Adapter) (s : Ap) (macaddr : MacAddr) : Ap :=
  match rtwGetStainfo s.priv macaddr with
  | none => s
  | some i => s.freeSta ad i

def apFreeSta (e : ApAdapter) (enqueue : Bool) (s : Ap) (i : ℕ) : Ap :=
  let psta := s.priv.sta i
  let s := s.setSta i (unlinkSta psta)
  let s := s.bssCapUpdateOnStaLeave i
  let s := { s with picked := s.picked.erase i }
  if enqueue then { s with delEvents := s.delEvents ++ [psta.macAddr] }
  else s.rtwStadelEventCallback e.ad psta.macAddr

def leaveAsocList (e : ApAdapter) (s : Ap) : Option ℕ → Ap
  | none => s
  | some i => if i ∈ s.priv.asocList then (s.pick i).apFreeSta e true i else s

end Ap

def addr3 (f : RecvFrame) : MacAddr := Vector.ofFn fun i : Fin 6 => f.view.getD (16 + i) 0

def onDeAuth (e : ApAdapter) (s : Ap) (f : RecvFrame) : Ap :=
  if addr3 f ≠ e.myBssid then s else s.leaveAsocList e (rtwGetStainfo s.priv (addr2 f))

def onDisassoc (e : ApAdapter) (s : Ap) (f : RecvFrame) : Ap :=
  if addr3 f ≠ e.myBssid then s else s.leaveAsocList e (rtwGetStainfo s.priv (addr2 f))

def rtwStaTimeoutEventCallback (e : ApAdapter) (s : Ap) (macaddr : MacAddr) : Ap :=
  s.leaveAsocList e (rtwGetStainfo s.priv macaddr)

def rtwDelSta (e : ApAdapter) (s : Ap) (staAddr : MacAddr) : Ap :=
  if staAddr = Vector.replicate 6 0xff then s
  else s.leaveAsocList e (rtwGetStainfo s.priv staAddr)

/-- The station is searched on `asoc_list`, and stays while its key is not installed. -/
def cfg80211RtwDelStation (e : ApAdapter) (s : Ap) (targetMac : MacAddr) : Ap :=
  if targetMac = Vector.replicate 6 0xff then s
  else s.leaveAsocList e (s.priv.asocList.find? fun i =>
    let psta := s.priv.sta i
    targetMac = psta.macAddr ∧ ¬ (psta.dot8021xalg = 1 ∧ psta.bpairwiseKeyInstalled = false))

def rtwStaFlush (e : ApAdapter) (enqueue : Bool) (s : Ap) : Ap :=
  let flushList := s.priv.asocList
  flushList.foldl (Ap.apFreeSta e enqueue) (flushList.foldl Ap.pick s)

def expireAuth (e : ApAdapter) (s : Ap) (i : ℕ) : Ap :=
  let psta := s.priv.sta i
  if psta.expireTo = 0 then s
  else
    let s := s.setSta i { psta with expireTo := psta.expireTo - 1 }
    if psta.expireTo - 1 = 0 then (s.delAuth i).freeSta e.ad i else s

def expireAsoc (keepAlive : ℕ → Option ℕ) (s : Ap) (i : ℕ) : Ap :=
  s.setSta i { s.priv.sta i with expireTo := (keepAlive i).getD 0 }

/-- `keepAlive` is the outcome of the checks on a station of `asoc_list`: its new
`expire_to`, or none where it is to be deleted. -/
def expireTimeoutChk (e : ApAdapter) (keepAlive : ℕ → Option ℕ) (s : Ap) : Ap :=
  let s := s.priv.authList.foldl (expireAuth e) s
  let s := s.priv.asocList.foldl (expireAsoc keepAlive) s
  let delAsocList := s.priv.asocList.filter fun i => keepAlive i = none
  delAsocList.foldl (Ap.apFreeSta e false) (delAsocList.foldl Ap.pick s)

/-! ## Coming in -/

/-- The frame is not turned down before the station is looked up. -/
def authReached (ad : Adapter) (f : RecvFrame) : Prop :=
  ad.pmlmeinfoState % 4 = 3 ∧ ad.mlmeIsAsoc = true ∧ rejectBeforeLookup ad f = none

instance (ad : Adapter) (f : RecvFrame) : Decidable (authReached ad f) :=
  inferInstanceAs (Decidable (_ ∧ _))

/-- The entry `OnAuth` allocates. -/
def authAllocated (ad : Adapter) (s : StaPriv) (f : RecvFrame) : Option ℕ :=
  if authReached ad f ∧ rtwGetStainfo s (addr2 f) = none then s.freeStaQueue.head? else none

def apOnAuth (e : ApAdapter) (s : Ap) (f : RecvFrame) : Ap :=
  let priv := (onAuth e.ad s.priv f).priv
  match authAllocated e.ad s.priv f with
  | none => { s with priv }
  | some i => s.allocated priv i

/-- The station of an association request that is looked into, with the outcome of
the checks. -/
def assocChecked (ad : Adapter) (s : StaPriv) (f : RecvFrame) : Option (ℕ × Sta × Status) :=
  if ad.pmlmeinfoState % 4 ≠ 3 ∨ f.len < wlanHdrA3Len + ieOffset f then none
  else match rtwGetStainfo s (addr2 f) with
  | none => none
  | some i =>
    let sta := s.sta i
    if sta.authalg = wlanAuthSae ∧ sta.state.authNull then none
    else if sta.state.authSuccess = false ∧ sta.state.assocSuccess = false then none
    else some (i, checkAssocReq ad (enterAssocState sta) f (ieOffset f))

def assocJoined (ad : Adapter) (s : StaPriv) (f : RecvFrame) : Option (ℕ × Sta) :=
  match assocChecked ad s f with
  | none => none
  | some (i, sta, status) =>
    if status = .successful ∧ (assignAid s i sta).2.aid ≠ 0 ∧ unguarded sta then some (i, sta)
    else none

def apOnAssocReq (e : ApAdapter) (s : Ap) (f : RecvFrame) : Ap :=
  let t := { s with priv := (onAssocReq e.ad s.priv f).priv }
  match assocJoined e.ad s.priv f with
  | none => t
  | some (i, sta) => t.bssCapUpdateOnStaJoin e.htSupported i sta

/-- `bpairwise_key_installed` is set by the key commands of the host. -/
def setKeyInstalled (s : Ap) (macaddr : MacAddr) : Ap :=
  match rtwGetStainfo s.priv macaddr with
  | none => s
  | some i => s.setSta i { s.priv.sta i with bpairwiseKeyInstalled := true }

def rtwCfg80211ExternalAuthStatus (e : ApAdapter) (s : Ap) (bssid : MacAddr) : Ap :=
  match rtwGetStainfo s.priv bssid with
  | none => s
  | some i =>
    let psta := s.priv.sta i
    s.setSta i { psta with
      state := { psta.state with authNull := false, authSuccess := true }
      expireTo := e.ad.assocTo }

/-! ## Runs -/

inductive Event where
  | mgnt (f : RecvFrame)
  | expireTimeoutChk (keepAlive : ℕ → Option ℕ)
  | staTimeout (macaddr : MacAddr)
  | delSta (macaddr : MacAddr)
  | delStation (macaddr : MacAddr)
  | staFlush (enqueue : Bool)
  /-- The oldest `_DelSTA` event. -/
  | stadel
  | setKey (macaddr : MacAddr)
  | externalAuth (macaddr : MacAddr)

def wifiDisassoc : ℕ := 0xa0

def wifiDeauth : ℕ := 0xc0

def apOnMgntFrame (e : ApAdapter) (s : Ap) (f : RecvFrame) : Ap :=
  if getFrameSubType f = wifiAuth then apOnAuth e s f
  else if getFrameSubType f = wifiAssocreq ∨ getFrameSubType f = wifiReassocreq then
    apOnAssocReq e s f
  else if getFrameSubType f = wifiDeauth then onDeAuth e s f
  else if getFrameSubType f = wifiDisassoc then onDisassoc e s f
  else s

def Event.apply (e : ApAdapter) (s : Ap) : Event → Ap
  | .mgnt f => apOnMgntFrame e s f
  | .expireTimeoutChk keepAlive => ApBss.expireTimeoutChk e keepAlive s
  | .staTimeout macaddr => rtwStaTimeoutEventCallback e s macaddr
  | .delSta macaddr => rtwDelSta e s macaddr
  | .delStation macaddr => cfg80211RtwDelStation e s macaddr
  | .staFlush enqueue => rtwStaFlush e enqueue s
  | .stadel =>
    match s.delEvents with
    | [] => s
    | macaddr :: events => { s with delEvents := events }.rtwStadelEventCallback e.ad macaddr
  | .setKey macaddr => setKeyInstalled s macaddr
  | .externalAuth macaddr => rtwCfg80211ExternalAuthStatus e s macaddr

/-- The access point may be configured anew before every event. -/
def step (s : Ap) (ev : ApAdapter × Event) : Ap := ev.2.apply ev.1 s

/-- After `rtw_init_bcmc_stainfo`, with the number of stations that is allowed. -/
def startAp (maxNumSta : ℕ) : Ap where
  priv :=
    { sta := fun i => if i = 0 then { macAddr := Vector.replicate 6 0xff } else {}
      freeStaQueue := (List.range 32).tail
      staHash := [0]
      asocStaCount := 1
      asocList := []
      asocListCnt := 0
      authList := []
      authListCnt := 0
      staAid := fun _ => none
      maxAid := 32
      maxNumSta
      startedAid := 1
      rrAid := false }

def wpa2ApMode : ApAdapter where
  ad := wpa2Ap
  myBssid := Vector.replicate 6 6
  pmlmeinfoState := rfl
  staInfoUpdate_macAddr _ := rfl
  staInfoUpdate_aid _ := rfl

def openAuth : Event := .mgnt (mgntFrame 0xb0 [0, 0, 1, 0, 0, 0])

def assocReq : Event := .mgnt (mgntFrame 0x00 [0, 0, 0, 0, 0, 1, 0x61, 1, 1, 0x82])

def deauth : Event := .mgnt (mgntFrame 0xc0 [3, 0])

end Rtl8189.ApBss
