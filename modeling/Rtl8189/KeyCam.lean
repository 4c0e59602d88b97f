import Mathlib.Data.Fintype.Card
import Mathlib.Logic.Function.Basic
import Rtl8189.EventRun
import Rtl8189.RecvFrame

/-!
# The key table of the hardware

`setkey_hdl` and `set_stakey_hdl` place keys in 32 CAM entries. A bitmap says
which entries are used, a software cache holds what was written. Entries 0 to 3
hold the default keys and are placed by key id; the others are searched by
address, key id and, with `SEC_CAP_CHK_BMC`, group bit. The search reads the
cache and not the bitmap.
-/
namespace Rtl8189.KeyCam

open Rtl8189.EventRun

abbrev CamId := Fin 32

abbrev CamKey := Vector UInt8 16

def nullAddr : MacAddr := Vector.replicate 6 0

def bcAddr : MacAddr := Vector.replicate 6 0xff

/-- `_NO_PRIVACY_` to `_BIP_` as the driver numbers them. -/
def code : Encrypt → ℕ
  | .noPrivacy => 0
  | .wep40 => 1
  | .tkip => 2
  | .tkipWtmic => 3
  | .aes => 4
  | .wep104 => 5
  | .sms4 => 6
  | .wepWpaMixed => 7
  | .bip => 8

def isWepEnc (alg : Encrypt) : Bool := alg = .wep40 || alg = .wep104

structure SecCamEnt where
  ctrl : BitVec 16 := 0
  mac : MacAddr := nullAddr
  key : CamKey := Vector.replicate 16 0

def SecCamEnt.valid (e : SecCamEnt) : Bool := e.ctrl.getLsbD 15

def SecCamEnt.grpkey (e : SecCamEnt) : Bool := e.ctrl.getLsbD 6

def SecCamEnt.keyid (e : SecCamEnt) : ℕ := e.ctrl.toNat % 4

/-- `BIT(15) | BIT(6) | algorithm << 2 | keyid`, the group bit where asked for. -/
def camCtrl (alg : Encrypt) (kid : Fin 4) (gk : Bool) : BitVec 16 :=
  0x8000#16 ||| (if gk then 0x40#16 else 0) ||| BitVec.ofNat 16 (code alg * 4) |||
    BitVec.ofNat 16 kid.val

structure Cam where
  used : CamId → Bool
  cache : CamId → SecCamEnt
  hw : CamId → SecCamEnt
  pkGkConflict : Bool
  keyIndex : Fin 4
  encAlgo : Encrypt

inductive Mode where
  | null
  | station
  | adhoc
  | ap
  deriving DecidableEq

def Mode.apOrAdhoc (m : Mode) : Bool := m = .ap || m = .adhoc

/-- What the handlers read of the connection: mode, `WIFI_FW_ASSOC_SUCCESS`, own address,
BSSID and the addresses the station table knows. -/
structure Conn where
  mode : Mode
  assocSuccess : Bool
  own : MacAddr
  bssid : MacAddr
  stations : MacAddr → Bool

def rtwGetStainfo (c : Conn) (hwaddr : MacAddr) : Option MacAddr :=
  let addr := if isMcast hwaddr then bcAddr else hwaddr
  if c.stations addr then some addr else none

namespace Cam

def rtwCamidIsGk (s : Cam) (id : CamId) : Bool := s.used id && (s.cache id).grpkey

def camCacheChk (s : Cam) (addr : MacAddr) (kid : Option (Fin 4)) (gk : Option Bool)
    (id : CamId) : Bool :=
  (s.cache id).mac = addr && kid.all (fun k => k.val = (s.cache id).keyid) &&
    gk.all (fun g => g = s.rtwCamidIsGk id)

def rtwCamidSearch (s : Cam) (addr : MacAddr) (kid : Option (Fin 4)) (gk : Option Bool) :
    Option CamId :=
  (List.finRange 32).find? (s.camCacheChk addr kid gk)

def rtwGetCamid (chkBmc : Bool) (s : Cam) (addr : MacAddr) (kid : Fin 4) (gk : Bool) :
    Option CamId :=
  match s.rtwCamidSearch addr (some kid) (if chkBmc then some gk else none) with
  | some i => some i
  | none => (List.finRange 32).find? fun i => 4 ≤ i.val && !s.used i

def camMapSet (s : Cam) (id : CamId) : Cam := { s with used := Function.update s.used id true }

def rtwCamidFree (s : Cam) (id : CamId) : Cam :=
  { s with used := Function.update s.used id false }

def writeCam (s : Cam) (id : CamId) (ctrl : BitVec 16) (mac : MacAddr) (key : CamKey) : Cam :=
  { s with
    hw := Function.update s.hw id ⟨ctrl, mac, key⟩
    cache := Function.update s.cache id ⟨ctrl, mac, key⟩ }

def clearCamEntry (s : Cam) (id : CamId) : Cam :=
  { s with hw := Function.update s.hw id {}, cache := Function.update s.cache id {} }

def invalidateCamAll (s : Cam) : Cam :=
  { s with used := fun _ => false, cache := fun _ => {}, hw := fun _ => {} }

def rtwCamidAlloc (chkBmc : Bool) (c : Conn) (s : Cam) (sta : Option MacAddr) (kid : Fin 4)
    (gk : Bool) : Option (CamId × Bool × Cam) :=
  let camId :=
    if c.mode.apOrAdhoc && sta.isNone then some ⟨kid.val, by omega⟩
    else match sta with
      | some addr => rtwGetCamid chkBmc s addr kid gk
      | none => if c.assocSuccess then rtwGetCamid chkBmc s c.bssid kid gk else none
  camId.map fun i => (i, s.used i, s.camMapSet i)

/-- `while ((camid = rtw_camid_search(addr, -1, gk)) >= 0)` clear and free; `none` when the
loop has not ended after the given number of entries. -/
def clearKeys (addr : MacAddr) (gk : Option Bool) : ℕ → Cam → Option Cam
  | 0, _ => none
  | n + 1, s => match s.rtwCamidSearch addr none gk with
    | none => some s
    | some i => clearKeys addr gk n ((s.clearCamEntry i).rtwCamidFree i)

inductive H2c where
  | success
  | successRsp
  | rejected
  deriving DecidableEq

def setStakeyHdl (chkBmc : Bool) (c : Conn) (s : Cam) (alg : Encrypt) (addr : MacAddr)
    (kid : Fin 4) (gk : Bool) (key : CamKey) : Option (H2c × Cam) :=
  if alg = .noPrivacy then (clearKeys addr none 33 s).map ((.successRsp, ·))
  else match rtwGetStainfo c addr with
    | none => some (.rejected, s)
    | some psta =>
      let s := { s with encAlgo := alg }
      match rtwCamidAlloc chkBmc c s (some psta) kid gk with
      | none => some (.success, s)
      | some (camId, used, s) =>
        let cleared :=
          if !gk && used && s.rtwCamidIsGk camId then
            clearKeys addr (some true) 33 { s with pkGkConflict := true }
          else some s
        cleared.map fun s => (.successRsp, s.writeCam camId (camCtrl alg kid gk) addr key)

def setkeyHdl (chkBmc : Bool) (c : Conn) (s : Cam) (alg : Encrypt) (kid : Fin 4) (setTx : Bool)
    (key : CamKey) : Option (H2c × Cam) :=
  let s := if setTx then { s with keyIndex := kid } else s
  match rtwCamidAlloc chkBmc c s none kid true with
  | none => some (.success, s)
  | some (camId, used, s) =>
    let addr :=
      if camId.val ≤ 3 then nullAddr else if c.mode.apOrAdhoc then c.own else c.bssid
    if used && !s.rtwCamidIsGk camId then
      (clearKeys addr (some true) 33 { s with pkGkConflict := true }).map ((.success, ·))
    else
      let s := s.writeCam camId (camCtrl alg kid true) addr key
      -- the unicast entry of the WEP key
      if isWepEnc alg && c.mode = .station && chkBmc then
        (setStakeyHdl chkBmc c s alg c.bssid kid false key).map fun r => (.success, r.2)
      else some (.success, s)

end Cam

inductive Req where
  | setkey (c : Conn) (alg : Encrypt) (kid : Fin 4) (setTx : Bool) (key : CamKey)
  | setStakey (c : Conn) (alg : Encrypt) (addr : MacAddr) (kid : Fin 4) (gk : Bool) (key : CamKey)
  | invalidateCamAll

def Req.apply (chkBmc : Bool) (s : Cam) : Req → Option Cam
  | .setkey c alg kid setTx key => (s.setkeyHdl chkBmc c alg kid setTx key).map (·.2)
  | .setStakey c alg addr kid gk key => (s.setStakeyHdl chkBmc c alg addr kid gk key).map (·.2)
  | .invalidateCamAll => some s.invalidateCamAll

theorem camCtrl_bits (alg : Encrypt) (kid : Fin 4) (gk : Bool) :
    (camCtrl alg kid gk).getLsbD 15 = true ∧ (camCtrl alg kid gk).getLsbD 6 = gk ∧
      (camCtrl alg kid gk).toNat % 4 = kid.val := by
  cases alg <;> cases gk <;> revert kid <;> decide

namespace Cam

/-- The entries of `p` cleared and freed. -/
def sweep (s : Cam) (p : CamId → Bool) : Cam :=
  { s with
    used := fun i => s.used i && !p i
    cache := fun i => if p i then {} else s.cache i
    hw := fun i => if p i then {} else s.hw i }

theorem sweep_none {s : Cam} {p : CamId → Bool} (hp : ∀ i, p i = false) : s.sweep p = s := by
  simp only [sweep, hp, Bool.not_false, Bool.and_true, Bool.false_eq_true, if_false]

theorem clear_free_eq_sweep (s : Cam) (id : CamId) :
    (s.clearCamEntry id).rtwCamidFree id = s.sweep (fun i => i = id) := by
  simp only [clearCamEntry, rtwCamidFree, sweep]
  congr 1 <;> funext i <;> by_cases hi : i = id <;> simp [hi]

theorem sweep_sweep {s : Cam} {p q r : CamId → Bool} (h : ∀ i, r i = (p i || q i)) :
    (s.sweep p).sweep q = s.sweep r := by
  simp only [sweep, h]
  congr 1 <;> funext i <;> cases p i <;> cases q i <;> simp

theorem rtwCamidSearch_none {s : Cam} {addr : MacAddr} {kid : Option (Fin 4)} {gk : Option Bool}
    (h : s.rtwCamidSearch addr kid gk = none) (i : CamId) :
    s.camCacheChk addr kid gk i = false := by
  have := List.find?_eq_none.1 h i (List.mem_finRange i)
  exact eq_false_of_ne_true this

theorem rtwCamidSearch_some {s : Cam} {addr : MacAddr} {kid : Option (Fin 4)} {gk : Option Bool}
    {i : CamId} (h : s.rtwCamidSearch addr kid gk = some i) : s.camCacheChk addr kid gk i = true :=
  List.find?_some h

theorem camCacheChk_sweep {s : Cam} {addr : MacAddr} {gk : Option Bool}
    (h : gk = some true ∨ addr ≠ nullAddr) (id i : CamId) :
    (s.sweep (fun i => i = id)).camCacheChk addr none gk i =
      (i ≠ id && s.camCacheChk addr none gk i) := by
  by_cases hi : i = id
  · subst hi
    rcases h with rfl | h
    · simp [camCacheChk, sweep, rtwCamidIsGk]
    · simp [camCacheChk, sweep, Ne.symm h]
  · have hused : (s.sweep (fun i => i = id)).used i = s.used i := by simp [sweep, hi]
    have hcache : (s.sweep (fun i => i = id)).cache i = s.cache i := by simp [sweep, hi]
    rw [decide_eq_true hi, Bool.true_and]
    unfold camCacheChk rtwCamidIsGk
    rw [hused, hcache]

theorem clearKeys_eq {addr : MacAddr} {gk : Option Bool} (h : gk = some true ∨ addr ≠ nullAddr)
    (n : ℕ) (s : Cam)
    (hn : (Finset.univ.filter fun i => s.camCacheChk addr none gk i = true).card < n) :
    clearKeys addr gk n s = some (s.sweep (s.camCacheChk addr none gk)) := by
  induction n generalizing s with
  | zero => omega
  | succ n ih =>
    rw [clearKeys]
    cases hsearch : s.rtwCamidSearch addr none gk with
    | none => rw [sweep_none (rtwCamidSearch_none hsearch)]
    | some id =>
      have hid := rtwCamidSearch_some hsearch
      have hchk := camCacheChk_sweep (s := s) h id
      simp only [clear_free_eq_sweep]
      have hlt : (Finset.univ.filter fun i =>
          (s.sweep (fun i => i = id)).camCacheChk addr none gk i = true).card < n := by
        refine lt_of_lt_of_le (Finset.card_lt_card ?_) (Nat.le_of_lt_succ hn)
        refine Finset.ssubset_iff_of_subset ?_ |>.2 ⟨id, by simp [hid], by simp [hchk]⟩
        intro i hi
        simp only [hchk, Finset.mem_filter, Bool.and_eq_true] at hi
        simp [hi.2.2]
      rw [ih _ hlt, sweep_sweep (r := s.camCacheChk addr none gk)]
      intro i
      rw [hchk]
      by_cases hi : i = id <;> simp [hi, hid]

theorem clearKeys_cam {addr : MacAddr} {gk : Option Bool}
    (h : gk = some true ∨ addr ≠ nullAddr) (s : Cam) :
    clearKeys addr gk 33 s = some (s.sweep (s.camCacheChk addr none gk)) := by
  refine clearKeys_eq h 33 s (Nat.lt_succ_of_le ?_)
  exact (Finset.card_filter_le _ _).trans (by simp)

/-- What every step keeps: with the group bit out of the search, address and key id alone are
unique. -/
structure Sound (chkBmc : Bool) (s : Cam) : Prop where
  used_eq : ∀ i, s.used i = (s.cache i).valid
  hw_eq : s.hw = s.cache
  clear : ∀ i, (s.cache i).valid = false → (s.cache i).mac = nullAddr
  default : ∀ i, (s.cache i).valid → i.val < 4 →
    (s.cache i).mac = nullAddr ∧ (s.cache i).grpkey ∧ (s.cache i).keyid = i.val
  other : ∀ i, (s.cache i).valid → 4 ≤ i.val → (s.cache i).mac ≠ nullAddr
  unique : ∀ i j, (s.cache i).valid → (s.cache j).valid → (s.cache i).mac = (s.cache j).mac →
    (s.cache i).keyid = (s.cache j).keyid →
    (chkBmc → (s.cache i).grpkey = (s.cache j).grpkey) → i = j

variable {chkBmc : Bool} {s : Cam}

theorem invalidate_not_valid (s : Cam) (i : CamId) :
    ¬ (s.invalidateCamAll.cache i).valid = true := by
  change ¬ SecCamEnt.valid {} = true
  decide

theorem Sound.invalidate (chkBmc : Bool) (s : Cam) : Sound chkBmc s.invalidateCamAll where
  used_eq i := (eq_false_of_ne_true (invalidate_not_valid s i)).symm
  hw_eq := rfl
  clear _ _ := rfl
  default i h := absurd h (invalidate_not_valid s i)
  other i h := absurd h (invalidate_not_valid s i)
  unique i _ h := absurd h (invalidate_not_valid s i)

theorem Sound.sweep (h : Sound chkBmc s) (p : CamId → Bool) : Sound chkBmc (s.sweep p) := by
  have hcache : ∀ i, ((s.sweep p).cache i).valid → p i = false ∧ (s.cache i).valid := by
    intro i hi
    cases hp : p i with
    | false => simpa [Cam.sweep, hp] using hi
    | true => simp [Cam.sweep, hp, SecCamEnt.valid] at hi
  have hkeep : ∀ i, p i = false → (s.sweep p).cache i = s.cache i := by
    intro i hi
    simp [Cam.sweep, hi]
  constructor
  · intro i
    cases hp : p i with
    | false => simp [Cam.sweep, hp, h.used_eq i]
    | true => simp [Cam.sweep, hp, SecCamEnt.valid]
  · simp only [Cam.sweep, h.hw_eq]
  · intro i hi
    cases hp : p i with
    | false =>
      rw [hkeep i hp] at hi ⊢
      exact h.clear i hi
    | true => simp [Cam.sweep, hp]
  · intro i hi
    rw [hkeep i (hcache i hi).1]
    exact h.default i (hcache i hi).2
  · intro i hi
    rw [hkeep i (hcache i hi).1]
    exact h.other i (hcache i hi).2
  · intro i j hi hj
    rw [hkeep i (hcache i hi).1, hkeep j (hcache j hj).1]
    exact h.unique i j (hcache i hi).2 (hcache j hj).2

theorem Sound.write (h : Sound chkBmc s) {id : CamId} {ctrl : BitVec 16} {mac : MacAddr}
    {key : CamKey} (hvalid : SecCamEnt.valid ⟨ctrl, mac, key⟩)
    (hdefault : id.val < 4 → mac = nullAddr ∧ SecCamEnt.grpkey ⟨ctrl, mac, key⟩ ∧
      SecCamEnt.keyid ⟨ctrl, mac, key⟩ = id.val)
    (hother : 4 ≤ id.val → mac ≠ nullAddr)
    (hunique : ∀ j, j ≠ id → (s.cache j).valid → (s.cache j).mac = mac →
      (s.cache j).keyid = SecCamEnt.keyid ⟨ctrl, mac, key⟩ →
      chkBmc ∧ (s.cache j).grpkey ≠ SecCamEnt.grpkey ⟨ctrl, mac, key⟩) :
    Sound chkBmc ((s.camMapSet id).writeCam id ctrl mac key) := by
  have hself : ((s.camMapSet id).writeCam id ctrl mac key).cache id = ⟨ctrl, mac, key⟩ := by
    simp [writeCam]
  have hne : ∀ j, j ≠ id → ((s.camMapSet id).writeCam id ctrl mac key).cache j = s.cache j := by
    intro j hj
    simp [writeCam, camMapSet, hj]
  constructor
  · intro i
    by_cases hi : i = id
    · subst hi
      rw [hself, hvalid]
      simp [writeCam, camMapSet]
    · rw [hne i hi, ← h.used_eq i]
      simp [writeCam, camMapSet, hi]
  · simp only [writeCam, camMapSet, h.hw_eq]
  · intro i hi
    by_cases hid : i = id
    · subst hid
      rw [hself, hvalid] at hi
      exact absurd hi (by decide)
    · rw [hne i hid] at hi ⊢
      exact h.clear i hi
  · intro i hi
    by_cases hid : i = id
    · subst hid
      rw [hself]
      exact hdefault
    · rw [hne i hid] at hi ⊢
      exact h.default i hi
  · intro i hi
    by_cases hid : i = id
    · subst hid
      rw [hself]
      exact hother
    · rw [hne i hid] at hi ⊢
      exact h.other i hi
  · intro i j hi hj hmac hkid hgk
    by_cases hid : i = id <;> by_cases hjd : j = id
    · rw [hid, hjd]
    · subst hid
      rw [hself, hne j hjd] at hmac hkid hgk
      rw [hne j hjd] at hj
      obtain ⟨hchk, hne'⟩ := hunique j hjd hj hmac.symm hkid.symm
      exact absurd (hgk hchk).symm hne'
    · subst hjd
      rw [hself, hne i hid] at hmac hkid hgk
      rw [hne i hid] at hi
      obtain ⟨hchk, hne'⟩ := hunique i hid hi hmac hkid
      exact absurd (hgk hchk) hne'
    · rw [hne i hid] at hi hmac hkid hgk
      rw [hne j hjd] at hj hmac hkid hgk
      exact h.unique i j hi hj hmac hkid hgk

/-- The entry found is the one of this key, or a free one, and then there is none. -/
theorem Sound.getCamid_spec (h : Sound chkBmc s) {addr : MacAddr} (haddr : addr ≠ nullAddr)
    {kid : Fin 4} {gk : Bool} {i : CamId} (hi : rtwGetCamid chkBmc s addr kid gk = some i) :
    4 ≤ i.val ∧
      (s.used i = true ∧ (s.cache i).mac = addr ∧ (s.cache i).keyid = kid.val ∧
          (chkBmc → (s.cache i).grpkey = gk) ∨
        s.used i = false ∧ ∀ j, (s.cache j).valid → (s.cache j).mac = addr →
          (s.cache j).keyid = kid.val → chkBmc ∧ (s.cache j).grpkey ≠ gk) := by
  rw [Cam.rtwGetCamid] at hi
  cases hsearch : s.rtwCamidSearch addr (some kid) (if chkBmc then some gk else none) with
  | some k =>
    rw [hsearch, Option.some.injEq] at hi
    subst hi
    have hfound := rtwCamidSearch_some hsearch
    simp only [camCacheChk, Bool.and_eq_true, decide_eq_true_eq, Option.all_some] at hfound
    obtain ⟨⟨hmac, hkid⟩, hgk⟩ := hfound
    have hvalid : (s.cache k).valid := by
      by_contra hv
      exact haddr (hmac ▸ h.clear k (eq_false_of_ne_true hv))
    have hused : s.used k = true := by rw [h.used_eq k, hvalid]
    refine ⟨?_, .inl ⟨hused, hmac, hkid.symm, ?_⟩⟩
    · by_contra hlt
      exact haddr (hmac ▸ (h.default k hvalid (by omega)).1)
    · intro hchk
      simp only [hchk, if_true, Option.all_some, decide_eq_true_eq] at hgk
      simpa [rtwCamidIsGk, hused] using hgk.symm
  | none =>
    rw [hsearch] at hi
    have hfree := List.find?_some hi
    simp only [Bool.and_eq_true, decide_eq_true_eq, Bool.not_eq_true'] at hfree
    refine ⟨hfree.1, .inr ⟨hfree.2, ?_⟩⟩
    intro j hj hmac hkid
    have hnot := rtwCamidSearch_none hsearch j
    simp only [camCacheChk, hmac, hkid, decide_true, Option.all_some, Bool.true_and] at hnot
    cases chkBmc with
    | false => simp at hnot
    | true =>
      have hused : s.used j = true := by rw [h.used_eq j, hj]
      simp only [if_true, Option.all_some, rtwCamidIsGk, hused, Bool.true_and,
        decide_eq_false_iff_not] at hnot
      exact ⟨rfl, Ne.symm hnot⟩

end Cam

/-- What installing a key of `addr` with key id `kid` leaves alone. -/
structure InstallKeeps (addr : MacAddr) (kid : Fin 4) (s s' : Cam) : Prop where
  other : ∀ i, (s.cache i).valid → (s.cache i).mac ≠ addr →
    s'.cache i = s.cache i ∧ s'.used i = s.used i
  same : ∀ i, (s.cache i).valid → (s.cache i).mac = addr →
    s'.cache i = s.cache i ∨ (s'.cache i).valid = false ∨ (s.cache i).keyid = kid.val

structure RemoveKeeps (addr : MacAddr) (s s' : Cam) : Prop where
  gone : ∀ i, (s'.cache i).mac ≠ addr
  other : ∀ i, (s.cache i).mac ≠ addr → s'.cache i = s.cache i ∧ s'.used i = s.used i

theorem InstallKeeps.of_eq (addr : MacAddr) (kid : Fin 4) {s s' : Cam} (hc : s'.cache = s.cache)
    (hu : s'.used = s.used) : InstallKeeps addr kid s s' := by
  constructor
  · intro i _ _
    rw [hc, hu]
    exact ⟨rfl, rfl⟩
  · intro i _ _
    rw [hc]
    exact .inl rfl

theorem InstallKeeps.trans {addr : MacAddr} {kid : Fin 4} {s s' s'' : Cam}
    (h : InstallKeeps addr kid s s')
    (hvalid : ∀ i, (s.cache i).valid → (s'.cache i).valid)
    (h' : InstallKeeps addr kid s' s'') : InstallKeeps addr kid s s'' := by
  constructor
  · intro i hi hne
    obtain ⟨hc, hu⟩ := h.other i hi hne
    obtain ⟨hc', hu'⟩ := h'.other i (hvalid i hi) (by rw [hc]; exact hne)
    exact ⟨hc'.trans hc, hu'.trans hu⟩
  · intro i hi heq
    rcases h.same i hi heq with hc | hv | hk
    · rcases h'.same i (hvalid i hi) (by rw [hc]; exact heq) with hc' | hv' | hk'
      · exact .inl (hc'.trans hc)
      · exact .inr (.inl hv')
      · rw [hc] at hk'
        exact .inr (.inr hk')
    · exact absurd (hvalid i hi) (by rw [hv]; decide)
    · exact .inr (.inr hk)

def Conn.groupAddr (c : Conn) : MacAddr := if c.mode.apOrAdhoc then nullAddr else c.bssid

def Req.Keeps (s s' : Cam) : Req → Prop
  | .setkey c _ kid _ _ => InstallKeeps c.groupAddr kid s s'
  | .setStakey _ alg addr kid _ _ =>
    if alg = .noPrivacy then RemoveKeeps addr s s' else InstallKeeps addr kid s s'
  | .invalidateCamAll => ∀ i, (s'.cache i).valid = false

/-- An address of a station: not zero, and of the group addresses only the broadcast one. -/
def StaAddr (addr : MacAddr) : Prop := addr ≠ nullAddr ∧ (isMcast addr → addr = bcAddr)

instance (addr : MacAddr) : Decidable (StaAddr addr) := inferInstanceAs (Decidable (_ ∧ _))

/-- The removal of a station's keys names a station. Keys are set for stations, and no pairwise
key is set, with the group bit out of the search, where the station has a group key of the same
key id. -/
def Req.Clean (chkBmc : Bool) (s : Cam) : Req → Prop
  | .setkey c _ _ _ _ => c.mode.apOrAdhoc = false → c.assocSuccess → StaAddr c.bssid
  | .setStakey c alg addr kid gk _ =>
    if alg = .noPrivacy then addr ≠ nullAddr
    else (rtwGetStainfo c addr).isSome → StaAddr addr ∧
      ¬ (gk = false ∧ chkBmc = false ∧
        ∃ i, s.rtwCamidIsGk i ∧ (s.cache i).mac = addr ∧ (s.cache i).keyid = kid.val)
  | .invalidateCamAll => True

namespace Cam

variable {chkBmc : Bool} {s : Cam}

theorem camCtrl_ent (alg : Encrypt) (kid : Fin 4) (gk : Bool) (mac : MacAddr) (key : CamKey) :
    SecCamEnt.valid ⟨camCtrl alg kid gk, mac, key⟩ = true ∧
      SecCamEnt.grpkey ⟨camCtrl alg kid gk, mac, key⟩ = gk ∧
      SecCamEnt.keyid ⟨camCtrl alg kid gk, mac, key⟩ = kid.val := camCtrl_bits alg kid gk

theorem rtwGetStainfo_staAddr {c : Conn} {addr psta : MacAddr} (hsta : StaAddr addr)
    (h : rtwGetStainfo c addr = some psta) : psta = addr := by
  rw [rtwGetStainfo] at h
  have hpsta := (Option.ite_none_right_eq_some.1 h).2
  rw [Option.some.injEq] at hpsta
  by_cases hm : isMcast addr
  · rw [if_pos hm] at hpsta
    rw [hsta.2 hm, hpsta]
  · rw [if_neg hm] at hpsta
    exact hpsta.symm

theorem write_keeps (id : CamId) {addr : MacAddr} {kid : Fin 4} {ctrl : BitVec 16} {key : CamKey}
    (hid : (s.cache id).valid → (s.cache id).mac = addr ∧ (s.cache id).keyid = kid.val) :
    InstallKeeps addr kid s ((s.camMapSet id).writeCam id ctrl addr key) := by
  have hne : ∀ j, j ≠ id → ((s.camMapSet id).writeCam id ctrl addr key).cache j = s.cache j ∧
      ((s.camMapSet id).writeCam id ctrl addr key).used j = s.used j := by
    intro j hj
    simp [writeCam, camMapSet, hj]
  constructor
  · intro i hi hmac
    refine hne i ?_
    rintro rfl
    exact hmac (hid hi).1
  · intro i hi _
    by_cases hii : i = id
    · subst hii
      exact .inr (.inr (hid hi).2)
    · exact .inl (hne i hii).1

theorem sweep_keeps (addr : MacAddr) (kid : Fin 4) (gk : Option Bool) :
    InstallKeeps addr kid s (s.sweep (s.camCacheChk addr none gk)) := by
  constructor
  · intro i _ hmac
    simp [sweep, camCacheChk, hmac]
  · intro i _ _
    cases hp : s.camCacheChk addr none gk i with
    | false => exact .inl (by simp [sweep, hp])
    | true => exact .inr (.inl (by simp [sweep, hp, SecCamEnt.valid]))

theorem write_valid (id : CamId) {ctrl : BitVec 16} {mac : MacAddr} {key : CamKey}
    (hctrl : SecCamEnt.valid ⟨ctrl, mac, key⟩) (i : CamId) (hi : (s.cache i).valid) :
    (((s.camMapSet id).writeCam id ctrl mac key).cache i).valid := by
  by_cases hid : i = id
  · subst hid
    simpa [writeCam] using hctrl
  · simpa [writeCam, camMapSet, hid] using hi

theorem camMapSet_of_used {id : CamId} (h : s.used id = true) : s.camMapSet id = s := by
  rw [camMapSet, ← h, Function.update_eq_self]

theorem Sound.place (h : Sound chkBmc s) {addr : MacAddr} (haddr : addr ≠ nullAddr)
    {kid : Fin 4} {gk : Bool} {i : CamId} (hi : rtwGetCamid chkBmc s addr kid gk = some i)
    (alg : Encrypt) (key : CamKey) :
    Sound chkBmc ((s.camMapSet i).writeCam i (camCtrl alg kid gk) addr key) ∧
      InstallKeeps addr kid s ((s.camMapSet i).writeCam i (camCtrl alg kid gk) addr key) := by
  obtain ⟨hle, hfound⟩ := h.getCamid_spec haddr hi
  obtain ⟨hvalid, hgrp, hkey⟩ := camCtrl_ent alg kid gk addr key
  have hself : (s.cache i).valid → (s.cache i).mac = addr ∧ (s.cache i).keyid = kid.val ∧
      (chkBmc → (s.cache i).grpkey = gk) := by
    intro hv
    rcases hfound with ⟨-, hmac, hkid, hgk⟩ | ⟨hfree, -⟩
    · exact ⟨hmac, hkid, hgk⟩
    · rw [h.used_eq, hv] at hfree
      cases hfree
  refine ⟨h.write hvalid (fun hlt => absurd hlt (by omega)) (fun _ => haddr) ?_,
    write_keeps i fun hv => ⟨(hself hv).1, (hself hv).2.1⟩⟩
  intro j hj hv hmac hkid
  rw [hkey] at hkid
  rw [hgrp]
  rcases hfound with ⟨hused, hmaci, hkidi, hgki⟩ | ⟨-, hnone⟩
  · rw [h.used_eq] at hused
    by_contra hcon
    refine hj (h.unique j i hv hused (hmac.trans hmaci.symm) (hkid.trans hkidi.symm) ?_)
    intro hchk
    rw [hgki hchk]
    by_contra hgk
    exact hcon ⟨hchk, hgk⟩
  · exact hnone j hv hmac hkid

theorem Sound.place_default (h : Sound chkBmc s) (alg : Encrypt) (kid : Fin 4) (key : CamKey) :
    Sound chkBmc ((s.camMapSet ⟨kid.val, by omega⟩).writeCam ⟨kid.val, by omega⟩
        (camCtrl alg kid true) nullAddr key) ∧
      InstallKeeps nullAddr kid s ((s.camMapSet ⟨kid.val, by omega⟩).writeCam
        ⟨kid.val, by omega⟩ (camCtrl alg kid true) nullAddr key) := by
  obtain ⟨hvalid, hgrp, hkey⟩ := camCtrl_ent alg kid true nullAddr key
  refine ⟨h.write hvalid (fun _ => ⟨rfl, hgrp, hkey⟩) (fun hle => ?_) ?_, write_keeps _ fun hv => ?_⟩
  · exact absurd hle (by simp only; omega)
  · intro j hj hv hmac hkid
    rw [hkey] at hkid
    refine absurd (Fin.ext ?_) hj
    have hlt : j.val < 4 := by
      by_contra hge
      exact h.other j hv (by omega) hmac
    exact (h.default j hv hlt).2.2.symm.trans hkid
  · have hd := h.default _ hv kid.isLt
    exact ⟨hd.1, hd.2.2⟩

theorem setStakeyHdl_install (h : Sound chkBmc s) {c : Conn} {alg : Encrypt}
    (halg : alg ≠ .noPrivacy) {addr : MacAddr} {kid : Fin 4} {gk : Bool}
    (hclean : (rtwGetStainfo c addr).isSome → StaAddr addr ∧
      ¬ (gk = false ∧ chkBmc = false ∧
        ∃ i, s.rtwCamidIsGk i ∧ (s.cache i).mac = addr ∧ (s.cache i).keyid = kid.val))
    (key : CamKey) :
    ∃ r s', setStakeyHdl chkBmc c s alg addr kid gk key = some (r, s') ∧ Sound chkBmc s' ∧
      InstallKeeps addr kid s s' := by
  have h' : Sound chkBmc { s with encAlgo := alg } :=
    ⟨h.used_eq, h.hw_eq, h.clear, h.default, h.other, h.unique⟩
  rw [setStakeyHdl, if_neg halg]
  cases hsta : rtwGetStainfo c addr with
  | none => exact ⟨_, s, rfl, h, .of_eq addr kid rfl rfl⟩
  | some psta =>
    obtain ⟨haddr, hconf⟩ := hclean (by rw [hsta]; rfl)
    have hpsta := rtwGetStainfo_staAddr haddr hsta
    subst hpsta
    simp only [rtwCamidAlloc, Option.isNone_some, Bool.and_false, Bool.false_eq_true, if_false]
    cases hget : rtwGetCamid chkBmc { s with encAlgo := alg } psta kid gk with
    | none => exact ⟨_, _, rfl, h', .of_eq psta kid rfl rfl⟩
    | some i =>
      obtain ⟨-, hfound⟩ := h'.getCamid_spec haddr.1 hget
      obtain ⟨hsound, hkeeps⟩ := h'.place haddr.1 hget alg key
      refine ⟨.successRsp, _, ?_, hsound, hkeeps.other, hkeeps.same⟩
      simp only [Option.map_some]
      rw [if_neg]
      · rfl
      · intro hcond
        simp only [Bool.and_eq_true, Bool.not_eq_true'] at hcond
        obtain ⟨⟨hgk, hused⟩, hisgk⟩ := hcond
        have hgrp : (s.cache i).grpkey = true := by
          simp only [rtwCamidIsGk, Bool.and_eq_true] at hisgk
          exact hisgk.2
        rcases hfound with ⟨-, hmac, hkid, hchk⟩ | ⟨hfree, -⟩
        · refine hconf ⟨hgk, ?_, i, ?_, hmac, hkid⟩
          · by_contra hc
            have hgk' := hchk (eq_true_of_ne_false hc)
            change (s.cache i).grpkey = gk at hgk'
            rw [hgrp, hgk] at hgk'
            cases hgk'
          · rw [rtwCamidIsGk, hgrp, Bool.and_true]
            exact hused
        · exact absurd (hused.symm.trans hfree) (by decide)

theorem setStakeyHdl_remove (h : Sound chkBmc s) (c : Conn) {addr : MacAddr}
    (haddr : addr ≠ nullAddr) (kid : Fin 4) (gk : Bool) (key : CamKey) :
    ∃ r s', setStakeyHdl chkBmc c s .noPrivacy addr kid gk key = some (r, s') ∧
      Sound chkBmc s' ∧ RemoveKeeps addr s s' := by
  rw [setStakeyHdl, if_pos rfl, clearKeys_cam (.inr haddr)]
  refine ⟨_, _, rfl, h.sweep _, ?_, ?_⟩
  · intro i
    by_cases hi : (s.cache i).mac = addr
    · have hp : s.camCacheChk addr none none i = true := by simp [camCacheChk, hi]
      simpa [sweep, hp] using haddr.symm
    · simp [sweep, camCacheChk, hi]
  · intro i hi
    simp [sweep, camCacheChk, hi]

theorem setkeyHdl_station (h : Sound chkBmc s) {c : Conn} (hmode : c.mode.apOrAdhoc = false)
    (hassoc : c.assocSuccess = true) (hbssid : StaAddr c.bssid) (alg : Encrypt) (kid : Fin 4)
    (key : CamKey) :
    ∃ r s', setkeyHdl chkBmc c s alg kid false key = some (r, s') ∧ Sound chkBmc s' ∧
      InstallKeeps c.bssid kid s s' := by
  simp only [setkeyHdl, rtwCamidAlloc, hmode, hassoc, Bool.false_and, Bool.false_eq_true, if_false,
    if_true]
  cases hget : rtwGetCamid chkBmc s c.bssid kid true with
  | none => exact ⟨_, s, rfl, h, .of_eq c.bssid kid rfl rfl⟩
  | some i =>
    obtain ⟨hle, -⟩ := h.getCamid_spec hbssid.1 hget
    have hgt : ¬ i.val ≤ 3 := by omega
    simp only [Option.map_some, if_neg hgt]
    split
    · -- the search found a pairwise key: the group keys of the BSSID go
      next hcond =>
      simp only [Bool.and_eq_true] at hcond
      have hs : s.camMapSet i = s := camMapSet_of_used hcond.1
      rw [clearKeys_cam (.inl rfl), hs]
      have hkeeps := sweep_keeps (s := s) c.bssid kid (some true)
      have hsound := h.sweep (s.camCacheChk c.bssid none (some true))
      exact ⟨_, _, rfl,
        ⟨hsound.used_eq, hsound.hw_eq, hsound.clear, hsound.default, hsound.other,
          hsound.unique⟩, hkeeps.other, hkeeps.same⟩
    · obtain ⟨hsound, hkeeps⟩ := h.place hbssid.1 hget alg key
      split
      · next hcond =>
        simp only [Bool.and_eq_true, decide_eq_true_eq] at hcond
        have halg : alg ≠ .noPrivacy := by
          rintro rfl
          exact absurd hcond.1.1 (by decide)
        have hclean : (rtwGetStainfo c c.bssid).isSome → StaAddr c.bssid ∧
            ¬ (false = false ∧ chkBmc = false ∧ ∃ j,
              ((s.camMapSet i).writeCam i (camCtrl alg kid true) c.bssid key).rtwCamidIsGk j ∧
              (((s.camMapSet i).writeCam i (camCtrl alg kid true) c.bssid key).cache j).mac =
                c.bssid ∧
              (((s.camMapSet i).writeCam i (camCtrl alg kid true) c.bssid key).cache j).keyid =
                kid.val) := by
          intro _
          refine ⟨hbssid, ?_⟩
          rintro ⟨-, hchk, -⟩
          rw [hcond.2] at hchk
          cases hchk
        obtain ⟨r, s', hstep, hsound', hkeeps'⟩ := setStakeyHdl_install hsound halg hclean key
        refine ⟨_, s', by rw [hstep]; rfl, hsound', hkeeps.trans ?_ hkeeps'⟩
        exact write_valid i (camCtrl_ent alg kid true c.bssid key).1
      · exact ⟨_, _, rfl, hsound, hkeeps⟩

theorem setkeyHdl_bss (h : Sound chkBmc s) {c : Conn} (hmode : c.mode.apOrAdhoc = true)
    (alg : Encrypt) (kid : Fin 4) (key : CamKey) :
    ∃ r s', setkeyHdl chkBmc c s alg kid false key = some (r, s') ∧ Sound chkBmc s' ∧
      InstallKeeps nullAddr kid s s' := by
  obtain ⟨hsound, hkeeps⟩ := h.place_default alg kid key
  have hle : kid.val ≤ 3 := by omega
  have hsta : c.mode ≠ .station := by
    intro hm
    rw [hm] at hmode
    cases hmode
  have hguard : ¬ (s.used ⟨kid.val, by omega⟩ &&
      !(s.camMapSet ⟨kid.val, by omega⟩).rtwCamidIsGk ⟨kid.val, by omega⟩) = true := by
    intro hcond
    simp only [Bool.and_eq_true, Bool.not_eq_true'] at hcond
    rw [camMapSet_of_used hcond.1] at hcond
    have hv := (h.used_eq ⟨kid.val, by omega⟩).symm.trans hcond.1
    have hgk := hcond.2
    rw [rtwCamidIsGk, hcond.1, (h.default _ hv kid.isLt).2.1] at hgk
    cases hgk
  refine ⟨.success, _, ?_, hsound, hkeeps⟩
  simp only [setkeyHdl, rtwCamidAlloc, hmode, Option.isNone_none, Bool.and_true, if_true,
    Option.map_some, if_pos hle, Bool.false_eq_true, if_false, hsta, decide_false,
    Bool.and_false, Bool.false_and]
  rw [if_neg hguard]

end Cam

/-- One request: it ends, the table stays sound, and only the keys it names are touched. -/
theorem Req.apply_spec {chkBmc : Bool} {s : Cam} (h : Cam.Sound chkBmc s) (e : Req)
    (hclean : e.Clean chkBmc s) :
    ∃ s', e.apply chkBmc s = some s' ∧ Cam.Sound chkBmc s' ∧ e.Keeps s s' := by
  cases e with
  | invalidateCamAll =>
    refine ⟨_, rfl, Cam.Sound.invalidate chkBmc s, ?_⟩
    intro i
    exact eq_false_of_ne_true (Cam.invalidate_not_valid s i)
  | setStakey c alg addr kid gk key =>
    by_cases halg : alg = .noPrivacy
    · subst halg
      obtain ⟨r, s', hstep, hsound, hkeeps⟩ :=
        Cam.setStakeyHdl_remove h c (by simpa [Req.Clean] using hclean) kid gk key
      refine ⟨s', by rw [Req.apply, hstep]; rfl, hsound, ?_⟩
      rw [Req.Keeps, if_pos rfl]
      exact hkeeps
    · rw [Req.Clean, if_neg halg] at hclean
      obtain ⟨r, s', hstep, hsound, hkeeps⟩ := Cam.setStakeyHdl_install h halg hclean key
      refine ⟨s', by rw [Req.apply, hstep]; rfl, hsound, ?_⟩
      rw [Req.Keeps, if_neg halg]
      exact hkeeps
  | setkey c alg kid setTx key =>
    let s₀ := if setTx then { s with keyIndex := kid } else s
    have hcache : s₀.cache = s.cache := by cases setTx <;> rfl
    have hused : s₀.used = s.used := by cases setTx <;> rfl
    have h₀ : Cam.Sound chkBmc s₀ := by
      cases setTx
      · exact h
      · exact ⟨h.used_eq, h.hw_eq, h.clear, h.default, h.other, h.unique⟩
    have hcore : s.setkeyHdl chkBmc c alg kid setTx key =
        s₀.setkeyHdl chkBmc c alg kid false key := rfl
    have hkeep : ∀ {a : MacAddr} {s' : Cam}, InstallKeeps a kid s₀ s' → InstallKeeps a kid s s' := by
      intro a s' hk
      constructor
      · rw [← hcache, ← hused]
        exact hk.other
      · rw [← hcache]
        exact hk.same
    by_cases hmode : c.mode.apOrAdhoc
    · obtain ⟨r, s', hstep, hsound, hkeeps⟩ := Cam.setkeyHdl_bss h₀ hmode alg kid key
      refine ⟨s', by rw [Req.apply, hcore, hstep]; rfl, hsound, hkeep ?_⟩
      rw [Conn.groupAddr, if_pos hmode]
      exact hkeeps
    · have hmode' : c.mode.apOrAdhoc = false := eq_false_of_ne_true hmode
      have hgroup : c.groupAddr = c.bssid := if_neg hmode
      by_cases hassoc : c.assocSuccess
      · obtain ⟨r, s', hstep, hsound, hkeeps⟩ :=
          Cam.setkeyHdl_station h₀ hmode' hassoc (hclean hmode' hassoc) alg kid key
        refine ⟨s', by rw [Req.apply, hcore, hstep]; rfl, hsound, hkeep ?_⟩
        rw [hgroup]
        exact hkeeps
      · refine ⟨s₀, ?_, h₀, .of_eq c.groupAddr kid hcache hused⟩
        rw [Req.apply, hcore]
        simp only [Cam.setkeyHdl, Cam.rtwCamidAlloc, hmode', hassoc, Bool.false_and,
          Bool.false_eq_true, if_false, Option.map_none, Option.map_some]

/-- The table over a list of requests; `none` when a clearing loop does not end. -/
def runReqs (chkBmc : Bool) (s : Cam) (es : List Req) : Option Cam :=
  run (fun o e => o.bind (Req.apply chkBmc · e)) (some s) es

def CleanRun (chkBmc : Bool) (s : Cam) (es : List Req) : Prop :=
  Along (fun o e => o.bind (Req.apply chkBmc · e))
    (fun (o : Option Cam) (e : Req) => ∀ t, o = some t → e.Clean chkBmc t) (some s) es

theorem runReqs_sound (chkBmc : Bool) {s : Cam} (h : Cam.Sound chkBmc s) {es : List Req}
    (hes : CleanRun chkBmc s es) :
    ∃ s', runReqs chkBmc s es = some s' ∧ Cam.Sound chkBmc s' := by
  refine run_spec (fun (o : Option Cam) (e : Req) => ∀ t, o = some t → e.Clean chkBmc t)
    (fun o => ∃ s', o = some s' ∧ Cam.Sound chkBmc s') ?_ ⟨s, rfl, h⟩ hes
  rintro o e ⟨t, rfl, ht⟩ hclean
  obtain ⟨t', hstep, ht', -⟩ := e.apply_spec ht (hclean t rfl)
  exact ⟨t', hstep, ht'⟩

/-- From the invalidated table, through any requests that meet the condition: bitmap and
valid bits agree, no key is stored twice, an install touches no key of another address and of its
own address overwrites only its key id, and a removal leaves nothing of its address. -/
theorem keys_kept_apart (chkBmc : Bool) (s₀ : Cam) (es : List Req) (e : Req)
    (hes : CleanRun chkBmc s₀.invalidateCamAll es)
    (he : ∀ s, runReqs chkBmc s₀.invalidateCamAll es = some s → e.Clean chkBmc s) :
    ∃ s s', runReqs chkBmc s₀.invalidateCamAll es = some s ∧ e.apply chkBmc s = some s' ∧
      (∀ i, s'.used i = (s'.cache i).valid) ∧
      (∀ i j, (s'.cache i).valid → (s'.cache j).valid → (s'.cache i).mac = (s'.cache j).mac →
        (s'.cache i).keyid = (s'.cache j).keyid → (s'.cache i).grpkey = (s'.cache j).grpkey →
        i = j) ∧
      s'.hw = s'.cache ∧ e.Keeps s s' := by
  obtain ⟨s, hrun, hsound⟩ := runReqs_sound chkBmc (.invalidate chkBmc s₀) hes
  obtain ⟨s', hstep, hsound', hkeeps⟩ := e.apply_spec hsound (he s hrun)
  refine ⟨s, s', hrun, hstep, hsound'.used_eq, ?_, hsound'.hw_eq, hkeeps⟩
  intro i j hi hj hmac hkid hgk
  exact hsound'.unique i j hi hj hmac hkid fun _ => hgk

def peerA : MacAddr := macOf 2 0 0 0 0 1

def peerB : MacAddr := macOf 2 0 0 0 0 2

def someKey (b : UInt8) : CamKey := Vector.replicate 16 b

/-- A station associated with `peerA`, which knows every address. -/
def joined : Conn where
  mode := .station
  assocSuccess := true
  own := #v[2, 0, 0, 0, 0, 9]
  bssid := peerA
  stations _ := true

def blankCam : Cam where
  used _ := false
  cache _ := {}
  hw _ := {}
  pkGkConflict := false
  keyIndex := 0
  encAlgo := .noPrivacy

/-- A group key after the pairwise key of the access point, then a removal. -/
theorem keys_kept_apart_joined :
    ∃ s s', runReqs false blankCam.invalidateCamAll
        [.setStakey joined .aes peerA 0 false (someKey 1), .setkey joined .aes 1 true (someKey 2)] =
        some s ∧
      Req.apply false s (.setStakey joined .noPrivacy peerA 0 false (someKey 0)) = some s' ∧
      (∀ i, s'.used i = (s'.cache i).valid) := by
  have hpeer : StaAddr peerA := by decide
  have hclean : CleanRun false blankCam.invalidateCamAll
      [.setStakey joined .aes peerA 0 false (someKey 1),
        .setkey joined .aes 1 true (someKey 2)] := by
    refine ⟨?_, ?_, trivial⟩
    · rintro t ht -
      rw [Option.some.injEq] at ht
      subst ht
      refine ⟨hpeer, ?_⟩
      rintro ⟨-, -, i, hi, -⟩
      exact absurd hi (by simp [Cam.rtwCamidIsGk, Cam.invalidateCamAll])
    · intro t _ _ _
      exact hpeer
  obtain ⟨s, s', hrun, hstep, hused, -⟩ := keys_kept_apart false blankCam _
    (.setStakey joined .noPrivacy peerA 0 false (someKey 0)) hclean
    (fun _ _ => show peerA ≠ nullAddr by decide)
  exact ⟨s, s', hrun, hstep, hused⟩

/-- A pairwise key over a group key of the same station and key id is written into an entry
that has just been freed, and the next station's key goes into the same entry. Keys of the zero
address take cleared entries for their own, and one key is stored twice. -/
theorem pairwise_over_group_freed :
    (∃ s s', runReqs false blankCam.invalidateCamAll
        [.setStakey joined .aes peerA 1 true (someKey 1),
          .setStakey joined .aes peerA 1 false (someKey 2)] = some s ∧
      s.used 4 = false ∧ (s.cache 4).valid = true ∧ (s.cache 4).mac = peerA ∧
      Req.apply false s (.setStakey joined .aes peerB 0 false (someKey 3)) = some s' ∧
      (s'.cache 4).mac = peerB) ∧
    ∃ s, runReqs true blankCam.invalidateCamAll
        [.setkey { joined with mode := .ap } .aes 0 true (someKey 1),
          .setStakey { joined with mode := .ap } .aes nullAddr 0 false (someKey 2),
          .setkey { joined with mode := .ap } .aes 1 true (someKey 3),
          .setStakey { joined with mode := .ap } .aes nullAddr 0 false (someKey 4)] = some s ∧
      (s.cache 0).valid = true ∧ (s.cache 1).valid = true ∧
      (s.cache 0).mac = (s.cache 1).mac ∧ (s.cache 0).keyid = (s.cache 1).keyid ∧
      (s.cache 0).grpkey = (s.cache 1).grpkey := by
  refine ⟨⟨_, _, rfl, ?_, ?_, ?_, rfl, ?_⟩, _, rfl, ?_, ?_, ?_, ?_, ?_⟩ <;> decide +kernel

end Rtl8189.KeyCam
