import Rtl8189.CollectBss
import Rtl8189.ScanTable

/-!
# Candidates for joining and roaming

A join takes the strongest network of the scan table that meets the criteria, unless a
roaming target was remembered before: that is the index of a slot, and the slot may be
freed or taken for another network until the join.
-/
namespace Rtl8189.RoamTarget

open EventRun ScanTable

/-! ## The strongest entry -/

section Strongest

variable (meets : ℕ → Prop) [DecidablePred meets] (rssi : ℕ → ℤ)

def stronger (candidate : Option ℕ) (i : ℕ) : Option ℕ :=
  if meets i ∧ candidate.all (fun c => rssi c < rssi i) then some i else candidate

/-- None when none meets the criteria, else the first of the strongest that do. -/
def IsBest (queue : List ℕ) : Option ℕ → Prop
  | none => ∀ j ∈ queue, ¬ meets j
  | some i => ∃ before behind, queue = before ++ i :: behind ∧ meets i ∧
      (∀ j ∈ before, meets j → rssi j < rssi i) ∧ ∀ j ∈ behind, meets j → rssi j ≤ rssi i

variable {meets rssi}

theorem IsBest.concat {queue : List ℕ} {candidate : Option ℕ}
    (h : IsBest meets rssi queue candidate) (i : ℕ) :
    IsBest meets rssi (queue ++ [i]) (stronger meets rssi candidate i) := by
  cases candidate with
  | none =>
    by_cases hi : meets i
    · rw [stronger, if_pos ⟨hi, rfl⟩]
      exact ⟨queue, [], rfl, hi, fun j hj hmeets => absurd hmeets (h j hj),
        List.forall_mem_nil _⟩
    · rw [stronger, if_neg fun hcond => hi hcond.1]
      intro j hj
      rcases List.mem_append.mp hj with hj | hj
      · exact h j hj
      · rwa [List.mem_singleton.mp hj]
  | some c =>
    obtain ⟨before, behind, rfl, hc, hbefore, hbehind⟩ := h
    by_cases hi : meets i ∧ rssi c < rssi i
    · rw [stronger, if_pos ⟨hi.1, by simpa using hi.2⟩]
      refine ⟨before ++ c :: behind, [], rfl, hi.1, fun j hj hmeets => ?_, List.forall_mem_nil _⟩
      rcases List.mem_append.mp hj with hj | hj
      · exact (hbefore j hj hmeets).trans hi.2
      · rcases List.mem_cons.mp hj with rfl | hj
        · exact hi.2
        · exact (hbehind j hj hmeets).trans_lt hi.2
    · rw [stronger, if_neg fun hcond => hi ⟨hcond.1, by simpa using hcond.2⟩]
      refine ⟨before, behind ++ [i], by rw [List.append_assoc]; rfl, hc, hbefore,
        fun j hj hmeets => ?_⟩
      rcases List.mem_append.mp hj with hj | hj
      · exact hbehind j hj hmeets
      · obtain rfl := List.mem_singleton.mp hj
        exact le_of_not_gt fun hlt => hi ⟨hmeets, hlt⟩

theorem isBest_foldl (queue : List ℕ) :
    IsBest meets rssi queue (queue.foldl (stronger meets rssi) none) := by
  induction queue using List.reverseRecOn with
  | nil => exact List.forall_mem_nil _
  | append_singleton queue i ih =>
    rw [List.foldl_append]
    exact ih.concat i

end Strongest

/-! ## The criteria -/

structure Conf where
  dsConfig : ℕ := 0
  privacy : ℕ := 0
  infrastructureMode : CollectBss.InfrastructureMode := .infrastructure

structure Env where
  channelSet : List ℕ
  assocByBssid : Bool := false
  assocBssid : MacAddr := Vector.replicate 6 0
  assocSsid : List UInt8 := []
  underWps : Bool := false
  wifiSpec : Bool := false
  /-- `ndisencryptstatus` is `Ndis802_11EncryptionDisabled`. -/
  encryptionDisabled : Bool := true
  /-- `ndisauthtype` is `Ndis802_11AuthModeWPA2PSK`. -/
  wpa2Psk : Bool := false
  adhoc : Bool := false
  curSsid : List UInt8 := []
  curInfrastructureMode : CollectBss.InfrastructureMode := .infrastructure
  toRoam : ℕ := 0
  needToRoam : Bool := false
  passingTimeMs : ℕ → UInt32 := fun _ => 0
  roamScanrExpMs : UInt32 := 5000
  roamRssiDiffTh : ℕ := 10

structure Mlme where
  table : MlmePriv
  conf : ℕ → Conf := fun _ => {}
  curNetworkScanned : Option ℕ := none
  roamNetwork : Option ℕ := none
  roamTgtAddr : MacAddr := Vector.replicate 6 0
  /-- The address of the BSS that was selected last, which the driver does not keep. -/
  selected : MacAddr := Vector.replicate 6 0

variable (env : Env) (m : Mlme)

def elements (b : BssidEx) : BlockModes.Mem := fun k => b.ies (12 + k)

def rtwIsDesiredNetwork (i : ℕ) : Bool :=
  let b := (m.table.entries i).network
  let privacy := (m.conf i).privacy
  if env.underWps then (ConnectSettings.rtwGetWpsIe (elements b) (b.ieLength - 12)).isSome
  else
    let bselected := true
    let bselected :=
      if env.wifiSpec then
        let bselected := if env.encryptionDisabled && privacy ≠ 0 then false else bselected
        if env.wpa2Psk then
          (ConnectSettings.rtwGetIe (elements b) 48 0 (b.ieLength - 12)).any
            fun p => 0 < ConnectSettings.ieLen (elements b) p
        else bselected
      else bselected
    let bselected := if !env.encryptionDisabled && privacy = 0 then false else bselected
    if env.adhoc && (m.conf i).infrastructureMode ≠ env.curInfrastructureMode then false
    else bselected

def isSameEss (b : BssidEx) : Bool := b.ssid = env.curSsid

/-- What `rtw_check_join_candidate` asks of an entry before it compares signals. -/
def joinCriteria (i : ℕ) : Bool :=
  let w := m.table.entries i
  if (m.conf i).dsConfig ∉ env.channelSet then false
  else if env.assocByBssid && w.network.macAddress ≠ env.assocBssid then false
  else if env.assocSsid.headD 0 ≠ 0 && w.network.ssid ≠ env.assocSsid then false
  else if !rtwIsDesiredNetwork env m i then false
  else if 0 < env.toRoam && (env.roamScanrExpMs ≤ env.passingTimeMs w.lastScanned ||
    !isSameEss env w.network) then false
  else true

def rssi (i : ℕ) : ℤ := (m.table.entries i).network.rssi

def rtwCheckJoinCandidate (candidate : Option ℕ) (competitor : ℕ) : Option ℕ :=
  if joinCriteria env m competitor ∧ candidate.all (fun c => rssi m c < rssi m competitor) then
    some competitor
  else candidate

def isZeroMacAddr (a : MacAddr) : Bool := a = Vector.replicate 6 0

/-- `cur` is `cur_network_scanned`. -/
def rtwCheckRoamingCandidate (cur : ℕ) (candidate : Option ℕ) (competitor : ℕ) : Option ℕ :=
  let w := m.table.entries competitor
  if (m.conf competitor).dsConfig ∉ env.channelSet then candidate
  else if !isSameEss env w.network then candidate
  else if !rtwIsDesiredNetwork env m competitor then candidate
  else if !env.needToRoam then candidate
  else if !isZeroMacAddr m.roamTgtAddr then
    if m.roamTgtAddr = w.network.macAddress then some competitor else candidate
  else if env.roamScanrExpMs ≤ env.passingTimeMs w.lastScanned then candidate
  else if rssi m competitor - rssi m cur < env.roamRssiDiffTh then candidate
  else if candidate.any fun c => rssi m competitor ≤ rssi m c then candidate
  else some competitor

/-! ## Selecting and joining -/

inductive LockOp
  | take
  | release
deriving DecidableEq

def Balanced (ops : List LockOp) : Prop := ops.count .take = ops.count .release

instance (ops : List LockOp) : Decidable (Balanced ops) := inferInstanceAs (Decidable (_ = _))

def rtwSelectRoamingCandidate : List LockOp × Mlme :=
  match m.curNetworkScanned with
  | none => ([.release], m)
  | some cur =>
    ([.take, .release],
      match m.table.scannedQueue.foldl (rtwCheckRoamingCandidate env m cur) none with
      | none => m
      | some candidate =>
        let addr := (m.table.entries candidate).network.macAddress
        { m with
          roamNetwork := some candidate
          selected := addr
          roamTgtAddr := if addr = m.roamTgtAddr then Vector.replicate 6 0 else m.roamTgtAddr })

/-- What a join does with the lock, and the network that is passed to `rtw_joinbss_cmd`. -/
structure Join where
  locks : List LockOp
  joined : Option ℕ
  mlme : Mlme

def rtwSelectAndJoinFromScannedQueue : Join :=
  match m.roamNetwork with
  | some candidate => ⟨[.take, .release], some candidate, { m with roamNetwork := none }⟩
  | none =>
    ⟨[.take, .release], m.table.scannedQueue.foldl (rtwCheckJoinCandidate env m) none, m⟩

def overwritten (a : Adapter) (target : BssidEx) (s : MlmePriv) : Option ℕ :=
  match (scanLoop s a target s.scannedQueue none).1 with
  | some i => if updatesIe (s.entries i).network target then some i else none
  | none => (rtwUpdateScannedNetwork a target s).1

inductive Event
  | select (env : Env)
  | join (env : Env)
  /-- What happens to the scan table, and the rest of the description in an update. -/
  | table (e : ScanTable.Event) (conf : Conf)
  | setCur (i : Option ℕ)
  | setTgtAddr (addr : MacAddr)

def step (m : Mlme) : Event → Mlme
  | .select env => (rtwSelectRoamingCandidate env m).2
  | .join env => (rtwSelectAndJoinFromScannedQueue env m).mlme
  | .table e conf =>
    { m with
      table := ScanTable.step m.table e
      conf :=
        match e with
        | .update a target =>
          fun i => if overwritten a target m.table = some i then conf else m.conf i
        | _ => m.conf }
  | .setCur i => { m with curNetworkScanned := i }
  | .setTgtAddr addr => { m with roamTgtAddr := addr }

def Right (m : Mlme) : Event → Prop
  | .select env => Balanced (rtwSelectRoamingCandidate env m).1
  | .join env =>
    let j := rtwSelectAndJoinFromScannedQueue env m
    Balanced j.locks ∧
      match m.roamNetwork with
      | none => IsBest (fun i => joinCriteria env m i = true) (rssi m) m.table.scannedQueue j.joined
      | some i => j.joined = some i ∧ i ∈ m.table.scannedQueue ∧
          (m.table.entries i).network.macAddress = m.selected
  | _ => True

def Spares (s : MlmePriv) (i : ℕ) : ScanTable.Event → Prop
  | .update a target =>
    s.freeBssPool = [] → scanLoop s a target s.scannedQueue none ≠ (none, some i)
  | .free a isfreeall j => j = i → (s.entries i).fixed = true ∨
      isfreeall = false ∧ a.passingTimeMs (s.entries i).lastScanned < lifetime a
  | .freeNolock j => j = i → (s.entries i).fixed = true
  | .freeQueue a isfreeall => (s.entries i).fixed = true ∨
      isfreeall = false ∧ a.passingTimeMs (s.entries i).lastScanned < lifetime a
  | .setFixed _ _ => True

/-- A selection while a network of the table is the current one, and no step of the table
that frees or reuses the slot of a target that is remembered. -/
def Careful (m : Mlme) : Event → Prop
  | .select _ => m.curNetworkScanned ≠ none
  | .table e _ => OnQueue m.table e ∧ ∀ i, m.roamNetwork = some i → Spares m.table i e
  | _ => True

/-! ## One step -/

theorem join_best (h : m.roamNetwork = none) : Right m (.join env) := by
  unfold Right rtwSelectAndJoinFromScannedQueue
  rw [h]
  exact ⟨rfl, isBest_foldl m.table.scannedQueue⟩

theorem select_balanced : Right m (.select env) ↔ m.curNetworkScanned ≠ none := by
  unfold Right rtwSelectRoamingCandidate
  cases m.curNetworkScanned with
  | none =>
    refine iff_of_false ?_ fun h => h rfl
    change ¬ Balanced [LockOp.release]
    decide
  | some cur => exact iff_of_true rfl (Option.some_ne_none cur)

section Spares

variable {n : UInt32} {s t : MlmePriv} {i j : ℕ} {a : Adapter} {all : Bool} {target : BssidEx}

theorem rtwFreeNetwork_entries (a : Adapter) (all : Bool) (s : MlmePriv) (j : ℕ) :
    (rtwFreeNetwork a all s j).entries = s.entries := by
  unfold rtwFreeNetwork
  split_ifs <;> rfl

theorem free_stays (hi : i ∈ s.scannedQueue) (h : Spares s i (.free a all j)) :
    i ∈ (rtwFreeNetwork a all s j).scannedQueue := by
  by_cases hne : i = j
  · subst hne
    rw [rtwFreeNetwork]
    rcases h rfl with hfixed | ⟨hall, hfresh⟩
    · rwa [if_pos hfixed]
    · split_ifs with hfixed hold
      · exact hi
      · exact hi
      · exact absurd ⟨by simp [hall], hfresh⟩ hold
  · exact mem_rtwFreeNetwork all hi hne

theorem freeQueue_stays (queue : List ℕ) (hi : i ∈ s.scannedQueue)
    (h : Spares s i (.freeQueue a all)) :
    i ∈ (queue.foldl (rtwFreeNetwork a all) s).scannedQueue ∧
      (queue.foldl (rtwFreeNetwork a all) s).entries = s.entries := by
  induction queue generalizing s with
  | nil => exact ⟨hi, rfl⟩
  | cons j queue ih =>
    have hentries := rtwFreeNetwork_entries a all s j
    have hspares : Spares (rtwFreeNetwork a all s j) i (.freeQueue a all) := by
      unfold Spares
      rw [hentries]
      exact h
    obtain ⟨hqueue, hsame⟩ := ih (free_stays hi fun _ => h) hspares
    exact ⟨hqueue, hsame.trans hentries⟩

theorem freeNolock_stays (hi : i ∈ s.scannedQueue) (h : Spares s i (.freeNolock j)) :
    i ∈ (rtwFreeNetworkNolock s j).scannedQueue ∧
      (rtwFreeNetworkNolock s j).entries = s.entries := by
  rw [rtwFreeNetworkNolock]
  split_ifs with hfixed
  · exact ⟨hi, rfl⟩
  · have hne : i ≠ j := by
      rintro rfl
      exact hfixed (h rfl)
    exact ⟨(List.mem_erase_of_ne hne).mpr hi, rfl⟩

theorem update_stays (hs : Sound n s) (hi : i ∈ s.scannedQueue)
    (h : Spares s i (.update a target)) :
    i ∈ (rtwUpdateScannedNetwork a target s).2.scannedQueue ∧
      ((rtwUpdateScannedNetwork a target s).2.entries i).network.macAddress =
        (s.entries i).network.macAddress := by
  have hpool := hs.notMem_pool hi
  unfold Spares at h
  unfold rtwUpdateScannedNetwork
  generalize hloop : scanLoop s a target s.scannedQueue none = r at h ⊢
  obtain ⟨_ | j, choice⟩ := r
  · cases hfree : s.freeBssPool with
    | nil =>
      cases choice with
      | none => exact ⟨hi, rfl⟩
      | some j =>
        have hne : i ≠ j := by
          rintro rfl
          exact h hfree hloop
        refine ⟨hi, ?_⟩
        simp only [if_true, MlmePriv.setEntry, if_neg hne]
    | cons j pool =>
      have hne : i ≠ j := by
        rintro rfl
        exact hpool (hfree ▸ List.mem_cons_self)
      simp only [List.cons_ne_nil, if_false, rtwAllocNetwork, hfree, MlmePriv.setEntry, if_neg hne]
      exact ⟨List.mem_append_left _ hi, trivial⟩
  · obtain ⟨-, hmatch⟩ := scanLoop_found hloop
    have hsame := matchesTarget_sameBss hmatch
    refine ⟨hi, ?_⟩
    by_cases hij : i = j
    · subst hij
      simp only [MlmePriv.setEntry, if_true]
      exact (updateNetwork_sameBss hsame _).address.trans hsame.address.symm
    · simp only [MlmePriv.setEntry, if_neg hij]

theorem step_stays (hs : Sound n s) (hi : i ∈ s.scannedQueue) {e : ScanTable.Event}
    (h : Spares s i e) :
    i ∈ (ScanTable.step s e).scannedQueue ∧
      ((ScanTable.step s e).entries i).network.macAddress =
        (s.entries i).network.macAddress := by
  cases e with
  | update a target => exact update_stays hs hi h
  | free a all j =>
    refine ⟨free_stays hi h, ?_⟩
    rw [ScanTable.step, rtwFreeNetwork_entries]
  | freeNolock j =>
    obtain ⟨hqueue, hentries⟩ := freeNolock_stays hi h
    refine ⟨hqueue, ?_⟩
    rw [ScanTable.step, hentries]
  | freeQueue a all =>
    obtain ⟨hqueue, hentries⟩ := freeQueue_stays s.scannedQueue hi h
    refine ⟨hqueue, ?_⟩
    rw [ScanTable.step, rtwFreeNetworkQueue, hentries]
  | setFixed j fixed =>
    refine ⟨hi, ?_⟩
    simp only [ScanTable.step, MlmePriv.setEntry]
    split_ifs with hij
    · rw [hij]
    · rfl

end Spares

/-! ## Runs -/

variable {n : UInt32} {env m}

/-- The table is sound, and a target that is remembered is queued as the BSS it was. -/
structure Inv (n : UInt32) (m : Mlme) : Prop where
  sound : Sound n m.table
  target : ∀ i, m.roamNetwork = some i → i ∈ m.table.scannedQueue ∧
    (m.table.entries i).network.macAddress = m.selected

theorem rtwCheckRoamingCandidate_cases (cur : ℕ) (candidate : Option ℕ) (i : ℕ) :
    rtwCheckRoamingCandidate env m cur candidate i = candidate ∨
      rtwCheckRoamingCandidate env m cur candidate i = some i := by
  unfold rtwCheckRoamingCandidate
  dsimp only
  split_ifs <;> first | exact .inl rfl | exact .inr rfl

theorem candidate_mem {cur : ℕ} (queue : List ℕ) {i : ℕ}
    (h : queue.foldl (rtwCheckRoamingCandidate env m cur) none = some i) : i ∈ queue := by
  induction queue using List.reverseRecOn with
  | nil => cases h
  | append_singleton queue j ih =>
    rw [List.foldl_append] at h
    rcases @rtwCheckRoamingCandidate_cases env m cur
      (queue.foldl (rtwCheckRoamingCandidate env m cur) none) j with hkeep | htake
    · exact List.mem_append_left _ (ih (hkeep.symm.trans h))
    · obtain rfl := Option.some.inj (htake.symm.trans h)
      exact List.mem_append_right _ (List.mem_singleton_self j)

theorem Inv.select (h : Inv n m) : Inv n (rtwSelectRoamingCandidate env m).2 := by
  unfold rtwSelectRoamingCandidate
  cases m.curNetworkScanned with
  | none => exact h
  | some cur =>
    dsimp only
    cases hfold : m.table.scannedQueue.foldl (rtwCheckRoamingCandidate env m cur) none with
    | none => exact h
    | some candidate =>
      refine ⟨h.sound, ?_⟩
      rintro i hi
      obtain rfl := Option.some.inj hi
      exact ⟨candidate_mem _ hfold, rfl⟩

theorem Inv.join (h : Inv n m) : Inv n (rtwSelectAndJoinFromScannedQueue env m).mlme := by
  unfold rtwSelectAndJoinFromScannedQueue
  cases m.roamNetwork with
  | none => exact h
  | some candidate =>
    refine ⟨h.sound, ?_⟩
    rintro i hi
    cases hi

theorem Inv.step (h : Inv n m) {e : Event} (he : Careful m e) : Inv n (step m e) := by
  cases e with
  | select env => exact h.select
  | join env => exact h.join
  | table e conf =>
    obtain ⟨hqueued, hspares⟩ := he
    refine ⟨step_sound h.sound hqueued, ?_⟩
    intro i hi
    obtain ⟨hmem, haddr⟩ := h.target i hi
    obtain ⟨hmem', haddr'⟩ := step_stays h.sound hmem (hspares i hi)
    exact ⟨hmem', haddr'.trans haddr⟩
  | setCur i => exact ⟨h.sound, h.target⟩
  | setTgtAddr addr => exact ⟨h.sound, h.target⟩

theorem Inv.right (h : Inv n m) {e : Event} (he : Careful m e) : Right m e := by
  cases e with
  | select env => exact (select_balanced env m).mpr he
  | join env =>
    cases hroam : m.roamNetwork with
    | none => exact join_best env m hroam
    | some i =>
      unfold Right rtwSelectAndJoinFromScannedQueue
      rw [hroam]
      exact ⟨rfl, rfl, h.target i hroam⟩
  | table e conf => trivial
  | setCur i => trivial
  | setTgtAddr addr => trivial

structure Start (n : UInt32) (m : Mlme) : Prop where
  table : m.table = rtwInitMlmePriv n
  roamNetwork : m.roamNetwork = none

theorem Start.inv (h : Start n m) : Inv n m := by
  refine ⟨?_, ?_⟩
  · rw [h.table]
    exact rtwInitMlmePriv_sound n
  · intro i hi
    cases h.roamNetwork.symm.trans hi

theorem candidates_right (env : Env) (m : Mlme) (n : UInt32) (es : List Event) :
    (m.roamNetwork = none → Right m (.join env)) ∧
      (Right m (.select env) ↔ m.curNetworkScanned ≠ none) ∧
      (Start n m → Along step Careful m es → Along step Right m es) := by
  refine ⟨join_best env m, select_balanced env m, fun hm hes => ?_⟩
  exact hes.of_invariant (Inv n) (fun _ _ h he => h.step he) (fun _ _ h he => h.right he) hm.inv

/-! ## A target that is freed -/

def heard (last : UInt8) (rssi : ℤ) : BssidEx where
  macAddress := macOf 2 0 0 0 0 last
  bssType := .bcn
  ssid := [97]
  rssi := rssi

def roaming : Env where
  channelSet := [1]
  curSsid := [97]
  needToRoam := true

def idle : Mlme := { table := rtwInitMlmePriv 2 }

def selection : List Event :=
  [.table (.update {} (heard 1 (-80))) { dsConfig := 1 },
    .table (.update {} (heard 2 (-50))) { dsConfig := 1 }, .setCur (some 0), .select roaming]

theorem noTarget_spares {m : Mlme} (h : m.roamNetwork = none) (e : ScanTable.Event) (i : ℕ)
    (hi : m.roamNetwork = some i) : Spares m.table i e := by
  cases h.symm.trans hi

theorem candidates_right_selection : Right idle (.join roaming) ∧
    Along step Right idle (selection ++ [.join roaming]) :=
  ⟨(candidates_right roaming idle 2 []).1 rfl, (candidates_right roaming idle 2 _).2.2 ⟨rfl, rfl⟩
    ⟨⟨trivial, noTarget_spares rfl _⟩, ⟨trivial, noTarget_spares rfl _⟩, trivial,
      Option.some_ne_none 0, trivial, trivial⟩⟩

theorem Right.queued {env : Env} {m : Mlme} {i : ℕ} (h : Right m (.join env))
    (hi : m.roamNetwork = some i) : i ∈ m.table.scannedQueue := by
  have hjoin := h.2
  rw [hi] at hjoin
  exact hjoin.2.1

def freedTarget : Mlme := run step idle (selection ++ [.table (.freeQueue {} true) {}])

theorem freed_target_joined :
    ¬ Along step Right idle [.select roaming] ∧
      ¬ Along step Right idle
        (selection ++ [.table (.freeQueue {} true) {}, .join roaming]) := by
  constructor
  · intro h
    exact (select_balanced roaming idle).1 h.1 rfl
  · intro h
    have hroam : freedTarget.roamNetwork = some 1 := by decide +kernel
    have hjoin : Right freedTarget (.join roaming) := h.2.2.2.2.2.1
    exact absurd (hjoin.queued hroam) (by decide +kernel)

end Rtl8189.RoamTarget
