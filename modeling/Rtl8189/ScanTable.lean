import Mathlib.Data.Int.Notation
import Mathlib.Data.List.Perm.Basic
import Mathlib.Tactic.SplitIfs
import Rtl8189.EventRun
import Rtl8189.RecvFrame

/-!
# Scan table

The slots of the table are in the pool of free ones or in the queue of scanned networks.
A slot is known by its index in `free_bss_buf`, and a queue is the list of its slots.
-/
namespace Rtl8189.ScanTable

open EventRun

/-! ## Descriptions of a BSS -/

inductive BssType
  | undef
  | bcn
  | probReq
  | probRsp
  deriving DecidableEq

def BssType.val : BssType → ℕ
  | .undef => 0
  | .bcn => 1
  | .probReq => 2
  | .probRsp => 3

/-- `WLAN_BSSID_EX`; of the buffer `ies` the first `ieLength` bytes belong to the BSS. -/
structure BssidEx where
  macAddress : MacAddr := Vector.replicate 6 0
  bssType : BssType := .undef
  ssid : List UInt8 := []
  signalStrength : UInt8 := 0
  signalQuality : UInt8 := 0
  rssi : ℤ := 0
  ieLength : ℕ := 0
  ies : ℕ → UInt8 := fun _ => 0

def BssidEx.copy (dst src : BssidEx) : BssidEx :=
  { src with ies := fun k => if k < src.ieLength then src.ies k else dst.ies k }

def BssidEx.capability (b : BssidEx) : ℕ := (b.ies 10).toNat + 256 * (b.ies 11).toNat

def isAllNull (ssid : List UInt8) : Bool := ssid.all (· = 0)

/-- `WLAN_CAPABILITY_BSS` is bit 0 and `WLAN_CAPABILITY_IBSS` bit 1; with `feature` the
address is enough. -/
def isSameNetwork (src dst : BssidEx) (feature : Bool) : Bool :=
  if feature ∧ src.macAddress = dst.macAddress then true
  else if src.macAddress = dst.macAddress ∧
      src.capability.testBit 1 = dst.capability.testBit 1 ∧
      src.capability.testBit 0 = dst.capability.testBit 0 then
    if src.ssid.length = dst.ssid.length ∧
        (src.ssid = dst.ssid ∨ isAllNull src.ssid ∨ isAllNull dst.ssid) then true
    else src.ssid.length = 0 ∨ dst.ssid.length = 0
  else false

/-! ## The table -/

structure WlanNetwork where
  networkType : ℕ := 0
  fixed : Bool := false
  lastScanned : ℕ := 0
  aid : ℕ := 0
  joinRes : ℤ := 0
  network : BssidEx := {}

structure MlmePriv where
  entries : ℕ → WlanNetwork
  freeBssPool : List ℕ
  scannedQueue : List ℕ
  numOfScanned : UInt32

def rtwInitMlmePriv (maxBssCnt : UInt32) : MlmePriv where
  entries := fun _ => {}
  freeBssPool := List.range maxBssCnt.toNat
  scannedQueue := []
  numOfScanned := 0

/-- The state of the adapter when an operation is called, and the time. -/
structure Adapter where
  p2pEnabled : Bool := false
  linked : Bool := false
  curNetwork : BssidEx := {}
  signalStrength : UInt8 := 0
  signalQual : UInt8 := 0
  adhoc : Bool := false
  now : ℕ := 0
  passingTimeMs : ℕ → UInt32 := fun _ => 0

def MlmePriv.setEntry (s : MlmePriv) (i : ℕ) (w : WlanNetwork) : MlmePriv :=
  { s with entries := fun j => if j = i then w else s.entries j }

/-- The slot leaves its list and goes to the tail of the free pool. -/
def MlmePriv.release (s : MlmePriv) (i : ℕ) : MlmePriv :=
  { s with
    freeBssPool := s.freeBssPool.erase i ++ [i]
    scannedQueue := s.scannedQueue.erase i
    numOfScanned := s.numOfScanned - 1 }

def rtwAllocNetwork (s : MlmePriv) (now : ℕ) : Option (ℕ × MlmePriv) :=
  match s.freeBssPool with
  | [] => none
  | i :: pool =>
    some (i, { s.setEntry i { s.entries i with
        networkType := 0, fixed := false, lastScanned := now, aid := 0, joinRes := 0 } with
      freeBssPool := pool
      numOfScanned := s.numOfScanned + 1 })

def lifetime (a : Adapter) : UInt32 := if a.adhoc then 1 else 20000

def rtwFreeNetwork (a : Adapter) (isfreeall : Bool) (s : MlmePriv) (i : ℕ) : MlmePriv :=
  if (s.entries i).fixed then s
  else if ¬isfreeall ∧ a.passingTimeMs (s.entries i).lastScanned < lifetime a then s
  else s.release i

def rtwFreeNetworkNolock (s : MlmePriv) (i : ℕ) : MlmePriv :=
  if (s.entries i).fixed then s else s.release i

def rtwFreeNetworkQueue (a : Adapter) (isfreeall : Bool) (s : MlmePriv) : MlmePriv :=
  s.scannedQueue.foldl (rtwFreeNetwork a isfreeall) s

def smooth (dst src : UInt8) : UInt8 := UInt8.ofNat ((src.toNat + dst.toNat * 4) / 5)

def updateNetwork (a : Adapter) (dst src : BssidEx) (updateIe : Bool) : BssidEx :=
  let own := a.linked && isSameNetwork a.curNetwork src false
  let rightChannel := decide (src.signalQuality ≠ 101)
  let d := if updateIe then dst.copy src else dst
  { d with
    signalStrength :=
      if own then a.signalStrength
      else if rightChannel then smooth dst.signalStrength src.signalStrength
      else dst.signalStrength
    signalQuality :=
      if own then a.signalQual
      else if rightChannel then smooth dst.signalQuality src.signalQuality
      else dst.signalQuality
    rssi := if rightChannel then (src.rssi + dst.rssi * 4).tdiv 5 else dst.rssi }

def updatesIe (found target : BssidEx) : Bool :=
  decide (target.bssType ≠ .probReq ∧ found.bssType.val ≤ target.bssType.val)

def takeNetwork (old target : BssidEx) : BssidEx :=
  let new := old.copy target
  { new with signalQuality := if new.signalQuality = 101 then 0 else new.signalQuality }

def matchesTarget (a : Adapter) (target found : BssidEx) : Bool :=
  (a.p2pEnabled && decide (found.macAddress = target.macAddress)) ||
    isSameNetwork found target a.p2pEnabled

/-- The entry that is found, and else the weakest one that is not fixed. -/
def scanLoop (s : MlmePriv) (a : Adapter) (target : BssidEx) :
    List ℕ → Option ℕ → Option ℕ × Option ℕ
  | [], choice => (none, choice)
  | i :: queue, choice =>
    if matchesTarget a target (s.entries i).network then (some i, choice)
    else if (s.entries i).fixed then scanLoop s a target queue choice
    else if choice.all fun c =>
        decide ((s.entries i).network.signalStrength < (s.entries c).network.signalStrength) then
      scanLoop s a target queue (some i)
    else scanLoop s a target queue choice

/-- The entry the description went to, none when there is no slot for it. -/
def rtwUpdateScannedNetwork (a : Adapter) (target : BssidEx) (s : MlmePriv) :
    Option ℕ × MlmePriv :=
  match scanLoop s a target s.scannedQueue none with
  | (some i, _) =>
    let w := s.entries i
    (some i, s.setEntry i { w with
      lastScanned := a.now
      network := updateNetwork a w.network target (updatesIe w.network target) })
  | (none, choice) =>
    if s.freeBssPool = [] then
      match choice with
      | none => (none, s)
      | some i =>
        (some i, s.setEntry i {
          networkType := 0, fixed := false, lastScanned := a.now, aid := 0, joinRes := 0
          network := takeNetwork (s.entries i).network target })
    else
      match rtwAllocNetwork s a.now with
      | none => (none, s)
      | some (i, s) =>
        (some i, { s.setEntry i { s.entries i with
            lastScanned := a.now
            network := takeNetwork (s.entries i).network target } with
          scannedQueue := s.scannedQueue ++ [i] })

inductive Event
  | update (a : Adapter) (target : BssidEx)
  | free (a : Adapter) (isfreeall : Bool) (i : ℕ)
  | freeNolock (i : ℕ)
  | freeQueue (a : Adapter) (isfreeall : Bool)
  | setFixed (i : ℕ) (fixed : Bool)

def step (s : MlmePriv) : Event → MlmePriv
  | .update a target => (rtwUpdateScannedNetwork a target s).2
  | .free a isfreeall i => rtwFreeNetwork a isfreeall s i
  | .freeNolock i => rtwFreeNetworkNolock s i
  | .freeQueue a isfreeall => rtwFreeNetworkQueue a isfreeall s
  | .setFixed i fixed => s.setEntry i { s.entries i with fixed := fixed }

/-- What `rtw_free_assoc_resources` does to the table for the network `tgt`; `alone` is
an ad-hoc master left with the entry for broadcasts only. -/
def rtwFreeAssocResources (s : MlmePriv) (tgt : BssidEx) (alone : Bool) : List Event :=
  match s.scannedQueue.find? fun i => isSameNetwork tgt (s.entries i).network false with
  | none => []
  | some i => [.setFixed i false, .freeNolock i] ++ (if alone then [.freeNolock i] else [])

def OnQueue (s : MlmePriv) : Event → Prop
  | .free _ _ i | .freeNolock i => i ∈ s.scannedQueue ∨ (s.entries i).fixed = true
  | _ => True

/-! ## The partition -/

variable {n : UInt32} {a : Adapter} {target : BssidEx} {s t : MlmePriv} {i j : ℕ}

/-- The pool and the queue partition the slots, and the queue is counted. -/
structure Sound (n : UInt32) (s : MlmePriv) : Prop where
  partition : (s.freeBssPool ++ s.scannedQueue).Perm (List.range n.toNat)
  counted : s.numOfScanned.toNat = s.scannedQueue.length

theorem Sound.nodup (h : Sound n s) : (s.freeBssPool ++ s.scannedQueue).Nodup :=
  h.partition.nodup_iff.mpr List.nodup_range

theorem Sound.length_le (h : Sound n s) :
    s.freeBssPool.length + s.scannedQueue.length = n.toNat := by
  have hlen := h.partition.length_eq
  rwa [List.length_append, List.length_range] at hlen

theorem Sound.notMem_pool (h : Sound n s) (hi : i ∈ s.scannedQueue) : i ∉ s.freeBssPool :=
  fun hpool => (List.nodup_append.mp h.nodup).2.2 i hpool i hi rfl

theorem rtwInitMlmePriv_sound (n : UInt32) : Sound n (rtwInitMlmePriv n) := by
  refine ⟨?_, rfl⟩
  rw [rtwInitMlmePriv, List.append_nil]

theorem setEntry_sound (h : Sound n s) (i : ℕ) (w : WlanNetwork) : Sound n (s.setEntry i w) :=
  ⟨h.partition, h.counted⟩

theorem release_sound (h : Sound n s) (hi : i ∈ s.scannedQueue) : Sound n (s.release i) := by
  have hpos : 0 < s.scannedQueue.length := List.length_pos_of_mem hi
  refine ⟨?_, ?_⟩
  · have hpool : s.freeBssPool.erase i = s.freeBssPool :=
      List.erase_of_not_mem (h.notMem_pool hi)
    have hqueue : (i :: s.scannedQueue.erase i).Perm s.scannedQueue :=
      (List.perm_cons_erase hi).symm
    simp only [MlmePriv.release, hpool, List.append_assoc, List.singleton_append]
    exact (hqueue.append_left s.freeBssPool).trans h.partition
  · have hle : (1 : UInt32) ≤ s.numOfScanned := by
      rw [UInt32.le_iff_toNat_le, h.counted]
      exact hpos
    simp only [MlmePriv.release]
    rw [UInt32.toNat_sub_of_le _ _ hle, h.counted, List.length_erase_of_mem hi]
    rfl

theorem take_sound (h : Sound n s) {pool : List ℕ} (hpool : s.freeBssPool = i :: pool) :
    Sound n { s with
      freeBssPool := pool
      scannedQueue := s.scannedQueue ++ [i]
      numOfScanned := s.numOfScanned + 1 } := by
  have hlen := h.length_le
  rw [hpool, List.length_cons] at hlen
  refine ⟨?_, ?_⟩
  · have hperm := h.partition
    rw [hpool] at hperm
    refine List.Perm.trans ?_ hperm
    rw [← List.append_assoc]
    exact List.perm_append_singleton i _
  · have hlt : n.toNat < 2 ^ 32 := n.toNat_lt
    have hadd : s.numOfScanned.toNat + (1 : UInt32).toNat < 2 ^ 32 := by
      rw [h.counted]
      simp only [UInt32.toNat_one]
      omega
    simp only [UInt32.toNat_add, List.length_append, List.length_singleton]
    rw [Nat.mod_eq_of_lt hadd, h.counted]
    rfl

/-! ## Freeing -/

def KeepsFixed (s t : MlmePriv) : Prop :=
  ∀ i, i ∈ s.scannedQueue → (s.entries i).fixed = true →
    i ∈ t.scannedQueue ∧ t.entries i = s.entries i

theorem KeepsFixed.refl (s : MlmePriv) : KeepsFixed s s := fun _ hi _ => ⟨hi, rfl⟩

theorem KeepsFixed.trans {u : MlmePriv} (h : KeepsFixed s t) (h' : KeepsFixed t u) :
    KeepsFixed s u := by
  intro i hi hfixed
  obtain ⟨hit, ht⟩ := h i hi hfixed
  obtain ⟨hiu, hu⟩ := h' i hit (by rw [ht]; exact hfixed)
  exact ⟨hiu, hu.trans ht⟩

theorem release_keepsFixed (hfree : ¬(s.entries i).fixed = true) :
    KeepsFixed s (s.release i) := by
  intro j hj hfixed
  have hne : j ≠ i := fun heq => hfree (heq ▸ hfixed)
  exact ⟨(List.mem_erase_of_ne hne).mpr hj, rfl⟩

theorem rtwFreeNetwork_keepsFixed (a : Adapter) (all : Bool) (s : MlmePriv) (i : ℕ) :
    KeepsFixed s (rtwFreeNetwork a all s i) := by
  rw [rtwFreeNetwork]
  split_ifs with hfixed
  · exact KeepsFixed.refl s
  · exact KeepsFixed.refl s
  · exact release_keepsFixed hfixed

theorem rtwFreeNetworkNolock_keepsFixed (s : MlmePriv) (i : ℕ) :
    KeepsFixed s (rtwFreeNetworkNolock s i) := by
  rw [rtwFreeNetworkNolock]
  split_ifs with hfixed
  · exact KeepsFixed.refl s
  · exact release_keepsFixed hfixed

theorem rtwFreeNetwork_sound (all : Bool) (h : Sound n s)
    (hi : i ∈ s.scannedQueue ∨ (s.entries i).fixed = true) :
    Sound n (rtwFreeNetwork a all s i) := by
  rw [rtwFreeNetwork]
  split_ifs with hfixed
  · exact h
  · exact h
  · exact release_sound h (hi.resolve_right hfixed)

theorem rtwFreeNetworkNolock_sound (h : Sound n s)
    (hi : i ∈ s.scannedQueue ∨ (s.entries i).fixed = true) :
    Sound n (rtwFreeNetworkNolock s i) := by
  rw [rtwFreeNetworkNolock]
  split_ifs with hfixed
  · exact h
  · exact release_sound h (hi.resolve_right hfixed)

theorem mem_rtwFreeNetwork (all : Bool) (hj : j ∈ s.scannedQueue) (hne : j ≠ i) :
    j ∈ (rtwFreeNetwork a all s i).scannedQueue := by
  have hmem : j ∈ (s.release i).scannedQueue := (List.mem_erase_of_ne hne).mpr hj
  rw [rtwFreeNetwork]
  split_ifs
  · exact hj
  · exact hj
  · exact hmem

theorem freeAll_sound (all : Bool) {queue : List ℕ} (hnodup : queue.Nodup) (h : Sound n s)
    (hqueue : ∀ j ∈ queue, j ∈ s.scannedQueue) :
    Sound n (queue.foldl (rtwFreeNetwork a all) s) ∧
      KeepsFixed s (queue.foldl (rtwFreeNetwork a all) s) := by
  induction queue generalizing s with
  | nil => exact ⟨h, KeepsFixed.refl s⟩
  | cons i queue ih =>
    have hi : i ∈ s.scannedQueue := hqueue i List.mem_cons_self
    obtain ⟨hnot, hnodup⟩ := List.nodup_cons.mp hnodup
    have hnext : ∀ j ∈ queue, j ∈ (rtwFreeNetwork a all s i).scannedQueue := by
      intro j hj
      have hne : j ≠ i := fun heq => hnot (heq ▸ hj)
      exact mem_rtwFreeNetwork all (hqueue j (List.mem_cons_of_mem i hj)) hne
    obtain ⟨hsound, hkeeps⟩ := ih hnodup (rtwFreeNetwork_sound all h (Or.inl hi)) hnext
    exact ⟨hsound, (rtwFreeNetwork_keepsFixed a all s i).trans hkeeps⟩

theorem rtwFreeNetworkQueue_sound (all : Bool) (h : Sound n s) :
    Sound n (rtwFreeNetworkQueue a all s) ∧ KeepsFixed s (rtwFreeNetworkQueue a all s) :=
  freeAll_sound all (List.nodup_append.mp h.nodup).2.1 h fun _ hj => hj

/-! ## Updates -/

section ScanLoop

variable {queue : List ℕ} {choice c : Option ℕ}

theorem scanLoop_found (h : scanLoop s a target queue choice = (some i, c)) :
    i ∈ queue ∧ matchesTarget a target (s.entries i).network = true := by
  induction queue generalizing choice with
  | nil => cases h
  | cons j queue ih =>
    rw [scanLoop] at h
    split_ifs at h with hmatch
    · obtain ⟨rfl, -⟩ := h
      exact ⟨List.mem_cons_self, hmatch⟩
    · exact (ih h).imp_left (List.mem_cons_of_mem j)
    · exact (ih h).imp_left (List.mem_cons_of_mem j)
    · exact (ih h).imp_left (List.mem_cons_of_mem j)

theorem scanLoop_choice (h : scanLoop s a target queue choice = (none, some i)) :
    i ∈ queue ∧ (s.entries i).fixed = false ∨ choice = some i := by
  induction queue generalizing choice with
  | nil => exact Or.inr (Prod.mk.inj h).2
  | cons j queue ih =>
    rw [scanLoop] at h
    split_ifs at h with hmatch hfixed hweak
    · cases h
    · exact (ih h).imp_left fun hi => ⟨List.mem_cons_of_mem j hi.1, hi.2⟩
    · rcases ih h with hi | hchoice
      · exact Or.inl ⟨List.mem_cons_of_mem j hi.1, hi.2⟩
      · obtain rfl := Option.some.inj hchoice
        exact Or.inl ⟨List.mem_cons_self, eq_false_of_ne_true hfixed⟩
    · exact (ih h).imp_left fun hi => ⟨List.mem_cons_of_mem j hi.1, hi.2⟩

theorem scanLoop_none (h : scanLoop s a target queue choice = (none, none)) :
    choice = none ∧ ∀ i ∈ queue, (s.entries i).fixed = true := by
  induction queue generalizing choice with
  | nil => exact ⟨(Prod.mk.inj h).2, fun i hi => absurd hi List.not_mem_nil⟩
  | cons j queue ih =>
    rw [scanLoop] at h
    split_ifs at h with hmatch hfixed hweak
    · cases h
    · obtain ⟨hchoice, hall⟩ := ih h
      refine ⟨hchoice, fun i hi => ?_⟩
      rcases List.mem_cons.mp hi with rfl | hi
      · exact hfixed
      · exact hall i hi
    · exact absurd (ih h).1 (Option.some_ne_none j)
    · rw [(ih h).1] at hweak
      exact absurd rfl hweak

end ScanLoop

/-- What an update comes to: an entry of the queue takes the description, the pool or
the queue gives a slot for it, or there is no slot. -/
inductive Updates (a : Adapter) (target : BssidEx) (s : MlmePriv) : Option ℕ × MlmePriv → Prop
  | found (i : ℕ) (hi : i ∈ s.scannedQueue)
      (hmatch : matchesTarget a target (s.entries i).network = true) :
      Updates a target s (some i, s.setEntry i { s.entries i with
        lastScanned := a.now
        network := updateNetwork a (s.entries i).network target
          (updatesIe (s.entries i).network target) })
  | recycled (i : ℕ) (hi : i ∈ s.scannedQueue) (hfree : (s.entries i).fixed = false)
      (w : WlanNetwork) (hw : w.network = takeNetwork (s.entries i).network target) :
      Updates a target s (some i, s.setEntry i w)
  | allocated (i : ℕ) (pool : List ℕ) (hpool : s.freeBssPool = i :: pool)
      (w : WlanNetwork) (hw : w.network = takeNetwork (s.entries i).network target) :
      Updates a target s (some i, { s.setEntry i w with
        freeBssPool := pool
        scannedQueue := s.scannedQueue ++ [i]
        numOfScanned := s.numOfScanned + 1 })
  | rejected (hpool : s.freeBssPool = []) (hfixed : ∀ i ∈ s.scannedQueue,
      (s.entries i).fixed = true) : Updates a target s (none, s)

theorem setEntry_twice (s : MlmePriv) (i : ℕ) (v w : WlanNetwork) :
    (fun j => if j = i then w else (s.setEntry i v).entries j) = (s.setEntry i w).entries := by
  funext j
  simp only [MlmePriv.setEntry]
  split_ifs <;> rfl

theorem rtwUpdateScannedNetwork_updates (a : Adapter) (target : BssidEx) (s : MlmePriv) :
    Updates a target s (rtwUpdateScannedNetwork a target s) := by
  simp only [rtwUpdateScannedNetwork]
  generalize hloop : scanLoop s a target s.scannedQueue none = r
  obtain ⟨_ | i, choice⟩ := r
  · cases hpool : s.freeBssPool with
    | nil =>
      cases choice with
      | none => exact .rejected hpool (scanLoop_none hloop).2
      | some i =>
        rcases scanLoop_choice hloop with ⟨hi, hfree⟩ | hchoice
        · exact .recycled i hi hfree _ rfl
        · cases hchoice
    | cons i pool =>
      simp only [rtwAllocNetwork, hpool, List.cons_ne_nil, if_false]
      have hupdates : Updates a target s _ := Updates.allocated i pool hpool
        { lastScanned := a.now, network := takeNetwork (s.entries i).network target } rfl
      have hself (w : WlanNetwork) : (s.setEntry i w).entries i = w := if_pos rfl
      simp only [hself]
      rw [MlmePriv.setEntry, setEntry_twice]
      exact hupdates
  · obtain ⟨hi, hmatch⟩ := scanLoop_found hloop
    exact .found i hi hmatch

theorem Updates.sound {r : Option ℕ × MlmePriv} (h : Updates a target s r) (hs : Sound n s) :
    Sound n r.2 := by
  cases h with
  | found i hi hmatch => exact setEntry_sound hs i _
  | recycled i hi hfree w hw => exact setEntry_sound hs i w
  | allocated i pool hpool w hw => exact take_sound (setEntry_sound hs i w) hpool
  | rejected hpool hfixed => exact hs

/-- The entry is for the same BSS: its address is the same, and when the description is
long enough to hold its capability, the two are the same network. -/
structure SameBss (a : Adapter) (entry target : BssidEx) : Prop where
  address : entry.macAddress = target.macAddress
  network : 12 ≤ target.ieLength → isSameNetwork entry target a.p2pEnabled = true

theorem isSameNetwork_address {src dst : BssidEx} {feature : Bool}
    (h : isSameNetwork src dst feature = true) : src.macAddress = dst.macAddress := by
  rw [isSameNetwork] at h
  split_ifs at h with hfeature hcap hssid
  · exact hfeature.2
  · exact hcap.1
  · exact hcap.1

theorem isSameNetwork_of_eq {src dst : BssidEx} (feature : Bool)
    (haddr : src.macAddress = dst.macAddress) (hcap : src.capability = dst.capability)
    (hssid : src.ssid = dst.ssid) : isSameNetwork src dst feature = true := by
  rw [isSameNetwork]
  split_ifs with hfeature hbits hsame
  · rfl
  · rfl
  · exact absurd ⟨congrArg List.length hssid, Or.inl hssid⟩ hsame
  · exact absurd ⟨haddr, by rw [hcap], by rw [hcap]⟩ hbits

theorem matchesTarget_sameBss {found : BssidEx} (h : matchesTarget a target found = true) :
    SameBss a found target := by
  rw [matchesTarget, Bool.or_eq_true, Bool.and_eq_true, decide_eq_true_eq] at h
  rcases h with ⟨hp2p, haddr⟩ | hsame
  · refine ⟨haddr, fun _ => ?_⟩
    rw [isSameNetwork, if_pos ⟨hp2p, haddr⟩]
  · exact ⟨isSameNetwork_address hsame, fun _ => hsame⟩

theorem copy_capability (old : BssidEx) (h : 12 ≤ target.ieLength) :
    (old.copy target).capability = target.capability := by
  have h10 : 10 < target.ieLength := by omega
  have h11 : 11 < target.ieLength := by omega
  simp only [BssidEx.capability, BssidEx.copy, h10, h11, if_true]

theorem takeNetwork_sameBss (a : Adapter) (old target : BssidEx) :
    SameBss a (takeNetwork old target) target :=
  ⟨rfl, fun h => isSameNetwork_of_eq _ rfl (copy_capability old h) rfl⟩

theorem updateNetwork_sameBss {found : BssidEx} (h : SameBss a found target) (ie : Bool) :
    SameBss a (updateNetwork a found target ie) target := by
  cases ie with
  | false => exact ⟨h.address, h.network⟩
  | true => exact ⟨rfl, fun hlen => isSameNetwork_of_eq _ rfl (copy_capability found hlen) rfl⟩

/-- The entry an update comes to is in the queue and is for that BSS; without one there
was no slot. -/
def Stored (a : Adapter) (target : BssidEx) (s : MlmePriv) : Prop :=
  match rtwUpdateScannedNetwork a target s with
  | (some i, t) => i ∈ t.scannedQueue ∧ SameBss a (t.entries i).network target
  | (none, t) => t = s ∧ s.freeBssPool = [] ∧ ∀ i ∈ s.scannedQueue, (s.entries i).fixed = true

theorem rtwUpdateScannedNetwork_stored (a : Adapter) (target : BssidEx) (s : MlmePriv) :
    Stored a target s := by
  have hself (i : ℕ) (w : WlanNetwork) : (s.setEntry i w).entries i = w := if_pos rfl
  have hupdates := rtwUpdateScannedNetwork_updates a target s
  rw [Stored]
  generalize rtwUpdateScannedNetwork a target s = r at hupdates
  cases hupdates with
  | found i hi hmatch =>
    refine ⟨hi, ?_⟩
    rw [hself]
    exact updateNetwork_sameBss (matchesTarget_sameBss hmatch) _
  | recycled i hi hfree w hw =>
    refine ⟨hi, ?_⟩
    rw [hself, hw]
    exact takeNetwork_sameBss a _ target
  | allocated i pool hpool w hw =>
    refine ⟨List.mem_append_right _ List.mem_cons_self, ?_⟩
    simp only [hself, hw]
    exact takeNetwork_sameBss a _ target
  | rejected hpool hfixed => exact ⟨rfl, hpool, hfixed⟩

/-! ## Fixed entries -/

/-- A fixed entry stays in the queue and is for the same BSS; only an update that matches
it changes what it holds, and only a setting its flag. -/
structure Protected (s : MlmePriv) (e : Event) (i : ℕ) : Prop where
  queued : i ∈ (step s e).scannedQueue
  address : ((step s e).entries i).network.macAddress = (s.entries i).network.macAddress
  kept : (∀ a target, e = .update a target →
      matchesTarget a target (s.entries i).network = false) →
    ((step s e).entries i).network = (s.entries i).network
  flag : e ≠ .setFixed i false → ((step s e).entries i).fixed = true

theorem protected_of_eq {e : Event} (hfixed : (s.entries i).fixed = true)
    (hi : i ∈ (step s e).scannedQueue) (heq : (step s e).entries i = s.entries i) :
    Protected s e i := by
  refine ⟨hi, ?_, fun _ => ?_, fun _ => ?_⟩
  · rw [heq]
  · rw [heq]
  · rw [heq, hfixed]

theorem update_protects (hs : Sound n s) (hi : i ∈ s.scannedQueue)
    (hfixed : (s.entries i).fixed = true) : Protected s (.update a target) i := by
  have hupdates := rtwUpdateScannedNetwork_updates a target s
  generalize hr : rtwUpdateScannedNetwork a target s = r at hupdates
  have hstep : step s (.update a target) = r.2 := congrArg Prod.snd hr
  cases hupdates with
  | found j hj hmatch =>
    by_cases heq : i = j
    · subst heq
      have hsame := matchesTarget_sameBss hmatch
      have haddr := (updateNetwork_sameBss hsame (updatesIe (s.entries i).network target)).address
      refine ⟨?_, ?_, fun hno => ?_, fun _ => ?_⟩
      · rw [hstep]
        exact hi
      · rw [hstep]
        simp only [MlmePriv.setEntry, if_true]
        rw [haddr, hsame.address]
      · rw [hno a target rfl] at hmatch
        cases hmatch
      · rw [hstep]
        simp only [MlmePriv.setEntry, if_true]
        exact hfixed
    · refine protected_of_eq hfixed ?_ ?_
      · rw [hstep]
        exact hi
      · rw [hstep]
        exact if_neg heq
  | recycled j hj hfree w hw =>
    have hne : i ≠ j := by
      rintro rfl
      rw [hfree] at hfixed
      cases hfixed
    refine protected_of_eq hfixed ?_ ?_
    · rw [hstep]
      exact hi
    · rw [hstep]
      exact if_neg hne
  | allocated j pool hpool w hw =>
    have hne : i ≠ j := by
      rintro rfl
      exact hs.notMem_pool hi (by rw [hpool]; exact List.mem_cons_self)
    refine protected_of_eq hfixed ?_ ?_
    · rw [hstep]
      exact List.mem_append_left _ hi
    · rw [hstep]
      exact if_neg hne
  | rejected hpool hfixed' =>
    refine protected_of_eq hfixed ?_ ?_
    · rw [hstep]
      exact hi
    · rw [hstep]

theorem step_protects (hs : Sound n s) (e : Event) (hi : i ∈ s.scannedQueue)
    (hfixed : (s.entries i).fixed = true) : Protected s e i := by
  have hkept (hkeeps : KeepsFixed s (step s e)) : Protected s e i :=
    protected_of_eq hfixed (hkeeps i hi hfixed).1 (hkeeps i hi hfixed).2
  cases e with
  | update a target => exact update_protects hs hi hfixed
  | free a all j => exact hkept (rtwFreeNetwork_keepsFixed a all s j)
  | freeNolock j => exact hkept (rtwFreeNetworkNolock_keepsFixed s j)
  | freeQueue a all => exact hkept (rtwFreeNetworkQueue_sound all hs).2
  | setFixed j fixed =>
    by_cases heq : i = j
    · subst heq
      refine ⟨hi, ?_, fun _ => ?_, fun hne => ?_⟩
      · simp only [step, MlmePriv.setEntry, if_true]
      · simp only [step, MlmePriv.setEntry, if_true]
      · simp only [step, MlmePriv.setEntry, if_true]
        cases fixed with
        | false => exact absurd rfl hne
        | true => rfl
    · exact protected_of_eq hfixed hi (if_neg heq)

/-! ## Runs -/

theorem step_sound (hs : Sound n s) {e : Event} (he : OnQueue s e) : Sound n (step s e) := by
  cases e with
  | update a target => exact (rtwUpdateScannedNetwork_updates a target s).sound hs
  | free a all i => exact rtwFreeNetwork_sound all hs he
  | freeNolock i => exact rtwFreeNetworkNolock_sound hs he
  | freeQueue a all => exact (rtwFreeNetworkQueue_sound all hs).1
  | setFixed i fixed => exact setEntry_sound hs i _

/-- The table after any run whose single frees are of entries in the queue. -/
theorem scanTable_sound (n : UInt32) (es : List Event)
    (hes : Along step OnQueue (rtwInitMlmePriv n) es) :
    let s := run step (rtwInitMlmePriv n) es
    Sound n s ∧ (∀ a target, Stored a target s) ∧
      ∀ e, ∀ i ∈ s.scannedQueue, (s.entries i).fixed = true → Protected s e i := by
  intro s
  have hs : Sound n s := run_spec OnQueue (Sound n) (fun _ _ h he => step_sound h he)
    (rtwInitMlmePriv_sound n) hes
  exact ⟨hs, fun a target => rtwUpdateScannedNetwork_stored a target s,
    fun e i hi hfixed => step_protects hs e hi hfixed⟩

def joinedAlone : List Event := [.update {} {}, .setFixed 0 true]

theorem scanTable_sound_joined :
    let s := run step (rtwInitMlmePriv 2) (joinedAlone ++ [.setFixed 0 false, .freeNolock 0])
    Sound 2 s ∧ (∀ a target, Stored a target s) ∧
      ∀ e, ∀ i ∈ s.scannedQueue, (s.entries i).fixed = true → Protected s e i :=
  scanTable_sound 2 _ ⟨trivial, trivial, trivial, Or.inl (by decide), trivial⟩

/-- An ad-hoc master that leaves its network frees the entry twice, and the count of the
empty queue wraps. -/
theorem freed_twice_miscounts :
    let s := run step (rtwInitMlmePriv 2) joinedAlone
    let t := run step s (rtwFreeAssocResources s {} true)
    t.scannedQueue.length = 0 ∧ t.numOfScanned.toNat = 4294967295 := by
  decide

end Rtl8189.ScanTable
