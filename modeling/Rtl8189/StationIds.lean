import Rtl8189.StaTable

/-!
# The ids of the stations

The hardware and the firmware name a station by a MAC id. An id is given out with an entry of
the station table, and taken back with it. Id 1 is for management and group frames. There is
one interface.
-/
namespace Rtl8189.StationIds

open EventRun StaTable

/-- `macid_ctl->num` -/
def num : ℕ := 32

def rtwDefaultMgmtMacid : ℕ := 1

/-- The maps are functions of the id. -/
structure MacidCtl where
  used : ℕ → Bool
  bmc : ℕ → Bool
  ifG : ℕ → Bool
  sta : ℕ → Option Slot

def rtwMacidCtlInit : MacidCtl where
  used id := id = rtwDefaultMgmtMacid
  bmc id := id = rtwDefaultMgmtMacid
  ifG id := id = rtwDefaultMgmtMacid
  sta _ := none

namespace MacidCtl

/-- The controls, and `mac_id` of the entry. -/
def rtwAllocMacid (c : MacidCtl) (hwaddr a : MacAddr) (psta : Slot) : MacidCtl × ℕ :=
  if a = hwaddr then (c, num)
  else if a = bcAddr then (c, rtwDefaultMgmtMacid)
  else
    match (List.range num).find? fun i => !c.used i with
    | none => (c, num)
    | some i =>
      ({ c with
          used := Function.update c.used i true
          ifG := Function.update c.ifG i true
          sta := Function.update c.sta i (some psta) }, i)

def rtwReleaseMacid (c : MacidCtl) (hwaddr a : MacAddr) (macId : ℕ) : MacidCtl :=
  if a = hwaddr ∨ num ≤ macId ∨ macId = rtwDefaultMgmtMacid then c
  else if c.used macId = false ∨ c.ifG macId = false then c
  else
    { used := Function.update c.used macId false
      bmc := Function.update c.bmc macId false
      ifG := Function.update c.ifG macId false
      sta := Function.update c.sta macId none }

def searchFrom (c : MacidCtl) : ℕ → ℕ
  | 0 => 0
  | i + 1 => if c.used (i + 1) then i + 1 else c.searchFrom i

def rtwSearchMaxMacId (c : MacidCtl) : ℕ := c.searchFrom (num - 1)

end MacidCtl

structure Sys where
  table : Table := {}
  ctl : MacidCtl := rtwMacidCtlInit
  macId : Slot → ℕ := fun _ => 0

def Sys.alloc (hwaddr : MacAddr) (s : Sys) (i : Slot) (a : MacAddr) : Sys :=
  { s with
    ctl := (s.ctl.rtwAllocMacid hwaddr a i).1
    macId := Function.update s.macId i (s.ctl.rtwAllocMacid hwaddr a i).2 }

def Sys.release (hwaddr : MacAddr) (s : Sys) (i : Slot) : Sys :=
  { s with
    ctl := s.ctl.rtwReleaseMacid hwaddr (s.table.sta.macAddr i) (s.macId i)
    macId := Function.update s.macId i num }

def Sys.after (hwaddr : MacAddr) (s : Sys) : Call → Option Slot → Sys
  | .alloc a, some i => s.alloc hwaddr i a
  | .free _, some i => s.release hwaddr i
  | .freeSta _, some i => s.release hwaddr i
  | .freeAll, _ =>
    if s.table.sta.asocStaCount = 1 then s
    else (freeStaList s.table.sta).foldl (Sys.release hwaddr) s
  | _, _ => s

/-- A call of the station table, with what it does to the ids. -/
def step (hwaddr : MacAddr) (s : Sys) (c : Call) : Sys :=
  { s.after hwaddr c (c.apply s.table.sta).2 with table := StaTable.step s.table c }

/-- The entry is of a station that frames are sent to by name. -/
def Peer (hwaddr : MacAddr) (m : Stations) (i : Slot) : Prop :=
  ∃ a, m i = some a ∧ a ≠ hwaddr ∧ a ≠ bcAddr

/-- Each peer has an id of its own, by which it is found. The other ids in use are none but the
one for management. -/
structure Ids (hwaddr : MacAddr) (m : Stations) (c : MacidCtl) (macId : Slot → ℕ) : Prop where
  found : ∀ id i, c.sta id = some i ↔ Peer hwaddr m i ∧ macId i = id
  used : ∀ id, c.used id = true ↔ id = rtwDefaultMgmtMacid ∨ (c.sta id).isSome
  own : ∀ i, Peer hwaddr m i → macId i ≠ rtwDefaultMgmtMacid ∧ macId i < num
  ifG : c.ifG = c.used
  group : ∀ i, m i = some bcAddr → bcAddr ≠ hwaddr → macId i = rtwDefaultMgmtMacid

/-- The search for the largest id counts the peers in. -/
structure Served (hwaddr : MacAddr) (s : Sys) : Prop where
  ids : Ids hwaddr s.table.owner s.ctl s.macId
  le_max : ∀ i, Peer hwaddr s.table.owner i → s.macId i ≤ s.ctl.rtwSearchMaxMacId

/-! ## The ids of a map -/

section Ids

variable {hwaddr : MacAddr} {m : Stations} {c : MacidCtl} {macId : Slot → ℕ} {i : Slot}
  {a : MacAddr}

theorem peer_update {x : Option MacAddr} (j : Slot) :
    Peer hwaddr (Function.update m i x) j ↔
      (j = i ∧ ∃ a, x = some a ∧ a ≠ hwaddr ∧ a ≠ bcAddr) ∨ (j ≠ i ∧ Peer hwaddr m j) := by
  by_cases hj : j = i
  · simp [Peer, hj]
  · simp [Peer, hj]

/-- An id is free as long as there will be an entry that is no peer's. -/
theorem Ids.exists_free (h : Ids hwaddr m c macId) {j : Slot} (hj : ¬ Peer hwaddr m j)
    (hi : ¬ Peer hwaddr m i) (hne : i ≠ j) :
    ((List.range num).find? fun k => !c.used k) ≠ none := by
  intro hnone
  have hall : ∀ k < num, c.used k = true := by simpa using hnone
  have hsub : (Finset.range num).erase rtwDefaultMgmtMacid ⊆
      ((Finset.univ.erase j).erase i).image macId := by
    intro k hk
    obtain ⟨hk1, hk⟩ := Finset.mem_erase.1 hk
    have hsome := ((h.used k).1 (hall k (Finset.mem_range.1 hk))).resolve_left hk1
    obtain ⟨l, hsta⟩ := Option.isSome_iff_exists.1 hsome
    obtain ⟨hl, rfl⟩ := (h.found k l).1 hsta
    refine Finset.mem_image_of_mem macId ?_
    simp only [Finset.mem_erase, Finset.mem_univ, and_true]
    exact ⟨fun heq => hi (heq ▸ hl), fun heq => hj (heq ▸ hl)⟩
  have hcard := (Finset.card_le_card hsub).trans Finset.card_image_le
  rw [Finset.card_erase_of_mem (by decide), Finset.card_range,
    Finset.card_erase_of_mem (Finset.mem_erase.2 ⟨hne, Finset.mem_univ i⟩),
    Finset.card_erase_of_mem (Finset.mem_univ j), Finset.card_univ, Fintype.card_fin] at hcard
  exact absurd hcard (by decide)

/-- Nothing changes about the ids with an entry that is no peer's. -/
theorem Ids.other (h : Ids hwaddr m c macId) {x : Option MacAddr} {n : ℕ}
    (hold : ¬ Peer hwaddr m i) (hnew : ∀ a, x = some a → a = hwaddr ∨ a = bcAddr)
    (hn : x = some bcAddr → bcAddr ≠ hwaddr → n = rtwDefaultMgmtMacid) :
    Ids hwaddr (Function.update m i x) c (Function.update macId i n) := by
  have hpeer : ∀ j, Peer hwaddr (Function.update m i x) j ↔ j ≠ i ∧ Peer hwaddr m j := by
    grind [peer_update]
  refine ⟨?_, h.used, ?_, h.ifG, ?_⟩
  · grind [h.found]
  · grind [h.own]
  · grind [h.group]

theorem Ids.alloc (h : Ids hwaddr m c macId) (hi : m i = none)
    (hfew : ¬ ∀ j, Peer hwaddr (Function.update m i (some a)) j) :
    Ids hwaddr (Function.update m i (some a)) (c.rtwAllocMacid hwaddr a i).1
      (Function.update macId i (c.rtwAllocMacid hwaddr a i).2) := by
  have hold : ¬ Peer hwaddr m i := by
    rintro ⟨b, hb, -⟩
    rw [hi] at hb
    cases hb
  rw [MacidCtl.rtwAllocMacid]
  split_ifs with hown hbc
  · exact h.other hold (by grind) (by grind)
  · exact h.other hold (by grind) fun _ _ => rfl
  · cases hfind : (List.range num).find? fun k => !c.used k with
    | none =>
      obtain ⟨j, hj⟩ := not_forall.1 hfew
      have hji : ¬ (j = i ∨ Peer hwaddr m j) := by grind [peer_update]
      obtain ⟨hne, hj⟩ := not_or.1 hji
      exact absurd hfind (h.exists_free hj hold (Ne.symm hne))
    | some k =>
      have hk : k < num := List.mem_range.1 (List.mem_of_find?_eq_some hfind)
      have hfree : ¬ c.used k = true := by simpa using List.find?_some hfind
      obtain ⟨hk1, hnone⟩ := not_or.1 (mt (h.used k).2 hfree)
      rw [Option.not_isSome_iff_eq_none] at hnone
      refine ⟨?_, ?_, ?_, ?_, ?_⟩
      · grind [h.found, peer_update]
      · grind [h.used]
      · grind [h.own, peer_update]
      · exact congrArg (Function.update · k true) h.ifG
      · grind [h.group]

theorem Ids.release (h : Ids hwaddr m c macId) (hi : m i = some a) :
    Ids hwaddr (Function.update m i none) (c.rtwReleaseMacid hwaddr a (macId i))
      (Function.update macId i num) := by
  rw [MacidCtl.rtwReleaseMacid]
  by_cases hp : Peer hwaddr m i
  · have hsta := (h.found _ i).2 ⟨hp, rfl⟩
    have hused : c.used (macId i) = true := (h.used _).2 (.inr (hsta ▸ rfl))
    obtain ⟨hne, hlt⟩ := h.own i hp
    have hown : a ≠ hwaddr := by grind [Peer]
    have hpeer : ∀ j, Peer hwaddr (Function.update m i none) j ↔ j ≠ i ∧ Peer hwaddr m j := by
      grind [peer_update]
    have hgoes : ¬ (a = hwaddr ∨ num ≤ macId i ∨ macId i = rtwDefaultMgmtMacid) := by
      simp [hown, hne, hlt]
    rw [if_neg hgoes, h.ifG, if_neg (by simp [hused])]
    refine ⟨?_, ?_, ?_, rfl, ?_⟩
    · grind [h.found]
    · grind [h.used]
    · grind [h.own]
    · grind [h.group]
  · have hsame : a = hwaddr ∨ num ≤ macId i ∨ macId i = rtwDefaultMgmtMacid := by
      by_cases hown : a = hwaddr
      · exact .inl hown
      · have hbc : a = bcAddr := by grind [Peer]
        exact .inr (.inr (h.group i (hbc ▸ hi) (hbc ▸ hown)))
    rw [if_pos hsame]
    exact h.other hp (by grind) (by grind)

/-- The entries of `l` are freed one after the other. -/
theorem Ids.foldl_release {s : Sys} (h : Ids hwaddr m s.ctl s.macId) {l : List Slot}
    (hl : ∀ i ∈ l, m i = some (s.table.sta.macAddr i)) (hnodup : l.Nodup) :
    Ids hwaddr (fun i => if i ∈ l then none else m i) (l.foldl (Sys.release hwaddr) s).ctl
      (l.foldl (Sys.release hwaddr) s).macId := by
  induction l generalizing s m with
  | nil => simpa using h
  | cons i l ih =>
    obtain ⟨hnot, hnodup⟩ := List.nodup_cons.1 hnodup
    have hmap : (fun j => if j ∈ i :: l then none else m j) =
        fun j => if j ∈ l then none else Function.update m i none j := by
      grind
    rw [List.foldl_cons, hmap]
    refine ih (h.release (hl i List.mem_cons_self)) (fun j hj => ?_) hnodup
    have hne : j ≠ i := fun heq => hnot (heq ▸ hj)
    rw [Function.update_of_ne hne]
    exact hl j (List.mem_cons_of_mem i hj)

end Ids

/-! ## Runs -/

section Runs

variable {hwaddr : MacAddr} {s : Sys}

def Inv (hwaddr : MacAddr) (s : Sys) : Prop :=
  Refines s.table.sta s.table.owner ∧ Ids hwaddr s.table.owner s.ctl s.macId

theorem le_searchFrom {c : MacidCtl} {n id : ℕ} (hid : c.used id = true) (hle : id ≤ n) :
    id ≤ c.searchFrom n := by
  induction n with
  | zero => exact hle
  | succ n ih =>
    rw [MacidCtl.searchFrom]
    split_ifs with hn
    · exact hle
    · refine ih (Nat.le_of_lt_succ (Nat.lt_of_le_of_ne hle ?_))
      rintro rfl
      exact hn hid

theorem Ids.served (h : Ids hwaddr s.table.owner s.ctl s.macId) : Served hwaddr s := by
  refine ⟨h, fun i hi => ?_⟩
  have hsta := (h.found _ i).2 ⟨hi, rfl⟩
  exact le_searchFrom ((h.used _).2 (.inr (hsta ▸ rfl))) (Nat.le_sub_one_of_lt (h.own i hi).2)

theorem Inv.step (h : Inv hwaddr s) {c : Call}
    (hfew : ¬ ∀ i, Peer hwaddr (step hwaddr s c).table.owner i) :
    Inv hwaddr (step hwaddr s c) := by
  refine ⟨step_refines s.table c h.1, ?_⟩
  obtain ⟨table, ids⟩ := h
  have hmac : ∀ i, (s.table.owner i).isSome → s.table.owner i = some (s.table.sta.macAddr i) := by
    intro i hi
    obtain ⟨a, ha⟩ := Option.isSome_iff_exists.1 hi
    rw [table.mac i a ha, ha]
  cases c with
  | alloc a =>
    simp only [StationIds.step, StaTable.step, Call.apply] at hfew ⊢
    split_ifs at hfew ⊢ with ha
    · cases hq : s.table.sta.freeStaQueue with
      | nil =>
        rw [(rtwAllocStainfo_none s.table.sta a).2 hq]
        exact ids
      | cons i queue =>
        have hret : (rtwAllocStainfo s.table.sta a).2 = some i := by
          simp [rtwAllocStainfo, hq, wifiMacHash_lt a]
        rw [hret] at hfew ⊢
        exact ids.alloc ((table.mem_free i).1 (by simp [hq])) hfew
    · exact ids
  | free a =>
    simp only [StationIds.step, StaTable.step, Call.apply]
    cases hget : rtwGetStainfo s.table.sta a with
    | none => exact ids
    | some i => exact ids.release (hmac i ((table.get_iff a i).1 hget ▸ rfl))
  | freeSta i =>
    simp only [StationIds.step, StaTable.step, Call.apply]
    split_ifs with hi
    · exact ids.release (hmac i ((table.mem_hash i).1 hi))
    · exact ids
  | freeAll =>
    have hcount := table.count
    simp only [StationIds.step, Sys.after, StaTable.step, Stations.after, Stations.freeAll]
    by_cases hc1 : s.table.sta.asocStaCount = 1
    · rw [if_pos hc1, if_pos (by omega)]
      exact ids
    · have hmap : (fun i => if s.table.owner i = some bcAddr then s.table.owner i else none) =
          fun i => if i ∈ freeStaList s.table.sta then none else s.table.owner i := by
        funext i
        have hmem := table.mem_freeStaList i
        cases hi : s.table.owner i with
        | none => simp
        | some a => grind
      rw [if_neg hc1, if_neg (by omega), hmap]
      exact ids.foldl_release (fun i hi => hmac i ((table.mem_freeStaList i).1 hi).1)
        table.nodup_freeStaList
  | get a => exact ids

theorem Ids.few (h : Ids hwaddr s.table.owner s.ctl s.macId) :
    ¬ ∀ i, Peer hwaddr s.table.owner i := by
  intro hall
  have hmaps : Set.MapsTo s.macId (Finset.univ : Finset Slot)
      ((Finset.range num).erase rtwDefaultMgmtMacid : Finset ℕ) := by
    intro i _
    obtain ⟨hne, hlt⟩ := h.own i (hall i)
    exact Finset.mem_coe.2 (Finset.mem_erase.2 ⟨hne, Finset.mem_range.2 hlt⟩)
  have hinj : Set.InjOn s.macId (Finset.univ : Finset Slot) := by
    intro i _ j _ heq
    have hi := (h.found _ i).2 ⟨hall i, rfl⟩
    rw [heq, (h.found _ j).2 ⟨hall j, rfl⟩] at hi
    exact (Option.some.inj hi).symm
  exact absurd (Finset.card_le_card_of_injOn s.macId hmaps hinj) (by decide)

theorem start_inv (hwaddr : MacAddr) : Inv hwaddr {} := by
  refine ⟨refines_init, ⟨?_, ?_, ?_, rfl, ?_⟩⟩ <;> simp [Peer, rtwMacidCtlInit]

end Runs

/-- In a run of calls the ids serve all peers just as long as not all entries are peers'. -/
theorem served_iff (hwaddr : MacAddr) (calls : List Call) :
    Along (step hwaddr)
        (fun s c => ¬ ∀ i, Peer hwaddr (step hwaddr s c).table.owner i) {} calls ↔
      ∀ n, Served hwaddr (run (step hwaddr) {} (calls.take n)) :=
  along_iff_of_kept (fun _ h => h.2.served) (fun _ _ h hfew => h.step hfew)
    (fun _ _ _ h => h.ids.few) (start_inv hwaddr) calls

end Rtl8189.StationIds
