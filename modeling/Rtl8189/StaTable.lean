import Rtl8189.EventRun
import Rtl8189.HashBuckets
import Rtl8189.RecvFrame

/-!
# The station table

Every entry of `pstainfo_buf` is in `free_sta_queue` or in the bucket of
`sta_hash` of its address. `rtw_get_stainfo` looks a group address up as the
broadcast address. The table refines a partial map from the entries to the
addresses they are allocated for.
-/
namespace Rtl8189.StaTable

open HashBuckets

/-- The `NUM_STA` entries of `pstainfo_buf`. -/
abbrev Slot := Fin 32

structure StaPriv where
  macAddr : Slot → MacAddr := fun _ => Vector.replicate 6 0
  freeStaQueue : List Slot := List.finRange 32
  staHash : Fin 32 → List Slot := fun _ => []
  asocStaCount : ℤ := 0

def wifiMacHash (mac : MacAddr) : UInt32 :=
  let x := (getElem mac 0 zero_lt_six).toUInt32
  let x := (x <<< 2) ^^^ (getElem mac 1 one_lt_six).toUInt32
  let x := (x <<< 2) ^^^ (getElem mac 2 two_lt_six).toUInt32
  let x := (x <<< 2) ^^^ (getElem mac 3 three_lt_six).toUInt32
  let x := (x <<< 2) ^^^ (getElem mac 4 four_lt_six).toUInt32
  let x := (x <<< 2) ^^^ (getElem mac 5 five_lt_six).toUInt32
  let x := x ^^^ (x >>> 8)
  x &&& (32 - 1)

theorem wifiMacHash_lt (mac : MacAddr) : (wifiMacHash mac).toNat < 32 := by
  rw [wifiMacHash, UInt32.toNat_and]
  apply Nat.lt_of_le_of_lt Nat.and_le_right
  decide

def bucket (mac : MacAddr) : Fin 32 := ⟨(wifiMacHash mac).toNat, wifiMacHash_lt mac⟩

def bcAddr : MacAddr := Vector.replicate 6 0xff

def searchAddr (hwaddr : MacAddr) : MacAddr := if isMcast hwaddr then bcAddr else hwaddr

theorem searchAddr_idem (a : MacAddr) : searchAddr (searchAddr a) = searchAddr a := by
  simp only [searchAddr]
  split_ifs with hcast hbc <;> rfl

def rtwAllocStainfo (s : StaPriv) (hwaddr : MacAddr) : StaPriv × Option Slot :=
  match s.freeStaQueue with
  | [] => (s, none)
  | i :: queue =>
    let s := { s with freeStaQueue := queue, macAddr := Function.update s.macAddr i hwaddr }
    if h : (wifiMacHash hwaddr).toNat < 32 then
      ({ s with staHash := insertTail s.staHash ⟨(wifiMacHash hwaddr).toNat, h⟩ i
                asocStaCount := s.asocStaCount + 1 }, some i)
    else (s, none)

def rtwFreeStainfo (s : StaPriv) : Option Slot → StaPriv
  | none => s
  | some i => { s with staHash := unlink s.staHash i
                       asocStaCount := s.asocStaCount - 1
                       freeStaQueue := s.freeStaQueue ++ [i] }

def rtwGetStainfo (s : StaPriv) (hwaddr : MacAddr) : Option Slot :=
  let addr := searchAddr hwaddr
  (s.staHash (bucket addr)).find? fun i => s.macAddr i = addr

def hashWalk (pbcmcStainfo : Option Slot) : List Slot → List Slot × List Slot
  | [] => ([], [])
  | psta :: plist =>
    let r := hashWalk pbcmcStainfo plist
    if pbcmcStainfo ≠ some psta then (r.1, psta :: r.2) else (psta :: r.1, r.2)

def rtwFreeAllStainfo (s : StaPriv) : StaPriv :=
  let pbcmcStainfo := rtwGetStainfo s bcAddr
  if s.asocStaCount = 1 then s
  else
    let freeStaList :=
      (List.finRange 32).flatMap fun index => (hashWalk pbcmcStainfo (s.staHash index)).2
    let s := { s with staHash := fun index => (hashWalk pbcmcStainfo (s.staHash index)).1 }
    freeStaList.foldl (fun s psta => rtwFreeStainfo s (some psta)) s

/-- `free` looks the address up first; `freeSta` has the entry at hand. -/
inductive Call where
  | alloc (hwaddr : MacAddr)
  | free (hwaddr : MacAddr)
  | freeSta (psta : Slot)
  | freeAll
  | get (hwaddr : MacAddr)

/-- The state after a call, and the entry it returns or frees. An address is
allocated when it is not found, and an entry freed when it is allocated. -/
def Call.apply (s : StaPriv) : Call → StaPriv × Option Slot
  | .alloc a => if rtwGetStainfo s a = none then rtwAllocStainfo s a else (s, none)
  | .free a => (rtwFreeStainfo s (rtwGetStainfo s a), rtwGetStainfo s a)
  | .freeSta i =>
    if ∃ k, i ∈ s.staHash k then (rtwFreeStainfo s (some i), some i) else (s, none)
  | .freeAll => (rtwFreeAllStainfo s, none)
  | .get a => (s, rtwGetStainfo s a)

/-! ## The map of the entries to their addresses -/

/-- The address an entry was allocated for, while it is not freed. -/
abbrev Stations := Slot → Option MacAddr

def Stations.allocated (m : Stations) : Finset Slot := Finset.univ.filter fun i => (m i).isSome

/-- All but the broadcast entry, and nothing when there is one entry only. -/
def Stations.freeAll (m : Stations) : Stations :=
  if m.allocated.card = 1 then m else fun i => if m i = some bcAddr then m i else none

def Stations.after (m : Stations) : Call → Option Slot → Stations
  | .alloc a, some i => Function.update m i (some a)
  | .free _, some i => Function.update m i none
  | .freeSta _, some i => Function.update m i none
  | .freeAll, _ => m.freeAll
  | _, _ => m

structure Table where
  sta : StaPriv := {}
  owner : Stations := fun _ => none

def step (t : Table) (c : Call) : Table :=
  ⟨(c.apply t.sta).1, t.owner.after c (c.apply t.sta).2⟩

def run (calls : List Call) : Table := EventRun.run step {} calls

/-- The table represents the map, with one entry for an address that is searched for. -/
structure Refines (s : StaPriv) (m : Stations) : Prop where
  houses : Houses s.staHash fun i => (m i).map bucket
  nodup_free : s.freeStaQueue.Nodup
  mem_free : ∀ i, i ∈ s.freeStaQueue ↔ m i = none
  mac : ∀ i a, m i = some a → s.macAddr i = a
  count : s.asocStaCount = m.allocated.card
  distinct : ∀ i j a, searchAddr a = a → m i = some a → m j = some a → i = j

variable {s : StaPriv} {m : Stations}

theorem refines_init : Refines {} fun _ => none where
  houses := houses_empty
  nodup_free := List.nodup_finRange 32
  mem_free i := by simp
  mac i a h := by simp at h
  count := by decide
  distinct i j a _ h := by simp at h

theorem Refines.mem_hash (h : Refines s m) (i : Slot) :
    (∃ k, i ∈ s.staHash k) ↔ (m i).isSome := by
  simp [h.houses.mem_iff, Option.isSome_iff_exists]

theorem Refines.get_iff (h : Refines s m) (a : MacAddr) (i : Slot) :
    rtwGetStainfo s a = some i ↔ m i = some (searchAddr a) := by
  constructor
  · intro hget
    have hmem := List.mem_of_find?_eq_some hget
    have hmac := List.find?_some hget
    rw [h.houses.mem_iff] at hmem
    obtain ⟨b, hb, -⟩ := Option.map_eq_some_iff.mp hmem
    have hsame : s.macAddr i = searchAddr a := by simpa using hmac
    rw [hb, ← hsame, h.mac i b hb]
  · intro hi
    have hmem : i ∈ s.staHash (bucket (searchAddr a)) := by
      rw [h.houses.mem_iff, hi, Option.map_some]
    have hmac : s.macAddr i = searchAddr a := h.mac i _ hi
    have hfound : (rtwGetStainfo s a).isSome := by
      rw [rtwGetStainfo, List.find?_isSome]
      exact ⟨i, hmem, by simpa using hmac⟩
    obtain ⟨j, hj⟩ := Option.isSome_iff_exists.mp hfound
    -- the entry found has the address too
    have hjmem := List.mem_of_find?_eq_some hj
    have hjmac := List.find?_some hj
    rw [h.houses.mem_iff] at hjmem
    obtain ⟨b, hb, -⟩ := Option.map_eq_some_iff.mp hjmem
    have hsame : b = searchAddr a := by
      rw [← h.mac j b hb]
      simpa using hjmac
    rw [hj, h.distinct j i _ (searchAddr_idem a) (hsame ▸ hb) hi]

theorem allocated_update_some {i : Slot} (hi : m i = none) (a : MacAddr) :
    (Stations.allocated (Function.update m i (some a))).card = m.allocated.card + 1 := by
  have hset : Stations.allocated (Function.update m i (some a)) = insert i m.allocated := by
    ext j
    by_cases hj : j = i
    · simp [Stations.allocated, hj]
    · simp [Stations.allocated, hj]
  rw [hset, Finset.card_insert_of_notMem (by simp [Stations.allocated, hi])]

theorem allocated_update_none {i : Slot} (hi : (m i).isSome) :
    ((Stations.allocated (Function.update m i none)).card : ℤ) = m.allocated.card - 1 := by
  have hset : Stations.allocated (Function.update m i none) = m.allocated.erase i := by
    ext j
    by_cases hj : j = i
    · simp [Stations.allocated, hj]
    · simp [Stations.allocated, hj]
  have hmem : i ∈ m.allocated := by simp [Stations.allocated, hi]
  have hpos := Finset.card_pos.mpr ⟨i, hmem⟩
  rw [hset, Finset.card_erase_of_mem hmem]
  omega

theorem Refines.alloc (h : Refines s m) {a : MacAddr} (ha : rtwGetStainfo s a = none)
    {i : Slot} {queue : List Slot} (hq : s.freeStaQueue = i :: queue) :
    Refines (rtwAllocStainfo s a).1 (Function.update m i (some a)) := by
  have hi : m i = none := (h.mem_free i).mp (by simp [hq])
  have hnodup := h.nodup_free
  rw [hq, List.nodup_cons] at hnodup
  have halloc : (rtwAllocStainfo s a).1 = ⟨Function.update s.macAddr i a, queue,
      insertTail s.staHash (bucket a) i, s.asocStaCount + 1⟩ := by
    simp only [rtwAllocStainfo, hq, dif_pos (wifiMacHash_lt a)]
    rfl
  rw [halloc]
  refine ⟨?_, hnodup.2, ?_, ?_, ?_, ?_⟩
  · have hins := h.houses.insertTail (i := i) (by simp [hi]) (bucket a)
    have hhome : (fun j => (Function.update m i (some a) j).map bucket) =
        Function.update (fun j => (m j).map bucket) i (some (bucket a)) := by
      funext j
      by_cases hj : j = i
      · simp [hj]
      · simp [hj]
    rw [hhome]
    exact hins
  · intro j
    have hfree := h.mem_free j
    rw [hq, List.mem_cons] at hfree
    by_cases hj : j = i
    · simp [hj, hnodup.1]
    · rw [Function.update_of_ne hj, ← hfree]
      simp [hj]
  · intro j b hb
    by_cases hj : j = i
    · subst hj
      simpa using hb
    · rw [Function.update_of_ne hj] at hb
      simp only [Function.update_of_ne hj]
      exact h.mac j b hb
  · rw [allocated_update_some hi, h.count]
    push_cast
    rfl
  · -- the new address is the only one of its kind, as it was not found
    have hnew : ∀ j b, searchAddr b = b → m j = some b → b ≠ a := by
      rintro j b hb hj rfl
      rw [← hb, ← h.get_iff, ha] at hj
      simp at hj
    intro j l b hb hj hl
    by_cases hji : j = i <;> by_cases hli : l = i
    · rw [hji, hli]
    · rw [hji, Function.update_self] at hj
      rw [Function.update_of_ne hli] at hl
      exact absurd (Option.some.inj hj).symm (hnew l b hb hl)
    · rw [hli, Function.update_self] at hl
      rw [Function.update_of_ne hji] at hj
      exact absurd (Option.some.inj hl).symm (hnew j b hb hj)
    · rw [Function.update_of_ne hji] at hj
      rw [Function.update_of_ne hli] at hl
      exact h.distinct j l b hb hj hl

theorem Refines.free (h : Refines s m) {i : Slot} (hi : (m i).isSome) :
    Refines (rtwFreeStainfo s (some i)) (Function.update m i none) := by
  have hnot : i ∉ s.freeStaQueue := by
    rw [h.mem_free]
    exact Option.isSome_iff_ne_none.mp hi
  refine ⟨?_, ?_, ?_, ?_, ?_, ?_⟩
  · have hunl := h.houses.unlink i
    have hhome : (fun j => (Function.update m i none j).map bucket) =
        Function.update (fun j => (m j).map bucket) i none := by
      funext j
      by_cases hj : j = i
      · simp [hj]
      · simp [hj]
    rw [hhome]
    exact hunl
  · exact h.nodup_free.append (List.nodup_singleton i) (List.disjoint_singleton.mpr hnot)
  · intro j
    rw [rtwFreeStainfo, List.mem_append, List.mem_singleton, h.mem_free]
    by_cases hj : j = i
    · simp [hj]
    · simp [hj]
  · intro j b hb
    by_cases hj : j = i
    · simp [hj] at hb
    · rw [Function.update_of_ne hj] at hb
      exact h.mac j b hb
  · rw [allocated_update_none hi, ← h.count]
    rfl
  · intro j l b hb hj hl
    by_cases hji : j = i
    · simp [hji] at hj
    · by_cases hli : l = i
      · simp [hli] at hl
      · rw [Function.update_of_ne hji] at hj
        rw [Function.update_of_ne hli] at hl
        exact h.distinct j l b hb hj hl

theorem hashWalk_eq (p : Option Slot) (l : List Slot) :
    hashWalk p l = (l.filter (p = some ·), l.filter (p ≠ some ·)) := by
  induction l with
  | nil => rfl
  | cons psta plist ih =>
    simp only [hashWalk, ih]
    by_cases hp : p = some psta
    · simp [hp]
    · simp [hp]

theorem foldl_free (l : List Slot) (s : StaPriv) :
    l.foldl (fun s psta => rtwFreeStainfo s (some psta)) s =
      { s with staHash := fun k => (s.staHash k).diff l
               asocStaCount := s.asocStaCount - l.length
               freeStaQueue := s.freeStaQueue ++ l } := by
  induction l generalizing s with
  | nil => simp
  | cons i l ih =>
    rw [List.foldl_cons, ih]
    simp only [rtwFreeStainfo, unlink, List.diff_cons, List.length_cons, List.append_assoc,
      List.singleton_append, StaPriv.mk.injEq, true_and]
    push_cast
    omega

def freeStaList (s : StaPriv) : List Slot :=
  (List.finRange 32).flatMap fun k => (s.staHash k).filter (rtwGetStainfo s bcAddr ≠ some ·)

theorem Refines.mem_freeStaList (h : Refines s m) (i : Slot) :
    i ∈ freeStaList s ↔ (m i).isSome ∧ m i ≠ some bcAddr := by
  have hbc : rtwGetStainfo s bcAddr = some i ↔ m i = some bcAddr := by
    rw [h.get_iff]
    rfl
  simp only [freeStaList, List.mem_flatMap, List.mem_finRange, true_and, List.mem_filter,
    decide_eq_true_eq, ne_eq, hbc, exists_and_right, h.mem_hash]

theorem Refines.nodup_freeStaList (h : Refines s m) : (freeStaList s).Nodup := by
  rw [freeStaList, List.nodup_flatMap]
  refine ⟨fun k _ => (h.houses.nodup k).filter _, ?_⟩
  refine (List.nodup_finRange 32).imp ?_
  intro k l hne i hi hi'
  have hk := (h.houses.mem_iff k i).mp (List.mem_of_mem_filter hi)
  have hl := (h.houses.mem_iff l i).mp (List.mem_of_mem_filter hi')
  exact hne (Option.some.inj (hk.symm.trans hl))

theorem rtwFreeAllStainfo_eq (hs : s.asocStaCount ≠ 1) :
    rtwFreeAllStainfo s =
      { s with staHash := fun k =>
                 ((s.staHash k).filter (rtwGetStainfo s bcAddr = some ·)).diff (freeStaList s)
               asocStaCount := s.asocStaCount - (freeStaList s).length
               freeStaQueue := s.freeStaQueue ++ freeStaList s } := by
  simp only [rtwFreeAllStainfo, if_neg hs, hashWalk_eq, foldl_free]
  rfl

theorem Refines.freeAll (h : Refines s m) : Refines (rtwFreeAllStainfo s) m.freeAll := by
  by_cases hone : s.asocStaCount = 1
  · have hcard : m.allocated.card = 1 := by
      have hcount := h.count
      omega
    rw [rtwFreeAllStainfo, if_pos hone, Stations.freeAll, if_pos hcard]
    exact h
  · have hcard : m.allocated.card ≠ 1 := by
      have hcount := h.count
      omega
    rw [rtwFreeAllStainfo_eq hone, Stations.freeAll, if_neg hcard]
    have hkept : ∀ i a, (if m i = some bcAddr then m i else none) = some a ↔
        m i = some bcAddr ∧ a = bcAddr := by
      intro i a
      split_ifs with hi
      · simp [hi, eq_comm]
      · simp [hi]
    refine ⟨⟨fun k => ((h.houses.nodup k).filter _).diff, ?_⟩, ?_, ?_, ?_, ?_, ?_⟩
    · intro k i
      have hbc : rtwGetStainfo s bcAddr = some i ↔ m i = some bcAddr := h.get_iff bcAddr i
      rw [((h.houses.nodup k).filter _).mem_sdiff_iff, List.mem_filter, h.mem_freeStaList,
        h.houses.mem_iff]
      simp only [decide_eq_true_eq, hbc]
      by_cases hi : m i = some bcAddr
      · simp [hi]
      · simp [hi]
    · refine h.nodup_free.append h.nodup_freeStaList ?_
      intro i hi hi'
      have hsome := ((h.mem_freeStaList i).mp hi').1
      rw [(h.mem_free i).mp hi] at hsome
      simp at hsome
    · intro i
      rw [List.mem_append, h.mem_free, h.mem_freeStaList]
      cases hi : m i with
      | none => simp
      | some a => simp
    · intro i a hi
      obtain ⟨hbc, rfl⟩ := (hkept i a).mp hi
      exact h.mac i _ hbc
    · have hlen : (freeStaList s).length =
          (m.allocated.filter fun i => m i ≠ some bcAddr).card := by
        rw [← List.toFinset_card_of_nodup h.nodup_freeStaList]
        congr 1
        ext i
        simp [h.mem_freeStaList, Stations.allocated]
      have hleft : Stations.allocated (fun i => if m i = some bcAddr then m i else none) =
          m.allocated.filter fun i => m i = some bcAddr := by
        ext i
        by_cases hi : m i = some bcAddr
        · simp [Stations.allocated, hi]
        · simp [Stations.allocated, hi]
      have hsplit := Finset.card_filter_add_card_filter_not (s := m.allocated)
        fun i => m i = some bcAddr
      rw [hlen, hleft, h.count]
      simp only [ne_eq]
      omega
    · intro i j a _ hi hj
      obtain ⟨hbi, -⟩ := (hkept i a).mp hi
      obtain ⟨hbj, -⟩ := (hkept j a).mp hj
      exact h.distinct i j bcAddr rfl hbi hbj

/-! ## Runs -/

theorem rtwAllocStainfo_none (s : StaPriv) (a : MacAddr) :
    (rtwAllocStainfo s a).2 = none ↔ s.freeStaQueue = [] := by
  cases hq : s.freeStaQueue with
  | nil => simp [rtwAllocStainfo, hq]
  | cons i queue => simp [rtwAllocStainfo, hq, wifiMacHash_lt a]

theorem step_refines (t : Table) (c : Call) (h : Refines t.sta t.owner) :
    Refines (step t c).sta (step t c).owner := by
  cases c with
  | alloc a =>
    simp only [step, Call.apply]
    split_ifs with ha
    · cases hq : t.sta.freeStaQueue with
      | nil =>
        have hnone : rtwAllocStainfo t.sta a = (t.sta, none) := by simp [rtwAllocStainfo, hq]
        rw [hnone]
        exact h
      | cons i queue =>
        have hret : (rtwAllocStainfo t.sta a).2 = some i := by
          simp [rtwAllocStainfo, hq, wifiMacHash_lt a]
        rw [hret]
        exact h.alloc ha hq
    · exact h
  | free a =>
    simp only [step, Call.apply]
    cases hget : rtwGetStainfo t.sta a with
    | none => exact h
    | some i =>
      apply h.free
      rw [(h.get_iff a i).mp hget]
      rfl
  | freeSta i =>
    simp only [step, Call.apply]
    split_ifs with hi
    · exact h.free ((h.mem_hash i).mp hi)
    · exact h
  | freeAll => exact h.freeAll
  | get a => exact h

theorem run_refines (calls : List Call) : Refines (run calls).sta (run calls).owner := by
  apply EventRun.run_invariant (fun t : Table => Refines t.sta t.owner)
  · exact step_refines
  · exact refines_init

/-- What the table promises: `owner` holds the address of every entry that was
allocated and not freed since. -/
structure Sound (s : StaPriv) (owner : Stations) : Prop where
  placed : ∀ i, s.freeStaQueue.count i + ∑ k, (s.staHash k).count i = 1
  home : ∀ k, ∀ i ∈ s.staHash k, bucket (s.macAddr i) = k
  counted : s.asocStaCount = ∑ k, (s.staHash k).length
  distinct : ∀ k l, ∀ i ∈ s.staHash k, ∀ j ∈ s.staHash l, s.macAddr i = s.macAddr j →
    searchAddr (s.macAddr i) = s.macAddr i → i = j
  found : ∀ a i, searchAddr a = a → (rtwGetStainfo s a = some i ↔ owner i = some a)
  group : ∀ a, isMcast a → rtwGetStainfo s a = rtwGetStainfo s bcAddr
  alloc_fails : ∀ a, (rtwAllocStainfo s a).2 = none ↔ s.freeStaQueue = []

theorem Refines.sound (h : Refines s m) : Sound s m where
  placed i := by
    rw [h.houses.count_sum, h.nodup_free.count]
    simp only [h.mem_free]
    cases hi : m i with
    | none => simp
    | some a => simp
  home k i hi := by
    rw [h.houses.mem_iff] at hi
    obtain ⟨a, ha, hk⟩ := Option.map_eq_some_iff.mp hi
    rw [h.mac i a ha, hk]
  counted := by
    rw [h.count, h.houses.length_sum]
    simp [Stations.allocated]
  distinct k l i hi j hj hsame hsearch := by
    rw [h.houses.mem_iff] at hi hj
    obtain ⟨a, ha, -⟩ := Option.map_eq_some_iff.mp hi
    obtain ⟨b, hb, -⟩ := Option.map_eq_some_iff.mp hj
    rw [h.mac i a ha] at hsearch
    rw [h.mac i a ha, h.mac j b hb] at hsame
    exact h.distinct i j a hsearch ha (hsame ▸ hb)
  found a i ha := by rw [h.get_iff, ha]
  group a ha := by
    have hsearch : searchAddr a = searchAddr bcAddr := by rw [searchAddr, if_pos ha]; rfl
    simp only [rtwGetStainfo, hsearch]
  alloc_fails a := rtwAllocStainfo_none s a

/-- The station table is sound after any calls, group addresses being looked up as
the broadcast address. -/
theorem run_sound (calls : List Call) : Sound (run calls).sta (run calls).owner :=
  (run_refines calls).sound

def groupAddr : MacAddr := #v[0x01, 0x00, 0x5e, 0x00, 0x00, 0x01]

/-- A group address is not found after it was allocated, and is allocated again; once
the broadcast address is allocated it is found without having been allocated. -/
theorem group_not_found :
    let t := run [.alloc groupAddr, .alloc groupAddr]
    (t.owner 0 = some groupAddr ∧ t.owner 1 = some groupAddr) ∧
      rtwGetStainfo t.sta groupAddr = none ∧
      rtwGetStainfo (run [.alloc bcAddr]).sta groupAddr = some 0 := by decide +kernel

end Rtl8189.StaTable
