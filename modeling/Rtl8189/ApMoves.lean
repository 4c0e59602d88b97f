import Mathlib.Data.List.Find
import Mathlib.Logic.Relation
import Rtl8189.ApBss
import Rtl8189.HashBuckets

/-!
# Elementary moves of the station lists

Every event of the access point is a sequence of elementary moves on the table,
the lists, the AIDs and the capability counters. Three of them are hazards: an
authentication that takes a station off `asoc_list`, a station freed without
having left, and a refused association request.
-/
namespace Rtl8189.ApBss

open EventRun StaInfo MlmeProtect

open RecvFrame (addr2 getFrameSubType)

/-! ## What always holds -/

structure Base (s : Ap) : Prop where
  nodup_hash : s.priv.staHash.Nodup
  nodup_free : s.priv.freeStaQueue.Nodup
  hash_free : ∀ i ∈ s.priv.staHash, i ∉ s.priv.freeStaQueue
  nodup_asoc : s.priv.asocList.Nodup
  nodup_auth : s.priv.authList.Nodup
  auth_hashed : ∀ i ∈ s.priv.authList, i ∈ s.priv.staHash
  nodup_picked : s.picked.Nodup
  picked_asoc : ∀ i ∈ s.picked, i ∉ s.priv.asocList
  found : ∀ i, i ∈ s.priv.asocList ∨ i ∈ s.picked → i ∈ s.priv.staHash →
    rtwGetStainfo s.priv (s.priv.sta i).macAddr = some i

inductive Hazard where
  | reauth (i : ℕ)
  | free (i : ℕ)
  | refuse (i : ℕ)

inductive Move (safe : Ap → Hazard → Prop) : Ap → Ap → Prop
  | record {s : Ap} {i : ℕ} {q : Sta} (hmac : q.macAddr = (s.priv.sta i).macAddr)
      (haid : q.aid = (s.priv.sta i).aid) : Move safe s (s.setSta i q)
  | alloc {s : Ap} {a : MacAddr} {p : StaPriv} {i : ℕ} (hp : rtwAllocStainfo s.priv a = some (p, i))
      (hpicked : s.picked = []) : Move safe s (s.allocated p i)
  | free {s : Ap} {ad : Adapter} {i : ℕ} (had : ad.pmlmeinfoState = 3)
      (hi : i ∈ s.priv.staHash) (hsafe : safe s (.free i)) (hpicked : s.picked = []) :
      Move safe s (s.freeSta ad i)
  | expireAuth {s : Ap} {ad : Adapter} {i : ℕ} (had : ad.pmlmeinfoState = 3)
      (hi : i ∈ s.priv.authList) (hpicked : s.picked = []) :
      Move safe s ((s.delAuth i).freeSta ad i)
  | refuse {s : Ap} {i : ℕ} {q : Sta} (hmac : q.macAddr = (s.priv.sta i).macAddr)
      (haid : q.aid = 0) (hsafe : safe s (.refuse i)) : Move safe s (s.setSta i q)
  | aid {s : Ap} {i : ℕ} {q : Sta} (hi : i ∈ s.priv.staHash) (hzero : (s.priv.sta i).aid = 0)
      (hmac : q.macAddr = (s.priv.sta i).macAddr) (haid : q.aid = 0)
      (hpos : (rtwAidAlloc s.priv i q).2.aid ≠ 0) :
      Move safe s { s with
        priv := (rtwAidAlloc s.priv i q).1.setSta i (rtwAidAlloc s.priv i q).2 }
  | reauth {s : Ap} {i : ℕ} (hi : i ∈ s.priv.asocList) (hsafe : safe s (.reauth i)) :
      Move safe s (s.delAsoc i)
  | joinAuth {s : Ap} {i : ℕ} (hi : i ∈ s.priv.staHash) (hauth : i ∉ s.priv.authList)
      (hasoc : i ∉ s.priv.asocList) (hpicked : s.picked = []) : Move safe s (s.addAuth i)
  | leaveAuth {s : Ap} {i : ℕ} (hi : i ∈ s.priv.authList) : Move safe s (s.delAuth i)
  | joinAsoc {s : Ap} {i : ℕ} (hi : i ∈ s.priv.staHash) (hauth : i ∉ s.priv.authList)
      (hasoc : i ∉ s.priv.asocList) (haid : (s.priv.sta i).aid ≠ 0)
      (hget : rtwGetStainfo s.priv (s.priv.sta i).macAddr = some i) (hpicked : s.picked = []) :
      Move safe s (s.addAsoc i)
  | joinCaps {s : Ap} {i : ℕ} (ht : Bool) (psta : Sta) (hi : i ∈ s.priv.staHash)
      (hasoc : i ∈ s.priv.asocList) : Move safe s (s.bssCapUpdateOnStaJoin ht i psta)
  | pick {s : Ap} {i : ℕ} (hi : i ∈ s.priv.asocList) : Move safe s (s.pick i)
  | leave {s : Ap} {e : ApAdapter} {i : ℕ} (enqueue : Bool) (hi : i ∈ s.picked) :
      Move safe s (s.apFreeSta e enqueue i)
  | dequeue {s : Ap} {events : List MacAddr} : Move safe s { s with delEvents := events }

theorem Move.imp {safe safe' : Ap → Hazard → Prop} {s t : Ap} (h : Move safe s t)
    (hsafe : ∀ s hazard, safe s hazard → safe' s hazard) : Move safe' s t := by
  cases h with
  | record hmac haid => exact .record hmac haid
  | alloc hp hpicked => exact .alloc hp hpicked
  | free had hi h hpicked => exact .free had hi (hsafe _ _ h) hpicked
  | expireAuth had hi hpicked => exact .expireAuth had hi hpicked
  | refuse hmac haid h => exact .refuse hmac haid (hsafe _ _ h)
  | aid hi hzero hmac haid hpos => exact .aid hi hzero hmac haid hpos
  | reauth hi h => exact .reauth hi (hsafe _ _ h)
  | joinAuth hi hauth hasoc hpicked => exact .joinAuth hi hauth hasoc hpicked
  | leaveAuth hi => exact .leaveAuth hi
  | joinAsoc hi hauth hasoc haid hget hpicked => exact .joinAsoc hi hauth hasoc haid hget hpicked
  | joinCaps ht psta hi hasoc => exact .joinCaps ht psta hi hasoc
  | pick hi => exact .pick hi
  | leave enqueue hi => exact .leave enqueue hi
  | dequeue => exact .dequeue

abbrev Moves (safe : Ap → Hazard → Prop) : Ap → Ap → Prop := Relation.ReflTransGen (Move safe)

/-! ## Lookups -/

theorem rtwGetStainfo_mem {s : StaPriv} {a : MacAddr} {i : ℕ} (h : rtwGetStainfo s a = some i) :
    i ∈ s.staHash := List.mem_of_find?_eq_some h

theorem rtwGetStainfo_congr {s t : StaPriv} (hhash : t.staHash = s.staHash)
    (hmac : ∀ k, (t.sta k).macAddr = (s.sta k).macAddr) (a : MacAddr) :
    rtwGetStainfo t a = rtwGetStainfo s a := by
  simp only [rtwGetStainfo, hhash, hmac]

theorem rtwGetStainfo_macAddr {s : StaPriv} {a : MacAddr} {i : ℕ}
    (h : rtwGetStainfo s a = some i) : rtwGetStainfo s (s.sta i).macAddr = some i := by
  have hmac := List.find?_some h
  simp only [decide_eq_true_eq] at hmac
  by_cases ha : isMcast a
  · rw [if_pos ha] at hmac
    simp only [rtwGetStainfo, if_pos ha] at h
    simp only [rtwGetStainfo, hmac]
    exact h
  · rw [if_neg ha] at hmac
    rw [hmac]
    exact h

theorem setSta_macAddr {s : StaPriv} {i : ℕ} {q : Sta} (hq : q.macAddr = (s.sta i).macAddr)
    (k : ℕ) : ((s.setSta i q).sta k).macAddr = (s.sta k).macAddr := by
  by_cases hk : k = i
  · subst hk
    rw [StaPriv.setSta_self, hq]
  · rw [StaPriv.setSta_of_ne s hk]

theorem rtwFreeStainfo_macAddr (ad : Adapter) (s : StaPriv) (i k : ℕ) :
    ((rtwFreeStainfo ad s i).sta k).macAddr = (s.sta k).macAddr := by
  simp only [rtwFreeStainfo]
  by_cases hk : k = i
  · subst hk
    rw [Function.update_self]
    split_ifs <;> rfl
  · rw [Function.update_of_ne hk]

theorem rtwGetStainfo_free {ad : Adapter} {s : StaPriv} {a : MacAddr} {i k : ℕ}
    (h : rtwGetStainfo s a = some k) (hk : k ≠ i) :
    rtwGetStainfo (rtwFreeStainfo ad s i) a = some k := by
  simp only [rtwGetStainfo, rtwFreeStainfo_macAddr]
  exact HashBuckets.find?_erase_of_ne h hk

theorem rtwAllocStainfo_eq {s p : StaPriv} {a : MacAddr} {i : ℕ}
    (h : rtwAllocStainfo s a = some (p, i)) :
    ∃ free, s.freeStaQueue = i :: free ∧ p = { s with
      sta := Function.update s.sta i { macAddr := a }
      freeStaQueue := free
      staHash := s.staHash ++ [i]
      asocStaCount := s.asocStaCount + 1
      asocList := s.asocList.erase i
      authList := s.authList.erase i } := by
  simp only [rtwAllocStainfo] at h
  split at h
  · cases h
  · rename_i j free hfree
    obtain ⟨rfl, rfl⟩ := Prod.mk.inj (Option.some.inj h)
    exact ⟨free, hfree, rfl⟩

theorem rtwGetStainfo_alloc {s : StaPriv} {b : MacAddr} {i k : ℕ} {q : Sta}
    (hi : i ∉ s.staHash) (h : rtwGetStainfo s b = some k) :
    rtwGetStainfo { s with
      sta := Function.update s.sta i q
      staHash := s.staHash ++ [i] } b = some k := by
  have hsame : ∀ j ∈ s.staHash, Function.update s.sta i q j = s.sta j := by
    intro j hj
    apply Function.update_of_ne
    rintro rfl
    exact hi hj
  let addr := if isMcast b then Vector.replicate 6 0xff else b
  have hfind : s.staHash.find? (fun j => (Function.update s.sta i q j).macAddr = addr) =
      s.staHash.find? fun j => (s.sta j).macAddr = addr := by
    apply List.find?_congr
    intro j hj
    simp only [hsame j hj]
  simp only [rtwGetStainfo] at h ⊢
  rw [List.find?_append, hfind, h, Option.some_or]

/-! ## Moves that write the counters only -/

structure OnlyCaps (s t : Ap) : Prop where
  priv : t.priv = s.priv
  picked : t.picked = s.picked
  delEvents : t.delEvents = s.delEvents

theorem OnlyCaps.refl (s : Ap) : OnlyCaps s s := ⟨rfl, rfl, rfl⟩

theorem OnlyCaps.trans {s t u : Ap} (h : OnlyCaps s t) (h' : OnlyCaps t u) : OnlyCaps s u :=
  ⟨h'.priv.trans h.priv, h'.picked.trans h.picked, h'.delEvents.trans h.delEvents⟩

theorem setCap_onlyCaps (s : Ap) (i : ℕ) (c : Cap) : OnlyCaps s (s.setCap i c) := by
  simp only [Ap.setCap]
  split_ifs
  · exact OnlyCaps.refl s
  · exact ⟨rfl, rfl, rfl⟩

theorem clearCap_onlyCaps (s : Ap) (i : ℕ) (c : Cap) : OnlyCaps s (s.clearCap i c) := by
  simp only [Ap.clearCap]
  split_ifs
  · exact ⟨rfl, rfl, rfl⟩
  · exact OnlyCaps.refl s

theorem clearIntolerant_onlyCaps (s : Ap) (i : ℕ) : OnlyCaps s (s.clearIntolerant i) := by
  simp only [Ap.clearIntolerant]
  split_ifs
  · exact ⟨rfl, rfl, rfl⟩
  · exact clearCap_onlyCaps s i _

theorem bssCapUpdateOnStaJoin_spec {P : Ap → Prop} {i : ℕ}
    (hset : ∀ t c, P t → P (t.setCap i c)) (hclear : ∀ t c, P t → P (t.clearCap i c)) {s : Ap}
    (hs : P s) (ht : Bool) (psta : Sta) : P (s.bssCapUpdateOnStaJoin ht i psta) := by
  have hput : ∀ t c b, P t → P (t.putCap i c b) := by
    intro t c b h
    simp only [Ap.putCap]
    split_ifs
    · exact hset t c h
    · exact hclear t c h
  have hunless : ∀ t c (b : Bool), P t → P (if b then t else t.setCap i c) := by
    intro t c b h
    split_ifs
    · exact h
    · exact hset t c h
  have hbase := hput _ .noShortSlotTime (!psta.capability.testBit 10)
    (hput _ .nonErp psta.flags.nonErp (hput s .noShortPreamble (!psta.flags.shortPreamble) hs))
  have hht := hunless _ .ht20mhz ((le16 psta.htCap 0).testBit 1)
    (hunless _ .htNoGf ((le16 psta.htCap 0).testBit 4) (hclear _ .noHt hbase))
  simp only [Ap.bssCapUpdateOnStaJoin]
  by_cases hsupp : ht = false
  · rw [if_pos hsupp]
    exact hbase
  rw [if_neg hsupp]
  by_cases hflag : psta.flags.ht = true
  · rw [if_pos hflag]
    by_cases h40 : (le16 psta.htCap 0).testBit 14 = true
    · rw [if_pos h40]
      exact hset _ _ hht
    · rw [if_neg h40]
      exact hht
  · rw [if_neg hflag]
    exact hset _ _ hbase

theorem bssCapUpdateOnStaJoin_onlyCaps (s : Ap) (ht : Bool) (i : ℕ) (psta : Sta) :
    OnlyCaps s (s.bssCapUpdateOnStaJoin ht i psta) := by
  apply bssCapUpdateOnStaJoin_spec (P := OnlyCaps s)
  · exact fun t c h => h.trans (setCap_onlyCaps t i c)
  · exact fun t c h => h.trans (clearCap_onlyCaps t i c)
  · exact OnlyCaps.refl s

theorem bssCapUpdateOnStaLeave_onlyCaps (s : Ap) (i : ℕ) :
    OnlyCaps s (s.bssCapUpdateOnStaLeave i) := by
  simp only [Ap.bssCapUpdateOnStaLeave]
  refine .trans ?_ (clearIntolerant_onlyCaps _ i)
  iterate 5 refine .trans ?_ (clearCap_onlyCaps _ i _)
  exact clearCap_onlyCaps s i _

/-! ## The base invariant is kept -/

structure SameLists (s t : Ap) : Prop where
  staHash : t.priv.staHash = s.priv.staHash
  freeStaQueue : t.priv.freeStaQueue = s.priv.freeStaQueue
  asocList : t.priv.asocList = s.priv.asocList
  authList : t.priv.authList = s.priv.authList
  picked : t.picked = s.picked
  macAddr : ∀ k, (t.priv.sta k).macAddr = (s.priv.sta k).macAddr

theorem Base.same {s t : Ap} (hs : Base s) (h : SameLists s t) : Base t where
  nodup_hash := h.staHash ▸ hs.nodup_hash
  nodup_free := h.freeStaQueue ▸ hs.nodup_free
  hash_free := h.staHash ▸ h.freeStaQueue ▸ hs.hash_free
  nodup_asoc := h.asocList ▸ hs.nodup_asoc
  nodup_auth := h.authList ▸ hs.nodup_auth
  auth_hashed := h.authList ▸ h.staHash ▸ hs.auth_hashed
  nodup_picked := h.picked ▸ hs.nodup_picked
  picked_asoc := h.picked ▸ h.asocList ▸ hs.picked_asoc
  found k hk hhash := by
    rw [h.asocList, h.picked] at hk
    rw [h.staHash] at hhash
    rw [rtwGetStainfo_congr h.staHash h.macAddr, h.macAddr]
    exact hs.found k hk hhash

theorem OnlyCaps.sameLists {s t : Ap} (h : OnlyCaps s t) : SameLists s t := by
  refine ⟨?_, ?_, ?_, ?_, h.picked, ?_⟩
  · rw [h.priv]
  · rw [h.priv]
  · rw [h.priv]
  · rw [h.priv]
  · intro k
    rw [h.priv]

theorem setSta_sameLists {s : Ap} {i : ℕ} {q : Sta} (hq : q.macAddr = (s.priv.sta i).macAddr) :
    SameLists s (s.setSta i q) := ⟨rfl, rfl, rfl, rfl, rfl, setSta_macAddr hq⟩

theorem rtwAidAlloc_sameLists {s : Ap} {i : ℕ} {q : Sta}
    (hq : q.macAddr = (s.priv.sta i).macAddr) :
    SameLists s { s with
      priv := (rtwAidAlloc s.priv i q).1.setSta i (rtwAidAlloc s.priv i q).2 } := by
  have hmac : ∀ aid, ({ q with aid } : Sta).macAddr = (s.priv.sta i).macAddr := fun _ => hq
  by_cases hz : findAid s.priv s.priv.maxAid 0 0 = 0
  · simp only [rtwAidAlloc, if_pos hz]
    exact ⟨rfl, rfl, rfl, rfl, rfl, setSta_macAddr (hmac 0)⟩
  · simp only [rtwAidAlloc, if_neg hz]
    exact ⟨rfl, rfl, rfl, rfl, rfl, setSta_macAddr (s := s.priv) (hmac _)⟩

theorem Base.not_hashed {s : Ap} (hs : Base s) {i : ℕ} {free : List ℕ}
    (hfree : s.priv.freeStaQueue = i :: free) : i ∉ s.priv.staHash := by
  intro hi
  apply hs.hash_free i hi
  rw [hfree]
  exact List.mem_cons_self

theorem Base.alloc {s : Ap} (hs : Base s) {a : MacAddr} {p : StaPriv} {i : ℕ}
    (hp : rtwAllocStainfo s.priv a = some (p, i)) (hpicked : s.picked = []) :
    Base (s.allocated p i) := by
  obtain ⟨free, hfree, rfl⟩ := rtwAllocStainfo_eq hp
  have hnodup := hs.nodup_free
  rw [hfree, List.nodup_cons] at hnodup
  have hi : i ∉ s.priv.staHash := hs.not_hashed hfree
  have hauth : i ∉ s.priv.authList := fun h => hi (hs.auth_hashed i h)
  refine ⟨?_, hnodup.2, ?_, hs.nodup_asoc.erase i, hs.nodup_auth.erase i, ?_, hs.nodup_picked,
    ?_, ?_⟩
  · exact hs.nodup_hash.append (List.nodup_singleton i) (List.disjoint_singleton.mpr hi)
  · intro j hj hjfree
    simp only [Ap.allocated, List.mem_append, List.mem_singleton] at hj hjfree
    rcases hj with hj | rfl
    · apply hs.hash_free j hj
      rw [hfree]
      exact List.mem_cons_of_mem i hjfree
    · exact hnodup.1 hjfree
  · intro j hj
    exact List.mem_append_left _ (hs.auth_hashed j (List.mem_of_mem_erase hj))
  · intro j hj
    simp [Ap.allocated, hpicked] at hj
  · intro j hj hhash
    simp only [Ap.allocated, hpicked, List.not_mem_nil, or_false] at hj hhash ⊢
    have hji : j ≠ i := by
      rintro rfl
      exact hs.nodup_asoc.not_mem_erase hj
    have hold : j ∈ s.priv.staHash := by simpa [hji] using hhash
    rw [Function.update_of_ne hji]
    have hget := rtwGetStainfo_alloc (q := { macAddr := a }) hi
      (hs.found j (.inl (List.mem_of_mem_erase hj)) hold)
    exact hget

theorem Base.free {s : Ap} (hs : Base s) (ad : Adapter) {i : ℕ} (hi : i ∈ s.priv.staHash) :
    Base (s.freeSta ad i) where
  nodup_hash := hs.nodup_hash.erase i
  nodup_free := hs.nodup_free.append (List.nodup_singleton i)
    (List.disjoint_singleton.mpr (hs.hash_free i hi))
  hash_free j hj := by
    have hji : j ≠ i := fun h => hs.nodup_hash.not_mem_erase (h ▸ hj)
    have hold := hs.hash_free j (List.mem_of_mem_erase hj)
    simp [Ap.freeSta, rtwFreeStainfo, hold, hji]
  nodup_asoc := hs.nodup_asoc
  nodup_auth := hs.nodup_auth.erase i
  auth_hashed j hj := by
    have hji : j ≠ i := fun h => hs.nodup_auth.not_mem_erase (h ▸ hj)
    exact (List.mem_erase_of_ne hji).mpr (hs.auth_hashed j (List.mem_of_mem_erase hj))
  nodup_picked := hs.nodup_picked
  picked_asoc := hs.picked_asoc
  found j hj hhash := by
    have hji : j ≠ i := fun h => hs.nodup_hash.not_mem_erase (h ▸ hhash)
    simp only [Ap.freeSta, rtwFreeStainfo_macAddr]
    exact rtwGetStainfo_free (hs.found j hj (List.mem_of_mem_erase hhash)) hji

theorem Base.delAuth {s : Ap} (hs : Base s) (i : ℕ) : Base (s.delAuth i) where
  nodup_hash := hs.nodup_hash
  nodup_free := hs.nodup_free
  hash_free := hs.hash_free
  nodup_asoc := hs.nodup_asoc
  nodup_auth := hs.nodup_auth.erase i
  auth_hashed j hj := hs.auth_hashed j (List.mem_of_mem_erase hj)
  nodup_picked := hs.nodup_picked
  picked_asoc := hs.picked_asoc
  found := hs.found

theorem Base.addAuth {s : Ap} (hs : Base s) {i : ℕ} (hi : i ∈ s.priv.staHash)
    (hauth : i ∉ s.priv.authList) : Base (s.addAuth i) where
  nodup_hash := hs.nodup_hash
  nodup_free := hs.nodup_free
  hash_free := hs.hash_free
  nodup_asoc := hs.nodup_asoc
  nodup_auth := hs.nodup_auth.append (List.nodup_singleton i) (List.disjoint_singleton.mpr hauth)
  auth_hashed j hj := by
    rcases List.mem_append.mp hj with hj | hj
    · exact hs.auth_hashed j hj
    · rw [List.mem_singleton.mp hj]
      exact hi
  nodup_picked := hs.nodup_picked
  picked_asoc := hs.picked_asoc
  found := hs.found

theorem Base.delAsoc {s : Ap} (hs : Base s) (i : ℕ) : Base (s.delAsoc i) where
  nodup_hash := hs.nodup_hash
  nodup_free := hs.nodup_free
  hash_free := hs.hash_free
  nodup_asoc := hs.nodup_asoc.erase i
  nodup_auth := hs.nodup_auth
  auth_hashed := hs.auth_hashed
  nodup_picked := hs.nodup_picked
  picked_asoc j hj h := hs.picked_asoc j hj (List.mem_of_mem_erase h)
  found j hj := hs.found j (hj.imp_left List.mem_of_mem_erase)

theorem Base.addAsoc {s : Ap} (hs : Base s) {i : ℕ} (hasoc : i ∉ s.priv.asocList)
    (hget : rtwGetStainfo s.priv (s.priv.sta i).macAddr = some i) (hpicked : s.picked = []) :
    Base (s.addAsoc i) where
  nodup_hash := hs.nodup_hash
  nodup_free := hs.nodup_free
  hash_free := hs.hash_free
  nodup_asoc := hs.nodup_asoc.append (List.nodup_singleton i) (List.disjoint_singleton.mpr hasoc)
  nodup_auth := hs.nodup_auth
  auth_hashed := hs.auth_hashed
  nodup_picked := hs.nodup_picked
  picked_asoc j hj := by
    simp [Ap.addAsoc, hpicked] at hj
  found j hj hhash := by
    simp only [Ap.addAsoc, hpicked, List.mem_append, List.mem_singleton, List.not_mem_nil,
      or_false] at hj
    rcases hj with hj | rfl
    · exact hs.found j (.inl hj) hhash
    · exact hget

theorem Base.pick {s : Ap} (hs : Base s) {i : ℕ} (hi : i ∈ s.priv.asocList) :
    Base (s.pick i) where
  nodup_hash := hs.nodup_hash
  nodup_free := hs.nodup_free
  hash_free := hs.hash_free
  nodup_asoc := hs.nodup_asoc.erase i
  nodup_auth := hs.nodup_auth
  auth_hashed := hs.auth_hashed
  nodup_picked := hs.nodup_picked.append (List.nodup_singleton i)
    (List.disjoint_singleton.mpr fun h => hs.picked_asoc i h hi)
  picked_asoc j hj h := by
    rcases List.mem_append.mp hj with hj | hj
    · exact hs.picked_asoc j hj (List.mem_of_mem_erase h)
    · rw [List.mem_singleton.mp hj] at h
      exact hs.nodup_asoc.not_mem_erase h
  found j hj hhash := by
    apply hs.found j ?_ hhash
    simp only [Ap.pick, Ap.delAsoc, List.mem_append, List.mem_singleton] at hj
    rcases hj with hj | hj | rfl
    · exact .inl (List.mem_of_mem_erase hj)
    · exact .inr hj
    · exact .inl hi

theorem Base.unpick {s : Ap} (hs : Base s) (i : ℕ) :
    Base { s with picked := s.picked.erase i } where
  nodup_hash := hs.nodup_hash
  nodup_free := hs.nodup_free
  hash_free := hs.hash_free
  nodup_asoc := hs.nodup_asoc
  nodup_auth := hs.nodup_auth
  auth_hashed := hs.auth_hashed
  nodup_picked := hs.nodup_picked.erase i
  picked_asoc j hj := hs.picked_asoc j (List.mem_of_mem_erase hj)
  found j hj := hs.found j (hj.imp_right List.mem_of_mem_erase)

def Ap.unlinked (s : Ap) (i : ℕ) : Ap :=
  let t := (s.setSta i (unlinkSta (s.priv.sta i))).bssCapUpdateOnStaLeave i
  { t with picked := t.picked.erase i }

theorem apFreeSta_eq (e : ApAdapter) (enqueue : Bool) (s : Ap) (i : ℕ) :
    s.apFreeSta e enqueue i =
      if enqueue then { s.unlinked i with
        delEvents := (s.unlinked i).delEvents ++ [(s.priv.sta i).macAddr] }
      else (s.unlinked i).rtwStadelEventCallback e.ad (s.priv.sta i).macAddr := rfl

theorem unlinked_picked (s : Ap) (i : ℕ) : (s.unlinked i).picked = s.picked.erase i := by
  simp only [Ap.unlinked, (bssCapUpdateOnStaLeave_onlyCaps _ i).picked]
  rfl

theorem unlinked_priv (s : Ap) (i : ℕ) :
    (s.unlinked i).priv = s.priv.setSta i (unlinkSta (s.priv.sta i)) :=
  (bssCapUpdateOnStaLeave_onlyCaps (s.setSta i (unlinkSta (s.priv.sta i))) i).priv

theorem unlinked_sameLists (s : Ap) (i : ℕ) :
    SameLists { s with picked := s.picked.erase i } (s.unlinked i) := by
  refine ⟨?_, ?_, ?_, ?_, unlinked_picked s i, ?_⟩
  · rw [unlinked_priv]
    rfl
  · rw [unlinked_priv]
    rfl
  · rw [unlinked_priv]
    rfl
  · rw [unlinked_priv]
    rfl
  · intro k
    rw [unlinked_priv]
    exact setSta_macAddr (s := s.priv) (q := unlinkSta (s.priv.sta i)) rfl k

theorem Base.unlinked {s : Ap} (hs : Base s) (i : ℕ) : Base (s.unlinked i) :=
  (hs.unpick i).same (unlinked_sameLists s i)

theorem Base.stadel {s : Ap} (hs : Base s) (ad : Adapter) (macaddr : MacAddr) :
    Base (s.rtwStadelEventCallback ad macaddr) := by
  simp only [Ap.rtwStadelEventCallback]
  split
  · exact hs
  · rename_i i hi
    exact hs.free ad (rtwGetStainfo_mem hi)

theorem Base.leave {s : Ap} (hs : Base s) (e : ApAdapter) (enqueue : Bool) (i : ℕ) :
    Base (s.apFreeSta e enqueue i) := by
  rw [apFreeSta_eq]
  split_ifs
  · exact (hs.unlinked i).same ⟨rfl, rfl, rfl, rfl, rfl, fun _ => rfl⟩
  · exact (hs.unlinked i).stadel e.ad _

theorem Base.move {safe : Ap → Hazard → Prop} {s t : Ap} (hs : Base s) (h : Move safe s t) :
    Base t := by
  cases h with
  | record hmac haid => exact hs.same (setSta_sameLists hmac)
  | alloc hp hpicked => exact hs.alloc hp hpicked
  | free had hi hsafe hpicked => exact hs.free _ hi
  | expireAuth had hi hpicked => exact (hs.delAuth _).free _ (hs.auth_hashed _ hi)
  | refuse hmac haid hsafe => exact hs.same (setSta_sameLists hmac)
  | aid hi hzero hmac haid hpos => exact hs.same (rtwAidAlloc_sameLists hmac)
  | reauth hi hsafe => exact hs.delAsoc _
  | joinAuth hi hauth hasoc hpicked => exact hs.addAuth hi hauth
  | leaveAuth hi => exact hs.delAuth _
  | joinAsoc hi hauth hasoc haid hget hpicked => exact hs.addAsoc hasoc hget hpicked
  | joinCaps ht psta hi hasoc =>
    exact hs.same (bssCapUpdateOnStaJoin_onlyCaps _ ht _ psta).sameLists
  | pick hi => exact hs.pick hi
  | leave enqueue hi => exact hs.leave _ enqueue _
  | dequeue => exact hs.same ⟨rfl, rfl, rfl, rfl, rfl, fun _ => rfl⟩

theorem Base.moves {safe : Ap → Hazard → Prop} {s t : Ap} (hs : Base s) (h : Moves safe s t) :
    Base t := by
  induction h with
  | refl => exact hs
  | tail _ hmove ih => exact ih.move hmove

theorem Moves.invariant {safe : Ap → Hazard → Prop} {Q : Ap → Prop}
    (hmove : ∀ s t, Base s → Q s → Move safe s t → Q t) {s t : Ap} (hs : Base s) (hq : Q s)
    (h : Moves safe s t) : Q t := by
  induction h with
  | refl => exact hq
  | tail hprev hlast ih => exact hmove _ _ (hs.moves hprev) ih hlast

/-! ## Authentication frames -/

variable {safe : Ap → Hazard → Prop}

def authReady (ad : Adapter) (p : StaPriv) (i : ℕ) : StaPriv :=
  (joinAuthList p i).setSta i (startExpire ad ((joinAuthList p i).sta i))

def authFinish (ad : Adapter) (f : RecvFrame) (p : StaPriv) (i : ℕ) : StaPriv :=
  if reportedSae ad f then p.setSta i { p.sta i with authalg := authAlgorithm ad f }
  else match authTransaction ad (p.sta i) f with
  | .error _ => rtwFreeStainfo ad p i
  | .ok q => p.setSta i (nextAuthSeq q (authTransSeq ad f))

theorem onAuth_of_not_reached {ad : Adapter} {f : RecvFrame} (h : ¬ authReached ad f)
    (p : StaPriv) : (onAuth ad p f).priv = p := by
  by_cases hap : ad.pmlmeinfoState % 4 ≠ 3
  · rw [onAuth, if_pos hap]
  by_cases hasoc : ad.mlmeIsAsoc = false
  · rw [onAuth, if_neg hap, if_pos hasoc]
  rw [onAuth, if_neg hap, if_neg hasoc]
  cases hrej : rejectBeforeLookup ad f with
  | some status => rfl
  | none => exact absurd ⟨not_not.mp hap, eq_true_of_ne_false hasoc, hrej⟩ h

theorem onAuth_of_reached {ad : Adapter} {f : RecvFrame} (h : authReached ad f) (p : StaPriv) :
    (onAuth ad p f).priv = match authSta p (addr2 f) with
      | none => p
      | some (p, i) => authFinish ad f (authReady ad p i) i := by
  obtain ⟨hap, hasoc, hrej⟩ := h
  rw [onAuth, if_neg (not_not.mpr hap), if_neg (by rw [hasoc]; decide), hrej]
  cases authSta p (addr2 f) with
  | none => rfl
  | some r =>
    obtain ⟨p, i⟩ := r
    simp only [authFinish]
    split_ifs with hsae
    · rfl
    · change _ = match authTransaction ad ((authReady ad p i).sta i) f with
        | .error _ => rtwFreeStainfo ad (authReady ad p i) i
        | .ok q => (authReady ad p i).setSta i (nextAuthSeq q (authTransSeq ad f))
      cases htr : authTransaction ad ((authReady ad p i).sta i) f with
      | error status =>
        simp only [authReady] at htr ⊢
        rw [htr]
      | ok q =>
        simp only [authReady] at htr ⊢
        rw [htr]

theorem startExpire_ids (ad : Adapter) (sta : Sta) :
    (startExpire ad sta).macAddr = sta.macAddr ∧ (startExpire ad sta).aid = sta.aid := by
  simp only [startExpire]
  split_ifs <;> exact ⟨rfl, rfl⟩

theorem authTransaction_ids {ad : Adapter} {sta q : Sta} {f : RecvFrame}
    (h : authTransaction ad sta f = .ok q) : q.macAddr = sta.macAddr ∧ q.aid = sta.aid := by
  simp only [authTransaction] at h
  split_ifs at h
  · obtain rfl := Except.ok.inj h
    simp only [acceptOpen]
    split_ifs <;> exact ⟨rfl, rfl⟩
  · obtain rfl := Except.ok.inj h
    simp only [sendChallenge]
    split_ifs <;> exact ⟨rfl, rfl⟩
  · obtain rfl := Except.ok.inj h
    simp only [acceptAnswer]
    split_ifs <;> exact ⟨rfl, rfl⟩

theorem authReady_moves {s : Ap} (ad : Adapter) {i : ℕ} (hi : i ∈ s.priv.staHash)
    (hasoc : unguarded (s.priv.sta i) = true → i ∉ s.priv.asocList) (hpicked : s.picked = []) :
    Moves safe s { s with priv := authReady ad s.priv i } := by
  have hexp := startExpire_ids ad ((joinAuthList s.priv i).sta i)
  have hjoin : Moves safe s { s with priv := joinAuthList s.priv i } := by
    by_cases hauth : unguarded (s.priv.sta i) = true ∧ i ∉ s.priv.authList
    · rw [joinAuthList, if_pos hauth]
      exact .single (.joinAuth hi hauth.2 (hasoc hauth.1) hpicked)
    · rw [joinAuthList, if_neg hauth]
  refine hjoin.tail ?_
  exact Move.record hexp.1 hexp.2

theorem authFinish_moves {s : Ap} {ad : Adapter} (had : ad.pmlmeinfoState = 3) (f : RecvFrame)
    {i : ℕ} (hi : i ∈ s.priv.staHash) (hpicked : s.picked = [])
    (hfree : reportedSae ad f = false → (∃ status, authTransaction ad (s.priv.sta i) f =
      .error status) → safe s (.free i)) :
    Moves safe s { s with priv := authFinish ad f s.priv i } := by
  simp only [authFinish]
  by_cases hsae : reportedSae ad f = true
  · rw [if_pos hsae]
    exact .single (.record (q := { s.priv.sta i with authalg := authAlgorithm ad f }) rfl rfl)
  rw [if_neg hsae]
  cases htr : authTransaction ad (s.priv.sta i) f with
  | error status =>
    exact .single (.free had hi (hfree (eq_false_of_ne_true hsae) ⟨status, htr⟩) hpicked)
  | ok q =>
    have hids := authTransaction_ids htr
    exact .single (.record (q := nextAuthSeq q (authTransSeq ad f)) hids.1 hids.2)

theorem joinAuthList_lists (p : StaPriv) (i : ℕ) :
    (joinAuthList p i).staHash = p.staHash ∧ (joinAuthList p i).asocList = p.asocList
      ∧ (joinAuthList p i).sta = p.sta := by
  simp only [joinAuthList]
  split_ifs <;> exact ⟨rfl, rfl, rfl⟩

theorem authReady_sta (ad : Adapter) (p : StaPriv) (i : ℕ) :
    (authReady ad p i).sta i = startExpire ad (p.sta i) := by
  rw [authReady, StaPriv.setSta_self, (joinAuthList_lists p i).2.2]

theorem authRest_moves {s : Ap} {ad : Adapter} (had : ad.pmlmeinfoState = 3) (f : RecvFrame)
    {i : ℕ} (hi : i ∈ s.priv.staHash)
    (hasoc : unguarded (s.priv.sta i) = true → i ∉ s.priv.asocList) (hpicked : s.picked = [])
    (hfree : ∀ t : Ap, t.priv.asocList = s.priv.asocList → reportedSae ad f = false →
      ¬ InSequence ad (s.priv.sta i) f → safe t (.free i)) :
    Moves safe s { s with priv := authFinish ad f (authReady ad s.priv i) i } := by
  have hlists := joinAuthList_lists s.priv i
  refine (authReady_moves ad hi hasoc hpicked).trans (authFinish_moves had f ?_ hpicked ?_)
  · exact hlists.1 ▸ hi
  · intro hsae herr
    apply hfree _ hlists.2.1 hsae
    rw [← startExpire_inSequence, ← authTransaction_ok_iff]
    rintro ⟨q, hq⟩
    obtain ⟨status, hstatus⟩ := herr
    rw [authReady_sta, hq] at hstatus
    cases hstatus

def Reauthenticates (e : ApAdapter) (s : Ap) (f : RecvFrame) (i : ℕ) : Prop :=
  authReached e.ad f ∧ rtwGetStainfo s.priv (addr2 f) = some i
    ∧ unguarded (s.priv.sta i) = true ∧ i ∈ s.priv.asocList

def FailsGuarded (e : ApAdapter) (s : Ap) (f : RecvFrame) (i : ℕ) : Prop :=
  authReached e.ad f ∧ reportedSae e.ad f = false ∧ rtwGetStainfo s.priv (addr2 f) = some i
    ∧ unguarded (s.priv.sta i) = false ∧ i ∈ s.priv.asocList
    ∧ ¬ InSequence e.ad (s.priv.sta i) f

theorem apOnAuth_moves {e : ApAdapter} {s : Ap} {f : RecvFrame} (hs : Base s)
    (hpicked : s.picked = []) (hreauth : ∀ i, Reauthenticates e s f i → safe s (.reauth i))
    (hfree : ∀ t i, (i ∈ t.priv.asocList → FailsGuarded e s f i) → safe t (.free i)) :
    Moves safe s (apOnAuth e s f) := by
  by_cases hreached : authReached e.ad f
  swap
  · have hnone : authAllocated e.ad s.priv f = none := if_neg fun h => hreached h.1
    simp only [apOnAuth, hnone, onAuth_of_not_reached hreached]
    exact .refl
  cases hget : rtwGetStainfo s.priv (addr2 f) with
  | none =>
    have hauth : authAllocated e.ad s.priv f = s.priv.freeStaQueue.head? :=
      if_pos ⟨hreached, hget⟩
    simp only [apOnAuth, hauth, onAuth_of_reached hreached, authSta, hget]
    cases halloc : rtwAllocStainfo s.priv (addr2 f) with
    | none =>
      have hempty : s.priv.freeStaQueue = [] := by
        cases hq : s.priv.freeStaQueue with
        | nil => rfl
        | cons i free => simp [rtwAllocStainfo, hq] at halloc
      rw [hempty]
      exact .refl
    | some r =>
      obtain ⟨p, i⟩ := r
      obtain ⟨free, hq, hp⟩ := rtwAllocStainfo_eq halloc
      have hbase := hs.alloc halloc hpicked
      have hi : i ∈ p.staHash := by
        rw [hp]
        exact List.mem_append_right _ (List.mem_singleton_self i)
      have hasoc : i ∉ p.asocList := by
        rw [hp]
        exact hs.nodup_asoc.not_mem_erase
      rw [hq, List.head?_cons]
      simp only [Option.map_some]
      let t := (s.allocated p i).setSta i
        { p.sta i with state := { authNull := true }, authSeq := 0 }
      have hnew : Moves safe s t := by
        apply (Relation.ReflTransGen.single (.alloc halloc hpicked)).tail
        exact .record rfl rfl
      refine hnew.trans (authRest_moves (s := t) e.pmlmeinfoState f hi (fun _ => hasoc) hpicked ?_)
      intro u hu _ _
      apply hfree u i
      intro hiu
      rw [hu] at hiu
      exact absurd hiu hasoc
  | some i =>
    have hnone : authAllocated e.ad s.priv f = none :=
      if_neg fun h => by simp [hget] at h
    have hi := rtwGetStainfo_mem hget
    simp only [apOnAuth, hnone, onAuth_of_reached hreached, authSta, hget]
    by_cases hre : unguarded (s.priv.sta i) = true ∧ i ∈ s.priv.asocList
    · rw [if_pos hre]
      have hdel : Moves safe s (s.delAsoc i) :=
        .single (.reauth hre.2 (hreauth i ⟨hreached, hget, hre.1, hre.2⟩))
      have hasoc : i ∉ (s.delAsoc i).priv.asocList := hs.nodup_asoc.not_mem_erase
      refine hdel.trans (authRest_moves (s := s.delAsoc i) e.pmlmeinfoState f hi
        (fun _ => hasoc) hpicked ?_)
      intro u hu _ _
      apply hfree u i
      intro hiu
      rw [hu] at hiu
      exact absurd hiu hasoc
    · rw [if_neg hre]
      have hasoc : unguarded (s.priv.sta i) = true → i ∉ s.priv.asocList :=
        fun hun hin => hre ⟨hun, hin⟩
      apply authRest_moves e.pmlmeinfoState f hi hasoc hpicked
      intro u hu hsae hseq
      apply hfree u i
      intro hiu
      rw [hu] at hiu
      have hguard : unguarded (s.priv.sta i) = false :=
        eq_false_of_ne_true fun hun => hasoc hun hiu
      exact ⟨hreached, hsae, hget, hguard, hiu, hseq⟩

/-! ## Association requests -/

theorem onAssocReq_checked (ad : Adapter) (p : StaPriv) (f : RecvFrame) :
    (onAssocReq ad p f).priv = match assocChecked ad p f with
      | none => p
      | some (i, sta, status) =>
        if status ≠ .successful then p.setSta i { sta with aid := 0 }
        else if (assignAid p i sta).2.aid = 0 then
          (assignAid p i sta).1.setSta i { (assignAid p i sta).2 with aid := 0 }
        else (acceptAssoc ad (assignAid p i sta).1 i (assignAid p i sta).2 f).priv := by
  by_cases hap : ad.pmlmeinfoState % 4 ≠ 3
  · rw [onAssocReq, assocChecked, if_pos hap, if_pos (.inl hap)]
  by_cases hlen : f.len < wlanHdrA3Len + ieOffset f
  · rw [onAssocReq, assocChecked, if_neg hap, if_pos hlen, if_pos (.inr hlen)]
  rw [onAssocReq, assocChecked, if_neg hap, if_neg hlen, if_neg (not_or.mpr ⟨hap, hlen⟩)]
  cases rtwGetStainfo p (addr2 f) with
  | none => rfl
  | some i =>
    simp only
    by_cases hsae : (p.sta i).authalg = wlanAuthSae ∧ (p.sta i).state.authNull = true
    · rw [if_pos hsae, if_pos hsae]
    by_cases hclass : (p.sta i).state.authSuccess = false ∧ (p.sta i).state.assocSuccess = false
    · rw [if_neg hsae, if_neg hsae, if_pos hclass, if_pos hclass]
    rw [if_neg hsae, if_neg hsae, if_neg hclass, if_neg hclass]
    simp only
    split_ifs with hstatus hzero
    · rfl
    · rfl
    · rfl

def Refuses (e : ApAdapter) (s : Ap) (f : RecvFrame) (i : ℕ) : Prop :=
  f.len ≥ wlanHdrA3Len + ieOffset f ∧ rtwGetStainfo s.priv (addr2 f) = some i
    ∧ ¬ ((s.priv.sta i).authalg = wlanAuthSae ∧ (s.priv.sta i).state.authNull = true)
    ∧ ((s.priv.sta i).state.authSuccess = true ∨ (s.priv.sta i).state.assocSuccess = true)
    ∧ ¬ AssocReqAcceptable e.ad (s.priv.sta i) f (ieOffset f)

theorem assocChecked_eq {ad : Adapter} {p : StaPriv} {f : RecvFrame} {i : ℕ} {sta : Sta}
    {status : Status} (h : assocChecked ad p f = some (i, sta, status)) :
    f.len ≥ wlanHdrA3Len + ieOffset f ∧ rtwGetStainfo p (addr2 f) = some i
      ∧ ¬ ((p.sta i).authalg = wlanAuthSae ∧ (p.sta i).state.authNull = true)
      ∧ ((p.sta i).state.authSuccess = true ∨ (p.sta i).state.assocSuccess = true)
      ∧ checkAssocReq ad (enterAssocState (p.sta i)) f (ieOffset f) = (sta, status) := by
  simp only [assocChecked] at h
  split at h
  · cases h
  rename_i hearly
  split at h
  · cases h
  rename_i j hget
  split at h
  · cases h
  rename_i hsae
  split at h
  · cases h
  rename_i hclass
  obtain ⟨rfl, hcheck⟩ := Prod.mk.inj (Option.some.inj h)
  refine ⟨?_, hget, hsae, ?_, hcheck⟩
  · exact not_lt.mp fun hlen => hearly (.inr hlen)
  · by_contra hnone
    rw [not_or, Bool.not_eq_true, Bool.not_eq_true] at hnone
    exact hclass hnone

theorem assocChecked_ids {ad : Adapter} {p : StaPriv} {f : RecvFrame} {i : ℕ} {sta : Sta}
    {status : Status} (h : assocChecked ad p f = some (i, sta, status)) :
    sta.macAddr = (p.sta i).macAddr ∧ sta.aid = (p.sta i).aid := by
  have hcheck := (assocChecked_eq h).2.2.2.2
  have hkeeps := checkAssocReq_keeps ad (enterAssocState (p.sta i)) f (ieOffset f)
  have hfields := enterAssocState_fields (p.sta i)
  rw [hcheck] at hkeeps
  exact ⟨hkeeps.macAddr.trans hfields.1, hkeeps.aid.trans hfields.2.1⟩

theorem assocChecked_refuses {e : ApAdapter} {s : Ap} {f : RecvFrame} {i : ℕ} {sta : Sta}
    {status : Status} (h : assocChecked e.ad s.priv f = some (i, sta, status))
    (hstatus : status ≠ .successful) : Refuses e s f i := by
  obtain ⟨hlen, hget, hsae, hclass, hcheck⟩ := assocChecked_eq h
  refine ⟨hlen, hget, hsae, hclass, ?_⟩
  intro hok
  apply hstatus
  rw [← enterAssocState_acceptable, ← checkAssocReq_successful_iff, hcheck] at hok
  exact hok

theorem joinAsocList_fields (ad : Adapter) (p : StaPriv) (i : ℕ) (sta : Sta) :
    (joinAsocList ad p i sta).1.sta = p.sta ∧ (joinAsocList ad p i sta).1.staHash = p.staHash
      ∧ i ∈ (joinAsocList ad p i sta).1.asocList
      ∧ (joinAsocList ad p i sta).2.macAddr = sta.macAddr
      ∧ (joinAsocList ad p i sta).2.aid = sta.aid := by
  simp only [joinAsocList]
  by_cases hasoc : i ∈ p.asocList
  · rw [if_pos hasoc]
    exact ⟨rfl, rfl, hasoc, rfl, rfl⟩
  · rw [if_neg hasoc]
    exact ⟨rfl, rfl, List.mem_append_right _ (List.mem_singleton_self i), rfl, rfl⟩

theorem joinAsocList_moves {s : Ap} (hs : Base s) (ad : Adapter) {i : ℕ} (sta : Sta)
    (hi : i ∈ s.priv.staHash) (hget : rtwGetStainfo s.priv (s.priv.sta i).macAddr = some i)
    (haid : (s.priv.sta i).aid ≠ 0) (hpicked : s.picked = []) :
    Moves safe s { s with priv := (joinAsocList ad s.priv i sta).1 } := by
  let t : Ap := { s with priv := { s.priv with
    authList := s.priv.authList.erase i
    authListCnt := if i ∈ s.priv.authList then s.priv.authListCnt - 1 else s.priv.authListCnt } }
  have hleave : Moves safe s t := by
    by_cases hauth : i ∈ s.priv.authList
    · have ht : t = s.delAuth i := by
        simp only [t, if_pos hauth]
        rfl
      rw [ht]
      exact .single (.leaveAuth hauth)
    · have ht : t = s := by
        simp only [t, if_neg hauth, List.erase_of_not_mem hauth]
      rw [ht]
  have hauth : i ∉ t.priv.authList := hs.nodup_auth.not_mem_erase
  refine hleave.trans ?_
  simp only [joinAsocList]
  by_cases hasoc : i ∈ s.priv.asocList
  · rw [if_pos hasoc]
  · rw [if_neg hasoc]
    exact .single (Move.joinAsoc (s := t) hi hauth hasoc haid hget hpicked)

def accepted (sta : Sta) : Sta :=
  { sta with state := { sta.state with assocState := false, assocSuccess := true } }

theorem acceptAssoc_priv (ad : Adapter) (p : StaPriv) (i : ℕ) (sta : Sta) (f : RecvFrame) :
    (acceptAssoc ad p i sta f).priv =
      if unguarded sta then (joinAsocList ad p i (accepted sta)).1.setSta i
        { ad.staInfoUpdate (joinAsocList ad p i (accepted sta)).2 with assocReq := f.rxData }
      else p.setSta i { accepted sta with assocReq := f.rxData } := by
  have hun : unguarded (accepted sta) = unguarded sta := rfl
  by_cases h : unguarded sta = true
  · rw [if_pos h]
    exact congrArg Handled.priv (if_pos (hun.trans h))
  · rw [if_neg h]
    exact congrArg Handled.priv (if_neg fun h' => h (hun.symm.trans h'))

theorem acceptAssoc_moves {s : Ap} (hs : Base s) (e : ApAdapter) {i : ℕ} {sta : Sta}
    (f : RecvFrame) (hi : i ∈ s.priv.staHash)
    (hget : rtwGetStainfo s.priv (s.priv.sta i).macAddr = some i)
    (hmac : sta.macAddr = (s.priv.sta i).macAddr) (haid : sta.aid = (s.priv.sta i).aid)
    (hpos : sta.aid ≠ 0) (hpicked : s.picked = []) :
    Moves safe s { s with priv := (acceptAssoc e.ad s.priv i sta f).priv }
      ∧ (unguarded sta = true → i ∈ (acceptAssoc e.ad s.priv i sta f).priv.asocList) := by
  rw [acceptAssoc_priv]
  by_cases hun : unguarded sta = true
  · rw [if_pos hun]
    obtain ⟨hsta, -, hasoc, hjmac, hjaid⟩ := joinAsocList_fields e.ad s.priv i (accepted sta)
    have hjoin : Moves safe s { s with priv := (joinAsocList e.ad s.priv i (accepted sta)).1 } :=
      joinAsocList_moves hs e.ad (accepted sta) hi hget (haid ▸ hpos) hpicked
    refine ⟨hjoin.tail (.record ?_ ?_), fun _ => hasoc⟩
    · simp only [hsta, e.staInfoUpdate_macAddr, hjmac]
      exact hmac
    · simp only [hsta, e.staInfoUpdate_aid, hjaid]
      exact haid
  · rw [if_neg hun]
    refine ⟨.single (.record (q := { accepted sta with assocReq := f.rxData }) hmac haid), ?_⟩
    exact fun h => absurd h hun

theorem setSta_setSta (p : StaPriv) (i : ℕ) (r q : Sta) :
    (p.setSta i r).setSta i q = p.setSta i q := by
  simp only [StaPriv.setSta, Function.update_idem]

theorem joinAsocList_setSta (ad : Adapter) (p : StaPriv) (i : ℕ) (r sta : Sta) :
    joinAsocList ad (p.setSta i r) i sta =
      ((joinAsocList ad p i sta).1.setSta i r, (joinAsocList ad p i sta).2) := by
  simp only [joinAsocList]
  by_cases hasoc : i ∈ p.asocList
  · rw [if_pos hasoc, if_pos (show i ∈ (p.setSta i r).asocList from hasoc)]
    rfl
  · rw [if_neg hasoc, if_neg (show i ∉ (p.setSta i r).asocList from hasoc)]
    rfl

theorem acceptAssoc_setSta (ad : Adapter) (p : StaPriv) (i : ℕ) (r sta : Sta) (f : RecvFrame) :
    (acceptAssoc ad (p.setSta i r) i sta f).priv = (acceptAssoc ad p i sta f).priv := by
  simp only [acceptAssoc_priv, joinAsocList_setSta, setSta_setSta]

theorem acceptAssoc_staHash (ad : Adapter) (p : StaPriv) (i : ℕ) (sta : Sta) (f : RecvFrame) :
    (acceptAssoc ad p i sta f).priv.staHash = p.staHash := by
  rw [acceptAssoc_priv]
  split_ifs
  · exact (joinAsocList_fields ad p i (accepted sta)).2.1
  · rfl

def acceptJoin (e : ApAdapter) (s : Ap) (i : ℕ) (sta psta : Sta) (f : RecvFrame) : Ap :=
  let t := { s with priv := (acceptAssoc e.ad s.priv i sta f).priv }
  if unguarded psta then t.bssCapUpdateOnStaJoin e.htSupported i psta else t

theorem acceptJoin_moves {s : Ap} (hs : Base s) (e : ApAdapter) {i : ℕ} {sta psta : Sta}
    (f : RecvFrame) (hi : i ∈ s.priv.staHash)
    (hget : rtwGetStainfo s.priv (s.priv.sta i).macAddr = some i)
    (hmac : sta.macAddr = (s.priv.sta i).macAddr) (haid : sta.aid = (s.priv.sta i).aid)
    (hpos : sta.aid ≠ 0) (hpicked : s.picked = []) (hun : unguarded psta = unguarded sta) :
    Moves safe s (acceptJoin e s i sta psta f) := by
  obtain ⟨haccept, hasoc⟩ : Moves safe s _ ∧ _ :=
    acceptAssoc_moves hs e f hi hget hmac haid hpos hpicked
  simp only [acceptJoin]
  split_ifs with hp
  · refine haccept.tail (.joinCaps e.htSupported psta ?_ (hasoc (hun ▸ hp)))
    rw [acceptAssoc_staHash]
    exact hi
  · exact haccept

theorem apOnAssocReq_moves {e : ApAdapter} {s : Ap} {f : RecvFrame} (hs : Base s)
    (hpicked : s.picked = []) (hrefuse : ∀ i, Refuses e s f i → safe s (.refuse i)) :
    Moves safe s (apOnAssocReq e s f) := by
  simp only [apOnAssocReq, assocJoined, onAssocReq_checked]
  cases hc : assocChecked e.ad s.priv f with
  | none => exact .refl
  | some r =>
    obtain ⟨i, sta, status⟩ := r
    obtain ⟨hmac, haid⟩ := assocChecked_ids hc
    have hget := (assocChecked_eq hc).2.1
    have hself := rtwGetStainfo_macAddr hget
    have hi := rtwGetStainfo_mem hget
    by_cases hstatus : status = .successful
    swap
    · simp only [hstatus, ne_eq, not_false_eq_true, if_true, false_and, if_false]
      exact .single (.refuse (q := { sta with aid := 0 }) hmac rfl
        (hrefuse i (assocChecked_refuses hc hstatus)))
    simp only [hstatus, ne_eq, not_true_eq_false, if_false, true_and]
    by_cases hold : 0 < sta.aid
    · -- the AID of the last association
      have hassign : assignAid s.priv i sta = (s.priv, sta) := by rw [assignAid, if_pos hold]
      have hne : sta.aid ≠ 0 := by omega
      have hjoin : Moves safe s (acceptJoin e s i sta sta f) :=
        acceptJoin_moves hs e f hi hself hmac haid hne hpicked rfl
      simp only [hassign, hne, if_false, not_false_eq_true, true_and]
      rw [acceptJoin] at hjoin
      split_ifs at hjoin ⊢ with hun
      · exact hjoin
      · exact hjoin
    have hzero : sta.aid = 0 := by omega
    have hassign : assignAid s.priv i sta = rtwAidAlloc s.priv i sta := by
      rw [assignAid, if_neg hold]
    rw [hassign]
    by_cases hfail : (rtwAidAlloc s.priv i sta).2.aid = 0
    · have hfind : findAid s.priv s.priv.maxAid 0 0 = 0 := by
        by_contra hne
        simp only [rtwAidAlloc, if_neg hne] at hfail
        exact hne hfail
      have halloc : rtwAidAlloc s.priv i sta = (s.priv, { sta with aid := 0 }) := by
        rw [rtwAidAlloc, if_pos hfind]
      simp only [halloc, not_true_eq_false, false_and, if_false, if_true]
      exact .single (.record (q := { sta with aid := 0 }) hmac (hzero.symm.trans haid))
    · let t : Ap := { s with
        priv := (rtwAidAlloc s.priv i sta).1.setSta i (rtwAidAlloc s.priv i sta).2 }
      have hmove : Move safe s t := .aid hi (haid ▸ hzero) hmac hzero hfail
      have hsame := rtwAidAlloc_sameLists (s := s) (i := i) hmac
      have hsta : t.priv.sta i = (rtwAidAlloc s.priv i sta).2 := StaPriv.setSta_self _ i _
      have hun : unguarded sta = unguarded (rtwAidAlloc s.priv i sta).2 := by
        simp only [rtwAidAlloc]
        split_ifs <;> rfl
      have hself' : rtwGetStainfo t.priv (t.priv.sta i).macAddr = some i := by
        rw [rtwGetStainfo_congr hsame.staHash hsame.macAddr, hsame.macAddr]
        exact hself
      have hjoin : Moves safe t (acceptJoin e t i (rtwAidAlloc s.priv i sta).2 sta f) :=
        acceptJoin_moves (hs.move hmove) e f (hsame.staHash ▸ hi) hself' (by rw [hsta])
          (by rw [hsta]) hfail hpicked hun
      simp only [hfail, if_false, not_false_eq_true, true_and]
      refine .head hmove ?_
      rw [acceptJoin, acceptAssoc_setSta] at hjoin
      split_ifs at hjoin ⊢ with hp
      · exact hjoin
      · exact hjoin

theorem apOnAssocReq_picked (e : ApAdapter) (s : Ap) (f : RecvFrame) :
    (apOnAssocReq e s f).picked = s.picked := by
  simp only [apOnAssocReq]
  cases assocJoined e.ad s.priv f with
  | none => rfl
  | some r => exact (bssCapUpdateOnStaJoin_onlyCaps _ e.htSupported r.1 r.2).picked

theorem apOnAuth_picked (e : ApAdapter) (s : Ap) (f : RecvFrame) :
    (apOnAuth e s f).picked = s.picked := by
  simp only [apOnAuth]
  cases authAllocated e.ad s.priv f with
  | none => rfl
  | some i => rfl

/-! ## Leaving -/

theorem stadel_picked (ad : Adapter) (s : Ap) (macaddr : MacAddr) :
    (s.rtwStadelEventCallback ad macaddr).picked = s.picked := by
  simp only [Ap.rtwStadelEventCallback]
  split <;> rfl

theorem apFreeSta_picked (e : ApAdapter) (enqueue : Bool) (s : Ap) (i : ℕ) :
    (s.apFreeSta e enqueue i).picked = s.picked.erase i := by
  rw [apFreeSta_eq]
  split_ifs
  · exact unlinked_picked s i
  · rw [stadel_picked, unlinked_picked]

structure Ends (safe : Ap → Hazard → Prop) (s t : Ap) : Prop where
  moves : Moves safe s t
  picked : t.picked = []

theorem Ends.refl {s : Ap} (hpicked : s.picked = []) : Ends safe s s := ⟨.refl, hpicked⟩

theorem leaveAsocList_ends (e : ApAdapter) {s : Ap} (hpicked : s.picked = []) (psta : Option ℕ) :
    Ends safe s (s.leaveAsocList e psta) := by
  cases psta with
  | none => exact .refl hpicked
  | some i =>
    simp only [Ap.leaveAsocList]
    by_cases hi : i ∈ s.priv.asocList
    · rw [if_pos hi]
      have hmem : i ∈ (s.pick i).picked := List.mem_append_right _ (List.mem_singleton_self i)
      constructor
      · exact (Relation.ReflTransGen.single (.pick hi)).tail (.leave true hmem)
      · rw [apFreeSta_picked, Ap.pick, hpicked, List.nil_append, List.erase_cons_head]
    · rw [if_neg hi]
      exact .refl hpicked

theorem foldl_pick_moves {l : List ℕ} (hl : l.Nodup) {s : Ap}
    (hmem : ∀ i ∈ l, i ∈ s.priv.asocList) :
    Moves safe s (l.foldl Ap.pick s) ∧ (l.foldl Ap.pick s).picked = s.picked ++ l := by
  induction l generalizing s with
  | nil => exact ⟨.refl, (List.append_nil s.picked).symm⟩
  | cons i l ih =>
    obtain ⟨hi, hl⟩ := List.nodup_cons.mp hl
    have hrest : ∀ j ∈ l, j ∈ (s.pick i).priv.asocList := by
      intro j hj
      have hji : j ≠ i := fun h => hi (h ▸ hj)
      exact (List.mem_erase_of_ne hji).mpr (hmem j (List.mem_cons_of_mem i hj))
    obtain ⟨hmoves, hpicked⟩ := ih hl hrest
    rw [List.foldl_cons]
    refine ⟨.head (.pick (hmem i List.mem_cons_self)) hmoves, ?_⟩
    rw [hpicked, Ap.pick, List.append_assoc, List.singleton_append]

theorem foldl_leave_ends (e : ApAdapter) (enqueue : Bool) {l : List ℕ} {s : Ap}
    (hl : s.picked = l) : Ends safe s (l.foldl (Ap.apFreeSta e enqueue) s) := by
  induction l generalizing s with
  | nil => exact .refl hl
  | cons i l ih =>
    have hi : i ∈ s.picked := hl ▸ List.mem_cons_self
    have hnext : (s.apFreeSta e enqueue i).picked = l := by
      rw [apFreeSta_picked, hl, List.erase_cons_head]
    have hends := ih hnext
    rw [List.foldl_cons]
    exact ⟨.head (.leave enqueue hi) hends.moves, hends.picked⟩

theorem pickAll_ends (e : ApAdapter) (enqueue : Bool) {l : List ℕ} (hl : l.Nodup) {s : Ap}
    (hpicked : s.picked = []) (hmem : ∀ i ∈ l, i ∈ s.priv.asocList) :
    Ends safe s (l.foldl (Ap.apFreeSta e enqueue) (l.foldl Ap.pick s)) := by
  obtain ⟨hpick, hall⟩ : Moves safe s _ ∧ _ := foldl_pick_moves hl hmem
  rw [hpicked, List.nil_append] at hall
  have hleave : Ends safe _ _ := foldl_leave_ends e enqueue hall
  exact ⟨hpick.trans hleave.moves, hleave.picked⟩

theorem expireAuth_ends (e : ApAdapter) {s : Ap} {i : ℕ} (hi : i ∈ s.priv.authList)
    (hpicked : s.picked = []) : Ends safe s (expireAuth e s i) := by
  simp only [expireAuth]
  split_ifs
  · exact .refl hpicked
  · refine ⟨.head ?_ (.single (.expireAuth e.pmlmeinfoState hi hpicked)), hpicked⟩
    exact Move.record rfl rfl
  · exact ⟨.single (.record rfl rfl), hpicked⟩

theorem expireAuth_authList (e : ApAdapter) (s : Ap) {i j : ℕ} (hji : j ≠ i)
    (hj : j ∈ s.priv.authList) : j ∈ (expireAuth e s i).priv.authList := by
  simp only [expireAuth]
  split_ifs
  · exact hj
  · exact (List.mem_erase_of_ne hji).mpr ((List.mem_erase_of_ne hji).mpr hj)
  · exact hj

theorem foldl_expireAuth_ends (e : ApAdapter) {l : List ℕ} (hl : l.Nodup) {s : Ap}
    (hpicked : s.picked = []) (hmem : ∀ i ∈ l, i ∈ s.priv.authList) :
    Ends safe s (l.foldl (expireAuth e) s) := by
  induction l generalizing s with
  | nil => exact .refl hpicked
  | cons i l ih =>
    obtain ⟨hi, hl⟩ := List.nodup_cons.mp hl
    have hstep : Ends safe s _ := expireAuth_ends e (hmem i List.mem_cons_self) hpicked
    have hrest : ∀ j ∈ l, j ∈ (expireAuth e s i).priv.authList := by
      intro j hj
      have hji : j ≠ i := fun h => hi (h ▸ hj)
      exact expireAuth_authList e s hji (hmem j (List.mem_cons_of_mem i hj))
    have hends := ih hl hstep.picked hrest
    rw [List.foldl_cons]
    exact ⟨hstep.moves.trans hends.moves, hends.picked⟩

theorem foldl_expireAsoc_ends (keepAlive : ℕ → Option ℕ) (l : List ℕ) {s : Ap}
    (hpicked : s.picked = []) : Ends safe s (l.foldl (expireAsoc keepAlive) s) := by
  induction l generalizing s with
  | nil => exact .refl hpicked
  | cons i l ih =>
    have hstep : Move safe s (expireAsoc keepAlive s i) := .record rfl rfl
    have hends := @ih (expireAsoc keepAlive s i) hpicked
    rw [List.foldl_cons]
    exact ⟨.head hstep hends.moves, hends.picked⟩

theorem expireTimeoutChk_ends (e : ApAdapter) (keepAlive : ℕ → Option ℕ) {s : Ap} (hs : Base s)
    (hpicked : s.picked = []) : Ends safe s (expireTimeoutChk e keepAlive s) := by
  have hauth : Ends safe s _ :=
    foldl_expireAuth_ends e hs.nodup_auth hpicked fun i hi => hi
  have hexp : Ends safe _ _ := foldl_expireAsoc_ends keepAlive
    (s.priv.authList.foldl (expireAuth e) s).priv.asocList hauth.picked
  have hbase := hs.moves (hauth.moves.trans hexp.moves)
  have hdel : Ends safe _ _ := pickAll_ends e false
    (hbase.nodup_asoc.filter fun i => keepAlive i = none) hexp.picked
    fun i hi => List.mem_of_mem_filter hi
  exact ⟨(hauth.moves.trans hexp.moves).trans hdel.moves, hdel.picked⟩

/-! ## Events -/

/-- The oldest deletion event is for a station on `asoc_list`. -/
def DeletesAsoc (s : Ap) (i : ℕ) : Prop :=
  ∃ macaddr events, s.delEvents = macaddr :: events ∧ rtwGetStainfo s.priv macaddr = some i
    ∧ i ∈ s.priv.asocList

def Event.Meets (e : ApAdapter) (s : Ap) : Event → Hazard → Prop
  | .mgnt f, .reauth i => getFrameSubType f = wifiAuth ∧ Reauthenticates e s f i
  | .mgnt f, .free i => getFrameSubType f = wifiAuth ∧ FailsGuarded e s f i
  | .mgnt f, .refuse i =>
    (getFrameSubType f = wifiAssocreq ∨ getFrameSubType f = wifiReassocreq) ∧ Refuses e s f i
  | .stadel, .free i => DeletesAsoc s i
  | _, _ => False

theorem apOnMgntFrame_ends {e : ApAdapter} {s : Ap} {f : RecvFrame} (hs : Base s)
    (hpicked : s.picked = [])
    (hreauth : ∀ i, (Event.mgnt f).Meets e s (.reauth i) → safe s (.reauth i))
    (hrefuse : ∀ i, (Event.mgnt f).Meets e s (.refuse i) → safe s (.refuse i))
    (hfree : ∀ t i, (i ∈ t.priv.asocList → (Event.mgnt f).Meets e s (.free i)) →
      safe t (.free i)) : Ends safe s (apOnMgntFrame e s f) := by
  simp only [apOnMgntFrame]
  split_ifs with hauth hassoc hdeauth hdis
  · refine ⟨apOnAuth_moves hs hpicked ?_ ?_, (apOnAuth_picked e s f).trans hpicked⟩
    · exact fun i h => hreauth i ⟨hauth, h⟩
    · exact fun t i h => hfree t i fun hi => ⟨hauth, h hi⟩
  · refine ⟨apOnAssocReq_moves hs hpicked ?_, (apOnAssocReq_picked e s f).trans hpicked⟩
    exact fun i h => hrefuse i ⟨hassoc, h⟩
  · simp only [onDeAuth]
    split_ifs
    · exact .refl hpicked
    · exact leaveAsocList_ends e hpicked _
  · simp only [onDisassoc]
    split_ifs
    · exact .refl hpicked
    · exact leaveAsocList_ends e hpicked _
  · exact .refl hpicked

theorem Event.ends {e : ApAdapter} {s : Ap} (ev : Event) (hs : Base s) (hpicked : s.picked = [])
    (hreauth : ∀ i, ev.Meets e s (.reauth i) → safe s (.reauth i))
    (hrefuse : ∀ i, ev.Meets e s (.refuse i) → safe s (.refuse i))
    (hfree : ∀ t i, (i ∈ t.priv.asocList → ev.Meets e s (.free i)) → safe t (.free i)) :
    Ends safe s (ev.apply e s) := by
  cases ev with
  | mgnt f => exact apOnMgntFrame_ends hs hpicked hreauth hrefuse hfree
  | expireTimeoutChk keepAlive => exact expireTimeoutChk_ends e keepAlive hs hpicked
  | staTimeout macaddr => exact leaveAsocList_ends e hpicked _
  | delSta macaddr =>
    simp only [Event.apply, rtwDelSta]
    split_ifs
    · exact .refl hpicked
    · exact leaveAsocList_ends e hpicked _
  | delStation macaddr =>
    simp only [Event.apply, cfg80211RtwDelStation]
    split_ifs
    · exact .refl hpicked
    · exact leaveAsocList_ends e hpicked _
  | staFlush enqueue => exact pickAll_ends e enqueue hs.nodup_asoc hpicked fun i hi => hi
  | stadel =>
    simp only [Event.apply]
    split
    · exact .refl hpicked
    · rename_i macaddr events hevents
      have hdeq : Move safe s { s with delEvents := events } := .dequeue
      refine ⟨.head hdeq ?_, (stadel_picked e.ad _ macaddr).trans hpicked⟩
      simp only [Ap.rtwStadelEventCallback]
      cases hget : rtwGetStainfo s.priv macaddr with
      | none => exact .refl
      | some i =>
        have hsafe := hfree { s with delEvents := events } i fun hi =>
          ⟨macaddr, events, hevents, hget, hi⟩
        exact .single (Move.free (s := { s with delEvents := events }) e.pmlmeinfoState
          (rtwGetStainfo_mem hget) hsafe hpicked)
  | setKey macaddr =>
    simp only [Event.apply, setKeyInstalled]
    split
    · exact .refl hpicked
    · exact ⟨.single (.record rfl rfl), hpicked⟩
  | externalAuth macaddr =>
    simp only [Event.apply, rtwCfg80211ExternalAuthStatus]
    split
    · exact .refl hpicked
    · exact ⟨.single (.record rfl rfl), hpicked⟩

theorem startAp_base (maxNumSta : ℕ) : Base (startAp maxNumSta) where
  nodup_hash := List.nodup_singleton 0
  nodup_free := (List.nodup_range (n := 32)).tail
  hash_free i hi := by
    rw [List.mem_singleton.mp hi]
    have hfree : 0 ∉ (List.range 32).tail := by decide
    exact hfree
  nodup_asoc := List.nodup_nil
  nodup_auth := List.nodup_nil
  auth_hashed i hi := by cases hi
  nodup_picked := List.nodup_nil
  picked_asoc i hi := by cases hi
  found i hi := by
    rcases hi with hi | hi
    · cases hi
    · cases hi

end Rtl8189.ApBss
