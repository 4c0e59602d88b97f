import Rtl8189.ApMoves

/-!
# Association identifiers

An AID stands in the station and in `sta_aid`. Both agree in every run in which no
association request of a station with an AID is refused: `OnAssocReqFail` clears
the AID of the station and leaves its slot of the table behind.
-/
namespace Rtl8189.AidTable

open ApBss EventRun MlmeProtect StaInfo

open RecvFrame (addr2 getFrameSubType)

structure Assigned (p : StaPriv) : Prop where
  owner : ∀ k i, p.staAid k = some i → i ∈ p.staHash ∧ (p.sta i).aid = k + 1
  entry : ∀ i ∈ p.staHash, (p.sta i).aid ≠ 0 → p.staAid ((p.sta i).aid - 1) = some i
  bound : ∀ k i, p.staAid k = some i → k < p.maxNumSta
  asoc : ∀ i ∈ p.staHash, i ∈ p.asocList → (p.sta i).aid ≠ 0
  startedAid : p.startedAid = 1
  rrAid : p.rrAid = false
  maxNumSta : p.maxNumSta ≤ p.maxAid

/-- A request is refused only if the station has no AID. -/
def refusedWithout (s : Ap) : Hazard → Prop
  | .refuse i => (s.priv.sta i).aid = 0
  | _ => True

/-! ## The search -/

/-- The first slot from `i` on that is free, or none below `max_num_sta`. -/
theorem findAid_spec {p : StaPriv} (hstart : p.startedAid = 1) (hmax : p.maxNumSta ≤ p.maxAid)
    {fuel i : ℕ} (hfuel : fuel + i = p.maxAid) :
    (findAid p fuel i i = 0 → ∀ k, i ≤ k → k < p.maxNumSta → p.staAid k ≠ none) ∧
      (findAid p fuel i i ≠ 0 → p.staAid (findAid p fuel i i - 1) = none ∧
        findAid p fuel i i ≤ p.maxNumSta) := by
  induction fuel generalizing i with
  | zero =>
    refine ⟨fun _ k hik hk => ?_, fun h => absurd rfl h⟩
    omega
  | succ fuel ih =>
    have haid : (i + p.startedAid - 1) % p.maxAid + 1 = i + 1 := by
      rw [hstart, Nat.add_sub_cancel, Nat.mod_eq_of_lt (by omega)]
    simp only [findAid, haid, Nat.add_sub_cancel]
    split_ifs with hfree hlimit hlimit
    · exact ⟨fun _ k hik hk => by omega, fun h => absurd rfl h⟩
    · exact ⟨fun h => h.elim, fun _ => ⟨hfree, by omega⟩⟩
    · refine ⟨fun _ k hik hk => ?_, fun h => absurd rfl h⟩
      obtain rfl : k = i := by omega
      exact hfree
    · obtain ⟨hnone, hsome⟩ := @ih (i + 1) (by omega)
      refine ⟨fun h k hik hk => ?_, hsome⟩
      by_cases hki : k = i
      · rw [hki]
        exact hfree
      · exact hnone h k (by omega) hk

theorem rtwAidAlloc_eq {p : StaPriv} (hrr : p.rrAid = false) (i : ℕ) (q : Sta)
    (h : (rtwAidAlloc p i q).2.aid ≠ 0) :
    ∃ k, findAid p p.maxAid 0 0 = k + 1 ∧ rtwAidAlloc p i q =
      ({ p with staAid := Function.update p.staAid k (some i) }, { q with aid := k + 1 }) := by
  have hne : findAid p p.maxAid 0 0 ≠ 0 := by
    intro hz
    simp only [rtwAidAlloc, if_pos hz] at h
    exact h rfl
  obtain ⟨k, hk⟩ := Nat.exists_eq_succ_of_ne_zero hne
  refine ⟨k, hk, ?_⟩
  simp only [rtwAidAlloc, if_neg hne, hrr, Bool.false_eq_true, if_false]
  rw [hk]
  rfl

/-! ## Moves -/

variable {p : StaPriv}

theorem Assigned.same (hp : Assigned p) {t : StaPriv} (hhash : t.staHash = p.staHash)
    (haid : ∀ i, (t.sta i).aid = (p.sta i).aid) (htable : t.staAid = p.staAid)
    (hasoc : ∀ i ∈ t.asocList, i ∈ p.asocList)
    (hconst : t.startedAid = p.startedAid ∧ t.rrAid = p.rrAid ∧ t.maxNumSta = p.maxNumSta
      ∧ t.maxAid = p.maxAid) : Assigned t where
  owner k i h := by
    rw [hhash, haid]
    exact hp.owner k i (htable ▸ h)
  entry i hi h := by
    rw [haid] at h ⊢
    rw [htable]
    exact hp.entry i (hhash ▸ hi) h
  bound k i h := by
    rw [hconst.2.2.1]
    exact hp.bound k i (htable ▸ h)
  asoc i hi h := by
    rw [haid]
    exact hp.asoc i (hhash ▸ hi) (hasoc i h)
  startedAid := hconst.1.trans hp.startedAid
  rrAid := hconst.2.1.trans hp.rrAid
  maxNumSta := by
    rw [hconst.2.2.1, hconst.2.2.2]
    exact hp.maxNumSta

theorem setSta_aid {i : ℕ} {q : Sta} (h : q.aid = (p.sta i).aid) (k : ℕ) :
    ((p.setSta i q).sta k).aid = (p.sta k).aid := by
  by_cases hk : k = i
  · subst hk
    rw [StaPriv.setSta_self, h]
  · rw [StaPriv.setSta_of_ne p hk]

theorem Assigned.setSta (hp : Assigned p) {i : ℕ} {q : Sta} (h : q.aid = (p.sta i).aid) :
    Assigned (p.setSta i q) :=
  hp.same rfl (setSta_aid h) rfl (fun _ hk => hk) ⟨rfl, rfl, rfl, rfl⟩

theorem Assigned.alloc {s : Ap} (hb : Base s) (hs : Assigned s.priv) {a : MacAddr}
    {t : StaPriv} {i : ℕ} (ht : rtwAllocStainfo s.priv a = some (t, i)) : Assigned t := by
  obtain ⟨free, hfree, rfl⟩ := rtwAllocStainfo_eq ht
  have hi : i ∉ s.priv.staHash := hb.not_hashed hfree
  refine ⟨?_, ?_, hs.bound, ?_, hs.startedAid, hs.rrAid, hs.maxNumSta⟩
  · intro k j hj
    obtain ⟨hmem, haid⟩ := hs.owner k j hj
    have hji : j ≠ i := fun h => hi (h ▸ hmem)
    simp only [Function.update_of_ne hji]
    exact ⟨List.mem_append_left _ hmem, haid⟩
  · intro j hj hne
    by_cases hji : j = i
    · subst hji
      simp only [Function.update_self] at hne
      exact absurd rfl hne
    · simp only [Function.update_of_ne hji] at hne ⊢
      have hmem : j ∈ s.priv.staHash := by simpa [hji] using hj
      exact hs.entry j hmem hne
  · intro j hj hasoc
    have hji : j ≠ i := by
      rintro rfl
      exact hb.nodup_asoc.not_mem_erase hasoc
    have hmem : j ∈ s.priv.staHash := by simpa [hji] using hj
    simp only [Function.update_of_ne hji]
    exact hs.asoc j hmem (List.mem_of_mem_erase hasoc)

theorem Assigned.free (hp : Assigned p) (hnodup : p.staHash.Nodup) {ad : Adapter}
    (had : ad.pmlmeinfoState = 3) {i : ℕ} (hi : i ∈ p.staHash) :
    Assigned (rtwFreeStainfo ad p i) := by
  have hsta : ∀ j, j ≠ i → (rtwFreeStainfo ad p i).sta j = p.sta j := by
    intro j hj
    exact Function.update_of_ne hj _ _
  -- the slot of the station is cleared, and only that
  have htable : ∀ k j, (rtwFreeStainfo ad p i).staAid k = some j → p.staAid k = some j ∧ j ≠ i := by
    intro k j hj
    simp only [rtwFreeStainfo, had, true_and] at hj
    split_ifs at hj with hown
    · by_cases hk : k = (p.sta i).aid - 1
      · rw [hk, Function.update_self] at hj
        cases hj
      · rw [Function.update_of_ne hk] at hj
        refine ⟨hj, ?_⟩
        rintro rfl
        have haid := (hp.owner k j hj).2
        omega
    · refine ⟨hj, ?_⟩
      rintro rfl
      have haid := (hp.owner k j hj).2
      apply hown
      rw [haid]
      exact ⟨Nat.succ_pos k, hj⟩
  have hkeep : ∀ k j, p.staAid k = some j → j ≠ i → (rtwFreeStainfo ad p i).staAid k = some j := by
    intro k j hj hji
    simp only [rtwFreeStainfo]
    split_ifs with hown
    · rw [Function.update_of_ne, hj]
      rintro rfl
      rw [hown.2.2] at hj
      exact hji (Option.some.inj hj).symm
    · exact hj
  have hmem : ∀ j ∈ (rtwFreeStainfo ad p i).staHash, j ≠ i ∧ j ∈ p.staHash := by
    intro j hj
    exact ⟨fun h => hnodup.not_mem_erase (h ▸ hj), List.mem_of_mem_erase hj⟩
  refine ⟨?_, ?_, ?_, ?_, hp.startedAid, hp.rrAid, hp.maxNumSta⟩
  · intro k j hj
    obtain ⟨hold, hji⟩ := htable k j hj
    obtain ⟨hjmem, haid⟩ := hp.owner k j hold
    rw [hsta j hji]
    exact ⟨(List.mem_erase_of_ne hji).mpr hjmem, haid⟩
  · intro j hj hne
    obtain ⟨hji, hold⟩ := hmem j hj
    rw [hsta j hji] at hne ⊢
    exact hkeep _ j (hp.entry j hold hne) hji
  · intro k j hj
    exact hp.bound k j (htable k j hj).1
  · intro j hj hasoc
    obtain ⟨hji, hold⟩ := hmem j hj
    rw [hsta j hji]
    exact hp.asoc j hold hasoc

theorem Assigned.aid (hp : Assigned p) {i : ℕ} {q : Sta} (hi : i ∈ p.staHash)
    (hzero : (p.sta i).aid = 0) (hpos : (rtwAidAlloc p i q).2.aid ≠ 0) :
    Assigned ((rtwAidAlloc p i q).1.setSta i (rtwAidAlloc p i q).2) := by
  obtain ⟨k, hfind, halloc⟩ := rtwAidAlloc_eq hp.rrAid i q hpos
  have hspec := (findAid_spec hp.startedAid hp.maxNumSta (Nat.add_zero p.maxAid)).2
  rw [hfind, Nat.add_sub_cancel] at hspec
  obtain ⟨hnone, hbound⟩ := hspec (Nat.succ_ne_zero k)
  rw [halloc]
  have hother : ∀ l j, p.staAid l = some j → l ≠ k ∧ j ≠ i := by
    intro l j hj
    refine ⟨?_, ?_⟩
    · rintro rfl
      rw [hnone] at hj
      cases hj
    · rintro rfl
      have haid := (hp.owner l j hj).2
      omega
  refine ⟨?_, ?_, ?_, ?_, hp.startedAid, hp.rrAid, hp.maxNumSta⟩
  · intro l j hj
    by_cases hl : l = k
    · subst hl
      simp only [StaPriv.setSta, Function.update_self] at hj
      obtain rfl := Option.some.inj hj
      rw [StaPriv.setSta_self]
      exact ⟨hi, rfl⟩
    · simp only [StaPriv.setSta, Function.update_of_ne hl] at hj
      rw [StaPriv.setSta_of_ne _ (hother l j hj).2]
      exact hp.owner l j hj
  · intro j hj hne
    by_cases hji : j = i
    · subst hji
      simp only [StaPriv.setSta, Function.update_self, Nat.add_sub_cancel]
    · rw [StaPriv.setSta_of_ne _ hji] at hne ⊢
      have hold := hp.entry j hj hne
      simp only [StaPriv.setSta, Function.update_of_ne (hother _ j hold).1]
      exact hold
  · intro l j hj
    by_cases hl : l = k
    · subst hl
      exact hbound
    · simp only [StaPriv.setSta, Function.update_of_ne hl] at hj
      exact hp.bound l j hj
  · intro j hj hasoc
    by_cases hji : j = i
    · subst hji
      rw [StaPriv.setSta_self]
      exact Nat.succ_ne_zero k
    · rw [StaPriv.setSta_of_ne _ hji]
      exact hp.asoc j hj hasoc

theorem Assigned.unlinked {s : Ap} (hs : Assigned s.priv) (i : ℕ) :
    Assigned (s.unlinked i).priv := by
  rw [unlinked_priv]
  exact hs.setSta rfl

theorem Assigned.leave {s : Ap} (hb : Base s) (hs : Assigned s.priv) (e : ApAdapter)
    (enqueue : Bool) (i : ℕ) : Assigned (s.apFreeSta e enqueue i).priv := by
  rw [apFreeSta_eq]
  split_ifs
  · exact hs.unlinked i
  · simp only [Ap.rtwStadelEventCallback]
    split
    · exact hs.unlinked i
    · rename_i j hj
      exact (hs.unlinked i).free (hb.unlinked i).nodup_hash e.pmlmeinfoState
        (rtwGetStainfo_mem hj)

theorem Assigned.move {s t : Ap} (hb : Base s) (hs : Assigned s.priv)
    (h : Move refusedWithout s t) : Assigned t.priv := by
  cases h with
  | record hmac haid => exact hs.setSta haid
  | alloc hp hpicked => exact hs.alloc hb hp
  | free had hi hsafe hpicked => exact hs.free hb.nodup_hash had hi
  | @expireAuth ad i had hi hpicked =>
    have hdel : Assigned (s.delAuth i).priv :=
      hs.same rfl (fun _ => rfl) rfl (fun _ h => h) ⟨rfl, rfl, rfl, rfl⟩
    exact hdel.free hb.nodup_hash had (hb.auth_hashed _ hi)
  | refuse hmac haid hsafe => exact hs.setSta (haid.trans (Eq.symm hsafe))
  | aid hi hzero hmac haid hpos => exact hs.aid hi hzero hpos
  | reauth hi hsafe =>
    exact hs.same rfl (fun _ => rfl) rfl (fun _ => List.mem_of_mem_erase) ⟨rfl, rfl, rfl, rfl⟩
  | joinAuth hi hauth hasoc hpicked =>
    exact hs.same rfl (fun _ => rfl) rfl (fun _ h => h) ⟨rfl, rfl, rfl, rfl⟩
  | leaveAuth hi => exact hs.same rfl (fun _ => rfl) rfl (fun _ h => h) ⟨rfl, rfl, rfl, rfl⟩
  | joinAsoc hi hauth hasoc haid hget hpicked =>
    refine ⟨hs.owner, hs.entry, hs.bound, ?_, hs.startedAid, hs.rrAid, hs.maxNumSta⟩
    intro j hj hjasoc
    rcases List.mem_append.mp hjasoc with hjasoc | hjasoc
    · exact hs.asoc j hj hjasoc
    · rw [List.mem_singleton.mp hjasoc]
      exact haid
  | @joinCaps i ht psta hi hasoc =>
    rw [(bssCapUpdateOnStaJoin_onlyCaps s ht i psta).priv]
    exact hs
  | pick hi =>
    exact hs.same rfl (fun _ => rfl) rfl (fun _ => List.mem_of_mem_erase) ⟨rfl, rfl, rfl, rfl⟩
  | leave enqueue hi => exact hs.leave hb _ enqueue _
  | dequeue => exact hs

/-! ## Runs -/

structure Sound (p : StaPriv) : Prop where
  owner : ∀ k i, 0 < k → p.staAid (k - 1) = some i → i ∈ p.staHash ∧ (p.sta i).aid = k
  associated : ∀ i ∈ p.staHash, i ∈ p.asocList → (p.sta i).aid ≠ 0
  distinct : ∀ i ∈ p.staHash, ∀ j ∈ p.staHash, (p.sta i).aid ≠ 0 →
    (p.sta i).aid = (p.sta j).aid → i = j
  range : ∀ i ∈ p.staHash, (p.sta i).aid ≠ 0 → 1 ≤ (p.sta i).aid ∧ (p.sta i).aid ≤ p.maxNumSta
  free_found : ∀ i sta, (∃ k, 1 ≤ k ∧ k ≤ p.maxNumSta ∧ p.staAid (k - 1) = none) →
    1 ≤ (rtwAidAlloc p i sta).2.aid ∧ (rtwAidAlloc p i sta).2.aid ≤ p.maxNumSta
      ∧ p.staAid ((rtwAidAlloc p i sta).2.aid - 1) = none

theorem Assigned.sound (hp : Assigned p) : Sound p where
  owner k i hk h := by
    obtain ⟨hi, haid⟩ := hp.owner (k - 1) i h
    exact ⟨hi, by omega⟩
  associated := hp.asoc
  distinct i hi j hj hne hsame := by
    have hown := hp.entry i hi hne
    rw [hsame, hp.entry j hj (hsame ▸ hne)] at hown
    exact (Option.some.inj hown).symm
  range i hi hne := by
    have hlt := hp.bound _ i (hp.entry i hi hne)
    omega
  free_found i sta := by
    rintro ⟨k, hpos, hk, hfree⟩
    obtain ⟨hnone, hsome⟩ := findAid_spec hp.startedAid hp.maxNumSta (Nat.add_zero p.maxAid)
    have hne : findAid p p.maxAid 0 0 ≠ 0 :=
      fun hz => hnone hz (k - 1) (Nat.zero_le _) (by omega) hfree
    have haid : (rtwAidAlloc p i sta).2.aid = findAid p p.maxAid 0 0 := by
      simp only [rtwAidAlloc, if_neg hne]
    rw [haid]
    exact ⟨Nat.pos_of_ne_zero hne, (hsome hne).2, (hsome hne).1⟩

/-- The event refuses no association request of a station that has an AID. -/
def RefusesWithout (s : Ap) (ev : ApAdapter × Event) : Prop :=
  ∀ i, ev.2.Meets ev.1 s (.refuse i) → (s.priv.sta i).aid = 0

structure Kept (s : Ap) : Prop where
  base : Base s
  assigned : Assigned s.priv
  picked : s.picked = []

theorem startAp_kept {maxNumSta : ℕ} (h : maxNumSta ≤ 32) : Kept (startAp maxNumSta) where
  base := startAp_base maxNumSta
  assigned := by
    refine ⟨?_, ?_, ?_, ?_, rfl, rfl, h⟩
    · intro k i hk
      cases hk
    · intro i hi hne
      rw [List.mem_singleton.mp hi] at hne
      exact absurd rfl hne
    · intro k i hk
      cases hk
    · intro i _ hi
      cases hi
  picked := rfl

theorem step_kept (s : Ap) (ev : ApAdapter × Event) (hs : Kept s) (hev : RefusesWithout s ev) :
    Kept (step s ev) := by
  have hends : Ends refusedWithout s (step s ev) := by
    apply ev.2.ends hs.base hs.picked
    · exact fun _ _ => trivial
    · exact hev
    · exact fun _ _ _ => trivial
  refine ⟨hs.base.moves hends.moves, ?_, hends.picked⟩
  exact hends.moves.invariant (Q := fun t => Assigned t.priv) (fun _ _ hb ha hm => ha.move hb hm)
    hs.base hs.assigned

/-- The AID table is sound as long as no station that has an AID is refused. -/
theorem run_aids_sound {maxNumSta : ℕ} (hmax : maxNumSta ≤ 32) {es : List (ApAdapter × Event)}
    (hes : Along step RefusesWithout (startAp maxNumSta) es) :
    Sound (run step (startAp maxNumSta) es).priv :=
  (run_spec RefusesWithout Kept step_kept (startAp_kept hmax) hes).assigned.sound

def otherSsid : Event := .mgnt (mgntFrame 0x00 [0, 0, 0, 0, 0, 1, 0x62])

/-- A request is refused before the station has an AID, and another one accepted. -/
theorem run_aids_sound_refused :
    let es := [openAuth, otherSsid, openAuth, assocReq].map (wpa2ApMode, ·)
    Sound (run step (startAp 32) es).priv := by
  intro es
  apply run_aids_sound (by decide)
  have haid : ∀ s : Ap, (∀ i ∈ s.priv.staHash, (s.priv.sta i).aid = 0) →
      ∀ ev, RefusesWithout s (wpa2ApMode, .mgnt ev) := by
    intro s hs ev i hi
    exact hs i (rtwGetStainfo_mem hi.2.2.1)
  refine ⟨haid _ ?_ _, haid _ ?_ _, haid _ ?_ _, haid _ ?_ _, trivial⟩
  · decide +kernel
  · decide +kernel
  · decide +kernel
  · decide +kernel

/-- The station asks again, for another SSID. It stays on `asoc_list` with AID 0, and
after its deletion the slot of the table still points to it. -/
theorem refused_leaves_slot :
    let s := run step (startAp 32) ([openAuth, assocReq, otherSsid].map (wpa2ApMode, ·))
    let t := run step s ([deauth, .stadel].map (wpa2ApMode, ·))
    (s.priv.staAid 0 = some 1 ∧ (s.priv.sta 1).aid = 0 ∧ 1 ∈ s.priv.asocList) ∧
      t.priv.staAid 0 = some 1 ∧ 1 ∉ t.priv.staHash := by decide +kernel

end Rtl8189.AidTable
