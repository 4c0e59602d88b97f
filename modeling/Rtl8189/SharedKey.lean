import Rtl8189.ApMoves

/-!
# Shared key authentication

The access point sends a challenge text and accepts a third frame that contains it.
`OnAuth` takes the third frame whether or not it is protected, and compares 128 bytes
whatever the length of the challenge element is.
-/
namespace Rtl8189.SharedKey

open ApBss EventRun MlmeProtect StaInfo

open RecvFrame (addr2)

/-- An Authentication frame at an access point with `dot11AuthAlgrthm_Shared`. -/
structure Attempt where
  ad : Adapter
  shared : ad.dot11AuthAlgrthm = .shared
  f : RecvFrame
  /-- `issue_auth` is not blocked and has a frame to send. -/
  tx : Bool := true

/-- The stations, and the challenge that was sent last to each address. -/
structure Session where
  priv : StaPriv
  challenge : MacAddr → Option (List UInt8) := fun _ => none

def issueAuth (psta : Sta) : Option (List UInt8) :=
  if psta.authSeq = 2 ∧ psta.state.authState ∧ psta.authalg ≠ 0 then some psta.chgTxt else none

/-- `auth_seq` is cleared only after the answer is built. -/
def sentChallenge (s : StaPriv) (a : Attempt) : Option (MacAddr × List UInt8) :=
  let h := onAuth a.ad s a.f
  match rtwGetStainfo h.priv (addr2 a.f) with
  | none => none
  | some i =>
    if a.tx ∧ h.issued = [.auth (addr2 a.f) .successful] then
      let psta := { h.priv.sta i with authSeq := authTransSeq a.ad a.f + 1 }
      (issueAuth psta).map fun chgTxt => (psta.macAddr, chgTxt)
    else none

def step (s : Session) (a : Attempt) : Session where
  priv := (onAuth a.ad s.priv a.f).priv
  challenge :=
    match sentChallenge s.priv a with
    | none => s.challenge
    | some (da, chgTxt) => Function.update s.challenge da (some chgTxt)

def startSession (maxNumSta : ℕ) : Session where
  priv := (startAp maxNumSta).priv

def challengeElement (ad : Adapter) (f : RecvFrame) : Option (ℕ × List UInt8) :=
  let ies := (authFrame ad f).1.drop (wlanHdrA3Len + 4 + 6)
  (rtwGetIe ies 16 (f.len - wlanHdrA3Len - 6 - 4)).map fun p =>
    (byteAt ies (p + 1), (ies.drop (p + 2)).take 128)

def Authenticated (s : StaPriv) (i : ℕ) : Prop :=
  i ∈ s.staHash ∧ (s.sta i).state.authSuccess = true

instance (s : StaPriv) (i : ℕ) : Decidable (Authenticated s i) :=
  inferInstanceAs (Decidable (_ ∧ _))

def Reaches (s t : StaPriv) (i : ℕ) : Prop := ¬ Authenticated s i ∧ Authenticated t i

/-- The frame is the third one and was protected, and the decrypted frame has exactly
the challenge that was sent last to the station. -/
structure AnswersChallenge (s : Session) (a : Attempt) (i : ℕ) : Prop where
  station : rtwGetStainfo s.priv (addr2 a.f) = some i
  transSeq : authTransSeq a.ad a.f = 3
  privacy : getPrivacy a.f = true
  carried : ∃ chgTxt, challengeElement a.ad a.f = some (128, chgTxt) ∧
    s.challenge (s.priv.sta i).macAddr = some chgTxt

/-! ## What `OnAuth` accepts -/

/-- A third frame that is expected from the station, with the right bytes. -/
structure Answers (s : StaPriv) (a : Attempt) (i : ℕ) : Prop where
  reached : authReached a.ad a.f
  station : rtwGetStainfo s (addr2 a.f) = some i
  expected : (s.sta i).authSeq = 2
  transSeq : authTransSeq a.ad a.f = 3
  answered : challengeAnswered a.ad (s.sta i) a.f = true

theorem Answers.expects {s : StaPriv} {a : Attempt} {i : ℕ} (h : Answers s a i) :
    (s.sta i).authSeq ≠ 0 := by
  rw [h.expected]
  decide

/-- It is protected, its challenge element has 128 bytes, and a challenge was sent. -/
structure Genuine (s : Session) (a : Attempt) (i : ℕ) : Prop where
  privacy : getPrivacy a.f = true
  length : (challengeElement a.ad a.f).map Prod.fst = some 128
  sent : s.challenge (s.priv.sta i).macAddr ≠ none

structure Waiting (sta : Sta) : Prop where
  mfp : sta.flags.mfp = false
  assocSuccess : sta.state.assocSuccess = false
  expects : sta.authSeq ≠ 0 →
    sta.authSeq = 2 ∧ sta.state.authSuccess = false ∧ sta.state.authState = true
  chgTxt : sta.state.authState = true → sta.chgTxt = List.replicate 128 78

/-- The records agree in what the transaction depends on. -/
structure SameAuth (sta q : Sta) : Prop where
  mfp : q.flags.mfp = sta.flags.mfp
  state : q.state = { sta.state with linked := q.state.linked }
  authSeq : q.authSeq = sta.authSeq
  chgTxt : q.chgTxt = sta.chgTxt

theorem SameAuth.refl (sta : Sta) : SameAuth sta sta := ⟨rfl, rfl, rfl, rfl⟩

theorem Waiting.same {sta q : Sta} (hw : Waiting sta) (h : SameAuth sta q) : Waiting q where
  mfp := h.mfp.trans hw.mfp
  assocSuccess := by
    rw [h.state]
    exact hw.assocSuccess
  expects := by
    rw [h.authSeq, h.state]
    exact hw.expects
  chgTxt := by
    rw [h.chgTxt, h.state]
    exact hw.chgTxt

theorem startExpire_sameAuth (ad : Adapter) (sta : Sta) : SameAuth sta (startExpire ad sta) := by
  simp only [startExpire]
  split_ifs <;> exact ⟨rfl, rfl, rfl, rfl⟩

theorem rtwFreeStainfo_sameAuth (ad : Adapter) (s : StaPriv) (i k : ℕ) :
    SameAuth (s.sta k) ((rtwFreeStainfo ad s i).sta k) := by
  simp only [rtwFreeStainfo]
  by_cases hk : k = i
  · subst hk
    rw [Function.update_self]
    split_ifs <;> exact ⟨rfl, rfl, rfl, rfl⟩
  · rw [Function.update_of_ne hk]
    exact .refl _

theorem Waiting.unguarded {sta : Sta} (hw : Waiting sta) : unguarded sta = true := by
  simp [MlmeProtect.unguarded, hw.mfp]

theorem challengeAnswered_iff (ad : Adapter) (sta : Sta) (f : RecvFrame) :
    challengeAnswered ad sta f = true ↔
      ∃ n, n ≠ 0 ∧ challengeElement ad f = some (n, sta.chgTxt) := by
  unfold challengeAnswered challengeElement
  dsimp only
  generalize (authFrame ad f).1.drop (wlanHdrA3Len + 4 + 6) = ies
  cases rtwGetIe ies 16 (f.len - wlanHdrA3Len - 6 - 4) with
  | none => simp
  | some p =>
    simp only [decide_eq_true_eq, Option.map_some, Option.some.injEq, Prod.mk.injEq]
    constructor
    · rintro ⟨hn, htxt⟩
      exact ⟨_, hn, rfl, htxt⟩
    · rintro ⟨n, hn, rfl, htxt⟩
      exact ⟨hn, htxt⟩

theorem challengeAnswered_congr {sta q : Sta} (h : q.chgTxt = sta.chgTxt) (ad : Adapter)
    (f : RecvFrame) : challengeAnswered ad q f = challengeAnswered ad sta f := by
  rw [Bool.eq_iff_iff, challengeAnswered_iff, challengeAnswered_iff, h]

variable {a : Attempt}

theorem authMode_shared (a : Attempt) (algorithm : ℕ) : authMode a.ad algorithm = .shared := by
  simp [authMode, a.shared]

theorem shared_only (a : Attempt) :
    ¬ openSystem a.ad a.f ∧ reportedSae a.ad a.f = false := by
  refine ⟨?_, ?_⟩
  · rintro ⟨-, hmode⟩
    rw [authMode_shared] at hmode
    simp at hmode
  · simp [reportedSae, authMode_shared]

theorem authTransaction_shared {ad : Adapter} {f : RecvFrame} (hopen : ¬ openSystem ad f)
    {sta q : Sta} (h : authTransaction ad sta f = .ok q) :
    (authTransSeq ad f = 1 ∧ sta.authSeq = 0 ∧ q = sendChallenge sta (authAlgorithm ad f)) ∨
      (authTransSeq ad f = 3 ∧ sta.authSeq = 2 ∧ challengeAnswered ad sta f = true
        ∧ q = acceptAnswer ad sta) := by
  simp only [authTransaction, if_neg hopen] at h
  split_ifs at h with hseq hone hthree hans
  · refine .inl ⟨hone, by omega, (Except.ok.inj h).symm⟩
  · exact .inr ⟨hthree, by omega, hans, (Except.ok.inj h).symm⟩

theorem sendChallenge_waiting {sta : Sta} (hw : Waiting sta) (algorithm : ℕ) :
    Waiting (nextAuthSeq (sendChallenge sta algorithm) 1) ∧
      (nextAuthSeq (sendChallenge sta algorithm) 1).state.authSuccess =
        sta.state.authSuccess := by
  have hun : unguarded { sta with chgTxt := List.replicate 128 78 } = true := hw.unguarded
  simp only [nextAuthSeq, sendChallenge, hun, if_true]
  refine ⟨⟨hw.mfp, hw.assocSuccess, ?_, fun _ => rfl⟩, trivial⟩
  intro hseq
  simp only [hw.assocSuccess, Bool.false_eq_true, or_false] at hseq ⊢
  split_ifs at hseq ⊢ with hauth
  · exact absurd rfl hseq
  · exact ⟨rfl, eq_false_of_ne_true hauth, trivial⟩

theorem acceptAnswer_waiting {sta : Sta} (hw : Waiting sta) (ad : Adapter) (seq : ℕ) :
    Waiting (nextAuthSeq (acceptAnswer ad sta) seq) ∧
      (nextAuthSeq (acceptAnswer ad sta) seq).state.authSuccess = true := by
  simp only [nextAuthSeq, acceptAnswer, hw.unguarded, if_true]
  refine ⟨⟨hw.mfp, hw.assocSuccess, ?_, ?_⟩, trivial⟩
  · intro hseq
    simp at hseq
  · intro hstate
    cases hstate

/-! ## One frame -/

theorem authSta_spec {s p : StaPriv} {sa : MacAddr} {i : ℕ} (h : authSta s sa = some (p, i)) :
    (rtwGetStainfo s sa = some i ∧ p.sta = s.sta ∧ p.staHash = s.staHash) ∨
      (p.sta = Function.update s.sta i { macAddr := sa, state := { authNull := true } } ∧
        p.staHash = s.staHash ++ [i]) := by
  simp only [authSta] at h
  cases hget : rtwGetStainfo s sa with
  | none =>
    rw [hget] at h
    obtain ⟨⟨t, k⟩, halloc, hpair⟩ := Option.map_eq_some_iff.mp h
    obtain ⟨rfl, rfl⟩ := Prod.mk.inj hpair
    obtain ⟨free, -, rfl⟩ := rtwAllocStainfo_eq halloc
    refine .inr ⟨?_, rfl⟩
    simp only [StaPriv.setSta, Function.update_self, Function.update_idem]
  | some k =>
    rw [hget] at h
    dsimp only at h
    split_ifs at h
    · obtain ⟨rfl, rfl⟩ := Prod.mk.inj (Option.some.inj h)
      exact .inl ⟨rfl, rfl, rfl⟩
    · obtain ⟨rfl, rfl⟩ := Prod.mk.inj (Option.some.inj h)
      exact .inl ⟨rfl, rfl, rfl⟩

theorem authReady_sameAuth (ad : Adapter) (p : StaPriv) (i j : ℕ) :
    SameAuth (p.sta j) ((authReady ad p i).sta j) := by
  have hsta := (joinAuthList_lists p i).2.2
  simp only [authReady, hsta]
  by_cases hj : j = i
  · rw [hj, StaPriv.setSta_self]
    exact startExpire_sameAuth ad (p.sta i)
  · rw [StaPriv.setSta_of_ne _ hj, hsta]
    exact .refl _

theorem authReady_staHash (ad : Adapter) (p : StaPriv) (i : ℕ) :
    (authReady ad p i).staHash = p.staHash := (joinAuthList_lists p i).1

theorem authSta_waiting {s p : StaPriv} {sa : MacAddr} {i : ℕ}
    (hs : ∀ j ∈ s.staHash, Waiting (s.sta j)) (h : authSta s sa = some (p, i)) :
    i ∈ p.staHash ∧ ∀ j ∈ p.staHash, Waiting (p.sta j) ∧
      ((p.sta j).state.authSuccess = true → Authenticated s j) := by
  rcases authSta_spec h with ⟨hget, hsta, hhash⟩ | ⟨hsta, hhash⟩
  · rw [hsta, hhash]
    exact ⟨rtwGetStainfo_mem hget, fun j hj => ⟨hs j hj, fun hauth => ⟨hj, hauth⟩⟩⟩
  · rw [hsta, hhash]
    refine ⟨List.mem_append_right _ (List.mem_singleton_self i), ?_⟩
    intro j hj
    by_cases hji : j = i
    · subst hji
      rw [Function.update_self]
      exact ⟨⟨rfl, rfl, fun h => absurd rfl h, fun h => nomatch h⟩, fun h => nomatch h⟩
    · have hold : j ∈ s.staHash := by simpa [hji] using hj
      rw [Function.update_of_ne hji]
      exact ⟨hs j hold, fun hauth => ⟨hold, hauth⟩⟩

/-- Stations stay as they are between frames, and only an answer authenticates one. -/
theorem onAuth_waiting {s : StaPriv} (hs : ∀ j ∈ s.staHash, Waiting (s.sta j)) (a : Attempt) :
    ∀ j ∈ (onAuth a.ad s a.f).priv.staHash, Waiting ((onAuth a.ad s a.f).priv.sta j) ∧
      (((onAuth a.ad s a.f).priv.sta j).state.authSuccess = true →
        Authenticated s j ∨ Answers s a j) := by
  by_cases hreached : authReached a.ad a.f
  swap
  · rw [onAuth_of_not_reached hreached]
    exact fun j hj => ⟨hs j hj, fun hauth => .inl ⟨hj, hauth⟩⟩
  obtain ⟨hopen, hsae⟩ := shared_only a
  rw [onAuth_of_reached hreached]
  cases hsta : authSta s (addr2 a.f) with
  | none => exact fun j hj => ⟨hs j hj, fun hauth => .inl ⟨hj, hauth⟩⟩
  | some r =>
    obtain ⟨p, i⟩ := r
    obtain ⟨hi, hp⟩ := authSta_waiting hs hsta
    have hready : ∀ j ∈ p.staHash, Waiting ((authReady a.ad p i).sta j) ∧
        (((authReady a.ad p i).sta j).state.authSuccess = true → Authenticated s j) := by
      intro j hj
      have hsame := authReady_sameAuth a.ad p i j
      refine ⟨(hp j hj).1.same hsame, ?_⟩
      rw [hsame.state]
      exact (hp j hj).2
    dsimp only
    rw [authFinish, if_neg (by rw [hsae]; exact Bool.false_ne_true)]
    cases htr : authTransaction a.ad ((authReady a.ad p i).sta i) a.f with
    | error status =>
      intro j hj
      have hmem : j ∈ p.staHash := authReady_staHash a.ad p i ▸ List.mem_of_mem_erase hj
      have hsame := rtwFreeStainfo_sameAuth a.ad (authReady a.ad p i) i j
      refine ⟨(hready j hmem).1.same hsame, ?_⟩
      rw [hsame.state]
      exact fun hauth => .inl ((hready j hmem).2 hauth)
    | ok q =>
      intro j hj
      have hmem : j ∈ p.staHash := authReady_staHash a.ad p i ▸ hj
      by_cases hji : j = i
      swap
      · rw [StaPriv.setSta_of_ne _ hji]
        exact ⟨(hready j hmem).1, fun hauth => .inl ((hready j hmem).2 hauth)⟩
      subst hji
      rw [StaPriv.setSta_self]
      rcases authTransaction_shared hopen htr with ⟨hseq, -, rfl⟩ | ⟨hseq, hexp, hans, rfl⟩
      · rw [hseq]
        obtain ⟨hw, hauth⟩ := sendChallenge_waiting (hready j hmem).1 (authAlgorithm a.ad a.f)
        rw [hauth]
        exact ⟨hw, fun h => .inl ((hready j hmem).2 h)⟩
      · obtain ⟨hw, -⟩ := acceptAnswer_waiting (hready j hmem).1 a.ad (authTransSeq a.ad a.f)
        refine ⟨hw, fun _ => .inr ?_⟩
        have hsame := authReady_sameAuth a.ad p j j
        rw [hsame.authSeq] at hexp
        rw [challengeAnswered_congr hsame.chgTxt] at hans
        rcases authSta_spec hsta with ⟨hget, hold, -⟩ | ⟨hnew, -⟩
        · rw [hold] at hexp hans
          exact ⟨hreached, hget, hexp, hseq, hans⟩
        · rw [hnew, Function.update_self] at hexp
          cases hexp

theorem Answers.authenticates {s : StaPriv} {i : ℕ} (h : Answers s a i)
    (hs : ∀ j ∈ s.staHash, Waiting (s.sta j)) :
    Authenticated (onAuth a.ad s a.f).priv i := by
  obtain ⟨hopen, hsae⟩ := shared_only a
  have hmem := rtwGetStainfo_mem h.station
  obtain ⟨p, hsta, hsame⟩ : ∃ p, authSta s (addr2 a.f) = some (p, i) ∧
      p.sta = s.sta ∧ p.staHash = s.staHash := by
    simp only [authSta, h.station]
    split_ifs
    · exact ⟨_, rfl, rfl, rfl⟩
    · exact ⟨_, rfl, rfl, rfl⟩
  have hready := authReady_sameAuth a.ad p i i
  rw [hsame.1] at hready
  have htr : authTransaction a.ad ((authReady a.ad p i).sta i) a.f =
      .ok (acceptAnswer a.ad ((authReady a.ad p i).sta i)) := by
    have hans := (challengeAnswered_congr hready.chgTxt a.ad a.f).trans h.answered
    simp only [authTransaction, hready.authSeq, h.expected, h.transSeq, if_neg hopen, hans]
    rfl
  rw [onAuth_of_reached h.reached, hsta]
  dsimp only
  rw [authFinish, if_neg (by rw [hsae]; exact Bool.false_ne_true), htr]
  dsimp only
  refine ⟨?_, ?_⟩
  · have hhash := (authReady_staHash a.ad p i).trans hsame.2
    exact hhash ▸ hmem
  · rw [StaPriv.setSta_self]
    exact (acceptAnswer_waiting ((hs i hmem).same hready) a.ad (authTransSeq a.ad a.f)).2

/-! ## Runs -/

structure Kept (s : Session) : Prop where
  waiting : ∀ i ∈ s.priv.staHash, Waiting (s.priv.sta i)
  challenge : ∀ da chgTxt, s.challenge da = some chgTxt → chgTxt = List.replicate 128 78

theorem startSession_kept (maxNumSta : ℕ) : Kept (startSession maxNumSta) where
  waiting i hi := by
    rw [List.mem_singleton.mp hi]
    exact ⟨rfl, rfl, fun h => absurd rfl h, fun h => nomatch h⟩
  challenge da chgTxt h := nomatch h

theorem sentChallenge_eq {s : StaPriv} (hs : ∀ j ∈ s.staHash, Waiting (s.sta j)) {a : Attempt}
    {da : MacAddr} {chgTxt : List UInt8} (h : sentChallenge s a = some (da, chgTxt)) :
    chgTxt = List.replicate 128 78 := by
  simp only [sentChallenge] at h
  cases hget : rtwGetStainfo (onAuth a.ad s a.f).priv (addr2 a.f) with
  | none =>
    rw [hget] at h
    cases h
  | some i =>
    rw [hget] at h
    dsimp only at h
    have hw := (onAuth_waiting hs a i (rtwGetStainfo_mem hget)).1
    split_ifs at h with hsent
    obtain ⟨text, hissue, hpair⟩ := Option.map_eq_some_iff.mp h
    simp only [issueAuth] at hissue
    split_ifs at hissue with hstate
    rw [← (Prod.mk.inj hpair).2, ← Option.some.inj hissue]
    exact hw.chgTxt hstate.2.1

theorem step_kept (s : Session) (a : Attempt) (hs : Kept s) : Kept (step s a) where
  waiting i hi := (onAuth_waiting hs.waiting a i hi).1
  challenge da chgTxt h := by
    simp only [step] at h
    cases hsent : sentChallenge s.priv a with
    | none =>
      rw [hsent] at h
      exact hs.challenge da chgTxt h
    | some r =>
      rw [hsent] at h
      dsimp only at h
      by_cases hda : da = r.1
      · rw [hda, Function.update_self] at h
        rw [← Option.some.inj h]
        exact sentChallenge_eq hs.waiting hsent
      · rw [Function.update_of_ne hda] at h
        exact hs.challenge da chgTxt h

theorem Kept.reaches_iff {s : Session} (hs : Kept s) (a : Attempt) (i : ℕ) :
    Reaches s.priv (step s a).priv i ↔ Answers s.priv a i := by
  constructor
  · rintro ⟨hnot, hmem, hauth⟩
    exact ((onAuth_waiting hs.waiting a i hmem).2 hauth).resolve_left hnot
  · intro h
    refine ⟨?_, h.authenticates hs.waiting⟩
    rintro ⟨hmem, hauth⟩
    rw [((hs.waiting i hmem).expects h.expects).2.1] at hauth
    cases hauth

theorem Kept.answersChallenge_iff {s : Session} (hs : Kept s) {i : ℕ} (h : Answers s.priv a i) :
    AnswersChallenge s a i ↔ Genuine s a i := by
  obtain ⟨n, -, helem⟩ := (challengeAnswered_iff a.ad (s.priv.sta i) a.f).mp h.answered
  constructor
  · rintro ⟨-, -, hprivacy, chgTxt, hcarried, hsent⟩
    refine ⟨hprivacy, ?_, ?_⟩
    · rw [hcarried]
      rfl
    · rw [hsent]
      exact Option.some_ne_none chgTxt
  · rintro ⟨hprivacy, hlength, hsent⟩
    refine ⟨h.station, h.transSeq, hprivacy, (s.priv.sta i).chgTxt, ?_, ?_⟩
    · rw [helem] at hlength ⊢
      rw [← Option.some.inj hlength]
    · obtain ⟨chgTxt, hchg⟩ := Option.ne_none_iff_exists'.mp hsent
      have hw := hs.waiting i (rtwGetStainfo_mem h.station)
      rw [hchg, hs.challenge _ _ hchg, hw.chgTxt (hw.expects h.expects).2.2]

/-- Over any sequence of frames, stations are authenticated by an answer to their
challenge if and only if every accepted answer is protected, has a challenge element of
128 bytes, and comes after a challenge that went out. -/
theorem run_reaches_iff (maxNumSta : ℕ) (es : List Attempt) (a : Attempt) :
    let s := run step (startSession maxNumSta) es
    (∀ i, Reaches s.priv (step s a).priv i → AnswersChallenge s a i) ↔
      ∀ i, Answers s.priv a i → Genuine s a i := by
  intro s
  have hs : Kept s := run_invariant Kept step_kept (startSession_kept maxNumSta) es
  apply forall_congr'
  intro i
  rw [hs.reaches_iff a i]
  constructor
  · exact fun h hans => (hs.answersChallenge_iff hans).mp (h hans)
  · exact fun h hans => (hs.answersChallenge_iff hans).mpr (h hans)

def sharedAp : Adapter := { wpa2Ap with
  dot11AuthAlgrthm := .shared
  dot11PrivacyAlgrthm := .wep40 }

/-- The second frame of a station that has no key is not protected. It has four bytes
before the challenge element, where a protected one has its IV. -/
theorem unprotected_reaches :
    let first : Attempt :=
      { ad := sharedAp, shared := rfl, f := mgntFrame 0xb0 [1, 0, 1, 0, 0, 0] }
    let third : Attempt :=
      { ad := sharedAp, shared := rfl,
        f := mgntFrame 0xb0 ([1, 0, 3, 0, 0, 0] ++ [0, 0, 0, 0] ++ [16, 128] ++
          List.replicate 128 78) }
    let s := step (startSession 32) first
    Reaches s.priv (step s third).priv 1 ∧ ¬ AnswersChallenge s third 1 := by
  intro first third s
  refine ⟨⟨?_, ?_⟩, ?_⟩
  · decide +kernel
  · decide +kernel
  · intro h
    have hprivacy : getPrivacy third.f = false := by decide +kernel
    rw [h.privacy] at hprivacy
    cases hprivacy

end Rtl8189.SharedKey
