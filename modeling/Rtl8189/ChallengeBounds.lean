import Rtl8189.AccessTrace
import Rtl8189.BufferWalk
import Rtl8189.SharedKey

/-!
# The challenge text in its buffers

A station copies the challenge of the second Authentication frame into `chg_txt`, and an access
point compares the answer in the third one with the text that it keeps. Both take the element
that `rtw_get_ie` finds in the rest of the frame.
-/
namespace Rtl8189.ChallengeBounds

open AccessTrace BufferWalk EventRun StaInfo MlmeProtect

open PacketNumber (AuthAlgrthm)

open RecvFrame (addr2)

def authIeOffset : ℕ := 6

def chlgetxtIe : ℕ := 16

/-- The size of `chg_txt` -/
def chgTxtLen : ℕ := 128

/-! ## The station -/

structure ClientAdapter where
  macAddr : MacAddr
  /-- The frame is reported for SAE, and there is no cached PMKSA. -/
  reportSae : Bool := false

structure MlmeExtInfo where
  authState : Bool := false
  assocState : Bool := false
  joinAbort : Bool := false
  authAlgo : AuthAlgrthm := .open
  authSeq : ℕ := 0
  authStatus : ℕ := 0
  chgTxt : List UInt8 := List.replicate chgTxtLen 0

def getDa (f : RecvFrame) : MacAddr :=
  Vector.ofFn fun i : Fin 6 =>
    f.view.getD ((if (byteAt f.view 1).testBit 0 then 16 else 4) + i) 0

def startClntAssoc (info : MlmeExtInfo) : MlmeExtInfo :=
  { info with authState := false, assocState := true }

def toggleAuthAlgo (info : MlmeExtInfo) : AuthAlgrthm :=
  if info.authAlgo = .shared then .open else .shared

def clientOffset (f : RecvFrame) : ℕ := if getPrivacy f then 4 else 0

def clientSeq (f : RecvFrame) : ℕ := le16 f.view (wlanHdrA3Len + clientOffset f + 2)

def clientStatus (f : RecvFrame) : ℕ := le16 f.view (wlanHdrA3Len + clientOffset f + 4)

def clientIes (f : RecvFrame) : List UInt8 := f.view.drop (wlanHdrA3Len + authIeOffset)

def Expected (ad : ClientAdapter) (info : MlmeExtInfo) (f : RecvFrame) : Prop :=
  ad.reportSae = false ∧ getDa f = ad.macAddr ∧ info.authState = true ∧ info.joinAbort = false

instance (ad : ClientAdapter) (info : MlmeExtInfo) (f : RecvFrame) :
    Decidable (Expected ad info f) := inferInstanceAs (Decidable (_ ∧ _))

/-- `OnAuthClient`, with the place and the length of what it copies into `chg_txt`. What is
longer than `chg_txt` runs into the fields behind it. -/
def onAuthClient (ad : ClientAdapter) (info : MlmeExtInfo) (f : RecvFrame) :
    MlmeExtInfo × Option (ℕ × ℕ) :=
  if ¬ Expected ad info f then (info, none)
  else if clientStatus f ≠ 0 then
    ({ info with
      authAlgo := if clientStatus f = 13 then toggleAuthAlgo info else info.authAlgo
      authStatus := clientStatus f }, none)
  else if clientSeq f = 2 then
    if info.authAlgo = .shared then
      match rtwGetIe (clientIes f) chlgetxtIe (f.len - wlanHdrA3Len - authIeOffset) with
      | none => (info, none)
      | some p =>
        let len := byteAt (clientIes f) (p + 1)
        ({ info with
          chgTxt := (((clientIes f).drop (p + 2)).take len ++ info.chgTxt.drop len).take chgTxtLen
          authSeq := 3 }, some (wlanHdrA3Len + authIeOffset + p + 2, len))
    else (startClntAssoc info, none)
  else if clientSeq f = 4 then
    if info.authAlgo = .shared then (startClntAssoc info, none) else (info, none)
  else (info, none)

/-! ## The access point -/

/-- The station of an Authentication frame, where `OnAuth` comes to the transaction. -/
def authStation (ad : Adapter) (s : StaPriv) (f : RecvFrame) : Option Sta :=
  if ad.pmlmeinfoState % 4 ≠ 3 then none
  else if ad.mlmeIsAsoc = false then none
  else match rejectBeforeLookup ad f with
  | some _ => none
  | none =>
    match authSta s (addr2 f) with
    | none => none
    | some (s, i) =>
      if reportedSae ad f then none else some (startExpire ad ((joinAuthList s i).sta i))

/-- Where the access point looks for elements, whether or not the frame is protected. -/
def apIes (ad : Adapter) (f : RecvFrame) : List UInt8 :=
  (authFrame ad f).1.drop (wlanHdrA3Len + 4 + authIeOffset)

def transactionCompares (ad : Adapter) (sta : Sta) (f : RecvFrame) : Option (ℕ × ℕ) :=
  if sta.authSeq + 1 ≠ authTransSeq ad f then none
  else if openSystem ad f then none
  else if authTransSeq ad f = 1 then none
  else if authTransSeq ad f = 3 then
    match rtwGetIe (apIes ad f) chlgetxtIe (f.len - wlanHdrA3Len - authIeOffset - 4) with
    | none => none
    | some p =>
      if byteAt (apIes ad f) (p + 1) = 0 then none
      else some (wlanHdrA3Len + 4 + authIeOffset + p + 2, chgTxtLen)
  else none

def onAuthCompares (ad : Adapter) (s : StaPriv) (f : RecvFrame) : Option (ℕ × ℕ) :=
  (authStation ad s f).bind fun sta => transactionCompares ad sta f

def Answering (ad : Adapter) (s : StaPriv) (f : RecvFrame) : Prop :=
  ∃ sta, authStation ad s f = some sta ∧ sta.authSeq + 1 = authTransSeq ad f ∧
    ¬ openSystem ad f ∧ authTransSeq ad f = 3

theorem challengeAnswered_compares {ad : Adapter} {sta : Sta} {f : RecvFrame}
    (hseq : sta.authSeq + 1 = authTransSeq ad f) (hopen : ¬ openSystem ad f)
    (hthree : authTransSeq ad f = 3) :
    challengeAnswered ad sta f = true ↔ ∃ start n, transactionCompares ad sta f = some (start, n) ∧
      ((authFrame ad f).1.drop start).take n = sta.chgTxt := by
  rw [transactionCompares, if_neg (not_not.mpr hseq), if_neg hopen, if_neg (by omega),
    if_pos hthree]
  unfold challengeAnswered
  change (match rtwGetIe (apIes ad f) chlgetxtIe (f.len - wlanHdrA3Len - authIeOffset - 4) with
    | none => false
    | some p => decide (byteAt (apIes ad f) (p + 1) ≠ 0 ∧
        ((apIes ad f).drop (p + 2)).take 128 = sta.chgTxt)) = true ↔ _
  cases rtwGetIe (apIes ad f) chlgetxtIe (f.len - wlanHdrA3Len - authIeOffset - 4) with
  | none => simp
  | some p =>
    dsimp only
    rw [decide_eq_true_iff]
    by_cases hlen : byteAt (apIes ad f) (p + 1) = 0
    · rw [if_pos hlen]
      exact iff_of_false (fun h => h.1 hlen) nofun
    · rw [if_neg hlen, apIes, List.drop_drop]
      constructor
      · rintro ⟨-, htxt⟩
        exact ⟨_, _, rfl, htxt⟩
      · rintro ⟨start, n, heq, htxt⟩
        cases heq
        exact ⟨hlen, htxt⟩

/-! ## Finding the element -/

def FirstChallenge (ies : List UInt8) (limit p : ℕ) : Prop :=
  Sized (fun q => byteAt ies (q + 1) + 2) (byteAt ies · = chlgetxtIe) 0 p ∧
    byteAt ies p = chlgetxtIe ∧ p < limit

theorem rtwGetIeFrom_iff {ies : List UInt8} {index limit fuel i p : ℕ} (hi : i < limit)
    (hfuel : limit ≤ i + fuel) :
    rtwGetIeFrom ies index limit fuel i = some p ↔
      Sized (fun q => byteAt ies (q + 1) + 2) (byteAt ies · = index) i p ∧
        byteAt ies p = index ∧ p < limit := by
  induction fuel generalizing i with
  | zero => omega
  | succ fuel ih =>
    rw [rtwGetIeFrom]
    by_cases hfound : byteAt ies i = index
    · rw [if_pos hfound, Option.some.injEq]
      constructor
      · rintro rfl
        exact ⟨.first, hfound, hi⟩
      · rintro ⟨hp, hid, -⟩
        exact Item.unique .first hfound hp hid
    · have hhead : Sized (fun q => byteAt ies (q + 1) + 2) (byteAt ies · = index) i p ↔
          p = i ∨ Sized (fun q => byteAt ies (q + 1) + 2) (byteAt ies · = index)
            (i + (byteAt ies (i + 1) + 2)) p :=
        Item.head_iff (byteAt ies · = index) hfound
      rw [if_neg hfound, hhead]
      have hne : byteAt ies p = index → p ≠ i := fun hid heq => hfound (heq ▸ hid)
      by_cases hend : limit ≤ i + (byteAt ies (i + 1) + 2)
      · rw [if_pos hend]
        refine iff_of_false nofun ?_
        rintro ⟨hp, hid, hlt⟩
        have hge := (hp.resolve_left (hne hid)).start_le
        omega
      · rw [if_neg hend, ih (by omega) (by omega)]
        refine and_congr_left fun ⟨hid, _⟩ => ?_
        rw [or_iff_right (hne hid)]

theorem rtwGetIe_iff {ies : List UInt8} {limit p : ℕ} :
    rtwGetIe ies chlgetxtIe limit = some p ↔ FirstChallenge ies limit p := by
  rw [rtwGetIe, FirstChallenge]
  by_cases hlimit : limit < 1
  · rw [if_pos hlimit]
    exact iff_of_false nofun fun h => absurd h.2.2 (by omega)
  · rw [if_neg hlimit]
    exact rtwGetIeFrom_iff (by omega) (by omega)

/-! ## Runs -/

/-- A frame, or whatever else changes the state that the next one meets. -/
inductive Event (α σ : Type*) where
  | auth (ad : α) (f : RecvFrame)
  | elsewhere (s : σ)

def clientStep (info : MlmeExtInfo) : Event ClientAdapter MlmeExtInfo → MlmeExtInfo
  | .auth ad f => (onAuthClient ad info f).1
  | .elsewhere info' => info'

def apStep (s : StaPriv) : Event Adapter StaPriv → StaPriv
  | .auth ad f => (onAuth ad s f).priv
  | .elsewhere s' => s'

/-- What is copied lies in the frame, and has room in `chg_txt`. -/
def Copied (f : RecvFrame) : Option (ℕ × ℕ) → Prop
  | none => True
  | some (start, len) =>
    len ≤ chgTxtLen ∧ (Op.bytes 0 len).Within chgTxtLen ∧ (Op.bytes start len).Within f.len

def Compared (f : RecvFrame) : Option (ℕ × ℕ) → Prop
  | none => True
  | some (start, n) => n = 128 ∧ (Op.bytes start n).Within f.len

instance (f : RecvFrame) : (c : Option (ℕ × ℕ)) → Decidable (Copied f c)
  | none => inferInstanceAs (Decidable True)
  | some _ => inferInstanceAs (Decidable (_ ∧ _))

instance (f : RecvFrame) : (c : Option (ℕ × ℕ)) → Decidable (Compared f c)
  | none => inferInstanceAs (Decidable True)
  | some _ => inferInstanceAs (Decidable (_ ∧ _))

def ClientSafe (info : MlmeExtInfo) : Event ClientAdapter MlmeExtInfo → Prop
  | .auth ad f => Copied f (onAuthClient ad info f).2
  | .elsewhere _ => True

def ApSafe (s : StaPriv) : Event Adapter StaPriv → Prop
  | .auth ad f => Compared f (onAuthCompares ad s f)
  | .elsewhere _ => True

instance (info : MlmeExtInfo) : (e : Event ClientAdapter MlmeExtInfo) →
    Decidable (ClientSafe info e)
  | .auth ad f => inferInstanceAs (Decidable (Copied f (onAuthClient ad info f).2))
  | .elsewhere _ => inferInstanceAs (Decidable True)

instance (s : StaPriv) : (e : Event Adapter StaPriv) → Decidable (ApSafe s e)
  | .auth ad f => inferInstanceAs (Decidable (Compared f (onAuthCompares ad s f)))
  | .elsewhere _ => inferInstanceAs (Decidable True)

def Challenged (ad : ClientAdapter) (info : MlmeExtInfo) (f : RecvFrame) : Prop :=
  Expected ad info f ∧ clientStatus f = 0 ∧ clientSeq f = 2 ∧ info.authAlgo = .shared

/-- The first challenge element, if it has any text, lies in the frame and has 128 bytes at
most. -/
def ClientFits (info : MlmeExtInfo) : Event ClientAdapter MlmeExtInfo → Prop
  | .auth ad f => Challenged ad info f →
    ∀ p, FirstChallenge (clientIes f) (f.len - wlanHdrA3Len - authIeOffset) p →
      0 < byteAt (clientIes f) (p + 1) → byteAt (clientIes f) (p + 1) ≤ 128 ∧
        30 + p + 2 + byteAt (clientIes f) (p + 1) ≤ f.len
  | .elsewhere _ => True

/-- The first challenge element, if it has any text, is 130 bytes from the end of the frame. -/
def ApFits (s : StaPriv) : Event Adapter StaPriv → Prop
  | .auth ad f => Answering ad s f →
    ∀ p, FirstChallenge (apIes ad f) (f.len - wlanHdrA3Len - authIeOffset - 4) p →
      0 < byteAt (apIes ad f) (p + 1) → 34 + p + 2 + 128 ≤ f.len
  | .elsewhere _ => True

theorem firstChallenge_unique {ies : List UInt8} {limit p q : ℕ}
    (hget : rtwGetIe ies chlgetxtIe limit = some p) (hq : FirstChallenge ies limit q) : q = p := by
  have hget' := rtwGetIe_iff.mpr hq
  rw [hget] at hget'
  exact (Option.some.inj hget').symm

theorem not_firstChallenge {ies : List UInt8} {limit p : ℕ}
    (hget : rtwGetIe ies chlgetxtIe limit = none) : ¬ FirstChallenge ies limit p := by
  intro hp
  have hget' := rtwGetIe_iff.mpr hp
  rw [hget] at hget'
  exact nomatch hget'

theorem onAuthClient_idle {ad : ClientAdapter} {info : MlmeExtInfo} {f : RecvFrame}
    (h : ¬ Challenged ad info f) : (onAuthClient ad info f).2 = none := by
  rw [onAuthClient]
  by_cases hexp : Expected ad info f
  · rw [if_neg (not_not.mpr hexp)]
    by_cases hstatus : clientStatus f = 0
    · rw [if_neg (not_not.mpr hstatus)]
      by_cases hseq : clientSeq f = 2
      · rw [if_pos hseq, if_neg fun hshared => h ⟨hexp, hstatus, hseq, hshared⟩]
      · rw [if_neg hseq]
        split_ifs <;> rfl
    · rw [if_pos hstatus]
  · rw [if_pos hexp]

theorem onAuthClient_copies {ad : ClientAdapter} {info : MlmeExtInfo} {f : RecvFrame} :
    Copied f (onAuthClient ad info f).2 ↔ (Challenged ad info f →
      ∀ p, FirstChallenge (clientIes f) (f.len - wlanHdrA3Len - authIeOffset) p →
        0 < byteAt (clientIes f) (p + 1) → byteAt (clientIes f) (p + 1) ≤ 128 ∧
          30 + p + 2 + byteAt (clientIes f) (p + 1) ≤ f.len) := by
  by_cases hch : Challenged ad info f
  · have ⟨hexp, hstatus, hseq, hshared⟩ := hch
    rw [onAuthClient, if_neg (not_not.mpr hexp), if_neg (not_not.mpr hstatus), if_pos hseq,
      if_pos hshared]
    cases hget : rtwGetIe (clientIes f) chlgetxtIe (f.len - wlanHdrA3Len - authIeOffset) with
    | none => exact iff_of_true trivial fun _ p hp => absurd hp (not_firstChallenge hget)
    | some p =>
      have hstart : wlanHdrA3Len + authIeOffset + p + 2 = 30 + p + 2 := rfl
      dsimp only [Copied]
      rw [hstart]
      constructor
      · rintro ⟨hlen, -, hin⟩ - q hq hpos
        obtain rfl := firstChallenge_unique hget hq
        exact ⟨hlen, (bytes_within_iff _ hpos).mp hin⟩
      · intro h
        by_cases hpos : 0 < byteAt (clientIes f) (p + 1)
        · obtain ⟨hlen, hin⟩ := h hch p (rtwGetIe_iff.mp hget) hpos
          exact ⟨hlen, bytes_within 0 ((Nat.zero_add _).le.trans hlen), bytes_within _ hin⟩
        · exact ⟨by omega, fun hpos' => absurd hpos' hpos, fun hpos' => absurd hpos' hpos⟩
  · refine iff_of_true ?_ fun h => absurd h hch
    rw [onAuthClient_idle hch]
    trivial

theorem onAuthCompares_idle {ad : Adapter} {s : StaPriv} {f : RecvFrame}
    (h : ¬ Answering ad s f) : onAuthCompares ad s f = none := by
  rw [onAuthCompares]
  cases hsta : authStation ad s f with
  | none => rfl
  | some sta =>
    change transactionCompares ad sta f = none
    rw [transactionCompares]
    by_cases hseq : sta.authSeq + 1 = authTransSeq ad f
    · rw [if_neg (not_not.mpr hseq)]
      by_cases hopen : openSystem ad f
      · rw [if_pos hopen]
      · rw [if_neg hopen]
        by_cases hone : authTransSeq ad f = 1
        · rw [if_pos hone]
        · rw [if_neg hone, if_neg fun hthree => h ⟨sta, hsta, hseq, hopen, hthree⟩]
    · rw [if_pos hseq]

theorem onAuth_compares {ad : Adapter} {s : StaPriv} {f : RecvFrame} :
    Compared f (onAuthCompares ad s f) ↔ (Answering ad s f →
      ∀ p, FirstChallenge (apIes ad f) (f.len - wlanHdrA3Len - authIeOffset - 4) p →
        0 < byteAt (apIes ad f) (p + 1) → 34 + p + 2 + 128 ≤ f.len) := by
  by_cases hans : Answering ad s f
  · have ⟨sta, hsta, hseq, hopen, hthree⟩ := hans
    have hone : authTransSeq ad f ≠ 1 := by omega
    rw [onAuthCompares, hsta, Option.bind_some, transactionCompares, if_neg (not_not.mpr hseq),
      if_neg hopen, if_neg hone, if_pos hthree]
    cases hget : rtwGetIe (apIes ad f) chlgetxtIe (f.len - wlanHdrA3Len - authIeOffset - 4) with
    | none => exact iff_of_true trivial fun _ p hp => absurd hp (not_firstChallenge hget)
    | some p =>
      dsimp only
      by_cases hlen : byteAt (apIes ad f) (p + 1) = 0
      · rw [if_pos hlen]
        refine iff_of_true trivial fun _ q hq hpos => ?_
        obtain rfl := firstChallenge_unique hget hq
        omega
      · have hstart : wlanHdrA3Len + 4 + authIeOffset + p + 2 = 34 + p + 2 := rfl
        have hin : (Op.bytes (34 + p + 2 : ℕ) 128).Within f.len ↔ 34 + p + 2 + 128 ≤ f.len :=
          bytes_within_iff _ (by decide)
        rw [if_neg hlen, hstart]
        constructor
        · rintro ⟨-, hcmp⟩ - q hq -
          obtain rfl := firstChallenge_unique hget hq
          exact hin.mp hcmp
        · intro h
          exact ⟨rfl, hin.mpr (h hans p (rtwGetIe_iff.mp hget) (by omega))⟩
  · refine iff_of_true ?_ fun h => absurd h hans
    rw [onAuthCompares_idle hans]
    trivial

/-- Along every run the copies and the comparisons stay in their buffers if and only if every
challenge that is taken from a frame fits. -/
theorem challenges_inside (info : MlmeExtInfo) (es : List (Event ClientAdapter MlmeExtInfo))
    (s : StaPriv) (fs : List (Event Adapter StaPriv)) :
    (Along clientStep ClientSafe info es ↔ Along clientStep ClientFits info es) ∧
      (Along apStep ApSafe s fs ↔ Along apStep ApFits s fs) := by
  have hclient : ∀ info e, ClientSafe info e ↔ ClientFits info e := by
    intro info e
    cases e with
    | auth ad f => exact onAuthClient_copies
    | elsewhere _ => exact Iff.rfl
  have hap : ∀ s e, ApSafe s e ↔ ApFits s e := by
    intro s e
    cases e with
    | auth ad f => exact onAuth_compares
    | elsewhere _ => exact Iff.rfl
  refine ⟨⟨?_, ?_⟩, ⟨?_, ?_⟩⟩
  · exact Along.imp fun info e => (hclient info e).mp
  · exact Along.imp fun info e => (hclient info e).mpr
  · exact Along.imp fun s e => (hap s e).mp
  · exact Along.imp fun s e => (hap s e).mpr

def longChallenge : RecvFrame :=
  mgntFrame 0xb0 ([1, 0, 2, 0, 0, 0] ++ [16, 200] ++ List.replicate 200 1)

def shortAnswer : RecvFrame := mgntFrame 0xb0 ([1, 0, 3, 0, 0, 0] ++ [0, 0, 0, 0] ++ [16, 1, 78])

theorem challenge_overruns :
    ¬ Along clientStep ClientSafe { authState := true, authAlgo := .shared }
        [.auth { macAddr := Vector.replicate 6 6 } longChallenge] ∧
      ¬ Along apStep ApSafe (SharedKey.startSession 32).priv
        [.auth SharedKey.sharedAp (mgntFrame 0xb0 [1, 0, 1, 0, 0, 0]),
          .auth SharedKey.sharedAp shortAnswer] := by
  decide +kernel

end Rtl8189.ChallengeBounds
