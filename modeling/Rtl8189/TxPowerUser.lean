import Mathlib.Data.Int.Basic
import Rtl8189.TxPowerAgc

/-!
# The transmit power that the user sets

The setting of the user is kept in hundredths of a decibel and compared in steps of half a
decibel. The C integers of a size are `Int8`, `Int16` and `UInt8`; an expression between
two stores is an integer. The chip has one path, so a rate is sent over one antenna.
-/
namespace Rtl8189.TxPowerUser

open EventRun TxPowerAgc

def txgiMax : ℤ := 63
def txgiPdbm : ℤ := 2
def mbmPdbm : ℤ := 100
def unspecifiedMbm : Int16 := 32767

def mbOfNtx (ntx : ℕ) : ℤ :=
  if ntx = 0 then 0 else [0, 301, 477, 602, 699, 778, 845, 903].getD (ntx - 1) 0

def rf1tx : ℕ := 0

structure WiphyData where
  txpwrTotalLmtMbm : Int16 := unspecifiedMbm
  txpwrTotalTargetMbm : Int16 := unspecifiedMbm

inductive TxPowerSetting
  | automatic
  | limited
  | fixed
  | other

def steps (mbm : ℤ) : ℤ := (mbm * txgiPdbm).tdiv mbmPdbm

/-! ## The setting -/

def phyIsTxpwrUserMbmValid (mbm : Int16) : Bool := !decide (txgiMax ≤ steps mbm.toInt)

structure Call where
  /-- A wireless device is given. -/
  wdev : Bool := false
  type : TxPowerSetting
  mbm : Int32

def mbm16 (c : Call) : Int16 := Int16.ofInt c.mbm.toInt

def cfg80211RtwSetTxpower (w : WiphyData) (c : Call) : Bool × WiphyData :=
  let mbm := mbm16 c
  if c.wdev then (false, w)
  else
    match c.type with
    | .automatic => (true, ⟨unspecifiedMbm, unspecifiedMbm⟩)
    | .limited =>
      if phyIsTxpwrUserMbmValid mbm then (true, ⟨mbm, unspecifiedMbm⟩) else (false, w)
    | .fixed =>
      if phyIsTxpwrUserMbmValid mbm then (true, ⟨unspecifiedMbm, mbm⟩) else (false, w)
    | .other => (false, w)

/-! ## The target -/

def userSteps (totalMbm : Int16) (ntxIdx : ℕ) : Int8 :=
  if totalMbm ≠ unspecifiedMbm then Int8.ofInt (steps (totalMbm.toInt - mbOfNtx (ntxIdx + 1)))
  else Int8.ofInt txgiMax

def phyGetTxpwrUserTarget (w : WiphyData) (ntxIdx : ℕ) : Int8 :=
  userSteps w.txpwrTotalTargetMbm ntxIdx

def phyGetTxpwrUserLmt (w : WiphyData) (ntxIdx : ℕ) : Int8 := userSteps w.txpwrTotalLmtMbm ntxIdx

inductive ChannelWidth
  | width20
  | width40
deriving DecidableEq

/-- What is stored for the path, and the registry and calibration values. -/
structure Tables where
  txPowerByRateNeeded : Bool := true
  txPwrByRate : MgnRate → Int8 := fun _ => 0
  targetTxpwr2g : RateSection → UInt8 := fun _ => 0
  mpMode : Bool := false
  /-- `phy_get_txpwr_lmt_sub_chs` -/
  txpwrLmt : ChannelWidth → MgnRate → ℕ → ℕ → Int8 := fun _ _ _ _ => 63
  index24GCckBase : ℕ → UInt8 := fun _ => 0
  index24GBw40Base : ℕ → UInt8 := fun _ => 0
  cck24GDiff : Int8 := 0
  ofdm24GDiff : Int8 := 0
  bw2024GDiff : Int8 := 0
  bw4024GDiff : Int8 := 0
  txpowertrackControl : Bool := false
  remnantCckSwingIdx : Int8 := 0
  remnantOfdmSwingIdx : Int8 := 0

structure Tx where
  rs : RateSection
  rate : MgnRate
  bw : ChannelWidth
  cch : ℕ
  opch : ℕ

variable (t : Tables) (w : WiphyData) (x : Tx)

def phyGetTargetTxpwr : UInt8 := t.targetTxpwr2g x.rs

/-- The value that `PHY_GetTxPowerByRate` returns, before it is a signed byte. -/
def storedByRate : ℤ :=
  if t.txPowerByRateNeeded then (t.txPwrByRate x.rate).toInt else (phyGetTargetTxpwr t x).toNat

def phyGetTxPowerByRate : Int8 := Int8.ofInt (storedByRate t x)

def phyGetTxpwrTargetExtraBias : Int8 := if !t.mpMode && x.rate = .m2 then -9 else 0

def lmt : Int8 := t.txpwrLmt x.bw x.rate x.cch x.opch

/-- `target` before it is limited. -/
def wantedTarget (ntxIdx : ℕ) : Int8 :=
  let utgt := phyGetTxpwrUserTarget w ntxIdx
  let byRate := phyGetTxPowerByRate t x
  let byRate := if byRate.toInt = txgiMax then 0 else byRate
  if utgt.toInt ≠ txgiMax then utgt
  else Int8.ofInt (byRate.toInt + (phyGetTxpwrTargetExtraBias t x).toInt)

def phyGetTxpwrTarget (ntxIdx : ℕ) : Int8 :=
  let ulmt := phyGetTxpwrUserLmt w ntxIdx
  let target := wantedTarget t w x ntxIdx
  let target := if lmt t x < target then lmt t x else target
  if ulmt < target then ulmt else target

/-! ## The index -/

def isCckRate : MgnRate → Bool
  | .m1 | .m2 | .m5_5 | .m11 => true
  | _ => false

/-- `PHY_GetTxPowerTrackingOffset`, the only amendment on this chip -/
def phyGetTxpwrAmends : Int8 :=
  if t.txpowertrackControl then
    if isCckRate x.rate then t.remnantCckSwingIdx else t.remnantOfdmSwingIdx
  else 0

def pgBase : UInt8 × Int8 :=
  match x.rs, x.bw with
  | .cck, _ => (t.index24GCckBase (x.cch - 1), t.cck24GDiff)
  | .ofdm, _ => (t.index24GBw40Base (x.cch - 1), t.ofdm24GDiff)
  | .htMcs0Mcs7, .width20 => (t.index24GBw40Base (x.cch - 1), t.bw2024GDiff)
  | .htMcs0Mcs7, .width40 => (t.index24GBw40Base (x.cch - 1), t.bw4024GDiff)

def pgSum : ℤ := (pgBase t x).1.toNat + (pgBase t x).2.toInt

def phyGetPgTxpwrIdx : UInt8 := UInt8.ofInt (pgSum t x)

/-- `power_idx` before it is clamped. -/
def powerIdx : Int16 :=
  let base := Int8.ofInt (phyGetPgTxpwrIdx t x).toNat
  Int16.ofInt (base.toInt +
    ((phyGetTxpwrTarget t w x rf1tx).toInt - (phyGetTargetTxpwr t x).toNat) +
    (phyGetTxpwrAmends t x).toInt)

def halComGetTxpwrIdx : UInt8 :=
  let idx := (powerIdx t w x).toInt
  UInt8.ofInt (if idx < 0 then 0 else if txgiMax < idx then txgiMax else idx)

/-! ## What is asked -/

/-- A call that fails changes nothing. Behind one that succeeds every target is within the
regulatory limit and within the value of the user, and a fixed value is taken but for the limit. -/
def Honours (w : WiphyData) (c : Call) : Prop :=
  if (cfg80211RtwSetTxpower w c).1 then
    ∀ t x, let target := (phyGetTxpwrTarget t (cfg80211RtwSetTxpower w c).2 x rf1tx).toInt
      target ≤ (lmt t x).toInt ∧
        match c.type with
        | .limited => target ≤ steps c.mbm.toInt
        | .fixed => target = min (steps c.mbm.toInt) (lmt t x).toInt
        | _ => True
  else (cfg80211RtwSetTxpower w c).2 = w

/-- The call is refused, or has a value whose steps a signed byte can hold. -/
def Expressible (_ : WiphyData) (c : Call) : Prop :=
  let refused := c.wdev = true ∨ phyIsTxpwrUserMbmValid (mbm16 c) = false
  match c.type with
  | .limited => refused ∨ -6449 ≤ c.mbm.toInt
  | .fixed => refused ∨ -6449 ≤ c.mbm.toInt ∧ c.mbm.toInt ≤ 32767
  | _ => True

def step (w : WiphyData) (c : Call) : WiphyData := (cfg80211RtwSetTxpower w c).2

def exactUser (totalMbm : Int16) : ℤ :=
  if totalMbm ≠ unspecifiedMbm then steps totalMbm.toInt else txgiMax

def exactByRate : ℤ := if storedByRate t x = txgiMax then 0 else storedByRate t x

def exactWanted : ℤ :=
  if exactUser w.txpwrTotalTargetMbm ≠ txgiMax then exactUser w.txpwrTotalTargetMbm
  else exactByRate t x + (phyGetTxpwrTargetExtraBias t x).toInt

def exactTarget : ℤ :=
  min (min (exactWanted t w x) (lmt t x).toInt) (exactUser w.txpwrTotalLmtMbm)

def exactSum : ℤ :=
  pgSum t x + (exactTarget t w x - (phyGetTargetTxpwr t x).toNat) + (phyGetTxpwrAmends t x).toInt

/-- Every store into a signed byte or a word of 16 bits keeps its value. -/
structure NoWrap : Prop where
  target : (phyGetTxpwrUserTarget w rf1tx).toInt = exactUser w.txpwrTotalTargetMbm
  limit : (phyGetTxpwrUserLmt w rf1tx).toInt = exactUser w.txpwrTotalLmtMbm
  byRate : (phyGetTxpwrUserTarget w rf1tx).toInt = txgiMax →
    (phyGetTxPowerByRate t x).toInt = storedByRate t x
  sum : (phyGetTxpwrUserTarget w rf1tx).toInt = txgiMax →
    (Int8.ofInt (exactByRate t x + (phyGetTxpwrTargetExtraBias t x).toInt)).toInt =
      exactByRate t x + (phyGetTxpwrTargetExtraBias t x).toInt
  base : (Int8.ofInt (phyGetPgTxpwrIdx t x).toNat).toInt = pgSum t x
  index : (powerIdx t w x).toInt = exactSum t w x

/-- The index is that of the integers, and none of the stores behind it wraps. -/
def Exact : Prop :=
  NoWrap t w x ∧ ((halComGetTxpwrIdx t w x).toNat : ℤ) = max 0 (min (exactSum t w x) txgiMax)

def InS8 (z : ℤ) : Prop := -128 ≤ z ∧ z ≤ 127

/-- What is stored for the channel, the rate and the user is within the signed bytes. -/
structure Fits : Prop where
  target : w.txpwrTotalTargetMbm ≠ unspecifiedMbm →
    -6449 ≤ w.txpwrTotalTargetMbm.toInt ∧ w.txpwrTotalTargetMbm.toInt ≤ 6399
  limit : w.txpwrTotalLmtMbm ≠ unspecifiedMbm →
    -6449 ≤ w.txpwrTotalLmtMbm.toInt ∧ w.txpwrTotalLmtMbm.toInt ≤ 6399
  byRate : exactUser w.txpwrTotalTargetMbm = txgiMax → InS8 (storedByRate t x)
  sum : exactUser w.txpwrTotalTargetMbm = txgiMax →
    InS8 (exactByRate t x + (phyGetTxpwrTargetExtraBias t x).toInt)
  base : InS8 (pgSum t x)

/-! ## Steps and bytes -/

theorem inS8_toInt (v : Int8) : InS8 v.toInt :=
  ⟨v.le_toInt, Int.le_of_lt_add_one v.toInt_lt⟩

theorem toInt_ofInt_iff {z : ℤ} : (Int8.ofInt z).toInt = z ↔ InS8 z := by
  constructor
  · intro h
    rw [← h]
    exact inS8_toInt _
  · rintro ⟨hlow, hhigh⟩
    exact Int8.toInt_ofInt_of_le hlow (Int.lt_add_one_of_le hhigh)

theorem steps_of_nonneg {m : ℤ} (hm : 0 ≤ m) : steps m = m * 2 / 100 :=
  Int.tdiv_eq_ediv_of_nonneg (Int.mul_nonneg hm (by decide))

theorem steps_of_neg {m : ℤ} (hm : m < 0) : steps m = -(-m * 2 / 100) := by
  have hdiv : (-m * 2).tdiv 100 = -m * 2 / 100 := Int.tdiv_eq_ediv_of_nonneg (by omega)
  have hneg : m * 2 = -(-m * 2) := by omega
  unfold steps txgiPdbm mbmPdbm
  rw [← hdiv, hneg, Int.neg_tdiv]

theorem inS8_steps {m : ℤ} : InS8 (steps m) ↔ -6449 ≤ m ∧ m ≤ 6399 := by
  unfold InS8
  by_cases hm : 0 ≤ m
  · rw [steps_of_nonneg hm]
    omega
  · rw [steps_of_neg (not_le.1 hm)]
    omega

theorem steps_lt_max {m : ℤ} : steps m < txgiMax ↔ m ≤ 3149 := by
  unfold txgiMax
  by_cases hm : 0 ≤ m
  · rw [steps_of_nonneg hm]
    omega
  · rw [steps_of_neg (not_le.1 hm)]
    omega

theorem steps_le_of_lt {m : ℤ} (hm : m < -6449) : steps m < -128 := by
  rw [steps_of_neg (by omega)]
  omega

theorem lt_steps_of_lt {m : ℤ} (hm : 6399 < m) : 127 < steps m := by
  rw [steps_of_nonneg (by omega)]
  omega

theorem userSteps_eq (totalMbm : Int16) :
    userSteps totalMbm rf1tx = Int8.ofInt (exactUser totalMbm) := by
  unfold userSteps exactUser
  split_ifs
  · have hone : mbOfNtx (rf1tx + 1) = 0 := rfl
    rw [hone, Int.sub_zero]
  · rfl

theorem userSteps_iff (totalMbm : Int16) :
    (userSteps totalMbm rf1tx).toInt = exactUser totalMbm ↔
      (totalMbm ≠ unspecifiedMbm → -6449 ≤ totalMbm.toInt ∧ totalMbm.toInt ≤ 6399) := by
  rw [userSteps_eq, toInt_ofInt_iff]
  unfold exactUser
  split_ifs with h
  · rw [inS8_steps]
    exact ⟨fun hm _ => hm, fun hm => hm h⟩
  · exact iff_of_true ⟨by decide, by decide⟩ fun h' => absurd h' h

theorem userSteps_unspecified : (userSteps unspecifiedMbm rf1tx).toInt = txgiMax := by decide

/-! ## The target -/

variable {t w x}

theorem toInt_min (a b : Int8) : (if b < a then b else a).toInt = min a.toInt b.toInt := by
  split_ifs with h
  · exact (min_eq_right (Int8.lt_iff_toInt_lt.1 h).le).symm
  · exact (min_eq_left (not_lt.1 fun hlt => h (Int8.lt_iff_toInt_lt.2 hlt))).symm

theorem target_eq (t : Tables) (w : WiphyData) (x : Tx) :
    (phyGetTxpwrTarget t w x rf1tx).toInt =
      min (min (wantedTarget t w x rf1tx).toInt (lmt t x).toInt)
        (phyGetTxpwrUserLmt w rf1tx).toInt := by
  unfold phyGetTxpwrTarget
  rw [toInt_min, toInt_min]

theorem target_le_lmt (t : Tables) (w : WiphyData) (x : Tx) :
    (phyGetTxpwrTarget t w x rf1tx).toInt ≤ (lmt t x).toInt := by
  rw [target_eq]
  exact (min_le_left _ _).trans (min_le_right _ _)

def unlimited : Tables := { txpwrLmt := fun _ _ _ _ => 127 }

def anyTx : Tx := ⟨.ofdm, .m6, .width20, 1, 1⟩

/-! ## Calls -/

variable {c : Call} {m : ℤ}

theorem mbm16_eq (hlow : -32768 ≤ c.mbm.toInt) (hhigh : c.mbm.toInt ≤ 32767) :
    (mbm16 c).toInt = c.mbm.toInt :=
  Int16.toInt_ofInt_of_le hlow (Int.lt_add_one_of_le hhigh)

theorem valid_iff (v : Int16) : phyIsTxpwrUserMbmValid v = true ↔ v.toInt ≤ 3149 := by
  rw [← steps_lt_max]
  simp [phyIsTxpwrUserMbmValid]

theorem valid_ne {v : Int16} (hv : phyIsTxpwrUserMbmValid v = true) : v ≠ unspecifiedMbm := by
  rintro rfl
  exact absurd ((valid_iff _).1 hv) (by decide)

theorem limited_iff (hv : phyIsTxpwrUserMbmValid (mbm16 c) = true) :
    (∀ t x, (phyGetTxpwrTarget t ⟨mbm16 c, unspecifiedMbm⟩ x rf1tx).toInt ≤
      steps c.mbm.toInt) ↔ -6449 ≤ c.mbm.toInt := by
  constructor
  · intro h
    by_contra hlow
    have hle := h unlimited anyTx
    have hsteps := steps_le_of_lt (not_le.1 hlow)
    have hbyte := (inS8_toInt (phyGetTxpwrTarget unlimited ⟨mbm16 c, unspecifiedMbm⟩ anyTx rf1tx)).1
    omega
  · intro hlow t x
    have hle : (phyGetTxpwrTarget t ⟨mbm16 c, unspecifiedMbm⟩ x rf1tx).toInt ≤
        (userSteps (mbm16 c) rf1tx).toInt := by
      rw [target_eq]
      exact min_le_right _ _
    by_cases hhigh : c.mbm.toInt ≤ 32767
    · have hmbm := mbm16_eq (by omega) hhigh
      have hmax := (valid_iff _).1 hv
      have huser := (userSteps_iff (mbm16 c)).2 fun _ => ⟨by omega, by omega⟩
      rw [huser, exactUser, if_pos (valid_ne hv), hmbm] at hle
      exact hle
    · have hbyte := (inS8_toInt (phyGetTxpwrTarget t ⟨mbm16 c, unspecifiedMbm⟩ x rf1tx)).2
      have hsteps := lt_steps_of_lt (m := c.mbm.toInt) (by omega)
      omega

theorem fixed_iff (hv : phyIsTxpwrUserMbmValid (mbm16 c) = true) :
    (∀ t x, (phyGetTxpwrTarget t ⟨unspecifiedMbm, mbm16 c⟩ x rf1tx).toInt =
      min (steps c.mbm.toInt) (lmt t x).toInt) ↔
      -6449 ≤ c.mbm.toInt ∧ c.mbm.toInt ≤ 32767 := by
  have hmax := (valid_iff _).1 hv
  constructor
  · intro h
    have heq := h unlimited anyTx
    have hlmt : (lmt unlimited anyTx).toInt = 127 := rfl
    rw [hlmt] at heq
    constructor
    · by_contra hlow
      have hsteps := steps_le_of_lt (not_le.1 hlow)
      have hbyte :=
        (inS8_toInt (phyGetTxpwrTarget unlimited ⟨unspecifiedMbm, mbm16 c⟩ anyTx rf1tx)).1
      omega
    · by_contra hhigh
      have hsteps := lt_steps_of_lt (m := c.mbm.toInt) (by omega)
      have hle : (phyGetTxpwrTarget unlimited ⟨unspecifiedMbm, mbm16 c⟩ anyTx rf1tx).toInt ≤
          txgiMax := by
        rw [target_eq, ← userSteps_unspecified]
        exact min_le_right _ _
      unfold txgiMax at hle
      omega
  · rintro ⟨hlow, hhigh⟩ t x
    have hmbm := mbm16_eq (by omega) hhigh
    have huser := (userSteps_iff (mbm16 c)).2 fun _ => ⟨by omega, by omega⟩
    rw [exactUser, if_pos (valid_ne hv), hmbm] at huser
    have hlt : steps c.mbm.toInt < txgiMax := steps_lt_max.2 (hmbm ▸ hmax)
    have hwanted : (wantedTarget t ⟨unspecifiedMbm, mbm16 c⟩ x rf1tx).toInt =
        steps c.mbm.toInt := by
      have hne : (phyGetTxpwrUserTarget ⟨unspecifiedMbm, mbm16 c⟩ rf1tx).toInt ≠ txgiMax := by
        change (userSteps (mbm16 c) rf1tx).toInt ≠ txgiMax
        rw [huser]
        exact hlt.ne
      unfold wantedTarget
      rw [if_pos hne]
      exact huser
    have hulmt : (phyGetTxpwrUserLmt ⟨unspecifiedMbm, mbm16 c⟩ rf1tx).toInt = txgiMax :=
      userSteps_unspecified
    rw [target_eq, hwanted, hulmt]
    exact min_eq_left ((min_le_left _ _).trans hlt.le)

theorem honours_of_fails (h : cfg80211RtwSetTxpower w c = (false, w)) : Honours w c := by
  unfold Honours
  rw [h]
  exact rfl

theorem honours_iff (w : WiphyData) (c : Call) : Honours w c ↔ Expressible w c := by
  cases hwdev : c.wdev with
  | true =>
    have hset : cfg80211RtwSetTxpower w c = (false, w) := by simp [cfg80211RtwSetTxpower, hwdev]
    refine iff_of_true (honours_of_fails hset) ?_
    unfold Expressible
    cases c.type with
    | automatic => trivial
    | limited => exact Or.inl (Or.inl hwdev)
    | fixed => exact Or.inl (Or.inl hwdev)
    | other => trivial
  | false =>
    cases htype : c.type with
    | automatic =>
      have hset : cfg80211RtwSetTxpower w c = (true, ⟨unspecifiedMbm, unspecifiedMbm⟩) := by
        simp [cfg80211RtwSetTxpower, hwdev, htype]
      unfold Honours Expressible
      rw [hset, htype]
      exact iff_of_true (fun t x => ⟨target_le_lmt t _ x, trivial⟩) trivial
    | limited =>
      cases hv : phyIsTxpwrUserMbmValid (mbm16 c) with
      | false =>
        have hset : cfg80211RtwSetTxpower w c = (false, w) := by
          simp [cfg80211RtwSetTxpower, hwdev, htype, hv]
        refine iff_of_true (honours_of_fails hset) ?_
        unfold Expressible
        rw [htype]
        exact Or.inl (Or.inr hv)
      | true =>
        have hset : cfg80211RtwSetTxpower w c = (true, ⟨mbm16 c, unspecifiedMbm⟩) := by
          simp [cfg80211RtwSetTxpower, hwdev, htype, hv]
        unfold Honours Expressible
        rw [hset, htype]
        simp only [if_true, hwdev, hv, Bool.false_eq_true, Bool.true_eq_false, or_self, false_or]
        rw [← limited_iff hv]
        exact forall₂_congr fun t x => and_iff_right (target_le_lmt t _ x)
    | fixed =>
      cases hv : phyIsTxpwrUserMbmValid (mbm16 c) with
      | false =>
        have hset : cfg80211RtwSetTxpower w c = (false, w) := by
          simp [cfg80211RtwSetTxpower, hwdev, htype, hv]
        refine iff_of_true (honours_of_fails hset) ?_
        unfold Expressible
        rw [htype]
        exact Or.inl (Or.inr hv)
      | true =>
        have hset : cfg80211RtwSetTxpower w c = (true, ⟨unspecifiedMbm, mbm16 c⟩) := by
          simp [cfg80211RtwSetTxpower, hwdev, htype, hv]
        unfold Honours Expressible
        rw [hset, htype]
        simp only [if_true, hwdev, hv, Bool.false_eq_true, Bool.true_eq_false, or_self, false_or]
        rw [← fixed_iff hv]
        exact forall₂_congr fun t x => and_iff_right (target_le_lmt t _ x)
    | other =>
      have hset : cfg80211RtwSetTxpower w c = (false, w) := by
        simp [cfg80211RtwSetTxpower, hwdev, htype]
      refine iff_of_true (honours_of_fails hset) ?_
      unfold Expressible
      rw [htype]
      trivial

/-! ## The index -/

theorem ofInt_ofInt (z : ℤ) : Int8.ofInt (UInt8.ofInt z).toNat = Int8.ofInt z := by
  apply Int8.toInt_inj.1
  have hmod : ((UInt8.ofInt z).toNat : ℤ) = z % (Int8.size : ℕ) := by
    have hsize : ((Int8.size : ℕ) : ℤ) = 256 := rfl
    unfold UInt8.ofInt
    rw [UInt8.toNat_ofNat', hsize]
    omega
  rw [Int8.toInt_ofInt, Int8.toInt_ofInt, hmod, Int.emod_bmod]

theorem pgBase_iff : (Int8.ofInt (phyGetPgTxpwrIdx t x).toNat).toInt = pgSum t x ↔
    InS8 (pgSum t x) := by
  unfold phyGetPgTxpwrIdx
  rw [ofInt_ofInt, toInt_ofInt_iff]

theorem byRate_eq (h : InS8 (storedByRate t x)) :
    (if (phyGetTxPowerByRate t x).toInt = txgiMax then 0 else phyGetTxPowerByRate t x).toInt =
      exactByRate t x := by
  have hstored : (phyGetTxPowerByRate t x).toInt = storedByRate t x := toInt_ofInt_iff.2 h
  unfold exactByRate
  rw [hstored]
  split_ifs
  · rfl
  · exact hstored

theorem wantedTarget_eq (hf : Fits t w x) :
    (wantedTarget t w x rf1tx).toInt = exactWanted t w x := by
  have huser : (phyGetTxpwrUserTarget w rf1tx).toInt = exactUser w.txpwrTotalTargetMbm :=
    (userSteps_iff _).2 hf.target
  by_cases hmax : exactUser w.txpwrTotalTargetMbm = txgiMax
  · have hbyRate := byRate_eq (hf.byRate hmax)
    unfold wantedTarget exactWanted
    simp only [huser, hbyRate, hmax, ne_eq, not_true_eq_false, if_false]
    exact toInt_ofInt_iff.2 (hf.sum hmax)
  · unfold wantedTarget exactWanted
    simp only [huser, ne_eq, hmax, not_false_eq_true, if_true]

theorem target_exact (hf : Fits t w x) :
    (phyGetTxpwrTarget t w x rf1tx).toInt = exactTarget t w x := by
  have hlimit : (phyGetTxpwrUserLmt w rf1tx).toInt = exactUser w.txpwrTotalLmtMbm :=
    (userSteps_iff _).2 hf.limit
  rw [target_eq, wantedTarget_eq hf, hlimit]
  rfl

theorem powerIdx_exact (hf : Fits t w x) : (powerIdx t w x).toInt = exactSum t w x := by
  have hbase := pgBase_iff.2 hf.base
  have htarget := target_exact hf
  have hb := hf.base
  have ht := inS8_toInt (phyGetTxpwrTarget t w x rf1tx)
  have ha := inS8_toInt (phyGetTxpwrAmends t x)
  have hrs : (phyGetTargetTxpwr t x).toNat < 256 := UInt8.toNat_lt _
  unfold InS8 at hb ht ha
  unfold powerIdx exactSum
  simp only [hbase, ← htarget]
  exact Int16.toInt_ofInt_of_le (by omega) (by omega)

theorem noWrap_iff : NoWrap t w x ↔ Fits t w x := by
  constructor
  · intro h
    have htarget := (userSteps_iff _).1 h.target
    have hlimit := (userSteps_iff _).1 h.limit
    have hmax : exactUser w.txpwrTotalTargetMbm = txgiMax →
        (phyGetTxpwrUserTarget w rf1tx).toInt = txgiMax := h.target.trans
    exact ⟨htarget, hlimit, fun hu => toInt_ofInt_iff.1 (h.byRate (hmax hu)),
      fun hu => toInt_ofInt_iff.1 (h.sum (hmax hu)), pgBase_iff.1 h.base⟩
  · intro hf
    have huser : (phyGetTxpwrUserTarget w rf1tx).toInt = exactUser w.txpwrTotalTargetMbm :=
      (userSteps_iff _).2 hf.target
    have hmax : (phyGetTxpwrUserTarget w rf1tx).toInt = txgiMax →
        exactUser w.txpwrTotalTargetMbm = txgiMax := huser.symm.trans
    exact ⟨huser, (userSteps_iff _).2 hf.limit, fun hu => toInt_ofInt_iff.2 (hf.byRate (hmax hu)),
      fun hu => toInt_ofInt_iff.2 (hf.sum (hmax hu)), pgBase_iff.2 hf.base, powerIdx_exact hf⟩

theorem clamped_exact (h : NoWrap t w x) :
    ((halComGetTxpwrIdx t w x).toNat : ℤ) = max 0 (min (exactSum t w x) txgiMax) := by
  unfold halComGetTxpwrIdx
  rw [← h.index]
  generalize (powerIdx t w x).toInt = i
  have hbyte : ∀ z : ℤ, 0 ≤ z → z ≤ txgiMax → ((UInt8.ofInt z).toNat : ℤ) = z := by
    intro z hz hmax
    unfold txgiMax at hmax
    unfold UInt8.ofInt
    rw [UInt8.toNat_ofNat']
    omega
  unfold txgiMax at hbyte ⊢
  simp only
  split_ifs with hneg hhigh
  · rw [hbyte 0 le_rfl (by decide)]
    omega
  · rw [hbyte 63 (by decide) le_rfl]
    omega
  · rw [hbyte i (not_lt.1 hneg) (not_lt.1 hhigh)]
    omega

theorem exact_iff (t : Tables) (w : WiphyData) (x : Tx) : Exact t w x ↔ Fits t w x :=
  (and_iff_left_of_imp clamped_exact).trans noWrap_iff

/-- Settings are honoured just where their steps fit a signed byte, and an index is exact just
where what it is made of does. -/
theorem user_power_iff (calls : List Call) (t : Tables) (w : WiphyData) (x : Tx) :
    (Along step Honours {} calls ↔ Along step Expressible {} calls) ∧
      (Exact t w x ↔ Fits t w x) := by
  refine ⟨⟨?_, ?_⟩, exact_iff t w x⟩
  · exact Along.imp fun w c => (honours_iff w c).1
  · exact Along.imp fun w c => (honours_iff w c).2

/-- A limit of -100 dBm is stored as one of 28 dBm, and taken as a target it is one. -/
theorem low_power_wraps :
    ¬ Along step Honours {} [{ type := .limited, mbm := -10000 }] ∧
      ¬ Along step Honours {} [{ type := .fixed, mbm := -10000 }] ∧
      (phyGetTxpwrTarget {} (step {} { type := .fixed, mbm := -10000 }) anyTx rf1tx).toInt =
        56 := by
  have hlimited : ¬ Expressible {} { type := .limited, mbm := -10000 } := by
    unfold Expressible
    decide
  have hfixed : ¬ Expressible {} { type := .fixed, mbm := -10000 } := by
    unfold Expressible
    decide
  refine ⟨fun h => ?_, fun h => ?_, by decide +kernel⟩
  · exact hlimited ((honours_iff _ _).1 h.1)
  · exact hfixed ((honours_iff _ _).1 h.1)

end Rtl8189.TxPowerUser
