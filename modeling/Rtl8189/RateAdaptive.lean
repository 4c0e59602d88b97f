import Mathlib.Data.BitVec
import Mathlib.Order.Bounds.Basic
import Mathlib.Tactic.IntervalCases
import Mathlib.Tactic.SplitIfs
import Rtl8189.EventRun
import Rtl8189.FieldWidths

/-!
# Rate adaptation of the 8188E

The rate of a station is moved up and down within a mask of rates by the retry and
drop counts of its transmit reports. A table is read with `[i]?`, and a step that reads
outside a table, or whose search for a rate does not end, has no result.
-/
namespace Rtl8189.RateAdaptive

def rateSize : ℕ := 28

abbrev Mask := BitVec 32

/-! ## Tables -/

/-- `RETRY_PENALTY`: for each number of retries, and for the total. -/
def retryPenalty : List (Vector ℕ 6) :=
  [#v[5, 4, 3, 2, 0, 3], #v[6, 5, 4, 3, 0, 4], #v[6, 5, 4, 2, 0, 4], #v[8, 7, 6, 4, 0, 6],
    #v[10, 9, 8, 6, 0, 8], #v[10, 9, 8, 4, 0, 8], #v[10, 9, 8, 2, 0, 8], #v[10, 9, 8, 0, 0, 8],
    #v[18, 17, 16, 8, 0, 16], #v[26, 25, 24, 16, 0, 24], #v[34, 33, 32, 24, 0, 32],
    #v[34, 31, 28, 20, 0, 32], #v[34, 31, 27, 18, 0, 32], #v[34, 31, 26, 16, 0, 32],
    #v[34, 30, 22, 16, 0, 32], #v[34, 30, 24, 16, 0, 32], #v[49, 46, 40, 16, 0, 48],
    #v[49, 45, 32, 0, 0, 48], #v[49, 45, 22, 18, 0, 48], #v[49, 40, 24, 16, 0, 48],
    #v[49, 32, 18, 12, 0, 48], #v[49, 22, 18, 14, 0, 48], #v[49, 16, 16, 0, 0, 48]]

def ptPenalty : Vector ℕ 6 := #v[34, 31, 30, 24, 0, 32]

/-- `RETRY_PENALTY_IDX`, above and below the RSSI threshold; the I-cut has its own. -/
def retryPenaltyIdx (cutI : Bool) (rtyPtId : ℕ) : List ℕ :=
  if rtyPtId = 0 then
    [4, 4, 4, 5, 4, 4, 5, 7, 7, 7, 8, 0x0a, 4, 4, 4, 4, 6, 0x0a, 0x0b, 0x0d,
      5, 5, 7, 7, 8, 0x0b, 0x0d, 0x0f]
  else if cutI then
    [0x0a, 0x0a, 0x0b, 0x0c, 0x0a, 0x0a, 0x0b, 0x0c, 0x0d, 0x10, 0x13, 0x13,
      0x06, 0x07, 0x08, 0x0d, 0x0e, 0x11, 0x11, 0x11, 9, 9, 9, 9, 0x0c, 0x0e, 0x11, 0x13]
  else
    [0x0a, 0x0a, 0x0b, 0x0c, 0x0a, 0x0a, 0x0b, 0x0c, 0x0d, 0x10, 0x13, 0x13,
      0x0b, 0x0c, 0x0d, 0x0e, 0x0f, 0x11, 0x13, 0x13, 9, 9, 9, 9, 0x0c, 0x0e, 0x11, 0x13]

def retryPenaltyUpIdx (cutI : Bool) : List ℕ :=
  if cutI then
    [0x0c, 0x0d, 0x0d, 0x0f, 0x0d, 0x0e, 0x0f, 0x0f, 0x10, 0x12, 0x13, 0x14,
      0x0b, 0x0b, 0x11, 0x11, 0x12, 0x12, 0x12, 0x12,
      0x11, 0x11, 0x12, 0x13, 0x13, 0x13, 0x14, 0x15]
  else
    [0x0c, 0x0d, 0x0d, 0x0f, 0x0d, 0x0e, 0x0f, 0x0f, 0x10, 0x12, 0x13, 0x14,
      0x0f, 0x10, 0x10, 0x12, 0x12, 0x13, 0x14, 0x15,
      0x11, 0x11, 0x12, 0x13, 0x13, 0x13, 0x14, 0x15]

def rssiThreshold : List ℕ :=
  [0, 0, 0, 0, 0, 0, 0, 0, 0, 0x24, 0x26, 0x2a, 0x18, 0x1a, 0x1d, 0x1f, 0x21, 0x27, 0x29, 0x2a,
    0, 0, 0, 0x1f, 0x23, 0x28, 0x2a, 0x2c]

def nThresholdHigh : List ℕ :=
  [4, 4, 8, 16, 24, 36, 48, 72, 96, 144, 192, 216, 60, 80, 100, 160, 240, 400, 600, 800,
    300, 320, 480, 720, 1000, 1200, 1600, 2000]

def nThresholdLow : List ℕ :=
  [2, 2, 4, 8, 12, 18, 24, 36, 48, 72, 96, 108, 30, 40, 50, 80, 120, 200, 300, 400,
    150, 160, 240, 360, 500, 600, 800, 1000]

def dropingNecessary : List ℕ :=
  [1, 1, 1, 1, 1, 2, 3, 4, 5, 6, 7, 8, 1, 2, 3, 4, 5, 6, 7, 8, 5, 6, 7, 8, 9, 10, 11, 12]

def pendingForRateUpFail : List ℕ := [2, 10, 24, 40, 60]

def dynamicTxRptTiming : List ℕ := [0x186a, 0x30d4, 0x493e, 0x61a8, 0x7a12, 0x927c]

/-! ## State -/

structure RaInfo where
  rateId : ℕ := 0
  rateMask : Mask := 0xffffffff#32
  raUseRate : Mask := 0xffffffff#32
  rateSgi : ℕ := 0
  rssiStaRa : ℕ := 0
  preRssiStaRa : ℕ := 0
  sgiEnable : ℕ := 0
  decisionRate : ℕ := 19
  preRate : ℕ := 19
  highestRate : ℕ := 19
  lowestRate : ℕ := 0
  nscUp : ℕ := 600
  nscDown : ℕ := 600
  rty : Vector ℕ 5 := Vector.replicate 5 0
  total : ℕ := 0
  drop : ℕ := 0
  active : Bool := true
  rptTime : ℕ := 0x927c
  raWaitingCounter : ℕ := 0
  raPendingCounter : ℕ := 0
  raDropAfterDown : ℕ := 0
  ptActive : Bool := true
  ptTryState : ℕ := 0
  ptStage : ℕ := 5
  ptStopCount : ℕ := 0
  ptPreRate : ℕ := 0
  ptPreRssi : ℕ := 0
  ptModeSs : ℕ := 0
  raStage : ℕ := 0
  ptSmoothFactor : ℕ := 192
  deriving DecidableEq

def odmRaInfoInit : RaInfo := {}

/-- The chip's cut, and the rate masks that are read from registers. -/
structure Dm where
  cutI : Bool := false
  arfr : ℕ → Mask := fun _ => 0

def RaInfo.enabled (s : RaInfo) (i : ℕ) : Bool := s.raUseRate.getLsbD i

def searchDown (p : ℕ → Bool) (lo : ℕ) : ℕ → Option ℕ
  | 0 => none
  | n + 1 => if n < lo then none else if p n then some n else searchDown p lo n

def searchUp (p : ℕ → Bool) : ℕ → ℕ → Option ℕ
  | 0, _ => none
  | k + 1, i => if p i then some i else searchUp p k (i + 1)

/-! ## The steps of the adaptation -/

/-- `odm_set_tx_rpt_timing_8188e`; the comparison stops before the last entry. -/
def odmSetTxRptTiming (s : RaInfo) (extend : ℕ) : Option RaInfo := do
  let idx := (dynamicTxRptTiming.take 5).findIdx (· = s.rptTime)
  let idx :=
    if extend = 0 then 0
    else if extend = 1 then min (idx + 1) 5
    else if extend = 2 then (if idx ≠ 0 then idx - 1 else idx)
    else idx
  let rptTime ← dynamicTxRptTiming[idx]?
  return { s with rptTime := rptTime }

/-- The rate that `odm_rate_down_8188e` goes to, and the short guard interval. -/
def downRate (s : RaInfo) : ℕ × ℕ :=
  if s.highestRate < s.preRate then (s.highestRate, s.rateSgi)
  else if s.rateSgi ≠ 0 then (s.preRate, 0)
  else if s.lowestRate < s.preRate then
    ((searchDown s.enabled s.lowestRate s.preRate).getD s.preRate, s.rateSgi)
  else (s.lowestRate, s.rateSgi)

def downCounters (s : RaInfo) : RaInfo :=
  if s.raWaitingCounter = 1 then
    { s with
      raWaitingCounter := s.raWaitingCounter + 1
      raPendingCounter := s.raPendingCounter + 1 }
  else if s.raWaitingCounter = 0 then s
  else { s with raWaitingCounter := 0, raPendingCounter := 0 }

def odmRateDown (s : RaInfo) : Option RaInfo :=
  let r := downRate s
  let s := downCounters { s with rateSgi := r.2 }
  odmSetTxRptTiming
    { s with
      raPendingCounter := if 4 ≤ s.raPendingCounter then 4 else s.raPendingCounter
      raDropAfterDown := 1
      decisionRate := r.1 } 2

/-- The rate that `odm_rate_up_8188e` goes to, and the short guard interval. -/
def upRate (s : RaInfo) : ℕ × ℕ :=
  if s.preRate < s.highestRate then
    ((searchUp s.enabled (s.highestRate - s.preRate) (s.preRate + 1)).getD s.preRate, s.rateSgi)
  else if s.preRate = s.highestRate then
    if s.sgiEnable ≠ 0 ∧ s.rateSgi ≠ 1 then (s.preRate, 1)
    else if s.sgiEnable ≠ 1 then (s.preRate, 0)
    else (s.preRate, s.rateSgi)
  else (s.highestRate, s.rateSgi)

/-- From `rate_up_finish` on. -/
def rateUpFinish (s : RaInfo) (rateId : ℕ) : Option RaInfo := do
  let limit ← pendingForRateUpFail[s.raPendingCounter]?
  return { s with
    raWaitingCounter := if s.raWaitingCounter = 4 + limit then 0 else s.raWaitingCounter + 1
    decisionRate := rateId }

def odmRateUp (s : RaInfo) : Option RaInfo := do
  if 1 < s.raWaitingCounter then
    rateUpFinish { s with preRssiStaRa := s.rssiStaRa } s.preRate
  else
    let s :=
      if s.raWaitingCounter = 1 then { s with raWaitingCounter := 0, raPendingCounter := 0 }
      else s
    let s ← odmSetTxRptTiming s 0
    let r := upRate s
    rateUpFinish { s with rateSgi := r.2 } r.1

def odmResetRaCounter (s : RaInfo) : Option RaInfo := do
  let high ← nThresholdHigh[s.decisionRate]?
  let low ← nThresholdLow[s.decisionRate]?
  return { s with nscUp := (high + low) / 2, nscDown := (high + low) / 2 }

def weigh (s : RaInfo) (penalty : Vector ℕ 6) (nsc : ℕ) : ℕ :=
  nsc + s.rty[0] * getElem penalty 0 zero_lt_six + s.rty[1] * getElem penalty 1 one_lt_six +
    s.rty[2] * getElem penalty 2 two_lt_six + s.rty[3] * getElem penalty 3 three_lt_six +
    s.rty[4] * getElem penalty 4 four_lt_six - s.total * getElem penalty 5 five_lt_six

def rssiMoved (s : RaInfo) : Prop :=
  s.rssiStaRa + 3 < s.preRssiStaRa ∨ s.preRssiStaRa + 3 < s.rssiStaRa

instance (s : RaInfo) : Decidable (rssiMoved s) := inferInstanceAs (Decidable (_ ∨ _))

def weighed (dm : Dm) (s : RaInfo) (rateId : ℕ) : Option RaInfo := do
  let threshold ← rssiThreshold[rateId]?
  let rtyPtId := if threshold < s.rssiStaRa then 0 else 1
  let penaltyId1 ← (retryPenaltyIdx dm.cutI rtyPtId)[rateId]?
  let penalty1 ← retryPenalty[penaltyId1]?
  let penaltyId2 ← (retryPenaltyUpIdx dm.cutI)[rateId]?
  let penalty2 ← retryPenalty[penaltyId2]?
  return { s with nscDown := weigh s penalty1 s.nscDown, nscUp := weigh s penalty2 s.nscUp }

def moved (s : RaInfo) (rateId : ℕ) : Option RaInfo := do
  let low ← nThresholdLow[rateId]?
  let high ← nThresholdHigh[rateId]?
  let droping ← dropingNecessary[rateId]?
  if s.nscDown < low ∨ droping < s.drop then odmRateDown s
  else if high < s.nscUp then odmRateUp s
  else return s

/-- After four decisions that kept the rate, the reports are asked for less often. -/
def extendTiming (s : RaInfo) (counter : ℕ) : Option RaInfo :=
  if 4 ≤ counter then odmSetTxRptTiming s 1 else some s

/-- `odm_rate_decision_8188e` from `Start RA decision` on; `counter` is
`dynamic_tx_rpt_timing_counter`, which all stations share. -/
def startRaDecision (dm : Dm) (s : RaInfo) (counter : ℕ) : Option (RaInfo × ℕ) := do
  let rateId := if s.highestRate < s.preRate then s.highestRate else s.preRate
  let s ← weighed dm s rateId
  let s ← moved s rateId
  let counter := if s.decisionRate = s.preRate then counter + 1 else 0
  let s ← extendTiming s counter
  let s ← odmResetRaCounter { s with preRate := s.decisionRate }
  return (s, if 4 ≤ counter then 0 else counter)

def odmRateDecision (dm : Dm) (s : RaInfo) (counter : ℕ) : Option (RaInfo × ℕ) := do
  if s.active ∧ 0 < s.total then
    if s.raDropAfterDown ≠ 0 then
      let s ← odmResetRaCounter { s with raDropAfterDown := s.raDropAfterDown - 1 }
      return (s, counter)
    else
      startRaDecision dm
        (if rssiMoved s then
          { s with preRssiStaRa := s.rssiStaRa, raWaitingCounter := 0, raPendingCounter := 0 }
        else s) counter
  else return (s, counter)

/-- The built-in masks of `odm_arfb_refresh_8188e`, and those read from registers. -/
def arfbMask (dm : Dm) (rateId : ℕ) : Mask :=
  match rateId with
  | 0 => 0x0f8fe00f#32
  | 1 => 0x0f8ff010#32
  | 2 => 0x0f8fe00f#32
  | 3 => 0x0f8ff000#32
  | 4 => 0x00000fef#32
  | 5 => 0x00000ff0#32
  | 6 => 0x0000000d#32
  | 12 => dm.arfr 0
  | 13 => dm.arfr 1
  | 14 => dm.arfr 2
  | 15 => dm.arfr 3
  | _ => 0xffffffff#32

/-- The search for the highest rate counts down in a `u8` and does not end when it
finds no rate; the search for the lowest one then leaves the field as it is. -/
def odmArfbRefresh (dm : Dm) (s : RaInfo) : Option RaInfo := do
  let useRate := s.rateMask &&& arfbMask dm s.rateId
  let highest ← if useRate ≠ 0 then searchDown useRate.getLsbD 0 (rateSize + 1) else some 0
  let lowest :=
    if useRate ≠ 0 then (searchUp useRate.getLsbD rateSize 0).getD s.lowestRate else 0
  return { s with
    raUseRate := useRate
    highestRate := highest
    lowestRate := lowest
    ptModeSs := if 0x13 < highest then 3 else if 0x0b < highest then 2 else 0 }

def phydmRaUpdate (dm : Dm) (s : RaInfo) (rateId : ℕ) (rateMask : Mask) (sgiEnable : ℕ) :
    Option RaInfo :=
  odmArfbRefresh dm { s with rateId := rateId, rateMask := rateMask, sgiEnable := sgiEnable }

/-! ## Power training -/

/-- `odm_pt_try_state_8188e`; `noisy` is `is_disable_power_training`. -/
def odmPtTryState (s : RaInfo) (noisy : Bool) : RaInfo :=
  let bound := match s.ptModeSs with | 3 => some 0x19 | 2 => some 0x11 | 1 => some 0x0a
                                     | 0 => some 0x03 | _ => none
  let tries := bound.any fun b => decide (b ≤ s.decisionRate)
  let s := { s with ptTryState := tries.toNat }
  let s :=
    if s.rssiStaRa < 48 then { s with ptStage := 0 }
    else if tries then
      if 10 ≤ s.ptStopCount ∨ s.rssiStaRa + 5 < s.ptPreRssi ∨ s.ptPreRssi + 5 < s.rssiStaRa ∨
          s.decisionRate ≠ s.ptPreRate then
        { s with
          ptStage := if s.ptStage = 0 then 1 else if s.ptStage = 1 then 3 else 5
          ptPreRssi := s.rssiStaRa
          ptStopCount := 0 }
      else { s with raStage := 0, ptStopCount := s.ptStopCount + 1 }
    else { s with ptStage := 0, raStage := 0 }
  let s := { s with ptPreRate := s.decisionRate }
  if noisy then { s with ptStage := 0, raStage := 0, ptStopCount := 0 } else s

/-- The number of weighted retry counts that are added up before the total is passed. -/
def ptCount (numTotal : ℕ) : ℕ → List ℕ → ℕ
  | _, [] => 0
  | numsc, n :: ns => if numTotal < numsc + n then 0 else 1 + ptCount numTotal (numsc + n) ns

def odmPtDecision (s : RaInfo) : RaInfo :=
  let j := ptCount (s.total * ptPenalty[5]) 0
    [s.rty[0] * ptPenalty[0], s.rty[1] * ptPenalty[1], s.rty[2] * ptPenalty[2],
      s.rty[3] * ptPenalty[3], s.rty[4] * ptPenalty[4]] / 2
  let stageId := (s.ptStage + 1) / 2 - j
  let smooth := (s.ptSmoothFactor / 2 + s.ptSmoothFactor / 4 + stageId * 16 + 2) % 256
  let smooth := if 192 < smooth then 192 else smooth
  { s with
    ptSmoothFactor := smooth
    ptStage := if 3 < s.drop then 0 else smooth / 64 * 2 - 1 }

/-! ## Reports -/

/-- The counts of a transmit report, the shared timing counter it meets and whether the
environment is noisy. -/
structure TxReport where
  rty : Vector ℕ 5
  drop : ℕ
  counter : ℕ := 0
  noisy : Bool := false

/-- One station's part of `odm_ra_tx_rpt2_handle_8188e`. -/
def odmRaTxRpt2Handle (dm : Dm) (s : RaInfo) (r : TxReport) : Option RaInfo := do
  let s := { s with
    rty := r.rty
    drop := r.drop
    total := r.rty[0] + r.rty[1] + r.rty[2] + r.rty[3] + r.rty[4] + r.drop }
  if s.total ≠ 0 then
    if s.ptActive then
      let s ←
        if s.raStage < 5 then (odmRateDecision dm s r.counter).map Prod.fst
        else if s.raStage = 5 then some (odmPtTryState s r.noisy)
        else some (odmPtDecision s)
      return { s with raStage := if s.raStage ≤ 5 then s.raStage + 1 else 0 }
    else (odmRateDecision dm s r.counter).map Prod.fst
  else return s

inductive Event
  | update (rateId : ℕ) (rateMask : Mask) (sgiEnable : ℕ)
  | rssi (rssi : ℕ)
  | txReport (r : TxReport)

def step (dm : Dm) (s : RaInfo) : Event → Option RaInfo
  | .update rateId rateMask sgiEnable => phydmRaUpdate dm s rateId rateMask sgiEnable
  | .rssi rssi => some { s with rssiStaRa := rssi }
  | .txReport r => odmRaTxRpt2Handle dm s r

/-! ## The searches -/

section Search

variable {p : ℕ → Bool} {lo n k i j : ℕ}

theorem searchDown_some (h : searchDown p lo n = some i) :
    lo ≤ i ∧ i < n ∧ p i = true ∧ ∀ j, i < j → j < n → p j = false := by
  induction n with
  | zero => cases h
  | succ n ih =>
    rw [searchDown] at h
    split_ifs at h with hlo hp
    · injection h with h
      subst h
      exact ⟨Nat.le_of_not_lt hlo, Nat.lt_succ_self n, hp, fun j hj hj' => by omega⟩
    · obtain ⟨hle, hlt, hpi, hnone⟩ := ih h
      refine ⟨hle, Nat.lt_succ_of_lt hlt, hpi, fun j hj hj' => ?_⟩
      rcases Nat.eq_or_lt_of_le (Nat.le_of_lt_succ hj') with rfl | hlt'
      · exact Bool.eq_false_of_not_eq_true hp
      · exact hnone j hj hlt'

theorem searchDown_exists (hlo : lo ≤ j) (hj : j < n) (hp : p j = true) :
    ∃ i, searchDown p lo n = some i := by
  induction n with
  | zero => exact absurd hj (Nat.not_lt_zero j)
  | succ n ih =>
    rw [searchDown, if_neg (by omega)]
    split_ifs with hpn
    · exact ⟨n, rfl⟩
    · refine ih ?_
      rcases Nat.eq_or_lt_of_le (Nat.le_of_lt_succ hj) with rfl | hlt
      · exact absurd hp hpn
      · exact hlt

theorem searchUp_some (h : searchUp p k n = some i) :
    n ≤ i ∧ i < n + k ∧ p i = true ∧ ∀ j, n ≤ j → j < i → p j = false := by
  induction k generalizing n with
  | zero => cases h
  | succ k ih =>
    rw [searchUp] at h
    split_ifs at h with hp
    · injection h with h
      subst h
      exact ⟨Nat.le_refl n, by omega, hp, fun j hj hj' => by omega⟩
    · obtain ⟨hle, hlt, hpi, hnone⟩ := ih h
      refine ⟨by omega, by omega, hpi, fun j hj hj' => ?_⟩
      rcases Nat.eq_or_lt_of_le hj with rfl | hlt'
      · exact Bool.eq_false_of_not_eq_true hp
      · exact hnone j hlt' hj'

theorem searchUp_exists (hn : n ≤ j) (hj : j < n + k) (hp : p j = true) :
    ∃ i, searchUp p k n = some i := by
  induction k generalizing n with
  | zero => omega
  | succ k ih =>
    rw [searchUp]
    split_ifs with hpn
    · exact ⟨n, rfl⟩
    · refine ih ?_ (by omega)
      rcases Nat.eq_or_lt_of_le hn with rfl | hlt
      · exact absurd hp hpn
      · exact hlt

end Search

/-! ## Bounds of the mask -/

variable {dm : Dm} {s t : RaInfo} {rateId : ℕ}

def Bounds (s : RaInfo) : Prop :=
  if s.raUseRate = 0 then s.highestRate = 0 ∧ s.lowestRate = 0
  else IsGreatest {i | s.enabled i = true} s.highestRate ∧
    IsLeast {i | s.enabled i = true} s.lowestRate

theorem bounds_congr (huse : t.raUseRate = s.raUseRate) (hhigh : t.highestRate = s.highestRate)
    (hlow : t.lowestRate = s.lowestRate) : Bounds t ↔ Bounds s := by
  simp only [Bounds, RaInfo.enabled, huse, hhigh, hlow]

/-- The bounds are rates, and enabled ones unless the mask is empty. -/
structure InBounds (s : RaInfo) : Prop where
  highest : s.highestRate < rateSize
  lowest : s.lowestRate < rateSize
  enabled : s.raUseRate ≠ 0 → s.enabled s.highestRate = true ∧ s.enabled s.lowestRate = true

theorem arfbMask_high (dm : Dm) (h : rateId ≤ 6) {i : ℕ}
    (hi : (arfbMask dm rateId).getLsbD i = true) : i < rateSize := by
  have hlt : i < 32 := BitVec.lt_of_getLsbD hi
  have hall : ∀ r ≤ 6, ∀ i < 32, (arfbMask { } r).getLsbD i = true → i < rateSize := by decide
  refine hall rateId h i hlt ?_
  interval_cases rateId <;> exact hi

theorem exists_getLsbD {mask : Mask} (h : mask ≠ 0) : ∃ i, mask.getLsbD i = true := by
  by_contra hno
  refine h (BitVec.eq_of_getLsbD_eq fun i _ => ?_)
  have hi : mask.getLsbD i = false := Bool.eq_false_of_not_eq_true fun hi => hno ⟨i, hi⟩
  exact hi.trans BitVec.getLsbD_zero.symm

theorem odmArfbRefresh_some (dm : Dm) (s : RaInfo) (h : s.rateId ≤ 6) :
    ∃ t, odmArfbRefresh dm s = some t ∧ Bounds t ∧ InBounds t ∧
      t = { s with
        raUseRate := t.raUseRate
        highestRate := t.highestRate
        lowestRate := t.lowestRate
        ptModeSs := t.ptModeSs } := by
  have hrate : ∀ i, (s.rateMask &&& arfbMask dm s.rateId).getLsbD i = true → i < rateSize := by
    intro i hi
    rw [BitVec.getLsbD_and, Bool.and_eq_true] at hi
    exact arfbMask_high dm h hi.2
  simp only [odmArfbRefresh]
  generalize s.rateMask &&& arfbMask dm s.rateId = mask at hrate
  by_cases hzero : mask = 0
  · subst hzero
    have hz : 0 < rateSize := by decide
    exact ⟨_, rfl, ⟨rfl, rfl⟩, ⟨hz, hz, fun hne => absurd rfl hne⟩, rfl⟩
  · obtain ⟨j, hj⟩ := exists_getLsbD hzero
    obtain ⟨high, hhigh⟩ := searchDown_exists (n := rateSize + 1) (Nat.zero_le j)
      (Nat.lt_succ_of_lt (hrate j hj)) hj
    obtain ⟨low, hlow⟩ := searchUp_exists (k := rateSize) (Nat.zero_le j)
      (by rw [Nat.zero_add]; exact hrate j hj) hj
    obtain ⟨-, -, hhi, hgreatest⟩ := searchDown_some hhigh
    obtain ⟨-, -, hlo, hleast⟩ := searchUp_some hlow
    simp only [hzero, ne_eq, not_false_eq_true, if_true, hhigh, hlow]
    refine ⟨_, rfl, ?_, ⟨hrate high hhi, hrate low hlo, fun _ => ⟨hhi, hlo⟩⟩, rfl⟩
    rw [Bounds, if_neg hzero]
    refine ⟨⟨hhi, fun i hi => ?_⟩, ⟨hlo, fun i hi => ?_⟩⟩
    · by_contra hgt
      have hi' := hgreatest i (Nat.lt_of_not_le hgt) (Nat.lt_succ_of_lt (hrate i hi))
      exact absurd (hi.symm.trans hi') (Bool.false_ne_true ∘ Eq.symm)
    · by_contra hlt
      have hi' := hleast i (Nat.zero_le i) (Nat.lt_of_not_le hlt)
      exact absurd (hi.symm.trans hi') (Bool.false_ne_true ∘ Eq.symm)

/-! ## Up and down -/

theorem getElem?_of_lt {l : List ℕ} {n : ℕ} (hlen : l.length = n) {i : ℕ} (h : i < n) :
    ∃ x, l[i]? = some x := ⟨l[i], List.getElem?_eq_getElem (hlen ▸ h)⟩

/-- The waiting counter is within the limit of the pending counter, which is an index of
its table. -/
def Waits (s : RaInfo) : Prop :=
  ∃ limit, pendingForRateUpFail[s.raPendingCounter]? = some limit ∧
    s.raWaitingCounter ≤ 4 + limit

theorem Waits.pending (h : Waits s) : s.raPendingCounter ≤ 4 := by
  obtain ⟨limit, hlimit, -⟩ := h
  exact Nat.le_of_lt_succ (List.getElem?_eq_some_iff.mp hlimit).1

theorem waits_of_le (hp : s.raPendingCounter ≤ 4) (hw : s.raWaitingCounter ≤ 4) : Waits s := by
  obtain ⟨limit, hlimit⟩ := getElem?_of_lt (l := pendingForRateUpFail) rfl (Nat.lt_succ_of_le hp)
  exact ⟨limit, hlimit, Nat.le_add_right_of_le hw⟩

theorem odmSetTxRptTiming_some (s : RaInfo) (extend : ℕ) :
    ∃ v, odmSetTxRptTiming s extend = some { s with rptTime := v } := by
  have hidx : (dynamicTxRptTiming.take 5).findIdx (· = s.rptTime) ≤ 5 := List.findIdx_le_length
  simp only [odmSetTxRptTiming]
  generalize (dynamicTxRptTiming.take 5).findIdx (· = s.rptTime) = idx at hidx
  obtain ⟨v, hv⟩ : ∃ v, dynamicTxRptTiming[if extend = 0 then 0
      else if extend = 1 then min (idx + 1) 5
      else if extend = 2 then (if idx ≠ 0 then idx - 1 else idx)
      else idx]? = some v := by
    refine getElem?_of_lt (n := 6) rfl ?_
    split_ifs <;> omega
  exact ⟨v, by rw [hv]; rfl⟩

theorem odmResetRaCounter_some (h : s.decisionRate < rateSize) :
    ∃ n, odmResetRaCounter s = some { s with nscUp := n, nscDown := n } := by
  obtain ⟨high, hhigh⟩ := getElem?_of_lt (l := nThresholdHigh) rfl h
  obtain ⟨low, hlow⟩ := getElem?_of_lt (l := nThresholdLow) rfl h
  refine ⟨(high + low) / 2, ?_⟩
  simp only [odmResetRaCounter, hhigh, hlow]
  rfl

structure Chosen (s : RaInfo) (rate : ℕ) : Prop where
  lt : rate < rateSize
  kept : s.raUseRate ≠ 0 → rate = s.preRate ∨ s.enabled rate = true

theorem downRate_chosen (h : InBounds s) (hpre : s.preRate < rateSize) :
    Chosen s (downRate s).1 := by
  simp only [downRate]
  split_ifs with hhigh hsgi hlow
  · exact ⟨h.highest, fun hne => Or.inr (h.enabled hne).1⟩
  · exact ⟨hpre, fun _ => Or.inl rfl⟩
  · cases hsearch : searchDown s.enabled s.lowestRate s.preRate with
    | none => exact ⟨hpre, fun _ => Or.inl rfl⟩
    | some i =>
      obtain ⟨-, hlt, hi, -⟩ := searchDown_some hsearch
      exact ⟨hlt.trans hpre, fun _ => Or.inr hi⟩
  · exact ⟨h.lowest, fun hne => Or.inr (h.enabled hne).2⟩

theorem upRate_chosen (h : InBounds s) (hpre : s.preRate < rateSize) :
    Chosen s (upRate s).1 := by
  simp only [upRate]
  split_ifs with hlow hsame hsgi hsgi'
  · cases hsearch : searchUp s.enabled (s.highestRate - s.preRate) (s.preRate + 1) with
    | none => exact ⟨hpre, fun _ => Or.inl rfl⟩
    | some i =>
      obtain ⟨-, hlt, hi, -⟩ := searchUp_some hsearch
      refine ⟨?_, fun _ => Or.inr hi⟩
      have hhigh := h.highest
      show i < rateSize
      omega
  · exact ⟨hpre, fun _ => Or.inl rfl⟩
  · exact ⟨hpre, fun _ => Or.inl rfl⟩
  · exact ⟨hpre, fun _ => Or.inl rfl⟩
  · exact ⟨h.highest, fun hne => Or.inr (h.enabled hne).1⟩

/-- What moving the rate leaves alone, and the rate it comes to. -/
structure Moved (s t : RaInfo) : Prop where
  pre : t.preRate = s.preRate
  use : t.raUseRate = s.raUseRate
  highest : t.highestRate = s.highestRate
  lowest : t.lowestRate = s.lowestRate
  waits : Waits t
  chosen : Chosen s t.decisionRate

theorem downCounters_waits (h : Waits s) :
    (downCounters s).raWaitingCounter ≤ 4 ∧ (downCounters s).raPendingCounter ≤ 5 := by
  have hp := h.pending
  simp only [downCounters]
  split_ifs with hone hzero
  · exact ⟨by simp only [hone]; decide, by simp only; omega⟩
  · exact ⟨by omega, by omega⟩
  · exact ⟨Nat.zero_le 4, Nat.zero_le 5⟩

theorem downCounters_keeps (s : RaInfo) : downCounters s = { s with
    raWaitingCounter := (downCounters s).raWaitingCounter
    raPendingCounter := (downCounters s).raPendingCounter } := by
  simp only [downCounters]
  split_ifs <;> rfl

theorem odmRateDown_some (h : InBounds s) (hpre : s.preRate < rateSize) (hw : Waits s) :
    ∃ t, odmRateDown s = some t ∧ Moved s t := by
  have hchosen := downRate_chosen h hpre
  have hwaits : Waits { s with rateSgi := (downRate s).2 } := hw
  obtain ⟨hwait, -⟩ := downCounters_waits hwaits
  have hkeeps := downCounters_keeps { s with rateSgi := (downRate s).2 }
  simp only [odmRateDown]
  generalize downCounters { s with rateSgi := (downRate s).2 } = d at hwait hkeeps
  obtain ⟨v, hv⟩ := odmSetTxRptTiming_some
    { d with
      raPendingCounter := if 4 ≤ d.raPendingCounter then 4 else d.raPendingCounter
      raDropAfterDown := 1
      decisionRate := (downRate s).1 } 2
  refine ⟨_, hv, ?_⟩
  rw [hkeeps]
  refine ⟨rfl, rfl, rfl, rfl, waits_of_le ?_ hwait, hchosen⟩
  simp only
  split_ifs <;> omega

theorem rateUpFinish_some (hw : Waits s) (rate : ℕ) :
    ∃ w, rateUpFinish s rate = some { s with raWaitingCounter := w, decisionRate := rate } ∧
      Waits { s with raWaitingCounter := w, decisionRate := rate } := by
  obtain ⟨limit, hlimit, hle⟩ := hw
  refine ⟨if s.raWaitingCounter = 4 + limit then 0 else s.raWaitingCounter + 1, ?_, limit,
    hlimit, ?_⟩
  · simp only [rateUpFinish, hlimit]
    rfl
  · simp only
    split_ifs <;> omega

theorem upFrom_some (h : InBounds s) (hpre : s.preRate < rateSize) (hw : Waits s) :
    ∃ t, (do
      let s ← odmSetTxRptTiming s 0
      rateUpFinish { s with rateSgi := (upRate s).2 } (upRate s).1) = some t ∧ Moved s t := by
  obtain ⟨v, hv⟩ := odmSetTxRptTiming_some s 0
  have hbounds : InBounds { s with rptTime := v } := ⟨h.highest, h.lowest, h.enabled⟩
  have hchosen := upRate_chosen hbounds hpre
  generalize hr : upRate { s with rptTime := v } = r at hchosen
  have hwaits : Waits { s with rptTime := v, rateSgi := r.2 } := hw
  obtain ⟨w, hsome, hwaits'⟩ := rateUpFinish_some hwaits r.1
  simp only [hv, Option.bind_eq_bind, Option.bind_some, hr]
  exact ⟨_, hsome, ⟨rfl, rfl, rfl, rfl, hwaits', hchosen.lt, hchosen.kept⟩⟩

theorem odmRateUp_some (h : InBounds s) (hpre : s.preRate < rateSize) (hw : Waits s) :
    ∃ t, odmRateUp s = some t ∧ Moved s t := by
  simp only [odmRateUp]
  split_ifs with hwait hone
  · have hw' : Waits { s with preRssiStaRa := s.rssiStaRa } := hw
    obtain ⟨w, hsome, hwaits⟩ := rateUpFinish_some hw' s.preRate
    exact ⟨_, hsome, ⟨rfl, rfl, rfl, rfl, hwaits, hpre, fun _ => Or.inl rfl⟩⟩
  · have hreset : Waits { s with raWaitingCounter := 0, raPendingCounter := 0 } :=
      waits_of_le (Nat.zero_le 4) (Nat.zero_le 4)
    have hbounds : InBounds { s with raWaitingCounter := 0, raPendingCounter := 0 } :=
      ⟨h.highest, h.lowest, h.enabled⟩
    obtain ⟨t, hsome, ht⟩ := upFrom_some hbounds hpre hreset
    exact ⟨t, hsome, ⟨ht.pre, ht.use, ht.highest, ht.lowest, ht.waits, ht.chosen.lt,
      ht.chosen.kept⟩⟩
  · exact upFrom_some h hpre hw

/-! ## A decision -/

/-- All that holds of a station between the steps; until the first mask update its mask
is the one it was set up with. -/
structure Sound (s : RaInfo) : Prop extends InBounds s where
  bounds : s.raUseRate = 0xffffffff#32 ∨ Bounds s
  decision : s.decisionRate < rateSize
  same : s.preRate = s.decisionRate
  waits : Waits s

theorem retryPenalty_row (cutI : Bool) (k : ℕ) (h : rateId < rateSize) :
    ∃ id row, (retryPenaltyIdx cutI k)[rateId]? = some id ∧ retryPenalty[id]? = some row := by
  obtain ⟨id, hid⟩ : ∃ id, (retryPenaltyIdx cutI k)[rateId]? = some id := by
    refine getElem?_of_lt ?_ h
    simp only [retryPenaltyIdx]
    split_ifs <;> rfl
  have hlt : id < retryPenalty.length := by
    have hmem := List.mem_of_getElem? hid
    simp only [retryPenaltyIdx] at hmem
    split_ifs at hmem
    · exact (by decide : ∀ id ∈ retryPenaltyIdx true 0, id < retryPenalty.length) id hmem
    · exact (by decide : ∀ id ∈ retryPenaltyIdx true 1, id < retryPenalty.length) id hmem
    · exact (by decide : ∀ id ∈ retryPenaltyIdx false 1, id < retryPenalty.length) id hmem
  exact ⟨id, retryPenalty[id], hid, List.getElem?_eq_getElem hlt⟩

theorem retryPenalty_up_row (cutI : Bool) (h : rateId < rateSize) :
    ∃ id row, (retryPenaltyUpIdx cutI)[rateId]? = some id ∧ retryPenalty[id]? = some row := by
  obtain ⟨id, hid⟩ : ∃ id, (retryPenaltyUpIdx cutI)[rateId]? = some id :=
    getElem?_of_lt (by cases cutI <;> rfl) h
  have hall : ∀ id ∈ retryPenaltyUpIdx cutI, id < retryPenalty.length := by
    cases cutI <;> decide
  exact ⟨id, _, hid, List.getElem?_eq_getElem (hall id (List.mem_of_getElem? hid))⟩

theorem weighed_some (dm : Dm) (s : RaInfo) (h : rateId < rateSize) :
    ∃ a b, weighed dm s rateId = some { s with nscDown := a, nscUp := b } := by
  obtain ⟨threshold, hthreshold⟩ := getElem?_of_lt (l := rssiThreshold) rfl h
  obtain ⟨id₁, row₁, hid₁, hrow₁⟩ := retryPenalty_row dm.cutI
    (if threshold < s.rssiStaRa then 0 else 1) h
  obtain ⟨id₂, row₂, hid₂, hrow₂⟩ := retryPenalty_up_row dm.cutI h
  refine ⟨weigh s row₁ s.nscDown, weigh s row₂ s.nscUp, ?_⟩
  simp only [weighed, hthreshold, Option.bind_eq_bind, Option.bind_some, hid₁, hrow₁, hid₂, hrow₂]
  rfl

theorem moved_some (h : InBounds s) (hpre : s.preRate < rateSize)
    (hsame : s.preRate = s.decisionRate) (hw : Waits s) (hrate : rateId < rateSize) :
    ∃ t, moved s rateId = some t ∧ Moved s t := by
  obtain ⟨low, hlow⟩ := getElem?_of_lt (l := nThresholdLow) rfl hrate
  obtain ⟨high, hhigh⟩ := getElem?_of_lt (l := nThresholdHigh) rfl hrate
  obtain ⟨droping, hdroping⟩ := getElem?_of_lt (l := dropingNecessary) rfl hrate
  simp only [moved, hlow, hhigh, hdroping, Option.bind_eq_bind, Option.bind_some]
  split_ifs
  · exact odmRateDown_some h hpre hw
  · exact odmRateUp_some h hpre hw
  · exact ⟨s, rfl, rfl, rfl, rfl, rfl, hw, hsame ▸ hpre, fun _ => Or.inl hsame.symm⟩

/-- A report leads to a decision when the station is past the report after a drop and
not in power training. -/
def Decides (s : RaInfo) (r : TxReport) : Prop :=
  s.active = true ∧ s.raDropAfterDown = 0 ∧ (s.ptActive = true → s.raStage < 5) ∧
    r.rty[0] + r.rty[1] + r.rty[2] + r.rty[3] + r.rty[4] + r.drop ≠ 0

/-- A rate that was changed is enabled, and so is one that was confirmed if it was
enabled before. -/
def Decided (s t : RaInfo) : Prop :=
  t.raUseRate ≠ 0 → t.decisionRate ≠ s.decisionRate ∨ s.enabled s.decisionRate = true →
    t.enabled t.decisionRate = true

theorem Moved.decided (h : Moved s t) (hsame : s.preRate = s.decisionRate) : Decided s t := by
  intro hne hcase
  have henabled : t.enabled = s.enabled := by
    funext i
    rw [RaInfo.enabled, RaInfo.enabled, h.use]
  rw [h.use] at hne
  rw [henabled]
  rcases h.chosen.kept hne with hkept | hmask
  · rw [hkept, hsame] at hcase ⊢
    exact hcase.resolve_left fun hne => hne rfl
  · exact hmask

theorem startRaDecision_some (dm : Dm) (h : Sound s) (counter : ℕ) :
    ∃ t k, startRaDecision dm s counter = some (t, k) ∧ Sound t ∧ Decided s t := by
  have hpre : s.preRate < rateSize := h.same ▸ h.decision
  have hrate : (if s.highestRate < s.preRate then s.highestRate else s.preRate) < rateSize := by
    split
    · exact h.highest
    · exact hpre
  simp only [startRaDecision]
  generalize (if s.highestRate < s.preRate then s.highestRate else s.preRate) = rateId at hrate
  obtain ⟨a, b, hweighed⟩ := weighed_some dm s hrate
  have hbounds : InBounds { s with nscDown := a, nscUp := b } := ⟨h.highest, h.lowest, h.enabled⟩
  obtain ⟨u, hmoved, hu⟩ := moved_some hbounds hpre h.same h.waits hrate
  simp only [hweighed, hmoved, Option.bind_eq_bind, Option.bind_some]
  generalize (if u.decisionRate = u.preRate then counter + 1 else 0) = counter'
  obtain ⟨v, hv⟩ : ∃ v, extendTiming u counter' = some { u with rptTime := v } := by
    rw [extendTiming]
    split
    · exact odmSetTxRptTiming_some u 1
    · exact ⟨u.rptTime, rfl⟩
  obtain ⟨n, hn⟩ := odmResetRaCounter_some
    (s := { u with rptTime := v, preRate := u.decisionRate }) hu.chosen.lt
  simp only [hv, hn, Option.bind_some]
  refine ⟨_, _, rfl, ⟨⟨?_, ?_, ?_⟩, ?_, hu.chosen.lt, rfl, hu.waits⟩, ?_⟩
  · exact hu.highest ▸ h.highest
  · exact hu.lowest ▸ h.lowest
  · intro hne
    simp only [RaInfo.enabled, hu.use, hu.highest, hu.lowest] at hne ⊢
    exact h.enabled hne
  · exact h.bounds.imp (hu.use.trans ·) (bounds_congr hu.use hu.highest hu.lowest).mpr
  · exact hu.decided h.same

theorem odmRateDecision_some (dm : Dm) (h : Sound s) (counter : ℕ) :
    ∃ t k, odmRateDecision dm s counter = some (t, k) ∧ Sound t ∧
      (s.active = true → 0 < s.total → s.raDropAfterDown = 0 → Decided s t) := by
  simp only [odmRateDecision]
  split_ifs with hactive hdrop hrssi
  · obtain ⟨n, hn⟩ := odmResetRaCounter_some
      (s := { s with raDropAfterDown := s.raDropAfterDown - 1 }) h.decision
    simp only [hn, Option.bind_eq_bind, Option.bind_some]
    exact ⟨_, _, rfl, ⟨⟨h.highest, h.lowest, h.enabled⟩, h.bounds, h.decision, h.same, h.waits⟩,
      fun _ _ hzero => absurd hzero hdrop⟩
  · have hsound : Sound { s with
        preRssiStaRa := s.rssiStaRa, raWaitingCounter := 0, raPendingCounter := 0 } :=
      ⟨⟨h.highest, h.lowest, h.enabled⟩, h.bounds, h.decision, h.same,
        waits_of_le (Nat.zero_le 4) (Nat.zero_le 4)⟩
    obtain ⟨t, k, hsome, ht, hdec⟩ := startRaDecision_some dm hsound counter
    exact ⟨t, k, hsome, ht, fun _ _ _ => hdec⟩
  · obtain ⟨t, k, hsome, ht, hdec⟩ := startRaDecision_some dm h counter
    exact ⟨t, k, hsome, ht, fun _ _ _ => hdec⟩
  · exact ⟨s, counter, rfl, h, fun ha ht => absurd ⟨ha, ht⟩ hactive⟩

/-! ## Runs -/

theorem odmPtTryState_keeps (s : RaInfo) (noisy : Bool) : odmPtTryState s noisy = { s with
    ptTryState := (odmPtTryState s noisy).ptTryState
    ptStage := (odmPtTryState s noisy).ptStage
    ptStopCount := (odmPtTryState s noisy).ptStopCount
    ptPreRate := (odmPtTryState s noisy).ptPreRate
    ptPreRssi := (odmPtTryState s noisy).ptPreRssi
    raStage := (odmPtTryState s noisy).raStage } := by
  simp only [odmPtTryState]
  split_ifs <;> rfl

theorem Sound.congr (h : Sound s) (hpre : t.preRate = s.preRate)
    (hdec : t.decisionRate = s.decisionRate) (huse : t.raUseRate = s.raUseRate)
    (hhigh : t.highestRate = s.highestRate) (hlow : t.lowestRate = s.lowestRate)
    (hw : t.raWaitingCounter = s.raWaitingCounter)
    (hp : t.raPendingCounter = s.raPendingCounter) : Sound t := by
  refine ⟨⟨hhigh ▸ h.highest, hlow ▸ h.lowest, fun hne => ?_⟩, ?_, hdec ▸ h.decision, ?_, ?_⟩
  · simp only [RaInfo.enabled, huse, hhigh, hlow] at hne ⊢
    exact h.enabled hne
  · exact h.bounds.imp (huse.trans ·) (bounds_congr huse hhigh hlow).mpr
  · rw [hpre, hdec, h.same]
  · rw [Waits, hw, hp]
    exact h.waits

theorem odmPtTryState_sound (h : Sound s) (noisy : Bool) : Sound (odmPtTryState s noisy) := by
  rw [odmPtTryState_keeps s noisy]
  exact h.congr rfl rfl rfl rfl rfl rfl rfl

theorem odmPtDecision_sound (h : Sound s) : Sound (odmPtDecision s) :=
  h.congr rfl rfl rfl rfl rfl rfl rfl

theorem odmRaTxRpt2Handle_some (dm : Dm) (h : Sound s) (r : TxReport) :
    ∃ t, odmRaTxRpt2Handle dm s r = some t ∧ Sound t ∧ (Decides s r → Decided s t) := by
  have hcounts : Sound { s with
      rty := r.rty, drop := r.drop
      total := r.rty[0] + r.rty[1] + r.rty[2] + r.rty[3] + r.rty[4] + r.drop } :=
    h.congr rfl rfl rfl rfl rfl rfl rfl
  obtain ⟨t, k, hsome, ht, hdec⟩ := odmRateDecision_some dm hcounts r.counter
  have hdecided (hd : Decides s r) : Decided s t :=
    hdec hd.1 (Nat.pos_of_ne_zero hd.2.2.2) hd.2.1
  simp only [odmRaTxRpt2Handle]
  split_ifs with htotal hpt hstage htry
  · simp only [hsome, Option.map_some, Option.bind_eq_bind, Option.bind_some]
    exact ⟨_, rfl, ht.congr rfl rfl rfl rfl rfl rfl rfl, hdecided⟩
  · have hsound := odmPtTryState_sound hcounts r.noisy
    simp only [Option.bind_eq_bind, Option.bind_some]
    exact ⟨_, rfl, hsound.congr rfl rfl rfl rfl rfl rfl rfl,
      fun hd => absurd (hd.2.2.1 hpt) hstage⟩
  · have hsound := odmPtDecision_sound hcounts
    simp only [Option.bind_eq_bind, Option.bind_some]
    exact ⟨_, rfl, hsound.congr rfl rfl rfl rfl rfl rfl rfl,
      fun hd => absurd (hd.2.2.1 hpt) hstage⟩
  · exact ⟨t, by simp only [hsome, Option.map_some], ht, hdecided⟩
  · exact ⟨_, rfl, hcounts, fun hd => absurd hd.2.2.2 htotal⟩

def Event.BuiltIn : Event → Prop
  | .update rateId _ _ => rateId ≤ 6
  | _ => True

theorem phydmRaUpdate_some (dm : Dm) (h : Sound s) (hid : rateId ≤ 6) (mask : Mask) (sgi : ℕ) :
    ∃ t, phydmRaUpdate dm s rateId mask sgi = some t ∧ Sound t ∧ Bounds t := by
  obtain ⟨t, hsome, hbounds, hin, hframe⟩ := odmArfbRefresh_some dm
    { s with rateId := rateId, rateMask := mask, sgiEnable := sgi } hid
  refine ⟨t, hsome, ⟨hin, Or.inr hbounds, ?_, ?_, ?_⟩, hbounds⟩
  · rw [hframe]
    exact h.decision
  · rw [hframe]
    exact h.same
  · rw [hframe]
    exact h.waits

/-- What a step does to a sound station: it comes to an end, a mask update sets the
bounds, and a decision comes to a rate of the mask. -/
def Steps (dm : Dm) (s : RaInfo) (e : Event) : Prop :=
  ∃ t, step dm s e = some t ∧ Sound t ∧
    match e with
    | .update .. => Bounds t
    | .rssi _ => True
    | .txReport r => Decides s r → Decided s t

theorem step_some (dm : Dm) (h : Sound s) {e : Event} (he : e.BuiltIn) : Steps dm s e := by
  cases e with
  | update rateId mask sgi => exact phydmRaUpdate_some dm h he mask sgi
  | rssi rssi => exact ⟨_, rfl, h.congr rfl rfl rfl rfl rfl rfl rfl, trivial⟩
  | txReport r => exact odmRaTxRpt2Handle_some dm h r

theorem odmRaInfoInit_sound : Sound odmRaInfoInit := by
  refine ⟨⟨by decide, by decide, fun _ => by decide⟩, Or.inl rfl, by decide, rfl, ?_⟩
  exact waits_of_le (by decide) (by decide)

/-- A station after any sequence of mask updates, RSSI updates and reports. -/
theorem adaptation_sound (dm : Dm) (es : List Event) (hes : ∀ e ∈ es, e.BuiltIn) :
    ∃ s, es.foldlM (step dm) odmRaInfoInit = some s ∧ Sound s ∧
      ∀ e : Event, e.BuiltIn → Steps dm s e := by
  obtain ⟨s, hrun, hs⟩ : ∃ s, es.foldlM (step dm) odmRaInfoInit = some s ∧ Sound s := by
    have hinit := odmRaInfoInit_sound
    generalize odmRaInfoInit = s₀ at hinit
    induction es generalizing s₀ with
    | nil => exact ⟨s₀, rfl, hinit⟩
    | cons e es ih =>
      obtain ⟨t, hsome, ht, -⟩ := step_some dm hinit (hes e List.mem_cons_self)
      obtain ⟨s, hrun, hs⟩ := ih (fun e he => hes e (List.mem_cons_of_mem _ he)) t ht
      refine ⟨s, ?_, hs⟩
      rw [List.foldlM_cons, hsome]
      exact hrun
  exact ⟨s, hrun, hs, fun e he => step_some dm hs he⟩

/-- Only CCK rates are left, and a report neither poor enough to go down nor good enough
to go up is met. -/
def cckOnly : List Event := [.update 6 0xffffffff#32 0]

def middlingReport : TxReport where
  rty := #v[0, 0, 2, 0, 18]
  drop := 0

theorem adaptation_sound_cck : ∃ s, cckOnly.foldlM (step {}) odmRaInfoInit = some s ∧ Sound s ∧
    ∀ e : Event, e.BuiltIn → Steps {} s e :=
  adaptation_sound {} cckOnly (by
    intro e he
    rw [List.mem_singleton.mp he]
    exact Nat.le_refl 6)

/-- The rate 19 is confirmed although the mask left only the rates 0, 2 and 3. -/
theorem confirmed_rate_disabled : ∃ s t, cckOnly.foldlM (step {}) odmRaInfoInit = some s ∧
    Decides s middlingReport ∧ step {} s (.txReport middlingReport) = some t ∧
    t.raUseRate ≠ 0 ∧ t.decisionRate = 19 ∧ t.enabled t.decisionRate = false := by
  refine ⟨_, _, rfl, ?_, rfl, by decide, by decide, by decide⟩
  exact ⟨by decide, by decide, by decide, by decide⟩

end Rtl8189.RateAdaptive
