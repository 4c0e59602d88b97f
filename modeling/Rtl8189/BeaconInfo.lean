import Rtl8189.BssCaps

/-!
# The ERP and HT operation elements of the beacon

The elements are rewritten when the capability counters of the BSS move in certain
ways: the ERP element with the first and the last non-ERP station, the HT operation
element with a new operation mode or a coexistence report.
-/
namespace Rtl8189.BeaconInfo

open ApBss AsocLists BssCaps EventRun FlagCount StaInfo

structure Bss where
  erpEnable : Bool
  htOption : Bool
  htInfoEnable : Bool
  htSupported : Bool
  curChannel : ℕ
  /-- `IEEE80211_HT_CAP_SUP_WIDTH` of the access point. -/
  supWidth : Bool
  /-- `cur_bwmode >= CHANNEL_WIDTH_40` -/
  bw40 : Bool
  offsetLower : Bool
  erp_enabled : erpEnable = true
  ht_option : htOption = true
  ht_info_enabled : htInfoEnable = true
  ht_supported : htSupported = true
  channel_le : curChannel ≤ 14

structure State where
  ap : Ap
  /-- The octet of the ERP element. -/
  erp : BitVec 8
  /-- `infos[0]` of the HT operation element. -/
  htInfo : BitVec 8
  /-- `infos[1]` and `infos[2]`. -/
  htOpInfo : BitVec 16
  htOpMode : BitVec 16
  swTo20mhz : Bool := false
  ht20mhzWidthReq : Bool := false
  htIntolerantChReported : Bool := false
  olbc : Bool := false
  olbcHt : Bool := false

def setBits {w : ℕ} (x mask : BitVec w) (on : Bool) : BitVec w :=
  if on then x ||| mask else x &&& ~~~mask

def setField {w : ℕ} (x mask v : BitVec w) : BitVec w := (x &&& ~~~mask) ||| v

def State.num (s : State) (c : Cap) : ℤ := s.ap.numSta c

def erpInfo (num : Cap → ℤ) (erp : BitVec 8) : BitVec 8 :=
  setBits (setBits erp 3 (num .nonErp = 1)) 4 (0 < num .noShortPreamble)

def updateBcnErpinfoIe (e : Bss) (s : State) : State :=
  if e.erpEnable then { s with erp := erpInfo s.num s.erp } else s

def State.wants20mhz (s : State) : Bool :=
  0 < s.num .ht40mhzIntolerant || s.ht20mhzWidthReq || s.htIntolerantChReported || s.olbc

/-- The secondary channel is withdrawn, or given back. -/
def switchWidth (e : Bss) (s : State) : State :=
  if s.swTo20mhz = false ∧ e.curChannel ≤ 14 then
    if s.wants20mhz then
      { s with htInfo := setField (setField s.htInfo 3 0) 4 0, swTo20mhz := true }
    else s
  else if s.num .ht40mhzIntolerant = 0 ∧ s.ht20mhzWidthReq = false ∧
      s.htIntolerantChReported = false ∧ s.olbc = false ∧ e.bw40 = true then
    { s with
      htInfo := setField (setField s.htInfo 4 4) 3 (if e.offsetLower then 1 else 3)
      swTo20mhz := false }
  else s

def updateBcnHtinfoIe (e : Bss) (s : State) : State :=
  if e.htOption = false then s
  else if e.htInfoEnable = false then s
  else
    let s := switchWidth e s
    { s with htOpInfo := s.htOpMode }

/-- A bit of the operation mode follows its condition; whether it changed. -/
def followBit (m bit : BitVec 16) (on : Bool) : BitVec 16 × ℕ :=
  if m &&& bit = 0#16 ∧ on = true then (m ||| bit, 1)
  else if m &&& bit ≠ 0#16 ∧ on = false then (m &&& ~~~bit, 1)
  else (m, 0)

def newOpMode (e : Bss) (num : Cap → ℤ) (olbcHt : Bool) : BitVec 16 :=
  if num .noHt ≠ 0 then 3
  else if e.supWidth ∧ num .ht20mhz ≠ 0 then 2
  else if olbcHt then 1
  else 0

/-- The mode and the number of changes. -/
def rtwHtOperationUpdate (e : Bss) (num : Cap → ℤ) (olbcHt : Bool) (m : BitVec 16) :
    BitVec 16 × ℕ :=
  if e.htOption = false then (m, 0)
  else
    let gf := followBit m 4 (num .htNoGf ≠ 0)
    let nonHt := followBit gf.1 16 (num .noHt ≠ 0 ∨ olbcHt = true)
    let new := newOpMode e num olbcHt
    if nonHt.1 &&& 3 ≠ new then (setField nonHt.1 3 new, gf.2 + nonHt.2 + 1)
    else (nonHt.1, gf.2 + nonHt.2)

def htRefresh (e : Bss) (s : State) : State :=
  let r := rtwHtOperationUpdate e s.num s.olbcHt s.htOpMode
  let s := { s with htOpMode := r.1 }
  if 0 < r.2 then updateBcnHtinfoIe e s else s

/-- `nonerp_set` and its counter; the first and the last station rewrite the element. -/
def putNonErp (e : Bss) (s : State) (i : ℕ) (b : Bool) : State :=
  let t := { s with ap := s.ap.putCap i .nonErp b }
  if s.ap.capSet i .nonErp ≠ b ∧ t.num .nonErp = (if b then 1 else 0) then
    updateBcnErpinfoIe e t
  else t

/-- The HT part of `bss_cap_update_on_sta_join`. -/
def htCaps (ap : Ap) (i : ℕ) (psta : Sta) : Ap :=
  if psta.flags.ht then
    let htCapab := le16 psta.htCap 0
    let ap := ap.clearCap i .noHt
    let ap := if htCapab.testBit 4 then ap else ap.setCap i .htNoGf
    let ap := if htCapab.testBit 1 then ap else ap.setCap i .ht20mhz
    if htCapab.testBit 14 then ap.setCap i .ht40mhzIntolerant else ap
  else ap.setCap i .noHt

def bssCapUpdateOnStaJoin (e : Bss) (s : State) (i : ℕ) (psta : Sta) : State :=
  let s := { s with ap := s.ap.putCap i .noShortPreamble !psta.flags.shortPreamble }
  let s := putNonErp e s i psta.flags.nonErp
  let s := { s with ap := s.ap.putCap i .noShortSlotTime !psta.capability.testBit 10 }
  if e.htSupported = false then s
  else htRefresh e { s with ap := htCaps s.ap i psta }

def bssCapUpdateOnStaLeave (e : Bss) (s : State) (i : ℕ) : State :=
  let s := { s with ap := s.ap.clearCap i .noShortPreamble }
  let s := putNonErp e s i false
  let ap := s.ap.clearCap i .noShortSlotTime
  let ap := ap.clearCap i .htNoGf
  let ap := ap.clearCap i .noHt
  let ap := ap.clearCap i .ht20mhz
  htRefresh e { s with ap := ap.clearIntolerant i }

def bsscoexReport (s : State) (i : ℕ) (body : List UInt8) : State × Bool :=
  if 0 < body.length ∧ byteAt body 2 = 72 ∧ 0 < byteAt body 3 then
    if (byteAt body 4).testBit 1 then
      if s.ap.capSet i .ht40mhzIntolerant then (s, false)
      else ({ s with ap := s.ap.setCap i .ht40mhzIntolerant }, true)
    else if (byteAt body 4).testBit 2 then
      ({ s with ht20mhzWidthReq := true }, !s.ht20mhzWidthReq)
    else (s, false)
  else (s, false)

def rtwProcessPublicActBsscoex (e : Bss) (s : State) (i : ℕ) (body : List UInt8) : State :=
  let r := bsscoexReport s i body
  let s := r.1
  let chl := decide (8 < body.length ∧ byteAt body 5 = 73 ∧ 0 < byteAt body 6)
  let updated := r.2 || (chl && !s.htIntolerantChReported)
  let s := { s with htIntolerantChReported := s.htIntolerantChReported || chl }
  if updated then updateBcnHtinfoIe e s else s

inductive Event where
  /-- Also of a station that is on `asoc_list`. -/
  | join (i : ℕ) (psta : Sta)
  | leave (i : ℕ)
  | coex (i : ℕ) (body : List UInt8)

def State.listed (s : State) (i : ℕ) : State :=
  if i ∈ s.ap.priv.asocList then s else { s with ap := s.ap.addAsoc i }

def step (e : Bss) (s : State) : Event → State
  | .join i psta => bssCapUpdateOnStaJoin e (s.listed i) i psta
  | .leave i =>
    if i ∈ s.ap.priv.asocList then
      bssCapUpdateOnStaLeave e { s with ap := s.ap.delAsoc i } i
    else s
  | .coex i body =>
    if i ∈ s.ap.priv.asocList then rtwProcessPublicActBsscoex e s i body else s

/-! ## Bits -/

theorem getLsbD_setBits {w : ℕ} (x mask : BitVec w) (on : Bool) (k : ℕ) :
    (setBits x mask on).getLsbD k = if mask.getLsbD k then on else x.getLsbD k := by
  unfold setBits
  cases on with
  | true =>
    simp only [if_true, BitVec.getLsbD_or]
    cases mask.getLsbD k <;> simp
  | false =>
    simp only [Bool.false_eq_true, if_false, BitVec.getLsbD_and, BitVec.getLsbD_not]
    by_cases hk : k < w
    · cases mask.getLsbD k <;> simp [hk]
    · simp [BitVec.getLsbD_of_ge _ _ (Nat.le_of_not_lt hk)]

theorem setField_and {w : ℕ} {x mask v c : BitVec w} (hc : mask &&& c = 0#w) (hv : v &&& c = 0#w) :
    setField x mask v &&& c = x &&& c := by
  have hnot : ~~~mask &&& c = c := by
    apply BitVec.eq_of_getLsbD_eq
    intro k hk
    have hbit := congrArg (BitVec.getLsbD · k) hc
    simp only [BitVec.getLsbD_and, BitVec.getLsbD_zero, BitVec.getLsbD_not, hk] at hbit ⊢
    cases hm : mask.getLsbD k <;> simp [hm] at hbit ⊢
    exact hbit
  rw [setField, BitVec.and_or_distrib_right, hv, BitVec.and_assoc, hnot, BitVec.or_zero]

theorem setField_self {w : ℕ} {x mask v : BitVec w} (hv : v &&& mask = v) :
    setField x mask v &&& mask = v := by
  have hnot : ~~~mask &&& mask = 0#w := by
    apply BitVec.eq_of_getLsbD_eq
    intro k hk
    simp
  rw [setField, BitVec.and_or_distrib_right, hv, BitVec.and_assoc, hnot, BitVec.and_zero,
    BitVec.zero_or]

theorem followBit_cases (m : BitVec 16) {bit : BitVec 16} (hbit : bit ≠ 0#16) (on : Bool) :
    (followBit m bit on = (m, 0) ∧ (m &&& bit ≠ 0#16 ↔ on = true)) ∨
      ((followBit m bit on).2 = 1 ∧ ((followBit m bit on).1 &&& bit ≠ 0#16 ↔ on = true) ∧
        ¬ (m &&& bit ≠ 0#16 ↔ on = true) ∧
        ∀ c, bit &&& c = 0#16 → (followBit m bit on).1 &&& c = m &&& c) := by
  have hand : (m ||| bit) &&& bit = bit := by
    rw [BitVec.and_or_distrib_right, BitVec.and_self]
    apply BitVec.eq_of_getLsbD_eq
    intro k hk
    simp only [BitVec.getLsbD_or, BitVec.getLsbD_and]
    cases m.getLsbD k <;> cases bit.getLsbD k <;> rfl
  have hset : ∀ c, bit &&& c = 0#16 → (m ||| bit) &&& c = m &&& c := by
    intro c hc
    rw [BitVec.and_or_distrib_right, hc, BitVec.or_zero]
  have hclear : ∀ c, bit &&& c = 0#16 → (m &&& ~~~bit) &&& c = m &&& c := by
    intro c hc
    have h := setField_and (x := m) (v := 0#16) hc (BitVec.zero_and)
    rwa [setField, BitVec.or_zero] at h
  have hoff : (m &&& ~~~bit) &&& bit = 0#16 := by
    have h : setField m bit 0#16 &&& bit = 0#16 := setField_self BitVec.zero_and
    rwa [setField, BitVec.or_zero] at h
  unfold followBit
  by_cases hm : m &&& bit = 0#16
  · cases on with
    | true =>
      rw [if_pos ⟨hm, rfl⟩]
      refine .inr ⟨rfl, ?_, by simp [hm], hset⟩
      rw [hand]
      exact ⟨fun _ => rfl, fun _ => hbit⟩
    | false => exact .inl ⟨by simp [hm], by simp [hm]⟩
  · cases on with
    | true => exact .inl ⟨by simp [hm], by simp [hm]⟩
    | false =>
      rw [if_neg (fun h => hm h.1), if_pos ⟨hm, rfl⟩]
      refine .inr ⟨rfl, ?_, by simp [hm], hclear⟩
      rw [hoff]
      simp

/-! ## The operation mode -/

/-- The mode in force is not the one that the counters call for. -/
def Stale (e : Bss) (num : Cap → ℤ) (olbcHt : Bool) (m : BitVec 16) : Prop :=
  ¬ (m &&& 4 ≠ 0#16 ↔ num .htNoGf ≠ 0) ∨ ¬ (m &&& 16 ≠ 0#16 ↔ num .noHt ≠ 0 ∨ olbcHt = true) ∨
    m &&& 3 ≠ newOpMode e num olbcHt

instance (e : Bss) (num : Cap → ℤ) (olbcHt : Bool) (m : BitVec 16) :
    Decidable (Stale e num olbcHt m) := inferInstanceAs (Decidable (_ ∨ _ ∨ _))

theorem newOpMode_and (e : Bss) (num : Cap → ℤ) (olbcHt : Bool) :
    newOpMode e num olbcHt &&& 3 = newOpMode e num olbcHt ∧
      newOpMode e num olbcHt &&& 4 = 0#16 := by
  unfold newOpMode
  split
  · decide
  · split
    · decide
    · split <;> decide

structure ModeSpec (e : Bss) (num : Cap → ℤ) (olbcHt : Bool) (m : BitVec 16)
    (r : BitVec 16 × ℕ) : Prop where
  mode : r.1 &&& 3 = newOpMode e num olbcHt
  nonGf : r.1 &&& 4 ≠ 0#16 ↔ num .htNoGf ≠ 0
  same : r.2 = 0 → r.1 = m
  changed : 0 < r.2 ↔ Stale e num olbcHt m

theorem htOperationUpdate_spec (e : Bss) (num : Cap → ℤ) (olbcHt : Bool) (m : BitVec 16) :
    ModeSpec e num olbcHt m (rtwHtOperationUpdate e num olbcHt m) := by
  obtain ⟨hnew3, hnew4⟩ := newOpMode_and e num olbcHt
  have hgf := followBit_cases m (by decide : (4 : BitVec 16) ≠ 0#16) (num .htNoGf ≠ 0)
  rw [decide_eq_true_eq] at hgf
  unfold rtwHtOperationUpdate
  rw [if_neg (by rw [e.ht_option]; decide)]
  dsimp only
  generalize followBit m 4 (num .htNoGf ≠ 0) = gf at hgf ⊢
  have hnh := followBit_cases gf.1 (by decide : (16 : BitVec 16) ≠ 0#16)
    (num .noHt ≠ 0 ∨ olbcHt = true)
  rw [decide_eq_true_eq] at hnh
  generalize followBit gf.1 16 (num .noHt ≠ 0 ∨ olbcHt = true) = nh at hnh ⊢
  -- what the first two bits leave alone
  have hgf3 : gf.1 &&& 3 = m &&& 3 := by
    obtain ⟨rfl, -⟩ | ⟨-, -, -, hc⟩ := hgf
    · rfl
    · exact hc 3 (by decide)
  have hgf16 : gf.1 &&& 16 = m &&& 16 := by
    obtain ⟨rfl, -⟩ | ⟨-, -, -, hc⟩ := hgf
    · rfl
    · exact hc 16 (by decide)
  have hgf4 : gf.1 &&& 4 ≠ 0#16 ↔ num .htNoGf ≠ 0 := by
    obtain ⟨rfl, hr⟩ | ⟨-, hr, -⟩ := hgf
    · exact hr
    · exact hr
  have hnh3 : nh.1 &&& 3 = m &&& 3 := by
    rw [← hgf3]
    obtain ⟨rfl, -⟩ | ⟨-, -, -, hc⟩ := hnh
    · rfl
    · exact hc 3 (by decide)
  have hnh4 : nh.1 &&& 4 = gf.1 &&& 4 := by
    obtain ⟨rfl, -⟩ | ⟨-, -, -, hc⟩ := hnh
    · rfl
    · exact hc 4 (by decide)
  have hgf2 : gf.2 = 0 ↔ (m &&& 4 ≠ 0#16 ↔ num .htNoGf ≠ 0) := by
    obtain ⟨rfl, hr⟩ | ⟨h1, -, hr, -⟩ := hgf
    · exact ⟨fun _ => hr, fun _ => rfl⟩
    · exact ⟨fun h0 => absurd (h1.symm.trans h0) Nat.one_ne_zero, fun h => absurd h hr⟩
  have hnh2 : nh.2 = 0 ↔ (m &&& 16 ≠ 0#16 ↔ num .noHt ≠ 0 ∨ olbcHt = true) := by
    rw [← hgf16]
    obtain ⟨rfl, hr⟩ | ⟨h1, -, hr, -⟩ := hnh
    · exact ⟨fun _ => hr, fun _ => rfl⟩
    · exact ⟨fun h0 => absurd (h1.symm.trans h0) Nat.one_ne_zero, fun h => absurd h hr⟩
  have hsame : gf.2 = 0 → nh.2 = 0 → nh.1 = m := by
    intro h0 h0'
    obtain ⟨rfl, -⟩ | ⟨h1, -⟩ := hgf
    · obtain ⟨rfl, -⟩ | ⟨h1, -⟩ := hnh
      · rfl
      · exact absurd (h1.symm.trans h0') Nat.one_ne_zero
    · exact absurd (h1.symm.trans h0) Nat.one_ne_zero
  by_cases hmode : nh.1 &&& 3 ≠ newOpMode e num olbcHt
  · rw [if_pos hmode]
    refine ⟨setField_self hnew3, ?_, fun h => absurd h (Nat.succ_ne_zero _), ?_⟩
    · rw [setField_and (by decide) hnew4, hnh4]
      exact hgf4
    · exact ⟨fun _ => .inr (.inr (hnh3 ▸ hmode)), fun _ => Nat.succ_pos _⟩
  · rw [if_neg hmode]
    have heq : m &&& 3 = newOpMode e num olbcHt := hnh3 ▸ not_not.1 hmode
    refine ⟨not_not.1 hmode, ?_, ?_, ?_⟩
    · rw [hnh4]
      exact hgf4
    · intro h
      exact hsame (by omega) (by omega)
    · rw [Stale, ← hgf2, ← hnh2]
      constructor
      · intro h
        by_cases h0 : gf.2 = 0
        · exact .inr (.inl (by omega))
        · exact .inl h0
      · rintro (h | h | h)
        · omega
        · omega
        · exact absurd heq h

/-! ## What the beacon says -/

def State.has (s : State) (c : Cap) : Prop := ∃ i ∈ s.ap.priv.asocList, s.ap.capSet i c = true

instance (s : State) (c : Cap) : Decidable (s.has c) := inferInstanceAs (Decidable (∃ i ∈ _, _))

structure Tells (e : Bss) (has : Cap → Prop) (s : State) : Prop where
  nonErpPresent : s.erp.getLsbD 0 = true ↔ has .nonErp
  useProtection : s.erp.getLsbD 1 = true ↔ has .nonErp
  barkerPreamble : s.erp.getLsbD 2 = true ↔ has .noShortPreamble
  mixed : s.htOpInfo &&& 3 = 3 ↔ has .noHt
  protection20 : s.htOpInfo &&& 3 = 2 ↔ ¬ has .noHt ∧ e.supWidth = true ∧ has .ht20mhz
  nonGf : s.htOpInfo &&& 4 ≠ 0#16 ↔ has .htNoGf
  secondary : has .ht40mhzIntolerant → s.htInfo &&& 3 = 0#8

def Truthful (e : Bss) (s : State) : Prop := Tells e s.has s

structure Inv (s : State) : Prop where
  nodup : s.ap.priv.asocList.Nodup
  tallies : Tallies s.ap.priv.asocList s.ap.capSet s.ap.numSta
  idle : ∀ i ∉ s.ap.priv.asocList, ∀ c, s.ap.capSet i c = false
  opInfo : s.htOpInfo = s.htOpMode
  switched : s.swTo20mhz = true → s.htInfo &&& 3 = 0#8

theorem has_iff {s : State} (h : Tallies s.ap.priv.asocList s.ap.capSet s.ap.numSta) (c : Cap) :
    s.has c ↔ 0 < s.num c := by
  rw [State.num, h c, Int.natCast_pos, List.countP_pos_iff]
  rfl

theorem truthful_iff {e : Bss} {s : State}
    (h : Tallies s.ap.priv.asocList s.ap.capSet s.ap.numSta) :
    Truthful e s ↔ Tells e (0 < s.num ·) s := by
  rw [Truthful, show s.has = (0 < s.num ·) from funext fun c => propext (has_iff h c)]

/-! ## The refreshes -/

structure SameCaps (s t : State) : Prop where
  ap : t.ap = s.ap
  olbcHt : t.olbcHt = s.olbcHt
  htOpMode : t.htOpMode = s.htOpMode

theorem switchWidth_same (e : Bss) (s : State) : SameCaps s (switchWidth e s) := by
  unfold switchWidth
  split
  · split <;> exact ⟨rfl, rfl, rfl⟩
  · split <;> exact ⟨rfl, rfl, rfl⟩

theorem switchWidth_frame (e : Bss) (s : State) :
    (switchWidth e s).erp = s.erp ∧ (switchWidth e s).htOpInfo = s.htOpInfo := by
  unfold switchWidth
  split
  · split <;> exact ⟨rfl, rfl⟩
  · split <;> exact ⟨rfl, rfl⟩

theorem switchWidth_switched (e : Bss) {s : State}
    (h : s.swTo20mhz = true → s.htInfo &&& 3 = 0#8) :
    (switchWidth e s).swTo20mhz = true → (switchWidth e s).htInfo &&& 3 = 0#8 := by
  unfold switchWidth
  split
  · split
    · intro _
      change setField (setField s.htInfo 3 0) 4 0 &&& 3 = 0#8
      rw [setField_and (by decide) (by decide)]
      exact setField_self (by decide)
    · exact h
  · split
    · exact fun h => nomatch h
    · exact h

theorem switchWidth_secondary (e : Bss) {s : State}
    (h : s.swTo20mhz = true → s.htInfo &&& 3 = 0#8) (hnum : 0 < s.num .ht40mhzIntolerant) :
    (switchWidth e s).htInfo &&& 3 = 0#8 := by
  have hwants : s.wants20mhz = true := by
    simp only [State.wants20mhz, hnum, decide_true, Bool.true_or]
  unfold switchWidth
  by_cases hsw : s.swTo20mhz = false
  · rw [if_pos ⟨hsw, e.channel_le⟩, if_pos hwants]
    change setField (setField s.htInfo 3 0) 4 0 &&& 3 = 0#8
    rw [setField_and (by decide) (by decide)]
    exact setField_self (by decide)
  · rw [if_neg (fun hc => hsw hc.1), if_neg (by omega)]
    exact h (eq_true_of_ne_false hsw)

theorem updateBcnHtinfoIe_eq (e : Bss) (s : State) :
    updateBcnHtinfoIe e s =
      { switchWidth e s with htOpInfo := (switchWidth e s).htOpMode } := by
  unfold updateBcnHtinfoIe
  rw [if_neg (by rw [e.ht_option]; decide), if_neg (by rw [e.ht_info_enabled]; decide)]

/-- What `rtw_ht_operation_update` and the rewriting leave. -/
structure Refreshed (e : Bss) (s t : State) : Prop where
  ap : t.ap = s.ap
  erp : t.erp = s.erp
  opInfo : t.htOpInfo = t.htOpMode
  mode : t.htOpMode &&& 3 = newOpMode e s.num s.olbcHt
  nonGf : t.htOpMode &&& 4 ≠ 0#16 ↔ s.num .htNoGf ≠ 0
  switched : t.swTo20mhz = true → t.htInfo &&& 3 = 0#8
  secondary : 0 < s.num .ht40mhzIntolerant →
    (t.htInfo &&& 3 = 0#8 ↔
      s.htInfo &&& 3 = 0#8 ∨ Stale e s.num s.olbcHt s.htOpMode)

theorem htRefresh_spec (e : Bss) {s : State} (hop : s.htOpInfo = s.htOpMode)
    (hsw : s.swTo20mhz = true → s.htInfo &&& 3 = 0#8) : Refreshed e s (htRefresh e s) := by
  have hspec := htOperationUpdate_spec e s.num s.olbcHt s.htOpMode
  unfold htRefresh
  generalize rtwHtOperationUpdate e s.num s.olbcHt s.htOpMode = r at hspec ⊢
  obtain ⟨m, n⟩ := r
  dsimp only
  by_cases hn : 0 < n
  · rw [if_pos hn, updateBcnHtinfoIe_eq]
    let s' : State := { s with htOpMode := m }
    have hsame := switchWidth_same e s'
    refine ⟨hsame.ap, (switchWidth_frame e s').1, rfl, ?_, ?_,
      switchWidth_switched e (s := s') hsw, ?_⟩
    · exact (congrArg (· &&& 3) hsame.htOpMode).trans hspec.mode
    · rw [show ({ switchWidth e s' with htOpInfo := (switchWidth e s').htOpMode } :
        State).htOpMode = m from hsame.htOpMode]
      exact hspec.nonGf
    · intro hnum
      refine ⟨fun _ => .inr (hspec.changed.1 hn), fun _ => ?_⟩
      exact switchWidth_secondary e (s := s') hsw hnum
  · rw [if_neg hn]
    have hm : m = s.htOpMode := hspec.same (Nat.eq_zero_of_not_pos hn)
    refine ⟨rfl, rfl, hop.trans hm.symm, hspec.mode, hspec.nonGf, hsw, ?_⟩
    intro _
    refine ⟨.inl, ?_⟩
    rintro (h | h)
    · exact h
    · exact absurd (hspec.changed.2 h) hn

/-! ## The counters through a join and a leave -/

theorem bssCapUpdateOnStaJoin_eq (s : Ap) (i : ℕ) (psta : Sta) :
    s.bssCapUpdateOnStaJoin true i psta =
      htCaps (((s.putCap i .noShortPreamble !psta.flags.shortPreamble).putCap i .nonErp
        psta.flags.nonErp).putCap i .noShortSlotTime !psta.capability.testBit 10) i psta := by
  simp only [Ap.bssCapUpdateOnStaJoin, htCaps, Bool.true_eq_false, if_false]

theorem setCap_numSta_ne (s : Ap) (i : ℕ) {c d : Cap} (hd : d ≠ c) :
    (s.setCap i c).numSta d = s.numSta d := by
  simp only [Ap.setCap]
  split_ifs
  · rfl
  · exact Function.update_of_ne hd _ _

theorem clearCap_numSta_ne (s : Ap) (i : ℕ) {c d : Cap} (hd : d ≠ c) :
    (s.clearCap i c).numSta d = s.numSta d := by
  simp only [Ap.clearCap]
  split_ifs
  · exact Function.update_of_ne hd _ _
  · rfl

theorem putCap_numSta_ne (s : Ap) (i : ℕ) {c d : Cap} (hd : d ≠ c) (b : Bool) :
    (s.putCap i c b).numSta d = s.numSta d := by
  simp only [Ap.putCap]
  split_ifs
  · exact setCap_numSta_ne s i hd
  · exact clearCap_numSta_ne s i hd

theorem clearIntolerant_numSta_ne (s : Ap) (i : ℕ) {d : Cap} (hd : d ≠ .ht40mhzIntolerant) :
    (s.clearIntolerant i).numSta d = s.numSta d := by
  simp only [Ap.clearIntolerant]
  split_ifs
  · rfl
  · exact clearCap_numSta_ne s i hd

theorem htCaps_numSta (s : Ap) (i : ℕ) (psta : Sta) {d : Cap}
    (hd : d = .nonErp ∨ d = .noShortPreamble) : (htCaps s i psta).numSta d = s.numSta d := by
  have hne : d ≠ .noHt ∧ d ≠ .htNoGf ∧ d ≠ .ht20mhz ∧ d ≠ .ht40mhzIntolerant := by
    rcases hd with rfl | rfl <;> decide
  simp only [htCaps]
  split_ifs <;>
    simp only [setCap_numSta_ne _ _ hne.1, setCap_numSta_ne _ _ hne.2.1,
      setCap_numSta_ne _ _ hne.2.2.1, setCap_numSta_ne _ _ hne.2.2.2, clearCap_numSta_ne _ _ hne.1]

theorem putCap_numSta (s : Ap) (i : ℕ) (c : Cap) (b : Bool) :
    (s.putCap i c b).numSta c = s.numSta c - (s.capSet i c).toNat + b.toNat := by
  simp only [Ap.putCap, Ap.setCap, Ap.clearCap]
  cases b <;> cases hset : s.capSet i c <;> simp

/-! ## The ERP element -/

theorem erpInfo_bit (num : Cap → ℤ) (erp : BitVec 8) (k : ℕ) (hk : k < 2) :
    (erpInfo num erp).getLsbD k = decide (num .nonErp = 1) := by
  have hk2 : k = 0 ∨ k = 1 := by omega
  rw [erpInfo, getLsbD_setBits, getLsbD_setBits]
  rcases hk2 with rfl | rfl <;> rfl

theorem erpInfo_barker (num : Cap → ℤ) (erp : BitVec 8) :
    (erpInfo num erp).getLsbD 2 = decide (0 < num .noShortPreamble) := by
  rw [erpInfo, getLsbD_setBits, getLsbD_setBits]
  rfl

/-- The element before and after `num_sta_non_erp` moved from `n` to `n'`. -/
structure ErpMoved (n n' : ℤ) (num : Cap → ℤ) (erp erp' : BitVec 8) : Prop where
  same : (0 < n' ↔ 0 < n) → erp' = erp
  rewritten : ¬ (0 < n' ↔ 0 < n) →
    (erp'.getLsbD 0 = true ↔ 0 < n') ∧ (erp'.getLsbD 1 = true ↔ 0 < n') ∧
      (erp'.getLsbD 2 = true ↔ 0 < num .noShortPreamble)

theorem putNonErp_eq (e : Bss) (s : State) (i : ℕ) (b : Bool) :
    putNonErp e s i b =
      { s with
        ap := s.ap.putCap i .nonErp b
        erp :=
          if s.ap.capSet i .nonErp ≠ b ∧
              (s.ap.putCap i .nonErp b).numSta .nonErp = (if b then 1 else 0) then
            erpInfo (s.ap.putCap i .nonErp b).numSta s.erp
          else s.erp } := by
  unfold putNonErp updateBcnErpinfoIe
  rw [e.erp_enabled]
  by_cases h : s.ap.capSet i .nonErp ≠ b ∧
      (s.ap.putCap i .nonErp b).numSta .nonErp = (if b then 1 else 0)
  · rw [if_pos h]
    exact if_pos h
  · rw [if_neg h]
    exact if_neg h

theorem putNonErp_erp (e : Bss) {s : State} (i : ℕ) (b : Bool)
    (hnonneg : 0 ≤ s.num .nonErp) (hset : s.ap.capSet i .nonErp = true → 0 < s.num .nonErp) :
    ErpMoved (s.num .nonErp) ((putNonErp e s i b).num .nonErp) (putNonErp e s i b).num s.erp
      (putNonErp e s i b).erp := by
  rw [putNonErp_eq]
  change ErpMoved (s.num .nonErp) ((s.ap.putCap i .nonErp b).numSta .nonErp)
    (s.ap.putCap i .nonErp b).numSta s.erp (if _ then _ else _)
  have hnum : (s.ap.putCap i .nonErp b).numSta .nonErp =
      s.num .nonErp - (s.ap.capSet i .nonErp).toNat + b.toNat := putCap_numSta s.ap i .nonErp b
  have hcond : (s.ap.capSet i .nonErp ≠ b ∧
      (s.ap.putCap i .nonErp b).numSta .nonErp = (if b then 1 else 0)) ↔
      ¬ (0 < (s.ap.putCap i .nonErp b).numSta .nonErp ↔ 0 < s.num .nonErp) := by
    rw [hnum]
    cases b <;> cases hs : s.ap.capSet i .nonErp <;> simp [hs] at hset ⊢ <;> omega
  refine ⟨fun hsame => if_neg (fun h => hcond.1 h hsame), ?_⟩
  intro hdiff
  have hone : (s.ap.putCap i .nonErp b).numSta .nonErp = 1 ↔
      0 < (s.ap.putCap i .nonErp b).numSta .nonErp := by
    rw [(hcond.2 hdiff).2]
    cases b <;> simp
  rw [if_pos (hcond.2 hdiff)]
  refine ⟨?_, ?_, ?_⟩
  · rw [erpInfo_bit _ _ 0 (by decide), decide_eq_true_eq]
    exact hone
  · rw [erpInfo_bit _ _ 1 (by decide), decide_eq_true_eq]
    exact hone
  · rw [erpInfo_barker, decide_eq_true_eq]

/-! ## A join or a leave as a whole -/

/-- From the counters and elements of `s` to those of `t`. -/
structure Updated (e : Bss) (s t : State) : Prop where
  erp : ErpMoved (s.num .nonErp) (t.num .nonErp) t.num s.erp t.erp
  opInfo : t.htOpInfo = t.htOpMode
  mode : t.htOpMode &&& 3 = newOpMode e t.num s.olbcHt
  nonGf : t.htOpMode &&& 4 ≠ 0#16 ↔ t.num .htNoGf ≠ 0
  switched : t.swTo20mhz = true → t.htInfo &&& 3 = 0#8
  secondary : 0 < t.num .ht40mhzIntolerant →
    (t.htInfo &&& 3 = 0#8 ↔ s.htInfo &&& 3 = 0#8 ∨ Stale e t.num s.olbcHt s.htOpMode)

/-- The common course of the two: the ERP counters, then the others, then the refresh. -/
theorem updated_of_refresh (e : Bss) {s s₁ : State} {i : ℕ} {b : Bool} {ap : Ap}
    (hop : s.htOpInfo = s.htOpMode) (hsw : s.swTo20mhz = true → s.htInfo &&& 3 = 0#8)
    (hs₁ : s₁ = { s with ap := s₁.ap }) (hnum : s₁.num .nonErp = s.num .nonErp)
    (hnonneg : 0 ≤ s.num .nonErp) (hset : s₁.ap.capSet i .nonErp = true → 0 < s.num .nonErp)
    (hap : ∀ d, d = .nonErp ∨ d = .noShortPreamble →
      ap.numSta d = (putNonErp e s₁ i b).num d) :
    Updated e s (htRefresh e { putNonErp e s₁ i b with ap := ap }) := by
  have herp := putNonErp_erp e (s := s₁) i b (by rw [hnum]; exact hnonneg)
    (fun h => by rw [hnum]; exact hset h)
  have hframe := putNonErp_eq e s₁ i b
  generalize putNonErp e s₁ i b = s₂ at herp hframe hap ⊢
  have hop₂ : s₂.htOpInfo = s₂.htOpMode := by
    rw [hframe, hs₁]
    exact hop
  have hsw₂ : s₂.swTo20mhz = true → s₂.htInfo &&& 3 = 0#8 := by
    rw [hframe, hs₁]
    exact hsw
  have hr := htRefresh_spec e (s := { s₂ with ap := ap }) hop₂ hsw₂
  generalize htRefresh e { s₂ with ap := ap } = t at hr ⊢
  have ht : t.num = ap.numSta := congrArg Ap.numSta hr.ap
  have hnum₂ : ({ s₂ with ap := ap } : State).num = ap.numSta := rfl
  have holbc : s₂.olbcHt = s.olbcHt := by rw [hframe, hs₁]
  have hm₂ : s₂.htOpMode = s.htOpMode := by rw [hframe, hs₁]
  have hi₂ : s₂.htInfo = s.htInfo := by rw [hframe, hs₁]
  have he₁ : s₁.erp = s.erp := by rw [hs₁]
  have hmode := hr.mode
  have hnonGf := hr.nonGf
  have hsec := hr.secondary
  rw [hnum₂] at hmode hnonGf hsec
  rw [hnum, he₁] at herp
  refine ⟨?_, hr.opInfo, ?_, ?_, hr.switched, ?_⟩
  · refine ⟨?_, ?_⟩
    · rw [ht, hap .nonErp (.inl rfl), hr.erp]
      exact herp.same
    · rw [ht, hap .nonErp (.inl rfl), hap .noShortPreamble (.inr rfl), hr.erp]
      exact herp.rewritten
  · rw [ht, hmode]
    exact congrArg (newOpMode e ap.numSta) holbc
  · rw [ht]
    exact hnonGf
  · rw [ht]
    intro hpos
    have h := hsec hpos
    change _ ↔ s₂.htInfo &&& 3 = 0#8 ∨ Stale e ap.numSta s₂.olbcHt s₂.htOpMode at h
    rwa [hi₂, holbc, hm₂] at h

theorem htRefresh_ap (e : Bss) (s : State) : (htRefresh e s).ap = s.ap := by
  unfold htRefresh
  dsimp only
  split
  · rw [updateBcnHtinfoIe_eq]
    exact (switchWidth_same e _).ap
  · rfl

theorem join_ap (e : Bss) (s : State) (i : ℕ) (psta : Sta) :
    (bssCapUpdateOnStaJoin e s i psta).ap = s.ap.bssCapUpdateOnStaJoin true i psta := by
  rw [bssCapUpdateOnStaJoin_eq, bssCapUpdateOnStaJoin]
  dsimp only
  rw [if_neg (by rw [e.ht_supported]; decide), htRefresh_ap, putNonErp_eq]

theorem leave_ap (e : Bss) (s : State) (i : ℕ) :
    (bssCapUpdateOnStaLeave e s i).ap = s.ap.bssCapUpdateOnStaLeave i := by
  rw [bssCapUpdateOnStaLeave, Ap.bssCapUpdateOnStaLeave, htRefresh_ap, putNonErp_eq]
  simp only [Ap.putCap, Bool.false_eq_true, if_false]

theorem putCap_capSet_ne (s : Ap) (i : ℕ) {c d : Cap} (hd : d ≠ c) (b : Bool) :
    (s.putCap i c b).capSet i d = s.capSet i d := by
  simp only [Ap.putCap]
  split_ifs
  · simp only [Ap.setCap]
    split_ifs
    · rfl
    · simp only [Function.update_self]
      exact Function.update_of_ne hd _ _
  · rw [clearCap_capSet, if_neg (fun h => hd h.2)]

theorem join_updated (e : Bss) {s : State} (i : ℕ) (psta : Sta)
    (hop : s.htOpInfo = s.htOpMode) (hsw : s.swTo20mhz = true → s.htInfo &&& 3 = 0#8)
    (hnonneg : 0 ≤ s.num .nonErp) (hset : s.ap.capSet i .nonErp = true → 0 < s.num .nonErp) :
    Updated e s (bssCapUpdateOnStaJoin e s i psta) := by
  rw [bssCapUpdateOnStaJoin]
  dsimp only
  rw [if_neg (by rw [e.ht_supported]; decide)]
  refine updated_of_refresh e hop hsw rfl (putCap_numSta_ne _ i (by decide) _) hnonneg ?_ ?_
  · intro h
    exact hset (by rwa [putCap_capSet_ne s.ap i (by decide)] at h)
  · intro d hd
    rw [htCaps_numSta _ i psta hd]
    exact putCap_numSta_ne _ i (by rcases hd with rfl | rfl <;> decide) _

theorem leave_updated (e : Bss) {s : State} (i : ℕ)
    (hop : s.htOpInfo = s.htOpMode) (hsw : s.swTo20mhz = true → s.htInfo &&& 3 = 0#8)
    (hnonneg : 0 ≤ s.num .nonErp) (hset : s.ap.capSet i .nonErp = true → 0 < s.num .nonErp) :
    Updated e s (bssCapUpdateOnStaLeave e s i) := by
  rw [bssCapUpdateOnStaLeave]
  refine updated_of_refresh e hop hsw rfl (clearCap_numSta_ne _ i (by decide)) hnonneg ?_ ?_
  · intro h
    rw [clearCap_capSet, if_neg (fun hc => nomatch hc.2)] at h
    exact hset h
  · intro d hd
    have hne : d ≠ .ht40mhzIntolerant ∧ d ≠ .ht20mhz ∧ d ≠ .noHt ∧ d ≠ .htNoGf ∧
        d ≠ .noShortSlotTime := by
      rcases hd with rfl | rfl <;> decide
    rw [clearIntolerant_numSta_ne _ i hne.1, clearCap_numSta_ne _ i hne.2.1,
      clearCap_numSta_ne _ i hne.2.2.1, clearCap_numSta_ne _ i hne.2.2.2.1,
      clearCap_numSta_ne _ i hne.2.2.2.2]
    rfl

/-- What a join or a leave has to do that takes the counters to `num`: with the first
or last station without short preamble goes the first or last non-ERP station; the
secondary channel is withdrawn already, or the operation mode changes. -/
def Settled (e : Bss) (s : State) (num : Cap → ℤ) : Prop :=
  ((0 < num .noShortPreamble ↔ 0 < s.num .noShortPreamble) ∨
    ¬ (0 < num .nonErp ↔ 0 < s.num .nonErp)) ∧
  (0 < num .ht40mhzIntolerant → s.htInfo &&& 3 = 0#8 ∨ Stale e num s.olbcHt s.htOpMode)

instance (e : Bss) (s : State) (num : Cap → ℤ) : Decidable (Settled e s num) :=
  inferInstanceAs (Decidable ((_ ∨ ¬ (_ ↔ _)) ∧ (_ → _)))

theorem newOpMode_eq_three (e : Bss) (num : Cap → ℤ) (olbcHt : Bool) :
    newOpMode e num olbcHt = 3 ↔ num .noHt ≠ 0 := by
  unfold newOpMode
  by_cases h : num .noHt ≠ 0
  · simp [h]
  · rw [if_neg h]
    refine iff_of_false ?_ h
    split
    · decide
    · split <;> decide

theorem newOpMode_eq_two (e : Bss) (num : Cap → ℤ) (olbcHt : Bool) :
    newOpMode e num olbcHt = 2 ↔ ¬ num .noHt ≠ 0 ∧ e.supWidth = true ∧ num .ht20mhz ≠ 0 := by
  unfold newOpMode
  by_cases h : num .noHt ≠ 0
  · rw [if_pos h]
    exact iff_of_false (by decide) (fun hc => hc.1 h)
  · rw [if_neg h]
    by_cases h20 : e.supWidth = true ∧ num .ht20mhz ≠ 0
    · rw [if_pos h20]
      exact iff_of_true rfl ⟨h, h20⟩
    · rw [if_neg h20]
      refine iff_of_false ?_ (fun hc => h20 hc.2)
      split <;> decide

theorem Updated.tells_iff {e : Bss} {s t : State} (h : Updated e s t)
    (hs : Tells e (0 < s.num ·) s) (hnonneg : ∀ c, 0 ≤ t.num c) :
    Tells e (0 < t.num ·) t ↔ Settled e s t.num := by
  have hpos (c : Cap) : t.num c ≠ 0 ↔ 0 < t.num c := by
    have := hnonneg c
    omega
  constructor
  · intro ht
    refine ⟨?_, fun hn => (h.secondary hn).1 (ht.secondary hn)⟩
    by_cases herp : 0 < t.num .nonErp ↔ 0 < s.num .nonErp
    · left
      have hbit := ht.barkerPreamble
      rw [h.erp.same herp, hs.barkerPreamble] at hbit
      exact hbit.symm
    · exact .inr herp
  · rintro ⟨hshort, hsec⟩
    have hmode : t.htOpInfo &&& 3 = newOpMode e t.num s.olbcHt := by
      rw [h.opInfo]
      exact h.mode
    have hnonErp : ∀ k, (k = 0 ∨ k = 1) → (t.erp.getLsbD k = true ↔ 0 < t.num .nonErp) := by
      intro k hk
      by_cases herp : 0 < t.num .nonErp ↔ 0 < s.num .nonErp
      · rw [h.erp.same herp, herp]
        rcases hk with rfl | rfl
        · exact hs.nonErpPresent
        · exact hs.useProtection
      · rcases hk with rfl | rfl
        · exact (h.erp.rewritten herp).1
        · exact (h.erp.rewritten herp).2.1
    refine ⟨hnonErp 0 (.inl rfl), hnonErp 1 (.inr rfl), ?_, ?_, ?_, ?_, ?_⟩
    · by_cases herp : 0 < t.num .nonErp ↔ 0 < s.num .nonErp
      · rw [h.erp.same herp, hs.barkerPreamble]
        exact (hshort.resolve_right (not_not.2 herp)).symm
      · exact (h.erp.rewritten herp).2.2
    · rw [hmode, newOpMode_eq_three]
      exact hpos .noHt
    · rw [hmode, newOpMode_eq_two, hpos, hpos]
    · rw [h.opInfo, h.nonGf]
      exact hpos .htNoGf
    · exact fun hn => (h.secondary hn).2 (hsec hn)

/-! ## A coexistence report -/

theorem bsscoexReport_frame (s : State) (i : ℕ) (body : List UInt8) :
    (bsscoexReport s i body).1 =
      { s with
        ap := (bsscoexReport s i body).1.ap
        ht20mhzWidthReq := (bsscoexReport s i body).1.ht20mhzWidthReq } := by
  unfold bsscoexReport
  split
  · split
    · split <;> rfl
    · split <;> rfl
  · rfl

theorem bsscoexReport_ap (s : State) (i : ℕ) (body : List UInt8) :
    (bsscoexReport s i body).1.ap = s.ap ∨
      (bsscoexReport s i body).1.ap = s.ap.setCap i .ht40mhzIntolerant ∧
        (bsscoexReport s i body).2 = true := by
  unfold bsscoexReport
  split
  · split
    · split
      · exact .inl rfl
      · exact .inr ⟨rfl, rfl⟩
    · split <;> exact .inl rfl
  · exact .inl rfl

theorem bsscoex_cases (e : Bss) (s : State) (i : ℕ) (body : List UInt8) :
    ∃ u : State, u.erp = s.erp ∧ u.htInfo = s.htInfo ∧ u.htOpInfo = s.htOpInfo ∧
      u.htOpMode = s.htOpMode ∧ u.swTo20mhz = s.swTo20mhz ∧
      (u.ap = s.ap ∨ u.ap = s.ap.setCap i .ht40mhzIntolerant) ∧
      (rtwProcessPublicActBsscoex e s i body = updateBcnHtinfoIe e u ∨
        u.ap = s.ap ∧ rtwProcessPublicActBsscoex e s i body = u) := by
  have hframe := bsscoexReport_frame s i body
  have hap := bsscoexReport_ap s i body
  unfold rtwProcessPublicActBsscoex
  generalize bsscoexReport s i body = r at hframe hap ⊢
  obtain ⟨u, b⟩ := r
  dsimp only at hframe hap ⊢
  let chl := decide (8 < body.length ∧ byteAt body 5 = 73 ∧ 0 < byteAt body 6)
  let v : State := { u with htIntolerantChReported := u.htIntolerantChReported || chl }
  refine ⟨v, ?_, ?_, ?_, ?_, ?_, ?_, ?_⟩
  · change u.erp = s.erp
    rw [hframe]
  · change u.htInfo = s.htInfo
    rw [hframe]
  · change u.htOpInfo = s.htOpInfo
    rw [hframe]
  · change u.htOpMode = s.htOpMode
    rw [hframe]
  · change u.swTo20mhz = s.swTo20mhz
    rw [hframe]
  · exact hap.imp id And.left
  · split
    · exact .inl rfl
    · rename_i hnot
      refine .inr ⟨hap.resolve_right ?_, rfl⟩
      rintro ⟨-, hb⟩
      exact hnot (by rw [hb]; rfl)

/-! ## Steps -/

def Clean (e : Bss) (s : State) : Event → Prop
  | .join i psta => Settled e s ((s.listed i).ap.bssCapUpdateOnStaJoin true i psta).numSta
  | .leave i =>
    i ∈ s.ap.priv.asocList →
      Settled e s ((s.ap.delAsoc i).bssCapUpdateOnStaLeave i).numSta
  | .coex _ _ => True

instance (e : Bss) (s : State) (ev : Event) : Decidable (Clean e s ev) := by
  unfold Clean
  split <;> infer_instance

section Steps

variable {e : Bss} {s : State}

theorem Inv.num_pos (h : Inv s) {i : ℕ} {c : Cap} (hc : s.ap.capSet i c = true) :
    0 < s.num c := by
  by_cases hi : i ∈ s.ap.priv.asocList
  · exact h.tallies.pos hi hc
  · rw [h.idle i hi c] at hc
    exact nomatch hc

theorem Inv.listed (h : Inv s) (i : ℕ) :
    Inv (s.listed i) ∧ i ∈ (s.listed i).ap.priv.asocList ∧ (s.listed i).num = s.num := by
  unfold State.listed
  split
  · rename_i hi
    exact ⟨h, hi, rfl⟩
  · rename_i hi
    have hperm : (s.ap.priv.asocList ++ [i]).Perm (i :: s.ap.priv.asocList) :=
      List.perm_append_singleton i _
    refine ⟨⟨?_, ?_, ?_, h.opInfo, h.switched⟩, ?_, rfl⟩
    · exact hperm.nodup_iff.2 (List.nodup_cons.2 ⟨hi, h.nodup⟩)
    · exact ((tallies_cons (h.idle i hi)).2 h.tallies).perm hperm
    · intro k hk
      exact h.idle k (fun hm => hk (List.mem_append_left _ hm))
    · exact List.mem_append_right _ (List.mem_singleton_self i)

theorem settled_listed (e : Bss) (s : State) (i : ℕ) (num : Cap → ℤ) :
    Settled e (s.listed i) num = Settled e s num := by
  unfold State.listed
  split <;> rfl

theorem Tells.listed {has : Cap → Prop} (h : Tells e has s) (i : ℕ) :
    Tells e has (s.listed i) := by
  unfold State.listed
  split
  · exact h
  · exact ⟨h.nonErpPresent, h.useProtection, h.barkerPreamble, h.mixed, h.protection20, h.nonGf,
      h.secondary⟩

theorem inv_join (e : Bss) (h : Inv s) {i : ℕ} (hi : i ∈ s.ap.priv.asocList) (psta : Sta)
    (hup : Updated e s (bssCapUpdateOnStaJoin e s i psta)) :
    Inv (bssCapUpdateOnStaJoin e s i psta) := by
  have hspec := bssCapUpdateOnStaJoin_spec (i := i)
    (P := fun t => Tallies s.ap.priv.asocList t.capSet t.numSta ∧
      ∀ k, k ≠ i → t.capSet k = s.ap.capSet k)
    (fun t c ht => ⟨setCap_tallies h.nodup hi ht.1 c,
      fun k hk => (setCap_capSet hk c).trans (ht.2 k hk)⟩)
    (fun t c ht => ⟨clearCap_tallies h.nodup hi ht.1 c, fun k hk => by
      funext d
      rw [clearCap_capSet, if_neg fun hc => hk hc.1, ht.2 k hk]⟩)
    (s := s.ap) ⟨h.tallies, fun _ _ => rfl⟩ true psta
  have hlist := (bssCapUpdateOnStaJoin_onlyCaps s.ap true i psta).priv
  refine ⟨?_, ?_, ?_, hup.opInfo, hup.switched⟩
  · rw [join_ap, hlist]
    exact h.nodup
  · rw [join_ap, hlist]
    exact hspec.1
  · rw [join_ap, hlist]
    intro k hk
    have hki : k ≠ i := fun hki => hk (hki ▸ hi)
    rw [hspec.2 k hki]
    exact h.idle k hk

theorem inv_leave (e : Bss) (h : Inv s) {i : ℕ} (hi : i ∈ s.ap.priv.asocList)
    (hup : Updated e { s with ap := s.ap.delAsoc i }
      (bssCapUpdateOnStaLeave e { s with ap := s.ap.delAsoc i } i)) :
    Inv (bssCapUpdateOnStaLeave e { s with ap := s.ap.delAsoc i } i) := by
  obtain ⟨htallies, hcaps⟩ := bssCapUpdateOnStaLeave_spec (s := s.ap.delAsoc i) h.nodup hi h.tallies
  have hlist := (bssCapUpdateOnStaLeave_onlyCaps (s.ap.delAsoc i) i).priv
  refine ⟨?_, ?_, ?_, hup.opInfo, hup.switched⟩
  · rw [leave_ap, hlist]
    exact h.nodup.erase i
  · rw [leave_ap, hlist]
    refine (tallies_cons (i := i) ?_).1 (htallies.perm (List.perm_cons_erase hi).symm)
    intro c
    rw [hcaps, if_pos rfl]
  · rw [leave_ap, hlist]
    intro k hk c
    rw [hcaps]
    split
    · rfl
    · rename_i hki
      refine h.idle k (fun hm => hk ?_) c
      exact (List.mem_erase_of_ne hki).2 hm

theorem coex_step (e : Bss) (h : Inv s) {i : ℕ} (hi : i ∈ s.ap.priv.asocList)
    (body : List UInt8) :
    Inv (rtwProcessPublicActBsscoex e s i body) ∧ (Tells e (0 < s.num ·) s →
      Tells e (0 < (rtwProcessPublicActBsscoex e s i body).num ·)
        (rtwProcessPublicActBsscoex e s i body)) := by
  obtain ⟨u, herp, hinfo, hopi, hopm, hsw, hap, hres⟩ := bsscoex_cases e s i body
  have hnum : ∀ c, c ≠ .ht40mhzIntolerant → u.num c = s.num c := by
    intro c hc
    obtain hap | hap := hap
    · rw [State.num, hap, State.num]
    · rw [State.num, hap, setCap_numSta_ne _ _ hc, State.num]
  have hlist : u.ap.priv = s.ap.priv := by
    obtain hap | hap := hap
    · rw [hap]
    · rw [hap]
      exact (setCap_onlyCaps s.ap i .ht40mhzIntolerant).priv
  have huinv : Inv u := by
    refine ⟨hlist ▸ h.nodup, ?_, ?_, ?_, ?_⟩
    · rw [hlist]
      obtain hap | hap := hap
      · rw [hap]
        exact h.tallies
      · rw [hap]
        exact setCap_tallies h.nodup hi h.tallies _
    · rw [hlist]
      intro k hk c
      obtain hap | hap := hap
      · rw [hap]
        exact h.idle k hk c
      · have hki : k ≠ i := fun hki => hk (hki ▸ hi)
        rw [hap, setCap_capSet hki]
        exact h.idle k hk c
    · rw [hopi, hopm]
      exact h.opInfo
    · rw [hsw, hinfo]
      exact h.switched
  -- all but the secondary channel, for any state with the elements of `u`
  have htells : Tells e (0 < s.num ·) s → ∀ t : State, t.ap = u.ap → t.erp = u.erp →
      t.htOpInfo = u.htOpInfo → (0 < u.num .ht40mhzIntolerant → t.htInfo &&& 3 = 0#8) →
      Tells e (0 < t.num ·) t := by
    intro hs t hta hte hto hsec
    have htnum : ∀ c, t.num c = u.num c := fun c => by rw [State.num, hta, State.num]
    refine ⟨?_, ?_, ?_, ?_, ?_, ?_, ?_⟩
    · rw [hte, herp, htnum, hnum _ (by decide)]
      exact hs.nonErpPresent
    · rw [hte, herp, htnum, hnum _ (by decide)]
      exact hs.useProtection
    · rw [hte, herp, htnum, hnum _ (by decide)]
      exact hs.barkerPreamble
    · rw [hto, hopi, htnum, hnum _ (by decide)]
      exact hs.mixed
    · rw [hto, hopi, htnum, htnum, hnum _ (by decide), hnum _ (by decide)]
      exact hs.protection20
    · rw [hto, hopi, htnum, hnum _ (by decide)]
      exact hs.nonGf
    · rw [htnum]
      exact hsec
  obtain hres | ⟨hsame, hres⟩ := hres
  · rw [hres, updateBcnHtinfoIe_eq]
    have hwidth := switchWidth_same e u
    refine ⟨?_, fun hs => htells hs _ hwidth.ap (switchWidth_frame e u).1 ?_
      (switchWidth_secondary e huinv.switched)⟩
    · refine ⟨?_, ?_, ?_, rfl, switchWidth_switched e huinv.switched⟩
      · change (switchWidth e u).ap.priv.asocList.Nodup
        rw [hwidth.ap]
        exact huinv.nodup
      · change Tallies (switchWidth e u).ap.priv.asocList (switchWidth e u).ap.capSet
          (switchWidth e u).ap.numSta
        rw [hwidth.ap]
        exact huinv.tallies
      · change ∀ k ∉ (switchWidth e u).ap.priv.asocList, ∀ c, (switchWidth e u).ap.capSet k c = false
        rw [hwidth.ap]
        exact huinv.idle
    · change (switchWidth e u).htOpMode = u.htOpInfo
      rw [hwidth.htOpMode, huinv.opInfo]
  · rw [hres]
    refine ⟨huinv, fun hs => htells hs u rfl rfl rfl ?_⟩
    rw [State.num, hsame, hinfo]
    exact hs.secondary

/-- One step keeps the invariant, and keeps the beacon truthful just when it is clean. -/
theorem step_spec (e : Bss) (h : Inv s) (ev : Event) :
    Inv (step e s ev) ∧ (Truthful e s → (Truthful e (step e s ev) ↔ Clean e s ev)) := by
  cases ev with
  | join i psta =>
    obtain ⟨hl, hi, hnum⟩ := h.listed i
    have hup : Updated e (s.listed i) (bssCapUpdateOnStaJoin e (s.listed i) i psta) :=
      join_updated e i psta hl.opInfo hl.switched (hl.tallies.nonneg _) hl.num_pos
    have hinv := inv_join e hl hi psta hup
    have hstep : step e s (.join i psta) = bssCapUpdateOnStaJoin e (s.listed i) i psta := rfl
    have htnum : (bssCapUpdateOnStaJoin e (s.listed i) i psta).num =
        ((s.listed i).ap.bssCapUpdateOnStaJoin true i psta).numSta :=
      congrArg Ap.numSta (join_ap e _ i psta)
    rw [hstep]
    refine ⟨hinv, fun ht => ?_⟩
    rw [truthful_iff h.tallies] at ht
    rw [truthful_iff hinv.tallies, hup.tells_iff ?_ hinv.tallies.nonneg, htnum, settled_listed]
    · rfl
    · rw [hnum]
      exact ht.listed i
  | leave i =>
    by_cases hi : i ∈ s.ap.priv.asocList
    · have hup : Updated e { s with ap := s.ap.delAsoc i }
          (bssCapUpdateOnStaLeave e { s with ap := s.ap.delAsoc i } i) :=
        leave_updated e i h.opInfo h.switched (h.tallies.nonneg _) h.num_pos
      have hinv := inv_leave e h hi hup
      have hstep : step e s (.leave i) =
          bssCapUpdateOnStaLeave e { s with ap := s.ap.delAsoc i } i := if_pos hi
      rw [hstep]
      refine ⟨hinv, fun ht => ?_⟩
      rw [truthful_iff h.tallies] at ht
      rw [truthful_iff hinv.tallies, hup.tells_iff (s := { s with ap := s.ap.delAsoc i })
        ⟨ht.nonErpPresent, ht.useProtection, ht.barkerPreamble, ht.mixed, ht.protection20,
          ht.nonGf, ht.secondary⟩ hinv.tallies.nonneg]
      rw [show (bssCapUpdateOnStaLeave e { s with ap := s.ap.delAsoc i } i).num =
        ((s.ap.delAsoc i).bssCapUpdateOnStaLeave i).numSta from congrArg Ap.numSta (leave_ap e _ i)]
      exact ⟨fun hc _ => hc, fun hc => hc hi⟩
    · have hstep : step e s (.leave i) = s := if_neg hi
      rw [hstep]
      exact ⟨h, fun ht => iff_of_true ht (fun hm => absurd hm hi)⟩
  | coex i body =>
    by_cases hi : i ∈ s.ap.priv.asocList
    · have hstep : step e s (.coex i body) = rtwProcessPublicActBsscoex e s i body := if_pos hi
      obtain ⟨hinv, htells⟩ := coex_step e h hi body
      rw [hstep]
      refine ⟨hinv, fun ht => iff_of_true ?_ trivial⟩
      rw [truthful_iff h.tallies] at ht
      rw [truthful_iff hinv.tallies]
      exact htells ht
    · have hstep : step e s (.coex i body) = s := if_neg hi
      rw [hstep]
      exact ⟨h, fun ht => iff_of_true ht trivial⟩

end Steps

/-! ## Every run -/

structure Start (s : State) : Prop where
  empty : s.ap.priv.asocList = []
  unset : ∀ i c, s.ap.capSet i c = false
  numSta : ∀ c, s.ap.numSta c = 0
  erp : ∀ k < 3, s.erp.getLsbD k = false
  opInfo : s.htOpInfo = s.htOpMode
  noProtection : s.htOpInfo &&& 3 = 0 ∨ s.htOpInfo &&& 3 = 1
  nonGf : s.htOpInfo &&& 4 = 0#16
  wide : s.swTo20mhz = false

theorem Start.inv {s : State} (h : Start s) : Inv s := by
  refine ⟨h.empty ▸ List.nodup_nil, ?_, fun i _ c => h.unset i c, h.opInfo, ?_⟩
  · intro c
    rw [h.numSta c, h.empty]
    rfl
  · rw [h.wide]
    nofun

theorem Start.truthful (e : Bss) {s : State} (h : Start s) : Truthful e s := by
  have hno (c : Cap) : ¬ s.has c := by
    rintro ⟨i, hi, -⟩
    rw [h.empty] at hi
    exact nomatch hi
  have hmode : s.htOpInfo &&& 3 ≠ 3 ∧ s.htOpInfo &&& 3 ≠ 2 := by
    obtain hm | hm := h.noProtection
    · rw [hm]
      decide
    · rw [hm]
      decide
  refine ⟨?_, ?_, ?_, ?_, ?_, ?_, fun hc => absurd hc (hno _)⟩
  · exact iff_of_false (fun hc => nomatch (h.erp 0 (by decide)).symm.trans hc) (hno _)
  · exact iff_of_false (fun hc => nomatch (h.erp 1 (by decide)).symm.trans hc) (hno _)
  · exact iff_of_false (fun hc => nomatch (h.erp 2 (by decide)).symm.trans hc) (hno _)
  · exact iff_of_false hmode.1 (hno _)
  · exact iff_of_false hmode.2 (fun hc => hno _ hc.2.2)
  · exact iff_of_false (fun hc => hc h.nonGf) (hno _)

/-- The beacon tells the truth after every event just when all of them are clean. -/
theorem beacon_run (e : Bss) {s : State} (hs : Start s) (es : List Event) :
    (∀ n, Truthful e (EventRun.run (step e) s (es.take n))) ↔
      EventRun.Along (step e) (Clean e) s es :=
  (EventRun.along_iff (fun _ ev h => (step_spec e h ev).1)
    (fun _ ev h ht => (step_spec e h ev).2 ht) hs.inv (hs.truthful e) es).symm

def channel6 : Bss where
  erpEnable := true
  htOption := true
  htInfoEnable := true
  htSupported := true
  curChannel := 6
  supWidth := true
  bw40 := true
  offsetLower := true
  erp_enabled := rfl
  ht_option := rfl
  ht_info_enabled := rfl
  ht_supported := rfl
  channel_le := by decide

def quiet : State where
  ap := startAp 32
  erp := 0
  htInfo := 7
  htOpInfo := 0
  htOpMode := 0

def dsss : Sta := { flags := { nonErp := true } }

def ht40 (shortPreamble intolerant : Bool) : Sta where
  flags := { shortPreamble, ht := true }
  htCap := [0x12, if intolerant then 0x40 else 0]

/-- The Barker bit is missed, left behind, and the secondary channel kept. -/
theorem stale_beacon :
    ¬ Truthful channel6 (EventRun.run (step channel6) quiet [.join 1 (ht40 false false)]) ∧
      ¬ Truthful channel6 (EventRun.run (step channel6) quiet
        [.join 1 dsss, .join 2 (ht40 false false), .leave 1, .leave 2]) ∧
      ¬ Truthful channel6 (EventRun.run (step channel6) quiet [.join 1 (ht40 true true)]) :=
  ⟨fun h => absurd h.barkerPreamble (by decide +kernel),
    fun h => absurd h.barkerPreamble (by decide +kernel),
    fun h => absurd h.secondary (by decide +kernel)⟩

theorem quiet_start : Start quiet where
  empty := rfl
  unset := fun _ _ => rfl
  numSta := fun _ => rfl
  erp := by decide
  opInfo := rfl
  noProtection := .inl rfl
  nonGf := rfl
  wide := rfl

def mixedVisits : List Event :=
  [.join 1 (ht40 true false), .coex 1 [4, 0, 72, 1, 2], .join 2 dsss, .join 3 (ht40 true true),
    .leave 2, .leave 3]

theorem beacon_run_visits :
    Truthful channel6 (EventRun.run (step channel6) quiet (mixedVisits.take 5)) ∧
      Truthful channel6 (EventRun.run (step channel6) quiet (mixedVisits.take 6)) :=
  have h := (beacon_run channel6 quiet_start mixedVisits).2 (by decide +kernel)
  ⟨h 5, h 6⟩

end Rtl8189.BeaconInfo
