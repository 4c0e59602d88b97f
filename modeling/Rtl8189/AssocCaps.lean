import Mathlib.Logic.Function.Basic
import Rtl8189.ElementWalk
import Rtl8189.EventRun

/-!
# Capabilities from an association response

`OnAssocRsp` hands the elements of a response to handlers that keep what they say in
`mlme_ext_info`. `HT_caps_handler` ANDs an element into the capability of the station, as many bytes
as the element has.
-/
namespace Rtl8189.AssocCaps

open AccessTrace ElementWalk EventRun

/-- The handlers' settings, and where the compiler puts `HT_info` behind `HT_cap`. -/
structure CapsCfg extends HandlerCfg where
  defaultSupportedMcsSet : ℕ → UInt8
  txNss : ℕ
  htInfo : ℕ
  htInfo_behind : 26 ≤ htInfo

/-- Where `HT_info` ends. -/
def CapsCfg.htInfoEnd (cfg : CapsCfg) : ℕ := cfg.htInfo + 22

structure MlmeExtInfo where
  wmmEnable : Bool
  wmmParam : List UInt8
  erpEnable : Bool
  erpIe : UInt8
  htCapsEnable : Bool
  htInfoEnable : Bool
  /-- the bytes from `HT_caps` on: it, `HT_info`, and what is behind them -/
  tail : ℕ → UInt8
  /-- `ldpc_cap` and `stbc_cap` of the station -/
  tx : HtTx

section Handlers

variable (cfg : CapsCfg) (mem : List UInt8) (s : MlmeExtInfo) (pos : ℕ)

/-- `pIE->data[i]` -/
def elemByte (i : ℕ) : UInt8 := mem.getD (pos + 2 + i) 0

def ampduPara (own ap : UInt8) : UInt8 :=
  (if ap &&& 0x3 < own &&& 0x3 then ap &&& 0x3 else own &&& 0x3) |||
    if ap &&& 0x1c < own &&& 0x1c then own &&& 0x1c else ap &&& 0x1c

def andCaps (data : ℕ → UInt8) : ℕ → (ℕ → UInt8) → ℕ → UInt8
  | 0, caps => caps
  | n + 1, caps =>
    Function.update (andCaps data n caps) n
      (if n ≠ 2 then andCaps data n caps n &&& data n
      else ampduPara (andCaps data n caps 2) (data 2))

/-- `MCS_RATE_1R` and so on, where the number of streams is expected. -/
def mcsRate : ℕ → Option ℕ
  | 1 => some 0x000000ff
  | 2 => some 0x0000ffff
  | 3 => some 0x00ffffff
  | 4 => some 0xffffffff
  | _ => none

def setMcsRateByMask (k : ℕ) (rate : UInt8) : UInt8 :=
  match mcsRate cfg.txNss with
  | some mask => if k < 4 then rate &&& UInt8.ofNat (mask / 256 ^ k) else rate
  | none => rate

def updateMcs (caps : ℕ → UInt8) (i : ℕ) : UInt8 :=
  if 3 ≤ i ∧ i < 19 then
    setMcsRateByMask cfg (i - 3) (caps i &&& cfg.defaultSupportedMcsSet (i - 3))
  else caps i

def htCapsHandler : MlmeExtInfo :=
  if cfg.htOption then
    { s with
      htCapsEnable := true
      tail := updateMcs cfg (andCaps (elemByte mem pos) (length mem pos) s.tail)
      tx := ElementWalk.htCapsHandler mem pos cfg.toHandlerCfg s.tx }
  else s

def htInfoHandler : MlmeExtInfo :=
  if cfg.htOption ∧ length mem pos ≤ 22 then
    { s with
      htInfoEnable := true
      tail := fun i =>
        if cfg.htInfo ≤ i ∧ i < cfg.htInfo + length mem pos then elemByte mem pos (i - cfg.htInfo)
        else s.tail i }
  else s

def wmmParamHandler : MlmeExtInfo :=
  if cfg.qosOption then
    if s.wmmParam = (List.range 18).map fun i => elemByte mem pos (6 + i) then s
    else
      { s with
        wmmParam := (List.range 18).map fun i => elemByte mem pos (6 + i)
        wmmEnable := true }
  else { s with wmmEnable := false }

def erpIeHandler : MlmeExtInfo :=
  if length mem pos ≤ 1 then
    { s with
      erpEnable := true
      erpIe := if length mem pos = 1 then elemByte mem pos 0 else s.erpIe }
  else s

/-- The `switch` over the id of an element. -/
def onIe : MlmeExtInfo :=
  if elementId mem pos = 221 then
    if Matches mem (pos + 2) wmmParaOui then wmmParamHandler cfg mem s pos else s
  else if elementId mem pos = 45 then htCapsHandler cfg mem s pos
  else if elementId mem pos = 61 then htInfoHandler cfg mem s pos
  else if elementId mem pos = 42 then erpIeHandler mem s pos
  else s

end Handlers

def iesFrom (mem : List UInt8) (pktLen : ℕ) : ℕ → ℕ → List ℕ
  | 0, _ => []
  | n + 1, i => if i < pktLen then i :: iesFrom mem pktLen n (i + (length mem i + 2)) else []

def assocIes (f : MgntFrame) : List ℕ := iesFrom f.mem f.pktLen f.pktLen 30

def Processed (ad : Joining) (s : MlmeExtInfo) (f : MgntFrame) : Prop :=
  (assocStart f.mem ad s.tx).isRight = true

instance (ad : Joining) (s : MlmeExtInfo) (f : MgntFrame) : Decidable (Processed ad s f) :=
  inferInstanceAs (Decidable (_ = _))

def onAssocRsp (ad : Joining) (cfg : CapsCfg) (s : MlmeExtInfo) (f : MgntFrame) : MlmeExtInfo :=
  if Processed ad s f then run (onIe cfg f.mem) s (assocIes f) else s

/-! ## What is meant -/

def ReadsInside (cfg : CapsCfg) (mem : List UInt8) (s : MlmeExtInfo) (pos : ℕ) : Prop :=
  Within (pos + 2 + length mem pos) (assocVisit mem pos cfg.toHandlerCfg s.tx).ops

/-- The HT capability elements of a response are this one, of 26 bytes. -/
def OnlyCaps (mem : List UInt8) (ies : List ℕ) (pos : ℕ) : Prop :=
  ies.filter (elementId mem · = 45) = [pos] ∧ length mem pos = 26

def Contained (x y : UInt8) : Prop := x &&& y = x

def maxLenExp (x : UInt8) : ℕ := x.toNat % 4

def minSpacing (x : UInt8) : ℕ := x.toNat / 4 % 8

/-- The capability is the meet of the station's own and the AP's. -/
structure Meets (mcs own ap caps : ℕ → UInt8) : Prop where
  bytes : ∀ i < 26, i ≠ 2 → ¬ (3 ≤ i ∧ i < 19) → caps i = own i &&& ap i
  maxLenExp : maxLenExp (caps 2) = min (maxLenExp (own 2)) (maxLenExp (ap 2))
  minSpacing : minSpacing (caps 2) = max (minSpacing (own 2)) (minSpacing (ap 2))
  mcsOwn : ∀ k < 16, Contained (caps (3 + k)) (own (3 + k))
  mcsAp : ∀ k < 16, Contained (caps (3 + k)) (ap (3 + k))
  mcsDefault : ∀ k < 16, Contained (caps (3 + k)) (mcs k)

/-- What the handlers are to do with a response that is processed. -/
structure Handled (cfg : CapsCfg) (mem : List UInt8) (s : MlmeExtInfo) (ies : List ℕ)
    (out : MlmeExtInfo) : Prop where
  reads : Along (onIe cfg mem) (ReadsInside cfg mem) s ies
  outside : ∀ i, cfg.htInfoEnd ≤ i → out.tail i = s.tail i
  meets : ∀ pos, OnlyCaps mem ies pos →
    Meets cfg.defaultSupportedMcsSet s.tail (elemByte mem pos) out.tail

/-! ## When they do -/

/-- What is read at fixed places is in the element, and an HT capability element that reaches over
`HT_info` clears no bit there. -/
def ElemFits (cfg : CapsCfg) (mem : List UInt8) (s : MlmeExtInfo) (pos : ℕ) : Prop :=
  assocNeed mem pos cfg.toHandlerCfg s.tx ≤ 2 + length mem pos ∧
    (elementId mem pos = 45 → cfg.htOption = true → ∀ i, cfg.htInfoEnd ≤ i → i < length mem pos →
      Contained (s.tail i) (elemByte mem pos i))

section Proofs

variable {cfg : CapsCfg} {mem : List UInt8} {s : MlmeExtInfo} {pos : ℕ}

theorem reads_iff : ReadsInside cfg mem s pos ↔
    assocNeed mem pos cfg.toHandlerCfg s.tx ≤ 2 + length mem pos := by
  have hasks := @assoc_asks mem pos (pos + 2 + length mem pos) cfg.toHandlerCfg s.tx
  have hneed : pos + assocNeed mem pos cfg.toHandlerCfg s.tx ≤ pos + 2 + length mem pos ↔
      assocNeed mem pos cfg.toHandlerCfg s.tx ≤ 2 + length mem pos := by omega
  rw [← hneed, ← hasks]
  exact ⟨fun h => ⟨by omega, h, fun _ => by omega⟩, fun h => h.2.1⟩

theorem andCaps_apply (data caps : ℕ → UInt8) (n i : ℕ) : andCaps data n caps i =
    if i < n then if i ≠ 2 then caps i &&& data i else ampduPara (caps 2) (data 2)
    else caps i := by
  induction n generalizing i with
  | zero => rfl
  | succ n ih =>
    rw [andCaps]
    by_cases hi : i = n
    · subst hi
      rw [Function.update_self, if_pos (Nat.lt_succ_self i), ih i, if_neg (Nat.lt_irrefl i)]
      by_cases htwo : i = 2
      · subst htwo
        rw [if_neg (not_not.mpr rfl), if_neg (not_not.mpr rfl), ih 2, if_neg (Nat.lt_irrefl 2)]
      · rw [if_pos htwo, if_pos htwo]
    · rw [Function.update_of_ne hi, ih i]
      by_cases hlt : i < n
      · have hsucc : i < n + 1 := Nat.lt_succ_of_lt hlt
        rw [if_pos hlt, if_pos hsucc]
      · have hsucc : ¬ i < n + 1 := by omega
        rw [if_neg hlt, if_neg hsucc]

theorem contained_refl (x : UInt8) : Contained x x := UInt8.and_self

theorem Contained.trans {x y z : UInt8} (hxy : Contained x y) (hyz : Contained y z) :
    Contained x z := by
  rw [Contained] at *
  rw [← hxy, UInt8.and_assoc, hyz]

theorem Contained.antisymm {x y : UInt8} (hxy : Contained x y) (hyx : Contained y x) : x = y := by
  rw [Contained] at *
  rw [← hxy, UInt8.and_comm, hyx]

theorem contained_and_left (x y : UInt8) : Contained (x &&& y) x := by
  rw [Contained, UInt8.and_comm (x &&& y), ← UInt8.and_assoc, UInt8.and_self]

theorem contained_and_right (x y : UInt8) : Contained (x &&& y) y := by
  rw [Contained, UInt8.and_assoc, UInt8.and_self]

theorem setMcsRateByMask_contained (k : ℕ) (rate : UInt8) :
    Contained (setMcsRateByMask cfg k rate) rate := by
  rw [setMcsRateByMask]
  cases mcsRate cfg.txNss with
  | none => exact contained_refl rate
  | some mask =>
    dsimp only
    split
    · exact contained_and_left rate _
    · exact contained_refl rate

/-- Of what is behind `HT_caps`, other elements change `HT_info` only. -/
theorem onIe_other {i : ℕ} (hid : elementId mem pos ≠ 45) (hi : i < 26 ∨ cfg.htInfoEnd ≤ i) :
    (onIe cfg mem s pos).tail i = s.tail i := by
  have hbehind := cfg.htInfo_behind
  rw [CapsCfg.htInfoEnd] at hi
  rw [onIe, if_neg hid]
  split_ifs with hvendor hwmm hinfo herp
  · rw [wmmParamHandler]
    split_ifs <;> rfl
  · rfl
  · rw [htInfoHandler]
    split_ifs with hcopy
    · have hout : ¬ (cfg.htInfo ≤ i ∧ i < cfg.htInfo + length mem pos) := by omega
      exact if_neg hout
    · rfl
  · rw [erpIeHandler]
    split_ifs <;> rfl
  · rfl

theorem onIe_own (hid : elementId mem pos = 45) :
    onIe cfg mem s pos = htCapsHandler cfg mem s pos := by
  have hvendor : elementId mem pos ≠ 221 := by
    rw [hid]
    decide
  rw [onIe, if_neg hvendor, if_pos hid]

/-- Behind `HT_info` an element can only clear bits. -/
theorem onIe_outside {i : ℕ} (hi : cfg.htInfoEnd ≤ i) : (onIe cfg mem s pos).tail i =
    if elementId mem pos = 45 ∧ cfg.htOption = true ∧ i < length mem pos then
      s.tail i &&& elemByte mem pos i
    else s.tail i := by
  by_cases hid : elementId mem pos = 45
  swap
  · rw [onIe_other hid (.inr hi), if_neg fun h => hid h.1]
  have hbehind := cfg.htInfo_behind
  rw [CapsCfg.htInfoEnd] at hi
  rw [onIe_own hid, htCapsHandler]
  by_cases hht : cfg.htOption = true
  · have hmcs : ¬ (3 ≤ i ∧ i < 19) := by omega
    have htwo : i ≠ 2 := by omega
    rw [if_pos hht]
    change updateMcs cfg _ i = _
    rw [updateMcs, if_neg hmcs, andCaps_apply, if_pos htwo]
    by_cases hlt : i < length mem pos
    · rw [if_pos hlt, if_pos ⟨hid, hht, hlt⟩]
    · rw [if_neg hlt, if_neg fun h => hlt h.2.2]
  · rw [if_neg hht, if_neg fun h => hht h.2.1]

theorem run_outside {ies : List ℕ} {i : ℕ} (hi : cfg.htInfoEnd ≤ i) :
    Contained ((run (onIe cfg mem) s ies).tail i) (s.tail i) := by
  induction ies generalizing s with
  | nil => exact contained_refl _
  | cons pos ies ih =>
    refine (@ih (onIe cfg mem s pos)).trans ?_
    rw [onIe_outside hi]
    split
    · exact contained_and_left _ _
    · exact contained_refl _

theorem onIe_keeps_iff : (∀ i, cfg.htInfoEnd ≤ i → (onIe cfg mem s pos).tail i = s.tail i) ↔
    (elementId mem pos = 45 → cfg.htOption = true → ∀ i, cfg.htInfoEnd ≤ i → i < length mem pos →
      Contained (s.tail i) (elemByte mem pos i)) := by
  constructor
  · intro h hid hht i hi hlt
    have hkept := h i hi
    rw [onIe_outside hi, if_pos ⟨hid, hht, hlt⟩] at hkept
    exact hkept
  · intro h i hi
    rw [onIe_outside hi]
    split
    · next hall => exact h hall.1 hall.2.1 i hi hall.2.2
    · rfl

theorem kept_iff {ies : List ℕ} :
    (Along (onIe cfg mem) (ReadsInside cfg mem) s ies ∧
        ∀ i, cfg.htInfoEnd ≤ i → (run (onIe cfg mem) s ies).tail i = s.tail i) ↔
      Along (onIe cfg mem) (ElemFits cfg mem) s ies := by
  induction ies generalizing s with
  | nil => exact iff_of_true ⟨trivial, fun _ _ => rfl⟩ trivial
  | cons pos ies ih =>
    rw [run_cons, Along, Along, ElemFits, reads_iff, ← onIe_keeps_iff, ← ih]
    constructor
    · rintro ⟨⟨hread, hreads⟩, hkept⟩
      have hstep : ∀ i, cfg.htInfoEnd ≤ i → (onIe cfg mem s pos).tail i = s.tail i := by
        intro i hi
        have hfinal := @run_outside cfg mem (onIe cfg mem s pos) ies i hi
        rw [hkept i hi] at hfinal
        have hfirst := @run_outside cfg mem s [pos] i hi
        exact hfirst.antisymm hfinal
      exact ⟨⟨hread, hstep⟩, hreads, fun i hi => (hkept i hi).trans (hstep i hi).symm⟩
    · rintro ⟨⟨hread, hstep⟩, hreads, hkept⟩
      exact ⟨⟨hread, hreads⟩, fun i hi => (hkept i hi).trans (hstep i hi)⟩

theorem run_caps {ies : List ℕ} {i : ℕ} (hi : i < 26) (hids : ∀ pos ∈ ies, elementId mem pos ≠ 45) :
    (run (onIe cfg mem) s ies).tail i = s.tail i := by
  induction ies generalizing s with
  | nil => rfl
  | cons pos ies ih =>
    obtain ⟨hid, hids⟩ := List.forall_mem_cons.mp hids
    exact (ih hids).trans (onIe_other hid (.inl hi))

theorem and_three (x : UInt8) : (x &&& 0x3).toNat = maxLenExp x := by
  rw [UInt8.toNat_and]
  exact Nat.and_two_pow_sub_one_eq_mod x.toNat 2

theorem and_spacing (x : UInt8) : (x &&& 0x1c).toNat = 4 * minSpacing x := by
  have hall : ∀ n < 256, n &&& 28 = 4 * (n / 4 % 8) := by decide +kernel
  rw [UInt8.toNat_and]
  exact hall x.toNat x.toNat_lt

theorem ampduPara_toNat (own ap : UInt8) : (ampduPara own ap).toNat =
    min (maxLenExp own) (maxLenExp ap) + 4 * max (minSpacing own) (minSpacing ap) := by
  have hor : ∀ a < 4, ∀ b < 8, a ||| 4 * b = a + 4 * b := by decide
  have hlen : (if ap &&& 0x3 < own &&& 0x3 then ap &&& 0x3 else own &&& 0x3).toNat =
      min (maxLenExp own) (maxLenExp ap) := by
    rw [← and_three own, ← and_three ap]
    split_ifs with hlt
    · rw [UInt8.lt_iff_toNat_lt] at hlt
      omega
    · rw [UInt8.lt_iff_toNat_lt] at hlt
      omega
  have hspacing : (if ap &&& 0x1c < own &&& 0x1c then own &&& 0x1c else ap &&& 0x1c).toNat =
      4 * max (minSpacing own) (minSpacing ap) := by
    have hown := and_spacing own
    have hap := and_spacing ap
    split_ifs with hlt
    · rw [UInt8.lt_iff_toNat_lt] at hlt
      omega
    · rw [UInt8.lt_iff_toNat_lt] at hlt
      omega
  rw [ampduPara, UInt8.toNat_or, hlen, hspacing]
  refine hor _ ?_ _ ?_
  · rw [maxLenExp, maxLenExp]
    omega
  · rw [minSpacing, minSpacing]
    omega

theorem ampduPara_spec (own ap : UInt8) :
    maxLenExp (ampduPara own ap) = min (maxLenExp own) (maxLenExp ap) ∧
      minSpacing (ampduPara own ap) = max (minSpacing own) (minSpacing ap) := by
  have hsum := ampduPara_toNat own ap
  have hlen : ∀ x, maxLenExp x < 4 := fun x => Nat.mod_lt _ (by decide)
  have hspacing : ∀ x, minSpacing x < 8 := fun x => Nat.mod_lt _ (by decide)
  have h₁ := hlen own
  have h₂ := hlen ap
  have h₃ := hspacing own
  have h₄ := hspacing ap
  constructor
  · rw [maxLenExp, hsum]
    omega
  · rw [minSpacing, hsum]
    omega

theorem onIe_meets (hht : cfg.htOption = true) (hid : elementId mem pos = 45)
    (hlen : length mem pos = 26) :
    Meets cfg.defaultSupportedMcsSet s.tail (elemByte mem pos) (onIe cfg mem s pos).tail := by
  have htail : (onIe cfg mem s pos).tail = updateMcs cfg (andCaps (elemByte mem pos) 26 s.tail) := by
    rw [onIe_own hid, htCapsHandler, if_pos hht, hlen]
  have hmcs : ∀ k < 16, Contained (updateMcs cfg (andCaps (elemByte mem pos) 26 s.tail) (3 + k))
      (s.tail (3 + k) &&& elemByte mem pos (3 + k) &&& cfg.defaultSupportedMcsSet k) := by
    intro k hk
    have hin : 3 ≤ 3 + k ∧ 3 + k < 19 := by omega
    have hlt : 3 + k < 26 := by omega
    have htwo : 3 + k ≠ 2 := by omega
    rw [updateMcs, if_pos hin, andCaps_apply, if_pos hlt, if_pos htwo, Nat.add_sub_cancel_left]
    exact setMcsRateByMask_contained k _
  have htwo : updateMcs cfg (andCaps (elemByte mem pos) 26 s.tail) 2 =
      ampduPara (s.tail 2) (elemByte mem pos 2) := by
    rw [updateMcs, if_neg (by decide), andCaps_apply]
    rfl
  rw [htail]
  refine ⟨fun i hi hne hout => ?_, ?_, ?_, ?_, ?_, ?_⟩
  · rw [updateMcs, if_neg hout, andCaps_apply, if_pos hi, if_pos hne]
  · rw [htwo]
    exact (ampduPara_spec _ _).1
  · rw [htwo]
    exact (ampduPara_spec _ _).2
  · exact fun k hk => (hmcs k hk).trans
      ((contained_and_left _ _).trans (contained_and_left _ _))
  · exact fun k hk => (hmcs k hk).trans
      ((contained_and_left _ _).trans (contained_and_right _ _))
  · exact fun k hk => (hmcs k hk).trans (contained_and_right _ _)

theorem Meets.congr {mcs own own' ap caps caps' : ℕ → UInt8} (h : Meets mcs own ap caps)
    (hown : ∀ i < 26, own' i = own i) (hcaps : ∀ i < 26, caps' i = caps i) :
    Meets mcs own' ap caps' where
  bytes i hi hne hout := by
    rw [hown i hi, hcaps i hi]
    exact h.bytes i hi hne hout
  maxLenExp := by
    rw [hown 2 (by decide), hcaps 2 (by decide)]
    exact h.maxLenExp
  minSpacing := by
    rw [hown 2 (by decide), hcaps 2 (by decide)]
    exact h.minSpacing
  mcsOwn k hk := by
    rw [hown _ (by omega), hcaps _ (by omega)]
    exact h.mcsOwn k hk
  mcsAp k hk := by
    rw [hcaps _ (by omega)]
    exact h.mcsAp k hk
  mcsDefault k hk := by
    rw [hcaps _ (by omega)]
    exact h.mcsDefault k hk

theorem run_meets {ies : List ℕ} (honly : OnlyCaps mem ies pos) :
    Meets cfg.defaultSupportedMcsSet s.tail (elemByte mem pos) (run (onIe cfg mem) s ies).tail ↔
      cfg.htOption = true ∨
        Meets cfg.defaultSupportedMcsSet s.tail (elemByte mem pos) s.tail := by
  obtain ⟨hfilter, hlen⟩ := honly
  obtain ⟨pre, post, rfl, hpre, hid, hpost⟩ := List.filter_eq_cons_iff.mp hfilter
  have hpre' : ∀ p ∈ pre, elementId mem p ≠ 45 := fun p hp h => hpre p hp (decide_eq_true h)
  have hpost' : ∀ p ∈ post, elementId mem p ≠ 45 := fun p hp h =>
    (List.filter_eq_nil_iff.mp hpost) p hp (decide_eq_true h)
  have hid := of_decide_eq_true hid
  have hrun : ∀ i < 26, (run (onIe cfg mem) s (pre ++ pos :: post)).tail i =
      (onIe cfg mem (run (onIe cfg mem) s pre) pos).tail i := by
    intro i hi
    rw [run_append, run_cons]
    exact run_caps hi hpost'
  have hstart : ∀ i < 26, (run (onIe cfg mem) s pre).tail i = s.tail i :=
    fun i hi => run_caps hi hpre'
  by_cases hht : cfg.htOption = true
  · refine iff_of_true ?_ (.inl hht)
    exact (onIe_meets hht hid hlen).congr (fun i hi => (hstart i hi).symm) hrun
  · have hkept : ∀ i < 26, (run (onIe cfg mem) s (pre ++ pos :: post)).tail i = s.tail i := by
      intro i hi
      rw [hrun i hi, onIe_own hid, htCapsHandler, if_neg hht]
      exact hstart i hi
    rw [or_iff_right hht]
    exact ⟨fun h => h.congr (fun _ _ => rfl) fun i hi => (hkept i hi).symm,
      fun h => h.congr (fun _ _ => rfl) hkept⟩

end Proofs

/-- A response that is processed is handled as it should be if and only if what is read of each
element at fixed places is in it, no HT capability element clears a bit behind `HT_info`, and HT is
on where there is one HT capability element of 26 bytes (or its meet with the capability is that
already). -/
theorem assoc_caps_iff (ad : Joining) (cfg : CapsCfg) (s : MlmeExtInfo) (f : MgntFrame) :
    (Processed ad s f → Handled cfg f.mem s (assocIes f) (onAssocRsp ad cfg s f)) ↔
      (Processed ad s f → Along (onIe cfg f.mem) (ElemFits cfg f.mem) s (assocIes f) ∧
        ∀ pos, OnlyCaps f.mem (assocIes f) pos → cfg.htOption = true ∨
          Meets cfg.defaultSupportedMcsSet s.tail (elemByte f.mem pos) s.tail) := by
  refine imp_congr_right fun hprocessed => ?_
  rw [onAssocRsp, if_pos hprocessed, ← kept_iff]
  constructor
  · intro h
    exact ⟨⟨h.reads, h.outside⟩, fun pos honly => (run_meets honly).mp (h.meets pos honly)⟩
  · rintro ⟨⟨hreads, houtside⟩, hmeets⟩
    exact ⟨hreads, houtside, fun pos honly => (run_meets honly).mpr (hmeets pos honly)⟩

/-- `HT_info` is where it is with the capability of 32 bytes. -/
def twoStreams : CapsCfg where
  defaultSupportedMcsSet k := if k < 2 then 0xff else 0
  txNss := 2
  htInfo := 32
  htInfo_behind := by decide

def joining (stbc : Bool) : MlmeExtInfo where
  wmmEnable := false
  wmmParam := List.replicate 18 0
  erpEnable := false
  erpIe := 0
  htCapsEnable := false
  htInfoEnable := false
  tail := fun _ => 0xff
  tx := { stbc := stbc }

def zeroCaps (n : ℕ) (h : n < 256) : MgntFrame :=
  assocRsp (45 :: UInt8.ofNat n :: List.replicate n 0) (by
    rw [List.length_cons, List.length_cons, List.length_replicate]
    omega)

/-- A short element is read behind its end, and a long one clears what is behind `HT_info`. -/
theorem caps_overrun :
    ¬ (Processed station (joining true) (zeroCaps 1 (by decide)) →
        Handled twoStreams (zeroCaps 1 (by decide)).mem (joining true)
          (assocIes (zeroCaps 1 (by decide)))
          (onAssocRsp station twoStreams (joining true) (zeroCaps 1 (by decide)))) ∧
      ¬ (Processed station (joining false) (zeroCaps 60 (by decide)) →
        Handled twoStreams (zeroCaps 60 (by decide)).mem (joining false)
          (assocIes (zeroCaps 60 (by decide)))
          (onAssocRsp station twoStreams (joining false) (zeroCaps 60 (by decide)))) := by
  have hshort : assocIes (zeroCaps 1 (by decide)) = [30] := by decide +kernel
  refine ⟨fun h => ?_, fun h => ?_⟩
  · have hreads := (h (by decide +kernel)).reads
    rw [hshort] at hreads
    exact absurd (reads_iff.mp hreads.1) (by decide +kernel)
  · have hkept := (h (by decide +kernel)).outside 54 (by decide)
    exact absurd hkept (by decide +kernel)

end Rtl8189.AssocCaps
