import Rtl8189.EventRun
import Rtl8189.FieldWidths
import Rtl8189.RegBytes

/-!
# Programming the transmit power of a channel

A switch of channel and bandwidth ends with the transmit power of each rate, computed for
the new channel and written to the byte of the rate. The chip has one RF path; of the rate
sections it has CCK, OFDM and the eight HT rates of one stream.
-/
namespace Rtl8189.TxPowerAgc

open EventRun RegBytes

inductive RfPath where
  | a
  | b
deriving DecidableEq

inductive MgnRate where
  | m1
  | m2
  | m5_5
  | m11
  | m6
  | m9
  | m12
  | m18
  | m24
  | m36
  | m48
  | m54
  | mcs0
  | mcs1
  | mcs2
  | mcs3
  | mcs4
  | mcs5
  | mcs6
  | mcs7
  | mcs8
  | mcs9
  | mcs10
  | mcs11
  | mcs12
  | mcs13
  | mcs14
  | mcs15
deriving DecidableEq

def rTxAgcARate1806 : ℕ := 0xe00
def rTxAgcARate5424 : ℕ := 0xe04
def rTxAgcACck1Mcs32 : ℕ := 0xe08
def rTxAgcAMcs03Mcs00 : ℕ := 0xe10
def rTxAgcAMcs07Mcs04 : ℕ := 0xe14
def rTxAgcAMcs11Mcs08 : ℕ := 0xe18
def rTxAgcAMcs15Mcs12 : ℕ := 0xe1c
def rTxAgcBRate1806 : ℕ := 0x830
def rTxAgcBRate5424 : ℕ := 0x834
def rTxAgcBCck155Mcs32 : ℕ := 0x838
def rTxAgcBMcs03Mcs00 : ℕ := 0x83c
def rTxAgcBMcs07Mcs04 : ℕ := 0x848
def rTxAgcBMcs11Mcs08 : ℕ := 0x84c
def rTxAgcBMcs15Mcs12 : ℕ := 0x868
def rTxAgcBCck11ACck211 : ℕ := 0x86c

/-- The cases of `PHY_SetTxPowerIndex_8188E`: the register of a rate and its byte there. -/
def agcField : RfPath → MgnRate → ℕ × Fin 4
  | .a, .m1 => (rTxAgcACck1Mcs32, 1)
  | .a, .m2 => (rTxAgcBCck11ACck211, 1)
  | .a, .m5_5 => (rTxAgcBCck11ACck211, 2)
  | .a, .m11 => (rTxAgcBCck11ACck211, 3)
  | .a, .m6 => (rTxAgcARate1806, 0)
  | .a, .m9 => (rTxAgcARate1806, 1)
  | .a, .m12 => (rTxAgcARate1806, 2)
  | .a, .m18 => (rTxAgcARate1806, 3)
  | .a, .m24 => (rTxAgcARate5424, 0)
  | .a, .m36 => (rTxAgcARate5424, 1)
  | .a, .m48 => (rTxAgcARate5424, 2)
  | .a, .m54 => (rTxAgcARate5424, 3)
  | .a, .mcs0 => (rTxAgcAMcs03Mcs00, 0)
  | .a, .mcs1 => (rTxAgcAMcs03Mcs00, 1)
  | .a, .mcs2 => (rTxAgcAMcs03Mcs00, 2)
  | .a, .mcs3 => (rTxAgcAMcs03Mcs00, 3)
  | .a, .mcs4 => (rTxAgcAMcs07Mcs04, 0)
  | .a, .mcs5 => (rTxAgcAMcs07Mcs04, 1)
  | .a, .mcs6 => (rTxAgcAMcs07Mcs04, 2)
  | .a, .mcs7 => (rTxAgcAMcs07Mcs04, 3)
  | .a, .mcs8 => (rTxAgcAMcs11Mcs08, 0)
  | .a, .mcs9 => (rTxAgcAMcs11Mcs08, 1)
  | .a, .mcs10 => (rTxAgcAMcs11Mcs08, 2)
  | .a, .mcs11 => (rTxAgcAMcs11Mcs08, 3)
  | .a, .mcs12 => (rTxAgcAMcs15Mcs12, 0)
  | .a, .mcs13 => (rTxAgcAMcs15Mcs12, 1)
  | .a, .mcs14 => (rTxAgcAMcs15Mcs12, 2)
  | .a, .mcs15 => (rTxAgcAMcs15Mcs12, 3)
  | .b, .m1 => (rTxAgcBCck155Mcs32, 1)
  | .b, .m2 => (rTxAgcBCck155Mcs32, 2)
  | .b, .m5_5 => (rTxAgcBCck155Mcs32, 3)
  | .b, .m11 => (rTxAgcBCck11ACck211, 0)
  | .b, .m6 => (rTxAgcBRate1806, 0)
  | .b, .m9 => (rTxAgcBRate1806, 1)
  | .b, .m12 => (rTxAgcBRate1806, 2)
  | .b, .m18 => (rTxAgcBRate1806, 3)
  | .b, .m24 => (rTxAgcBRate5424, 0)
  | .b, .m36 => (rTxAgcBRate5424, 1)
  | .b, .m48 => (rTxAgcBRate5424, 2)
  | .b, .m54 => (rTxAgcBRate5424, 3)
  | .b, .mcs0 => (rTxAgcBMcs03Mcs00, 0)
  | .b, .mcs1 => (rTxAgcBMcs03Mcs00, 1)
  | .b, .mcs2 => (rTxAgcBMcs03Mcs00, 2)
  | .b, .mcs3 => (rTxAgcBMcs03Mcs00, 3)
  | .b, .mcs4 => (rTxAgcBMcs07Mcs04, 0)
  | .b, .mcs5 => (rTxAgcBMcs07Mcs04, 1)
  | .b, .mcs6 => (rTxAgcBMcs07Mcs04, 2)
  | .b, .mcs7 => (rTxAgcBMcs07Mcs04, 3)
  | .b, .mcs8 => (rTxAgcBMcs11Mcs08, 0)
  | .b, .mcs9 => (rTxAgcBMcs11Mcs08, 1)
  | .b, .mcs10 => (rTxAgcBMcs11Mcs08, 2)
  | .b, .mcs11 => (rTxAgcBMcs11Mcs08, 3)
  | .b, .mcs12 => (rTxAgcBMcs15Mcs12, 0)
  | .b, .mcs13 => (rTxAgcBMcs15Mcs12, 1)
  | .b, .mcs14 => (rTxAgcBMcs15Mcs12, 2)
  | .b, .mcs15 => (rTxAgcBMcs15Mcs12, 3)

def phySetTxPowerIndex (powerIndex : BitVec 32) (path : RfPath) (rate : MgnRate) (m : Regs) :
    Regs :=
  setReg m (agcField path rate).1 (bMaskByte (agcField path rate).2) powerIndex

inductive RateSection where
  | cck
  | ofdm
  | htMcs0Mcs7
deriving DecidableEq

def ratesBySections : RateSection → List MgnRate
  | .cck => [.m1, .m2, .m5_5, .m11]
  | .ofdm => [.m6, .m9, .m12, .m18, .m24, .m36, .m48, .m54]
  | .htMcs0Mcs7 => [.mcs0, .mcs1, .mcs2, .mcs3, .mcs4, .mcs5, .mcs6, .mcs7]

/-! ## The driver -/

def channelWidth20 : ℕ := 0
def channelWidth40 : ℕ := 1
def bandOn24G : ℕ := 0

/-- The chip has no other band. -/
def currentBandType : ℕ := bandOn24G

structure HalData where
  currentChannel : ℕ
  currentChannelBw : ℕ
  nCur40MhzPrimeSC : BitVec 8
  rfRegChnlVal : BitVec 32
  bNeedIqk : Bool
  neediqk24g : Bool
  bIqkInitialized : Bool
  regs : Regs

def agcByte (x : ℕ) : Prop :=
  rTxAgcARate1806 ≤ x ∧ x < rTxAgcACck1Mcs32 + 4 ∨
    rTxAgcAMcs03Mcs00 ≤ x ∧ x < rTxAgcAMcs07Mcs04 + 4 ∨
    rTxAgcBCck11ACck211 ≤ x ∧ x < rTxAgcBCck11ACck211 + 4

/-- The IQ calibration. It measures through other registers. -/
structure Iqk where
  trigger : Regs → Regs
  keeps : ∀ m x, agcByte x → trigger m x = m x

structure Adapter where
  drvStopped : Bool
  surpriseRemoved : Bool
  /-- A site survey is in progress on some interface. -/
  underSurveyCh : Bool
  iCut : Bool
  notchFilter : ℕ
  iqk : Iqk
  /-- `phy_get_tx_power_index_ex` -/
  txPowerIndex : RfPath → MgnRate → ℕ → ℕ → BitVec 32

def Adapter.cannotRun (ad : Adapter) : Bool := ad.surpriseRemoved || ad.drvStopped

def phySetBbReg (a : ℕ) (mask data : BitVec 32) (h : HalData) : HalData :=
  { h with regs := setReg h.regs a mask data }

def write8 (a : ℕ) (v : BitVec 8) (h : HalData) : HalData :=
  { h with regs := Function.update h.regs a v }

def setRfChnlBw (v : BitVec 32) (h : HalData) : HalData :=
  phySetBbReg 0x840 bMaskDWord (((0x18#32 <<< 20) ||| (v &&& 0x000fffff)) &&& 0x0fffffff)
    { h with rfRegChnlVal := v }

def phySpurCalibration (ad : Adapter) (h : HalData) : HalData :=
  let notch (h : HalData) := phySetBbReg 0xc40 0x1f000000 0x1f
    (phySetBbReg 0xd3c 0x1c0 0x2 (phySetBbReg 0xc40 0x200 0x1 h))
  if h.currentChannelBw = channelWidth20 ∧ (h.currentChannel = 13 ∨ h.currentChannel = 14) then
    notch h
  else if h.currentChannelBw = channelWidth40 ∧ h.currentChannel = 11 then notch h
  else if ad.notchFilter = 0 then phySetBbReg 0xc40 0x200 0x0 h
  else h

def phySwChnl (ad : Adapter) (channel : ℕ) (h : HalData) : HalData :=
  let channel := if channel = 0 then 1 else channel
  if ad.cannotRun then h
  else
    let h := { h with currentChannel := channel }
    let h := setRfChnlBw ((h.rfRegChnlVal &&& 0xfffffc00) ||| BitVec.ofNat 32 channel) h
    if ad.iCut then phySpurCalibration ad h else h

/-- `rtl8188e_PHY_RF6052SetBandwidth`. -/
def rf6052SetBandwidth (h : HalData) : HalData :=
  if h.currentChannelBw = channelWidth20 then
    setRfChnlBw ((h.rfRegChnlVal &&& 0xfffff3ff) ||| 0xc00) h
  else if h.currentChannelBw = channelWidth40 then
    setRfChnlBw ((h.rfRegChnlVal &&& 0xfffff3ff) ||| 0x400) h
  else h

def bwOpmode20 (h : HalData) : HalData :=
  phySetBbReg 0x900 0x1 0x0 (phySetBbReg 0x800 0x1 0x0
    (write8 0x603 (h.regs 0x603 ||| 0x4) h))

def bwOpmode40 (h : HalData) : HalData :=
  let sc := h.nCur40MhzPrimeSC
  let rrsr := (h.regs 0x442 &&& 0x90) ||| (sc <<< 5)
  let h := write8 0x442 rrsr (write8 0x603 (h.regs 0x603 &&& ~~~0x4) h)
  let h := phySetBbReg 0x900 0x1 0x1 (phySetBbReg 0x800 0x1 0x1 h)
  let h := phySetBbReg 0xa00 0x10 ((sc >>> 1).setWidth 32) h
  let h := phySetBbReg 0xd00 0xc00 (sc.setWidth 32) h
  phySetBbReg 0x818 0xc000000 (if sc = 1 then 2 else 1) h

/-- `_PHY_SetBWMode88E`. -/
def phySetBwModeRegs (ad : Adapter) (h : HalData) : HalData :=
  if ad.drvStopped then h
  else
    rf6052SetBandwidth
      (if h.currentChannelBw = channelWidth20 then bwOpmode20 h
      else if h.currentChannelBw = channelWidth40 then bwOpmode40 h
      else h)

def phySetBwMode (ad : Adapter) (bandwidth : ℕ) (offset : BitVec 8) (h : HalData) : HalData :=
  if ad.cannotRun then { h with nCur40MhzPrimeSC := offset }
  else
    let h := phySetBwModeRegs ad
      { h with currentChannelBw := bandwidth, nCur40MhzPrimeSC := offset }
    if ad.iCut then phySpurCalibration ad h else h

/-- The test for CCK compares the bandwidth with the number of a band. -/
def phySetTxPowerIndexByRateSection (ad : Adapter) (path : RfPath) (channel : ℕ)
    (rs : RateSection) (h : HalData) : HalData :=
  let bw := h.currentChannelBw
  if rs = .cck ∧ bw ≠ bandOn24G then h
  else
    { h with
      regs := (ratesBySections rs).foldl
        (fun m rate => phySetTxPowerIndex (ad.txPowerIndex path rate bw channel) path rate m)
        h.regs }

def phySetTxPowerLevelByPath (ad : Adapter) (channel : ℕ) (path : RfPath) (h : HalData) :
    HalData :=
  let h := if currentBandType = bandOn24G then
      phySetTxPowerIndexByRateSection ad path channel .cck h
    else h
  let h := phySetTxPowerIndexByRateSection ad path channel .ofdm h
  if ad.underSurveyCh then h
  else phySetTxPowerIndexByRateSection ad path channel .htMcs0Mcs7 h

def phyChkChSettingConsistency (h : HalData) (ch : ℕ) : Bool :=
  0 < ch ∧ ch ≤ 14 ∧ ch = h.currentChannel ∧ currentBandType = bandOn24G ∧
    h.currentChannelBw ≤ channelWidth40

def rtwHalSetTxPowerLevel (ad : Adapter) (channel : ℕ) (h : HalData) : HalData :=
  if phyChkChSettingConsistency h channel then phySetTxPowerLevelByPath ad channel .a h else h

def iqkIfNeeded (ad : Adapter) (h : HalData) : HalData :=
  if h.bNeedIqk then
    if h.neediqk24g then
      { h with
        regs := ad.iqk.trigger h.regs
        bIqkInitialized := true
        neediqk24g := false
        bNeedIqk := false }
    else { h with bNeedIqk := false }
  else h

structure SwChnlBw where
  channel : ℕ
  bandwidth : ℕ
  offset40 : BitVec 8
  offset80 : BitVec 8
  pos : 0 < channel
  le : channel ≤ 14
  width : bandwidth = channelWidth20 ∨ bandwidth = channelWidth40

def phySetSwChnlBwMode (ad : Adapter) (h : HalData) (e : SwChnlBw) : HalData :=
  iqkIfNeeded ad (rtwHalSetTxPowerLevel ad e.channel
    (phySetBwMode ad e.bandwidth e.offset40 (phySwChnl ad e.channel h)))

/-! ## Other registers -/

def Beside (a : ℕ) : Prop := a + 4 ≤ rTxAgcBCck11ACck211 ∨
  rTxAgcBCck11ACck211 + 4 ≤ a ∧ a + 4 ≤ rTxAgcARate1806

instance (a : ℕ) : Decidable (Beside a) := inferInstanceAs (Decidable (_ ∨ _))

/-- A part of the switch that goes on with the same channel, bandwidth and powers. -/
structure Same (h h' : HalData) : Prop where
  channel : h'.currentChannel = h.currentChannel
  bw : h'.currentChannelBw = h.currentChannelBw
  agc : ∀ x, agcByte x → h'.regs x = h.regs x

variable {h h' h'' : HalData} {ad : Adapter}

theorem Same.refl (h : HalData) : Same h h := ⟨rfl, rfl, fun _ _ => rfl⟩

theorem Same.trans (hs : Same h h') (hs' : Same h' h'') : Same h h'' where
  channel := hs'.channel.trans hs.channel
  bw := hs'.bw.trans hs.bw
  agc x hx := (hs'.agc x hx).trans (hs.agc x hx)

theorem phySetBbReg_same {a : ℕ} (ha : Beside a) (mask data : BitVec 32) (h : HalData) :
    Same h (phySetBbReg a mask data h) := by
  refine ⟨rfl, rfl, fun x hx => setReg_outside mask data ?_⟩
  unfold Beside at ha
  simp only [agcByte, rTxAgcBCck11ACck211, rTxAgcARate1806, rTxAgcACck1Mcs32,
    rTxAgcAMcs03Mcs00, rTxAgcAMcs07Mcs04] at ha hx
  omega

theorem write8_same {a : ℕ} (ha : Beside a) (v : BitVec 8) (h : HalData) :
    Same h (write8 a v h) := by
  refine ⟨rfl, rfl, fun x hx => Function.update_of_ne ?_ _ _⟩
  unfold Beside at ha
  simp only [agcByte, rTxAgcBCck11ACck211, rTxAgcARate1806, rTxAgcACck1Mcs32,
    rTxAgcAMcs03Mcs00, rTxAgcAMcs07Mcs04] at ha hx
  omega

theorem setRfChnlBw_same (v : BitVec 32) (h : HalData) : Same h (setRfChnlBw v h) := by
  have hval : Same h { h with rfRegChnlVal := v } := ⟨rfl, rfl, fun _ _ => rfl⟩
  exact hval.trans (phySetBbReg_same (by decide) _ _ _)

theorem phySpurCalibration_same (ad : Adapter) (h : HalData) :
    Same h (phySpurCalibration ad h) := by
  have hnotch := ((phySetBbReg_same (a := 0xc40) (by decide) 0x200 0x1 h).trans
    (phySetBbReg_same (a := 0xd3c) (by decide) 0x1c0 0x2 _)).trans
    (phySetBbReg_same (a := 0xc40) (by decide) 0x1f000000 0x1f _)
  unfold phySpurCalibration
  dsimp only
  split_ifs
  · exact hnotch
  · exact hnotch
  · exact phySetBbReg_same (by decide) _ _ _
  · exact Same.refl h

theorem rf6052SetBandwidth_same (h : HalData) : Same h (rf6052SetBandwidth h) := by
  unfold rf6052SetBandwidth
  split_ifs
  · exact setRfChnlBw_same _ h
  · exact setRfChnlBw_same _ h
  · exact Same.refl h

theorem bwOpmode20_same (h : HalData) : Same h (bwOpmode20 h) :=
  ((write8_same (by decide) _ h).trans (phySetBbReg_same (by decide) _ _ _)).trans
    (phySetBbReg_same (by decide) _ _ _)

theorem bwOpmode40_same (h : HalData) : Same h (bwOpmode40 h) := by
  have hmac := (write8_same (a := 0x603) (by decide) (h.regs 0x603 &&& ~~~0x4) h).trans
    (write8_same (a := 0x442) (by decide)
      ((h.regs 0x442 &&& 0x90) ||| (h.nCur40MhzPrimeSC <<< 5)) _)
  have hmod := hmac.trans ((phySetBbReg_same (a := 0x800) (by decide) 0x1 0x1 _).trans
    (phySetBbReg_same (a := 0x900) (by decide) 0x1 0x1 _))
  exact hmod.trans (((phySetBbReg_same (by decide) _ _ _).trans
    (phySetBbReg_same (by decide) _ _ _)).trans (phySetBbReg_same (by decide) _ _ _))

theorem phySetBwModeRegs_same (ad : Adapter) (h : HalData) :
    Same h (phySetBwModeRegs ad h) := by
  unfold phySetBwModeRegs
  split_ifs
  · exact Same.refl h
  · exact (bwOpmode20_same h).trans (rf6052SetBandwidth_same _)
  · exact (bwOpmode40_same h).trans (rf6052SetBandwidth_same _)
  · exact rf6052SetBandwidth_same h

theorem phySwChnl_spec (hrun : ad.cannotRun = false) {channel : ℕ} (hpos : 0 < channel)
    (h : HalData) : Same { h with currentChannel := channel } (phySwChnl ad channel h) := by
  simp only [phySwChnl, if_neg (Nat.ne_of_gt hpos), hrun, Bool.false_eq_true, if_false]
  split_ifs
  · exact (setRfChnlBw_same _ _).trans (phySpurCalibration_same ad _)
  · exact setRfChnlBw_same _ _

theorem phySetBwMode_spec (hrun : ad.cannotRun = false) (bandwidth : ℕ) (offset : BitVec 8)
    (h : HalData) :
    Same { h with currentChannelBw := bandwidth } (phySetBwMode ad bandwidth offset h) := by
  have hset : Same { h with currentChannelBw := bandwidth }
      { h with currentChannelBw := bandwidth, nCur40MhzPrimeSC := offset } :=
    ⟨rfl, rfl, fun _ _ => rfl⟩
  simp only [phySetBwMode, hrun, Bool.false_eq_true, if_false]
  split_ifs
  · exact (hset.trans (phySetBwModeRegs_same ad _)).trans (phySpurCalibration_same ad _)
  · exact hset.trans (phySetBwModeRegs_same ad _)

theorem iqkIfNeeded_same (ad : Adapter) (h : HalData) : Same h (iqkIfNeeded ad h) := by
  unfold iqkIfNeeded
  split_ifs
  · exact ⟨rfl, rfl, ad.iqk.keeps h.regs⟩
  · exact ⟨rfl, rfl, fun _ _ => rfl⟩
  · exact Same.refl h

/-! ## The rate sections -/

def agcAddr (path : RfPath) (rate : MgnRate) : ℕ := (agcField path rate).1 + (agcField path rate).2

def powerByte (ad : Adapter) (h : HalData) (channel : ℕ) (rate : MgnRate) : BitVec 8 :=
  (ad.txPowerIndex .a rate h.currentChannelBw channel).setWidth 8

def cckRates : List MgnRate := ratesBySections .cck

def ofdmHtRates : List MgnRate := ratesBySections .ofdm ++ ratesBySections .htMcs0Mcs7

def programmedRates : List MgnRate := cckRates ++ ofdmHtRates

theorem phySetTxPowerIndex_eq (v : BitVec 32) (path : RfPath) (rate : MgnRate) (m : Regs) :
    phySetTxPowerIndex v path rate m = Function.update m (agcAddr path rate) (v.setWidth 8) :=
  setReg_byte m _ _ v

theorem section_regs (ad : Adapter) (path : RfPath) (channel : ℕ) {rs : RateSection}
    (h : HalData) (hrs : ¬ (rs = .cck ∧ h.currentChannelBw ≠ bandOn24G)) :
    phySetTxPowerIndexByRateSection ad path channel rs h =
      { h with
        regs := updates (agcAddr path)
          (fun rate => (ad.txPowerIndex path rate h.currentChannelBw channel).setWidth 8)
          (ratesBySections rs) h.regs } := by
  unfold phySetTxPowerIndexByRateSection
  simp only [if_neg hrs, phySetTxPowerIndex_eq]
  rfl

def writtenRates (bandwidth : ℕ) : List MgnRate :=
  if bandwidth = channelWidth20 then programmedRates else ofdmHtRates

theorem level_regs (hsurvey : ad.underSurveyCh = false) (channel : ℕ) (h : HalData) :
    phySetTxPowerLevelByPath ad channel .a h =
      { h with
        regs := updates (agcAddr .a) (powerByte ad h channel) (writtenRates h.currentChannelBw)
          h.regs } := by
  unfold phySetTxPowerLevelByPath writtenRates
  simp only [hsurvey, Bool.false_eq_true, if_false]
  by_cases hbw : h.currentChannelBw = channelWidth20
  · have hcck : ¬ (RateSection.cck = .cck ∧ h.currentChannelBw ≠ bandOn24G) :=
      fun hc => hc.2 hbw
    rw [if_pos hbw, section_regs ad .a channel h hcck, section_regs, section_regs]
    · unfold programmedRates ofdmHtRates cckRates
      simp only [updates_append]
      rfl
    · exact fun hc => absurd hc.1 (by decide)
    · exact fun hc => absurd hc.1 (by decide)
  · have hskip : phySetTxPowerIndexByRateSection ad .a channel .cck h = h :=
      if_pos ⟨rfl, hbw⟩
    rw [if_neg hbw, hskip, section_regs, section_regs]
    · unfold ofdmHtRates
      simp only [updates_append]
      rfl
    · exact fun hc => absurd hc.1 (by decide)
    · exact fun hc => absurd hc.1 (by decide)

theorem agcAddr_nodup : (programmedRates.map (agcAddr .a)).Nodup := by decide

theorem agcAddr_agcByte : ∀ rate ∈ programmedRates, agcByte (agcAddr .a rate) := by
  unfold agcByte
  decide

theorem writtenRates_sublist (bandwidth : ℕ) :
    (writtenRates bandwidth).Sublist programmedRates := by
  unfold writtenRates
  split_ifs
  · exact List.Sublist.refl _
  · exact List.sublist_append_right _ _

theorem phySetSwChnlBwMode_spec (hrun : ad.cannotRun = false)
    (hsurvey : ad.underSurveyCh = false) (h : HalData) (e : SwChnlBw) :
    (phySetSwChnlBwMode ad h e).currentChannel = e.channel ∧
      (phySetSwChnlBwMode ad h e).currentChannelBw = e.bandwidth ∧
      ∀ x, agcByte x → (phySetSwChnlBwMode ad h e).regs x =
        updates (agcAddr .a)
          (fun rate => (ad.txPowerIndex .a rate e.bandwidth e.channel).setWidth 8)
          (writtenRates e.bandwidth) h.regs x := by
  have hsw := phySwChnl_spec hrun e.pos h
  have hbw := phySetBwMode_spec hrun e.bandwidth e.offset40 (phySwChnl ad e.channel h)
  set h₁ := phySwChnl ad e.channel h with hh₁
  set h₂ := phySetBwMode ad e.bandwidth e.offset40 h₁ with hh₂
  have hch : h₂.currentChannel = e.channel := hbw.channel.trans hsw.channel
  have hcons : phyChkChSettingConsistency h₂ e.channel = true := by
    unfold phyChkChSettingConsistency
    refine decide_eq_true ⟨e.pos, e.le, hch.symm, rfl, ?_⟩
    rw [hbw.bw]
    obtain hw | hw := e.width
    · exact hw.trans_le (by decide)
    · exact hw.le
  have hlevel : rtwHalSetTxPowerLevel ad e.channel h₂ =
      phySetTxPowerLevelByPath ad e.channel .a h₂ := if_pos hcons
  have hiqk := iqkIfNeeded_same ad (rtwHalSetTxPowerLevel ad e.channel h₂)
  rw [hlevel, level_regs hsurvey] at hiqk
  have hcall : phySetSwChnlBwMode ad h e =
      iqkIfNeeded ad (rtwHalSetTxPowerLevel ad e.channel h₂) := rfl
  rw [hcall, hlevel, level_regs hsurvey]
  refine ⟨hiqk.channel.trans hch, hiqk.bw.trans hbw.bw, fun x hx => ?_⟩
  have hstart : h₂.regs x = h.regs x := (hbw.agc x hx).trans (hsw.agc x hx)
  rw [hiqk.agc x hx]
  unfold powerByte
  rw [hbw.bw]
  exact updates_congr hstart

structure Programmed (ad : Adapter) (h : HalData) (e : SwChnlBw) : Prop where
  channel : (phySetSwChnlBwMode ad h e).currentChannel = e.channel
  bw : (phySetSwChnlBwMode ad h e).currentChannelBw = e.bandwidth
  power : ∀ rate ∈ programmedRates, (phySetSwChnlBwMode ad h e).regs (agcAddr .a rate) =
    (ad.txPowerIndex .a rate (phySetSwChnlBwMode ad h e).currentChannelBw
      (phySetSwChnlBwMode ad h e).currentChannel).setWidth 8
  own : (programmedRates.map (agcAddr .a)).Nodup
  kept : ∀ x, agcByte x → x ∉ programmedRates.map (agcAddr .a) →
    (phySetSwChnlBwMode ad h e).regs x = h.regs x

/-- The call is for 20 MHz, or the CCK bytes stand for its channel already. -/
def CckInForce (ad : Adapter) (h : HalData) (e : SwChnlBw) : Prop :=
  e.bandwidth = channelWidth20 ∨
    ∀ rate ∈ cckRates, h.regs (agcAddr .a rate) =
      (ad.txPowerIndex .a rate e.bandwidth e.channel).setWidth 8

theorem cck_kept (hrun : ad.cannotRun = false) (hsurvey : ad.underSurveyCh = false)
    (h : HalData) {e : SwChnlBw} (hbw : e.bandwidth ≠ channelWidth20) {rate : MgnRate}
    (hrate : rate ∈ cckRates) :
    (phySetSwChnlBwMode ad h e).regs (agcAddr .a rate) = h.regs (agcAddr .a rate) := by
  obtain ⟨-, -, hregs⟩ := phySetSwChnlBwMode_spec hrun hsurvey h e
  rw [hregs _ (agcAddr_agcByte rate (List.mem_append_left _ hrate))]
  refine updates_of_not_mem _ ?_
  unfold writtenRates
  rw [if_neg hbw]
  revert rate
  decide

theorem programmed_iff (hrun : ad.cannotRun = false) (hsurvey : ad.underSurveyCh = false)
    (h : HalData) (e : SwChnlBw) : Programmed ad h e ↔ CckInForce ad h e := by
  obtain ⟨hch, hbw, hregs⟩ := phySetSwChnlBwMode_spec hrun hsurvey h e
  constructor
  · intro hp
    by_cases h20 : e.bandwidth = channelWidth20
    · exact Or.inl h20
    · refine Or.inr fun rate hrate => ?_
      have hpower := hp.power rate (List.mem_append_left _ hrate)
      rwa [cck_kept hrun hsurvey h h20 hrate, hch, hbw] at hpower
  · intro hc
    have hnodup := agcAddr_nodup.sublist ((writtenRates_sublist e.bandwidth).map _)
    refine ⟨hch, hbw, fun rate hrate => ?_, agcAddr_nodup, fun x hx hout => ?_⟩
    · rw [hch, hbw]
      by_cases hw : rate ∈ writtenRates e.bandwidth
      · rw [hregs _ (agcAddr_agcByte rate hrate), updates_of_mem hnodup _ hw]
      · unfold writtenRates at hw
        split_ifs at hw with h20
        · exact absurd hrate hw
        · have hcck := (List.mem_append.1 hrate).resolve_right hw
          rw [cck_kept hrun hsurvey h h20 hcck]
          exact hc.resolve_left h20 rate hcck
    · rw [hregs x hx]
      refine updates_of_not_mem _ fun hmem => hout ?_
      exact ((writtenRates_sublist e.bandwidth).map _).subset hmem

/-- The powers follow the channel along a history just when no call for 40 MHz meets CCK
bytes that stand for another channel. -/
theorem powers_follow_iff (hrun : ad.cannotRun = false) (hsurvey : ad.underSurveyCh = false)
    (h : HalData) (es : List SwChnlBw) :
    Along (phySetSwChnlBwMode ad) (Programmed ad) h es ↔
      Along (phySetSwChnlBwMode ad) (CckInForce ad) h es :=
  ⟨fun hes => hes.imp fun h e => (programmed_iff hrun hsurvey h e).1,
    fun hes => hes.imp fun h e => (programmed_iff hrun hsurvey h e).2⟩

def rising : Adapter where
  drvStopped := false
  surpriseRemoved := false
  underSurveyCh := false
  iCut := false
  notchFilter := 0
  iqk := ⟨id, fun _ _ _ => rfl⟩
  txPowerIndex _ _ _ channel := BitVec.ofNat 32 (20 + channel)

def fresh : HalData where
  currentChannel := 1
  currentChannelBw := channelWidth20
  nCur40MhzPrimeSC := 0
  rfRegChnlVal := 0
  bNeedIqk := false
  neediqk24g := false
  bIqkInitialized := false
  regs _ := 0

def toCh1 : SwChnlBw := ⟨1, channelWidth20, 0, 0, Nat.one_pos, by decide, Or.inl rfl⟩

theorem ch6_pos : 0 < 6 := by decide

theorem ch6_le : 6 ≤ 14 := by decide

def toCh6 : SwChnlBw := ⟨6, channelWidth40, 1, 0, ch6_pos, ch6_le, Or.inr rfl⟩

theorem powers_follow_iff_rising :
    Along (phySetSwChnlBwMode rising) (Programmed rising) fresh [toCh1, toCh6] ↔
      Along (phySetSwChnlBwMode rising) (CckInForce rising) fresh [toCh1, toCh6] :=
  powers_follow_iff rfl rfl fresh [toCh1, toCh6]

/-- The bytes of 1 Mb/s and its like stay those of channel 1. -/
theorem cck_left_behind :
    ¬ Along (phySetSwChnlBwMode rising) (Programmed rising) fresh [toCh1, toCh6] := by
  intro h
  have hpower := h.2.1.power .m1 (by decide)
  revert hpower
  decide +kernel

end Rtl8189.TxPowerAgc
