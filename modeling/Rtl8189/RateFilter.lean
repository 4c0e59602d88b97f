import Rtl8189.BeaconEdit
import Rtl8189.IeRemove

/-!
# The rates of a mode

`rtw_update_rate_bymode` keeps the CCK or the OFDM rates of the supported rates, by way of a local
array, and in 802.11b removes the extended rates. In a mixed mode it does nothing.
-/
namespace Rtl8189.RateFilter

open AccessTrace BeaconEdit ElemList IeLookup IeRemove

def wireless11b : UInt32 := 1

def wireless11g : UInt32 := 2

def wireless11a : UInt32 := 4

def wireless11bg : UInt32 := 3

def wifiCckrates : List UInt8 := [0x82, 0x84, 0x8b, 0x96]

def wifiOfdmrates : List UInt8 := [0x0c, 0x12, 0x18, 0x24, 0x30, 0x48, 0x60, 0x6c]

def basicOfdmRates : List UInt8 := [0x8c, 0x98, 0xb0]

def maxIeSz : ℕ := 768

def lengthRatesEx : ℕ := 16

def isRate (table : List UInt8) (rate : UInt8) : Bool :=
  table.any fun r => r &&& 0x7f = rate &&& 0x7f

def rtwIsCckRate : UInt8 → Bool := isRate wifiCckrates

def rtwIsOfdmRate : UInt8 → Bool := isRate wifiOfdmrates

def rtwIsBasicRateOfdm : UInt8 → Bool := isRate basicOfdmRates

inductive RateSection where
  | cck
  | ofdm
  deriving DecidableEq

def RateSection.has : RateSection → UInt8 → Bool
  | cck => rtwIsCckRate
  | ofdm => rtwIsOfdmRate

def withBasic (rate : UInt8) : UInt8 := if rtwIsBasicRateOfdm rate then rate ||| 0x80 else rate

/-- The elements and the rates of a network, with the accesses to the elements and to
`new_rate`. -/
structure BssNetwork extends Network where
  dsConfig : ℕ
  supportedRates : List UInt8
  ieOps : List Op := []
  newRateOps : List Op := []

def newRates (keep : RateSection) : List UInt8 → List UInt8 → List UInt8
  | [], newRate => newRate
  | rate :: rates, newRate =>
    newRates keep rates (if keep.has rate then newRate ++ [withBasic rate] else newRate)

def rtwFilterSuppportRateie (net : BssNetwork) (keep : RateSection) : BssNetwork :=
  match rtwGetIe net.ies fixedIeLength 1 (net.ielength - fixedIeLength) with
  | none => net
  | some (p, ieOrilen) =>
    let newRate := newRates keep ((net.ies.drop (p + 2)).take ieOrilen) []
    let idx := newRate.length
    let remainIes := p + 2 + ieOrilen
    let remainLen := usub net.ielength remainIes
    let ies := putBytes (putBytes net.ies (p + 1) [UInt8.ofNat idx]) (p + 2) newRate
    { net with
      ies := moveBytes ies (p + 2 + idx) remainIes remainLen
      ielength := usub net.ielength (ieOrilen - idx)
      ieOps := net.ieOps ++ [.bytes (p + 1 : ℕ) 1, .bytes (p + 2 : ℕ) idx,
        .bytes remainIes remainLen, .bytes (p + 2 + idx : ℕ) remainLen]
      newRateOps := net.newRateOps ++ [.bytes 0 idx] }

def rtwSetSupportedRate (mode : UInt32) : List UInt8 :=
  if mode = wireless11b then wifiCckrates ++ List.replicate 12 0
  else if mode ∈ [wireless11g, wireless11a, 16, 20, 68] then wifiOfdmrates ++ List.replicate 8 0
  else if mode ∈ [wireless11bg, 10, 8, 11] then
    wifiCckrates ++ (wifiOfdmrates ++ List.replicate 4 0)
  else List.replicate lengthRatesEx 0

/-- The extended rates are removed, with the length that the elements had at the beginning. -/
def removeExtRates (net : BssNetwork) (networkIelen : ℕ) : BssNetwork :=
  match rtwGetIe net.ies fixedIeLength 50 (net.ielength - fixedIeLength) with
  | none => net
  | some (_, ieLen) =>
    let out := rtwIesRemoveIe net.ies networkIelen fixedIeLength 50 []
    { net with ies := out.mem, ielength := usub net.ielength ieLen, ieOps := net.ieOps ++ out.ops }

/-- `rtw_update_rate_bymode`, with the network type that it returns. -/
def rtwUpdateRateBymode (net : BssNetwork) (mode : UInt32) : BssNetwork × UInt32 :=
  let (net, networkType) :=
    if mode = wireless11b then
      (removeExtRates (rtwFilterSuppportRateie net .cck) net.ielength, wireless11b)
    else if mode &&& wireless11b = 0 then
      (rtwFilterSuppportRateie net .ofdm, if 14 < net.dsConfig then wireless11a else wireless11g)
    else (net, wireless11bg)
  ({ net with supportedRates := rtwSetSupportedRate networkType }, networkType)

structure Bss where
  fixed : List UInt8
  elems : List Elem
  behind : List UInt8
  dsConfig : ℕ
  supportedRates : List UInt8
  fixed_length : fixed.length = fixedIeLength
  size : fixed.length + (encode elems).length + behind.length = maxIeSz

def Bss.network (b : Bss) : BssNetwork where
  ies := b.fixed ++ (encode b.elems ++ b.behind)
  ielength := b.fixed.length + (encode b.elems).length
  dsConfig := b.dsConfig
  supportedRates := b.supportedRates

structure Stays (net : BssNetwork) : Prop where
  ies : Within maxIeSz net.ieOps
  newRate : Within lengthRatesEx net.newRateOps

/-! ## The rates that are kept -/

def ratesOf (keep : RateSection) (rates : List UInt8) : List UInt8 :=
  (rates.filter keep.has).map withBasic

theorem newRates_eq (keep : RateSection) (rates newRate : List UInt8) :
    newRates keep rates newRate = newRate ++ ratesOf keep rates := by
  induction rates generalizing newRate with
  | nil => exact (List.append_nil newRate).symm
  | cons rate rates ih =>
    rw [newRates, ih, ratesOf, ratesOf, List.filter_cons]
    split_ifs
    · rw [List.map_cons, List.append_assoc]
      rfl
    · rfl

theorem ratesOf_length_le (keep : RateSection) (rates : List UInt8) :
    (ratesOf keep rates).length ≤ rates.length := by
  rw [ratesOf, List.length_map]
  exact List.length_filter_le _ _

def keepRates (keep : RateSection) (e : Elem) : Elem where
  id := e.id
  data := ratesOf keep e.data
  fits := Nat.lt_of_le_of_lt (ratesOf_length_le keep e.data) e.fits

/-- The first element of supported rates with the rates of a section. -/
def keepFirst (keep : RateSection) : List Elem → List Elem
  | [] => []
  | e :: l => if e.id = 1 then keepRates keep e :: l else e :: keepFirst keep l

theorem keepFirst_none (keep : RateSection) {l : List Elem} (h : ∀ e ∈ l, e.id ≠ 1) :
    keepFirst keep l = l := by
  induction l with
  | nil => rfl
  | cons e l ih =>
    obtain ⟨he, hl⟩ := List.forall_mem_cons.mp h
    rw [keepFirst, if_neg he, ih hl]

theorem keepFirst_first (keep : RateSection) {A B : List Elem} {e : Elem}
    (hA : ∀ d ∈ A, d.id ≠ 1) (he : e.id = 1) :
    keepFirst keep (A ++ e :: B) = A ++ keepRates keep e :: B := by
  induction A with
  | nil => exact if_pos he
  | cons d A ih =>
    obtain ⟨hd, hA⟩ := List.forall_mem_cons.mp hA
    rw [List.cons_append, keepFirst, if_neg hd, ih hA]
    rfl

theorem keepFirst_forall {P : UInt8 → Prop} (keep : RateSection) {l : List Elem}
    (h : ∀ e ∈ l, P e.id) : ∀ e ∈ keepFirst keep l, P e.id := by
  induction l with
  | nil => exact nofun
  | cons e l ih =>
    obtain ⟨he, hl⟩ := List.forall_mem_cons.mp h
    rw [keepFirst]
    split_ifs
    · exact List.forall_mem_cons.mpr ⟨he, hl⟩
    · exact List.forall_mem_cons.mpr ⟨he, ih hl⟩

def FitsArray (keep : RateSection) (l : List Elem) : Prop :=
  ∀ e ∈ l.find? (fun e => e.id = 1), (ratesOf keep e.data).length ≤ lengthRatesEx

/-! ## One section -/

section Filter

variable {net : BssNetwork} {fixed : List UInt8}

/-- What the filter leaves of a list: the bytes, and accesses up to `IELength`. -/
structure Filtered (net out : BssNetwork) (fixed : List UInt8) (l : List Elem) : Prop where
  shows : Shows out.toNetwork fixed (encode l)
  ieOps : ∀ len, net.ielength ≤ len → Within len net.ieOps → Within len out.ieOps

theorem filter_none (keep : RateSection) (hfixed : fixed.length = fixedIeLength) {l : List Elem}
    (hl : Shows net.toNetwork fixed (encode l)) (hnone : ∀ e ∈ l, e.id ≠ 1) :
    rtwFilterSuppportRateie net keep = net := by
  delta rtwFilterSuppportRateie
  rw [lookup hfixed hl,
    locate_none fixedIeLength (by simpa using hnone)]

theorem elem_data {mem rest : List UInt8} {i : ℕ} {A B : List Elem} {e : Elem}
    (h : Holds mem i (A ++ e :: B) rest) :
    (mem.drop (i + (encode A).length + 2)).take e.data.length = e.data := by
  rw [(holds_skip h).head.data, List.take_left]

/-- The rates are written over the element, and what stands behind it moves up to them. -/
theorem shrink_elem (pre data behind : List UInt8) (B : List Elem) (id lenByte new : UInt8)
    {rates : List UInt8} (hle : rates.length ≤ data.length) :
    ∃ rest, moveBytes (putBytes (putBytes (pre ++ (id :: lenByte :: (data ++ (encode B ++ behind))))
        (pre.length + 1) [new]) (pre.length + 2) rates) (pre.length + 2 + rates.length)
        (pre.length + 2 + data.length) (encode B).length =
      pre ++ ((id :: new :: rates) ++ (encode B ++ rest)) := by
  have hlen : putBytes (pre ++ (id :: lenByte :: (data ++ (encode B ++ behind)))) (pre.length + 1)
      [new] = (pre ++ [id, new]) ++ (data ++ (encode B ++ behind)) := by
    have hput := @putBytes_at (pre ++ [id]) [lenByte] (data ++ (encode B ++ behind)) [new] rfl
    rw [List.length_append] at hput
    simpa using hput
  have hrates : putBytes ((pre ++ [id, new]) ++ (data ++ (encode B ++ behind))) (pre.length + 2)
      rates = (pre ++ [id, new]) ++ (rates ++ (data.drop rates.length ++ (encode B ++ behind))) := by
    have hput := @putBytes_at (pre ++ [id, new]) (data.take rates.length)
      (data.drop rates.length ++ (encode B ++ behind)) rates (List.length_take_of_le hle).symm
    rw [← List.append_assoc (data.take _), List.take_append_drop, List.length_append] at hput
    exact hput
  have hmove := moveBytes_down ((pre ++ [id, new]) ++ rates) (data.drop rates.length) (encode B)
    behind
  have hdst : ((pre ++ [id, new]) ++ rates).length = pre.length + 2 + rates.length := by
    rw [List.length_append, List.length_append]
    rfl
  have hsrc : pre.length + 2 + rates.length + (data.drop rates.length).length =
      pre.length + 2 + data.length := by
    rw [List.length_drop]
    omega
  rw [hdst, hsrc, List.append_assoc _ rates] at hmove
  rw [hlen, hrates, hmove]
  exact ⟨_, by simp only [List.append_assoc, List.cons_append, List.nil_append]; rfl⟩

theorem filter_found (keep : RateSection) (hfixed : fixed.length = fixedIeLength)
    {A B : List Elem} {e : Elem} (hl : Shows net.toNetwork fixed (encode (A ++ e :: B)))
    (hA : ∀ d ∈ A, d.id ≠ 1) (he : e.id = 1) (hsize : net.ielength < 2 ^ 31) :
    Filtered net (rtwFilterSuppportRateie net keep) fixed (A ++ keepRates keep e :: B) ∧
      (rtwFilterSuppportRateie net keep).newRateOps =
        net.newRateOps ++ [Op.bytes 0 (ratesOf keep e.data).length] := by
  have hfound := lookup hfixed hl 1
  rw [locate_first fixedIeLength (by simpa using hA) (decide_eq_true he)] at hfound
  obtain ⟨⟨behind, hmem⟩, hlen⟩ := hl
  have hdata := elem_data ⟨fixed, hmem, hfixed⟩
  have hle := ratesOf_length_le keep e.data
  have htotal : net.ielength =
      fixedIeLength + (encode A).length + 2 + e.data.length + (encode B).length := by
    rw [hlen, encode_append, List.length_append, encode_length_cons, hfixed]
    omega
  have hremain : usub net.ielength (fixedIeLength + (encode A).length + 2 + e.data.length) =
      (encode B).length := by
    rw [usub, u32]
    omega
  delta rtwFilterSuppportRateie
  rw [hfound]
  dsimp only
  rw [newRates_eq, List.nil_append, hdata, hremain]
  refine ⟨⟨?_, ?_⟩, rfl⟩
  · have hbytes : net.ies = (fixed ++ encode A) ++
        (e.id :: UInt8.ofNat e.data.length :: (e.data ++ (encode B ++ behind))) := by
      rw [hmem, encode_insert]
      simp only [List.append_assoc]
      rfl
    have hpre : (fixed ++ encode A).length = fixedIeLength + (encode A).length := by
      rw [List.length_append, hfixed]
    obtain ⟨rest, hmoved⟩ := shrink_elem (fixed ++ encode A) e.data behind B e.id
      (UInt8.ofNat e.data.length) (UInt8.ofNat (ratesOf keep e.data).length) hle
    rw [← hbytes, hpre] at hmoved
    constructor
    · refine ⟨rest, ?_⟩
      change moveBytes _ _ _ _ = _
      rw [hmoved, encode_insert]
      simp only [List.append_assoc]
      rfl
    · change usub net.ielength (e.data.length - (ratesOf keep e.data).length) = _
      rw [encode_insert, List.length_append, List.length_append, (keepRates keep e).bytes_length,
        hfixed, usub, u32]
      change _ = fixedIeLength +
        ((encode A).length + ((ratesOf keep e.data).length + 2 + (encode B).length))
      omega
  · intro len hin hops
    refine (within_append _ _).mpr ⟨hops, ?_⟩
    rw [within_cons, within_cons, within_cons, within_cons]
    exact ⟨bytes_within _ (by omega), bytes_within _ (by omega), bytes_within _ (by omega),
      bytes_within _ (by omega), within_nil⟩

end Filter

/-! ## The whole list -/

section Update

variable (b : Bss)

theorem Bss.shows : Shows b.network.toNetwork b.fixed (encode b.elems) := ⟨⟨b.behind, rfl⟩, rfl⟩

theorem Bss.ielength_le : b.network.ielength ≤ maxIeSz := by
  have hsize := b.size
  change b.fixed.length + (encode b.elems).length ≤ maxIeSz
  omega

theorem filter_first (keep : RateSection) (hfits : FitsArray keep b.elems) :
    Shows (rtwFilterSuppportRateie b.network keep).toNetwork b.fixed
        (encode (keepFirst keep b.elems)) ∧
      Stays (rtwFilterSuppportRateie b.network keep) := by
  have hsize := b.ielength_le
  rcases exists_first (fun e => e.id = 1) b.elems with hnone | ⟨A, e, B, hl, hA, he⟩
  · have hnone' : ∀ e ∈ b.elems, e.id ≠ 1 := by simpa using hnone
    rw [filter_none keep b.fixed_length b.shows hnone', keepFirst_none keep hnone']
    exact ⟨b.shows, within_nil, within_nil⟩
  · have hA' : ∀ d ∈ A, d.id ≠ 1 := by simpa using hA
    have he' : e.id = 1 := of_decide_eq_true he
    have hshows := b.shows
    rw [hl] at hshows
    obtain ⟨⟨hout, hops⟩, hrates⟩ := filter_found keep b.fixed_length hshows hA' he'
      (Nat.lt_of_le_of_lt hsize (by decide))
    have hfirst : b.elems.find? (fun e => e.id = 1) = some e := by
      rw [hl, List.find?_append, List.find?_eq_none.mpr (by simpa using hA'),
        List.find?_cons, he]
      rfl
    have harray := hfits e hfirst
    rw [hl, keepFirst_first keep hA' he']
    refine ⟨hout, hops _ hsize within_nil, ?_⟩
    rw [hrates]
    refine (within_append _ _).mpr ⟨within_nil, (within_cons _ _).mpr ⟨?_, within_nil⟩⟩
    exact bytes_within 0 (by omega)

theorem onlyWanted_nil (eid : UInt8) (l : List Elem) (tail : List UInt8) :
    OnlyWanted eid [] l tail := by
  induction l generalizing tail with
  | nil => trivial
  | cons e l ih =>
    rw [OnlyWanted]
    split_ifs with htaken
    · exact ⟨⟨htaken.1, List.nil_prefix⟩, ih _⟩
    · exact ih _

theorem ext_removed {net : BssNetwork} {fixed : List UInt8} {l : List Elem}
    (hfixed : fixed.length = fixedIeLength) (hl : Shows net.toNetwork fixed (encode l))
    (hne : l ≠ []) (hsize : net.ielength < 2 ^ 31) :
    (∃ rest, (rtwIesRemoveIe net.ies net.ielength fixedIeLength 50 []).mem =
      fixed ++ (encode (l.filter fun e => e.id ≠ 50) ++ rest)) ∧
    ∀ len, net.ielength ≤ len →
      Within len (rtwIesRemoveIe net.ies net.ielength fixedIeLength 50 []).ops := by
  obtain ⟨⟨behind, hmem⟩, hlen⟩ := hl
  have hpos := encode_length_pos hne
  let q : Request :=
    { ies := net.ies
      iesLen := net.ielength
      offset := fixedIeLength
      eid := 50
      oui := []
      holds := by
        rw [hmem, hlen, List.length_append, List.length_append]
        omega
      fits := hsize }
  have hfront : net.ies.take fixedIeLength = fixed := by
    rw [hmem, ← hfixed, List.take_left]
  have hsplit : q.Splits l [] := by
    refine ⟨?_, cut_nil⟩
    change net.ies.take net.ielength = net.ies.take fixedIeLength ++ (encode l ++ [])
    rw [hfront, hmem, hlen, ← List.append_assoc, ← List.length_append, List.take_left,
      List.append_nil]
  have hcleared := q.out_cleared (by change fixedIeLength < net.ielength; omega) hsplit
    fun hend => hend.1 rfl
  have hkept : kept 50 [] [] l (q.ies.drop q.iesLen) = l.filter fun e => e.id ≠ 50 := by
    rw [(kept_eq_filter_iff l _).mpr (onlyWanted_nil 50 l _)]
    refine List.filter_congr fun e _ => decide_eq_decide.mpr (not_congr ?_)
    exact and_iff_left List.nil_prefix
  refine ⟨⟨tailAfter 50 [] [] l (q.ies.drop q.iesLen), ?_⟩, ?_⟩
  · have hout := hcleared.mem
    rw [← hfront, ← hkept]
    exact hout
  · exact fun len hin => hcleared.ops len hin within_nil

/-- The elements after the update: in 802.11b alone the CCK rates, without it the OFDM rates. -/
theorem rates_by_mode (mode : UInt32) :
    (mode ≠ wireless11b → mode &&& wireless11b ≠ 0 →
      (rtwUpdateRateBymode b.network mode).1.toNetwork = b.network.toNetwork ∧
        Stays (rtwUpdateRateBymode b.network mode).1) ∧
    (mode &&& wireless11b = 0 → FitsArray .ofdm b.elems →
      Shows (rtwUpdateRateBymode b.network mode).1.toNetwork b.fixed
          (encode (keepFirst .ofdm b.elems)) ∧
        Stays (rtwUpdateRateBymode b.network mode).1) ∧
    (mode = wireless11b → FitsArray .cck b.elems → (∀ e ∈ b.elems, e.id ≠ 50) →
      Shows (rtwUpdateRateBymode b.network mode).1.toNetwork b.fixed
          (encode (keepFirst .cck b.elems)) ∧
        Stays (rtwUpdateRateBymode b.network mode).1) ∧
    (mode = wireless11b → FitsArray .cck b.elems → keepFirst .cck b.elems = b.elems →
      (∃ rest, (rtwUpdateRateBymode b.network mode).1.ies =
          b.fixed ++ (encode (b.elems.filter fun e => e.id ≠ 50) ++ rest)) ∧
        Stays (rtwUpdateRateBymode b.network mode).1) := by
  refine ⟨fun hne hb => ?_, fun hb hfits => ?_, fun hb hfits hext => ?_, fun hb hfits hsame => ?_⟩
  · rw [rtwUpdateRateBymode, if_neg hne, if_neg hb]
    exact ⟨rfl, within_nil, within_nil⟩
  · have hne : mode ≠ wireless11b := by
      rintro rfl
      exact absurd hb (by decide)
    obtain ⟨hshows, hin, hnew⟩ := filter_first b .ofdm hfits
    rw [rtwUpdateRateBymode, if_neg hne, if_pos hb]
    exact ⟨hshows, hin, hnew⟩
  · obtain ⟨hshows, hin, hnew⟩ := filter_first b .cck hfits
    have hnone : ∀ e ∈ keepFirst .cck b.elems, e.id ≠ 50 :=
      keepFirst_forall (P := fun id => id ≠ 50) .cck hext
    have hkept : removeExtRates (rtwFilterSuppportRateie b.network .cck) b.network.ielength =
        rtwFilterSuppportRateie b.network .cck := by
      delta removeExtRates
      rw [lookup b.fixed_length hshows,
        locate_none fixedIeLength (by simpa using hnone)]
    rw [rtwUpdateRateBymode, if_pos hb]
    dsimp only
    rw [hkept]
    exact ⟨hshows, hin, hnew⟩
  · obtain ⟨hshows, hin, hnew⟩ := filter_first b .cck hfits
    rw [hsame] at hshows
    have hlen : (rtwFilterSuppportRateie b.network .cck).ielength = b.network.ielength :=
      hshows.2
    rw [rtwUpdateRateBymode, if_pos hb]
    dsimp only
    delta removeExtRates
    rw [lookup b.fixed_length hshows]
    rcases exists_first (fun e => e.id = 50) b.elems with hnone | ⟨A, e, B, hl, hA, he⟩
    · have hall : b.elems.filter (fun e => e.id ≠ 50) = b.elems :=
        List.filter_eq_self.mpr (by simpa using hnone)
      rw [locate_none fixedIeLength hnone, hall]
      exact ⟨hshows.1, hin, hnew⟩
    · have hne : b.elems ≠ [] := by
        rw [hl]
        simp
      have hsize := b.ielength_le
      obtain ⟨hmem, hops⟩ := ext_removed b.fixed_length hshows hne (by
        rw [hlen]
        exact Nat.lt_of_le_of_lt hsize (by decide))
      rw [hlen] at hmem hops
      have hfound : locate (fun e => e.id = 50) b.elems fixedIeLength =
          some (fixedIeLength + (encode A).length, e.data.length) := by
        rw [hl]
        exact locate_first fixedIeLength hA he
      rw [hfound]
      exact ⟨hmem, (within_append _ _).mpr ⟨hin, hops _ hsize⟩, hnew⟩

end Update

def modeHas (mode : UInt32) (rate : UInt8) : Bool :=
  mode &&& wireless11b ≠ 0 && rtwIsCckRate rate || mode &&& ~~~wireless11b ≠ 0 && rtwIsOfdmRate rate

def bareRates (e : Elem) : List UInt8 := e.data.map (· &&& 0x7f)

def leftOf (mode : UInt32) (e : Elem) : Option (UInt8 × List UInt8) :=
  let rates := (bareRates e).filter (modeHas mode)
  if e.id = 1 ∨ e.id = 50 ∧ rates ≠ [] then some (e.id, rates)
  else if e.id = 50 then none else some (e.id, e.data)

def bare (e : Elem) : UInt8 × List UInt8 :=
  (e.id, if e.id = 1 ∨ e.id = 50 then bareRates e else e.data)

def HoldsRates (b : Bss) (mode : UInt32) : Prop :=
  ∃ l : List Elem, l.map bare = b.elems.filterMap (leftOf mode) ∧
    Shows (rtwUpdateRateBymode b.network mode).1.toNetwork b.fixed (encode l)

def cckExtended : Bss where
  fixed := List.replicate 12 0
  elems := [ssidElem, ⟨1, [0x0c], by decide⟩, ⟨50, [0x02], by decide⟩]
  behind := List.replicate 747 0
  dsConfig := 6
  supportedRates := List.replicate 16 0
  fixed_length := List.length_replicate
  size := by
    rw [List.length_replicate, List.length_replicate]
    rfl

/-- In 802.11g the extended rates are kept, in 802.11b the length keeps the header of theirs. -/
theorem rates_not_of_mode :
    ¬ HoldsRates cckExtended wireless11g ∧ ¬ HoldsRates cckExtended wireless11b := by
  constructor
  · rintro ⟨l, hrates, hshows⟩
    have hsame : Shows (rtwUpdateRateBymode cckExtended.network wireless11g).1.toNetwork
        cckExtended.fixed (encode [⟨0, [97], by decide⟩, ⟨1, [0x8c], by decide⟩,
          ⟨50, [0x02], by decide⟩]) :=
      ⟨⟨List.replicate 747 0, by decide +kernel⟩, by decide +kernel⟩
    rw [encode_injective (hshows.unique hsame)] at hrates
    exact absurd hrates (by decide)
  · rintro ⟨l, -, hshows⟩
    have hlong : Shows (rtwUpdateRateBymode cckExtended.network wireless11b).1.toNetwork
        cckExtended.fixed (encode [⟨0, [97], by decide⟩, ⟨1, [], by decide⟩] ++ [2, 1]) :=
      ⟨⟨2 :: 2 :: List.replicate 747 0, by decide +kernel⟩, by decide +kernel⟩
    have hbytes := hshows.unique hlong
    rw [← List.append_nil (encode l)] at hbytes
    exact List.cons_ne_nil _ _ (encode_inj hbytes cut_nil (by decide)).2.symm

end Rtl8189.RateFilter
