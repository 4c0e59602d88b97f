import Rtl8189.CollectBss
import Rtl8189.ElemList
import Rtl8189.IeSearch

/-!
# The SSID of a hidden network

A record of the scan table was made from a frame that does not tell the SSID. Another frame of
that network does, and `rtw_absorb_ssid_ifneed` puts its SSID into the stored elements. Where
they start is taken from the kind of the other frame.
-/
namespace Rtl8189.SsidAbsorb

open AccessProg CollectBss ElemList IeLookup IeSearch

open ConnectSettings (maxIeSz)

/-- `WLAN_BSSID_EX`; the bytes of the SSID are as many as `SsidLength`. -/
structure Network where
  macAddress : List UInt8
  ssid : List UInt8
  ies : List UInt8
  ielength : ℕ

inductive Region where
  | frame
  | ssid
  | recordSsid
  | ies
  | backupIe
  deriving DecidableEq

def isHiddenSsid (ssid : List UInt8) : Bool := ssid.isEmpty || ssid.all (· = 0)

/-- What `is_hidden_ssid` reads, up to the first byte that is not zero. -/
def hiddenReads (ssid : List UInt8) : ℕ := min (ssid.findIdx (· ≠ 0) + 1) ssid.length

section Absorb

variable (f : SurveyFrame) (new : List UInt8)

def search (n : Network) : Search := ⟨n.ies, f.ieOffset, n.ielength⟩

/-- The three writes to the elements, from `p` on. -/
def writeSsid (ies : List UInt8) (p nextIe remainLen : ℕ) : List UInt8 :=
  let backupIe := (ies.drop nextIe).take remainLen
  let ies := putBytes ies (p + 1) [UInt8.ofNat new.length]
  let ies := putBytes ies (p + 2) new
  putBytes ies (p + 2 + new.length) backupIe

/-- The element at `p` gets the new SSID, and what stands behind it follows. -/
def replaceSsid (n : Network) (p ssidLenOri : ℕ) : Prog Region Network := do
  let nextIe := p + 2 + ssidLenOri
  let remainLen := usub n.ielength nextIe
  .touch .recordSsid 0 new.length
  .touch .ies nextIe remainLen
  .touch .backupIe 0 remainLen
  .touch .ies (p + 1) 1
  .touch .ies (p + 2) new.length
  .touch .ies (p + 2 + new.length) remainLen
  pure { n with
    ssid := new
    ies := writeSsid new n.ies p nextIe remainLen
    ielength := u32 (n.ielength + new.length) }

def absorbSsid (n : Network) : Prog Region Network := do
  match ← (search f n).lookUp .ies 0 with
  | none => pure n
  | some (q, ssidLenOri) => replaceSsid new n (f.ieOffset + q) ssidLenOri

def absorbNetwork (n : Network) : Prog Region Network := do
  .touch .recordSsid 0 (hiddenReads n.ssid)
  .touch .ssid 0 (if isHiddenSsid n.ssid then hiddenReads new else 0)
  if isHiddenSsid n.ssid ∧ ¬ isHiddenSsid new then absorbSsid f new n else pure n

def absorbFirst : List Network → Prog Region (List Network)
  | [] => pure []
  | n :: table =>
    if n.macAddress = f.getAddr2 then do
      let n ← absorbNetwork f new n
      pure (n :: table)
    else do
      let table ← absorbFirst table
      pure (n :: table)

/-- `rtw_absorb_ssid_ifneed`; no record is found for the zero address. -/
def rtwAbsorbSsidIfneed (table : List Network) : Prog Region (List Network) := do
  .touch .frame 0 2
  .touch .frame 10 6
  if f.getAddr2 = List.replicate 6 0 then pure table else absorbFirst f new table

end Absorb

/-- A record with fixed fields, or none if it is of a probe request, behind them a list of
elements, and behind `IELength` what was left there. -/
structure HiddenRecord where
  macAddress : List UInt8
  ssid : List UInt8
  short : ssid.length ≤ 32
  hidden : isHiddenSsid ssid = true
  fixed : List UInt8
  fixedFields : fixed.length = 12 ∨ fixed.length = 0
  elements : List Elem
  rest : List UInt8
  full : (fixed ++ (encode elements ++ rest)).length = maxIeSz

namespace HiddenRecord

def ielength (r : HiddenRecord) : ℕ := r.fixed.length + (encode r.elements).length

def network (r : HiddenRecord) : Network :=
  ⟨r.macAddress, r.ssid, r.fixed ++ (encode r.elements ++ r.rest), r.ielength⟩

end HiddenRecord

/-- A frame with a visible SSID of a network of which the first record is hidden. -/
structure Sighting where
  before : List Network
  record : HiddenRecord
  after : List Network
  frame : SurveyFrame
  new : List UInt8
  first : ∀ n ∈ before, n.macAddress ≠ record.macAddress
  sender : frame.getAddr2 = record.macAddress
  short : new.length ≤ 32
  visible : isHiddenSsid new = false

def size (f : SurveyFrame) : Region → ℕ
  | .frame => f.bytes.length
  | .ssid | .recordSsid => 32
  | .ies | .backupIe => maxIeSz

structure Shows (n : Network) (fixed : List UInt8) (l : List Elem) : Prop where
  ies : ∃ rest, n.ies = fixed ++ (encode l ++ rest)
  full : n.ies.length = maxIeSz
  ielength : n.ielength = fixed.length + (encode l).length

def withSsid (new : List UInt8) (hnew : new.length ≤ 32) : List Elem → List Elem
  | [] => []
  | e :: l =>
    if e.id = 0 then ⟨0, new, Nat.lt_of_le_of_lt hnew (by decide)⟩ :: l
    else e :: withSsid new hnew l

namespace Sighting

variable (s : Sighting)

def table : List Network := s.before ++ s.record.network :: s.after

def wanted : List Elem := withSsid s.new s.short s.record.elements

def run : Prog Region (List Network) := rtwAbsorbSsidIfneed s.frame s.new s.table

def Absorbed : Prop := s.run.Inside (size s.frame) ∧
  ∃ n, s.run.ret = some (s.before ++ n :: s.after) ∧ Shows n s.record.fixed s.wanted

/-! ## The record -/

theorem absorbFirst_inside {f : SurveyFrame} {new : List UInt8} {before after : List Network}
    {n : Network} (hbefore : ∀ m ∈ before, m.macAddress ≠ f.getAddr2)
    (hn : n.macAddress = f.getAddr2) {sizes : Region → ℕ} :
    (absorbFirst f new (before ++ n :: after)).Inside sizes ↔
      (absorbNetwork f new n).Inside sizes := by
  induction before with
  | nil =>
    rw [List.nil_append, absorbFirst, if_pos hn]
    exact Prog.inside_bind_of fun _ => (Prog.inside_pure _).mpr trivial
  | cons m before ih =>
    rw [List.cons_append, absorbFirst, if_neg (hbefore m List.mem_cons_self)]
    refine (Prog.inside_bind_of fun _ => (Prog.inside_pure _).mpr trivial).trans ?_
    exact ih fun d hd => hbefore d (List.mem_cons_of_mem m hd)

theorem absorbFirst_ret {f : SurveyFrame} {new : List UInt8} {before after : List Network}
    {n : Network} (hbefore : ∀ m ∈ before, m.macAddress ≠ f.getAddr2)
    (hn : n.macAddress = f.getAddr2) :
    (absorbFirst f new (before ++ n :: after)).ret =
      (absorbNetwork f new n).ret.map fun m => before ++ m :: after := by
  induction before with
  | nil =>
    rw [List.nil_append, absorbFirst, if_pos hn, Prog.ret_bind]
    cases (absorbNetwork f new n).ret <;> rfl
  | cons m before ih =>
    rw [List.cons_append, absorbFirst, if_neg (hbefore m List.mem_cons_self), Prog.ret_bind,
      ih fun d hd => hbefore d (List.mem_cons_of_mem m hd)]
    cases (absorbNetwork f new n).ret <;> rfl

variable {s}

theorem hiddenReads_le (ssid : List UInt8) : hiddenReads ssid ≤ ssid.length := Nat.min_le_right _ _

theorem run_inside {β : Type} (k : Prog Region β) : (do
      Prog.touch Region.frame 0 2
      Prog.touch Region.frame 10 6
      k).Inside (size s.frame) ↔ k.Inside (size s.frame) := by
  have hhead : 24 ≤ size s.frame .frame := s.frame.header
  simp only [Prog.inside_touch_bind]
  exact ⟨fun h => h.2.2, fun h => ⟨by omega, by omega, h⟩⟩

theorem absorbNetwork_eq : absorbNetwork s.frame s.new s.record.network = (do
      Prog.touch Region.recordSsid 0 (hiddenReads s.record.ssid)
      Prog.touch Region.ssid 0 (hiddenReads s.new)
      absorbSsid s.frame s.new s.record.network) := by
  have hhidden : isHiddenSsid s.record.network.ssid = true := s.record.hidden
  have hnew : ¬ isHiddenSsid s.new = true := by
    rw [s.visible]
    exact Bool.false_ne_true
  rw [absorbNetwork, if_pos hhidden]
  simp only [if_pos (And.intro hhidden hnew)]
  rfl

theorem absorbed_record (hmac : s.record.macAddress ≠ List.replicate 6 0) : s.Absorbed ↔
    (absorbSsid s.frame s.new s.record.network).Inside (size s.frame) ∧
      ∃ n, (absorbSsid s.frame s.new s.record.network).ret = some n ∧
        Shows n s.record.fixed s.wanted := by
  have hsender : s.frame.getAddr2 ≠ List.replicate 6 0 := fun h => hmac (s.sender ▸ h)
  have hbefore : ∀ m ∈ s.before, m.macAddress ≠ s.frame.getAddr2 := by
    rw [s.sender]
    exact s.first
  have hn : s.record.network.macAddress = s.frame.getAddr2 := s.sender.symm
  have hold := (hiddenReads_le s.record.ssid).trans s.record.short
  have hnew := (hiddenReads_le s.new).trans s.short
  have hroom : size s.frame .ssid = 32 ∧ size s.frame .recordSsid = 32 := ⟨rfl, rfl⟩
  have hret : s.run.ret = ((absorbSsid s.frame s.new s.record.network).ret.map fun m =>
      s.before ++ m :: s.after) := by
    have hfirst : (absorbFirst s.frame s.new (s.before ++ s.record.network :: s.after)).ret = _ :=
      absorbFirst_ret hbefore hn
    rw [absorbNetwork_eq] at hfirst
    rw [run, rtwAbsorbSsidIfneed, if_neg hsender]
    exact hfirst
  refine and_congr ?_ (exists_congr fun n => and_congr_left fun _ => ?_)
  · rw [run, rtwAbsorbSsidIfneed, if_neg hsender]
    refine (run_inside _).trans ((absorbFirst_inside hbefore hn).trans ?_)
    rw [absorbNetwork_eq]
    simp only [Prog.inside_touch_bind, hroom]
    exact ⟨fun h => h.2.2, fun h => ⟨by omega, by omega, h⟩⟩
  · rw [hret, Option.map_eq_some_iff]
    constructor
    · rintro ⟨m, hm, heq⟩
      obtain ⟨rfl, -⟩ := List.cons.inj (List.append_cancel_left heq)
      exact hm
    · intro h
      exact ⟨n, h, rfl⟩

theorem shows_same : Shows s.record.network s.record.fixed s.wanted ↔
    s.wanted = s.record.elements := by
  constructor
  · rintro ⟨⟨rest, hies⟩, -, hlen⟩
    have hstored : s.record.fixed ++ (encode s.record.elements ++ s.record.rest) =
        s.record.fixed ++ (encode s.wanted ++ rest) := hies
    have htail := List.append_cancel_left hstored
    have hsize : (encode s.record.elements).length = (encode s.wanted).length :=
      Nat.add_left_cancel hlen
    exact (encode_injective (List.append_inj htail hsize).1).symm
  · intro h
    rw [h]
    exact ⟨⟨_, rfl⟩, s.record.full, rfl⟩

theorem absorbed_zero (hmac : s.record.macAddress = List.replicate 6 0) : s.Absorbed ↔
    s.wanted = s.record.elements := by
  have hsender : s.frame.getAddr2 = List.replicate 6 0 := s.sender.trans hmac
  rw [Absorbed, run, rtwAbsorbSsidIfneed, if_pos hsender, run_inside]
  refine (and_iff_right ((Prog.inside_pure _).mpr trivial)).trans ?_
  rw [← shows_same]
  constructor
  · rintro ⟨n, hn, hshows⟩
    obtain ⟨rfl, -⟩ := List.cons.inj (List.append_cancel_left (Option.some.inj hn))
    exact hshows
  · exact fun h => ⟨_, rfl, h⟩

/-! ## The splice -/

theorem writeSsid_eq {new ies : List UInt8} {p nextIe remainLen : ℕ} (hp : p + 2 ≤ ies.length) :
    writeSsid new ies p nextIe remainLen =
      ies.take (p + 1) ++ (UInt8.ofNat new.length :: (new ++ ((ies.drop nextIe).take remainLen ++
        ies.drop (p + 2 + new.length + ((ies.drop nextIe).take remainLen).length)))) := by
  have hhead : (ies.take (p + 1)).length = p + 1 := List.length_take_of_le (by omega)
  have hone : putBytes ies (p + 1) [UInt8.ofNat new.length] =
      (ies.take (p + 1) ++ [UInt8.ofNat new.length]) ++ ies.drop (p + 2) := rfl
  have htwo : (ies.take (p + 1) ++ [UInt8.ofNat new.length]).length = p + 2 := by
    rw [List.length_append, hhead]
    rfl
  have hthree : (ies.take (p + 1) ++ [UInt8.ofNat new.length] ++ new).length =
      p + 2 + new.length := by
    rw [List.length_append, htwo]
  dsimp only [writeSsid]
  rw [hone]
  have hput := putBytes_right (ies.take (p + 1) ++ [UInt8.ofNat new.length]) (ies.drop (p + 2)) new
  rw [htwo, List.drop_drop, ← List.append_assoc] at hput
  rw [hput]
  have hlast := putBytes_right (ies.take (p + 1) ++ [UInt8.ofNat new.length] ++ new)
    (ies.drop (p + 2 + new.length)) ((ies.drop nextIe).take remainLen)
  rw [hthree, List.drop_drop] at hlast
  rw [hlast]
  simp only [List.append_assoc, List.cons_append, List.nil_append]

theorem byteAt_take {b : List UInt8} {i n : ℕ} (h : i < n) : byteAt (b.take n) i = byteAt b i := by
  rw [byteAt, byteAt, List.getD_eq_getElem?_getD, List.getD_eq_getElem?_getD, List.getElem?_take,
    if_pos h]

theorem writeSsid_byteAt {new ies : List UInt8} {p nextIe remainLen : ℕ}
    (hp : p + 2 ≤ ies.length) (hnew : new.length < 256) :
    byteAt (writeSsid new ies p nextIe remainLen) (p + 1) = new.length ∧
      ∀ i ≤ p, byteAt (writeSsid new ies p nextIe remainLen) i = byteAt ies i := by
  have hhead : (ies.take (p + 1)).length = p + 1 := List.length_take_of_le (by omega)
  rw [writeSsid_eq hp]
  constructor
  · have hput := fun tail => byteAt_append_right (ies.take (p + 1)) tail 0
    rw [hhead] at hput
    refine (hput _).trans ?_
    change (UInt8.ofNat new.length).toNat = _
    rw [UInt8.toNat_ofNat']
    omega
  · intro i hi
    rw [byteAt_append_left (by omega), byteAt_take (by omega)]

theorem writeSsid_same {new ies : List UInt8} {p len : ℕ} (hnew : new.length < 256)
    (hlen : byteAt ies (p + 1) = new.length) (hend : p + 2 + new.length ≤ len)
    (hfits : len ≤ ies.length) :
    writeSsid new ies p (p + 2 + new.length) (len - (p + 2 + new.length)) =
      putBytes ies (p + 2) new := by
  have hbyte : ies[p + 1]? = some (UInt8.ofNat new.length) := by
    have hin : p + 1 < ies.length := by omega
    rw [byteAt, List.getD_eq_getElem _ _ hin] at hlen
    rw [List.getElem?_eq_getElem hin, ← hlen, UInt8.ofNat_toNat]
  have htake : ies.take (p + 2) = ies.take (p + 1) ++ [UInt8.ofNat new.length] := by
    rw [List.take_add_one, hbyte]
    rfl
  have hback : ((ies.drop (p + 2 + new.length)).take (len - (p + 2 + new.length))).length =
      len - (p + 2 + new.length) := by
    rw [List.length_take, List.length_drop]
    omega
  have htail : ies.drop (p + 2 + new.length + (len - (p + 2 + new.length))) =
      (ies.drop (p + 2 + new.length)).drop (len - (p + 2 + new.length)) := List.drop_drop.symm
  rw [writeSsid_eq (by omega), hback, htail, List.take_append_drop, putBytes, htake]
  simp only [List.append_assoc, List.cons_append, List.nil_append]

def emptySsid : Elem := ⟨0, [], Elem.nil_fits⟩

variable (s) in
def place (pre : List Elem) : ℕ := s.record.fixed.length + (encode pre).length

variable (s) in
/-- The first SSID element is empty, and the new SSID fits behind the rest. -/
structure Room (pre post : List Elem) : Prop where
  split : s.record.elements = pre ++ emptySsid :: post
  first : ∀ d ∈ pre, d.id ≠ 0
  fits : s.record.ielength + s.new.length ≤ maxIeSz

variable (s) in
/-- What is found at `p` is as long as the new SSID already, and with that written there the
bytes happen to be those of the list that is wanted. -/
structure Coincides (p len : ℕ) : Prop where
  length : len = s.new.length
  ends : p + 2 + len ≤ s.record.ielength
  bytes : (putBytes s.record.network.ies (p + 2) s.new).take (s.record.ielength + s.new.length) =
    s.record.fixed ++ encode s.wanted

variable (s) in
def Lands (p len : ℕ) : Prop :=
  ∃ pre post, Room s pre post ∧ (p = place s pre ∨ Coincides s p len)

theorem withSsid_first {new : List UInt8} (hnew : new.length ≤ 32) {pre post : List Elem}
    {e : Elem} (hpre : ∀ d ∈ pre, d.id ≠ 0) (he : e.id = 0) :
    withSsid new hnew (pre ++ e :: post) =
      pre ++ ⟨0, new, Nat.lt_of_le_of_lt hnew (by decide)⟩ :: post := by
  induction pre with
  | nil => exact if_pos he
  | cons d pre ih =>
    rw [List.cons_append, withSsid, if_neg (hpre d List.mem_cons_self),
      ih fun c hc => hpre c (List.mem_cons_of_mem d hc)]
    rfl

theorem withSsid_none {new : List UInt8} (hnew : new.length ≤ 32) {l : List Elem}
    (h : ∀ e ∈ l, e.id ≠ 0) : withSsid new hnew l = l := by
  induction l with
  | nil => rfl
  | cons e l ih =>
    rw [withSsid, if_neg (h e List.mem_cons_self), ih fun d hd => h d (List.mem_cons_of_mem e hd)]

theorem new_pos : 0 < s.new.length := by
  by_contra hzero
  have hnil := List.eq_nil_of_length_eq_zero (Nat.eq_zero_of_not_pos hzero)
  have hvisible := s.visible
  rw [hnil] at hvisible
  exact nomatch hvisible

theorem ielength_le : s.record.ielength ≤ maxIeSz := by
  have hfull := s.record.full
  rw [List.length_append, List.length_append] at hfull
  rw [HiddenRecord.ielength]
  omega

/-- The bytes that the record should hold, up to `IELength`. -/
theorem Room.bytes {pre post : List Elem} (h : Room s pre post) :
    s.record.network.ies =
        (s.record.fixed ++ encode pre) ++ ([0, 0] ++ (encode post ++ s.record.rest)) ∧
      s.record.fixed ++ encode s.wanted = (s.record.fixed ++ encode pre) ++
        ([0, UInt8.ofNat s.new.length] ++ (s.new ++ encode post)) := by
  constructor
  · rw [HiddenRecord.network, h.split, encode_insert]
    simp only [List.append_assoc]
    rfl
  · rw [wanted, h.split, withSsid_first _ h.first rfl, encode_insert]
    simp only [List.append_assoc]
    rfl

/-- The function comes to write at `p`, in front of the element of length `len`. -/
def Writes (s : Sighting) (p len : ℕ) : Prop :=
  (usub s.record.ielength (p + 2 + len) = 0 ∨
      p + 2 + len + usub s.record.ielength (p + 2 + len) ≤ maxIeSz) ∧
    p + 2 + s.new.length + usub s.record.ielength (p + 2 + len) ≤ maxIeSz ∧
    Shows ⟨s.record.macAddress, s.new,
      writeSsid s.new s.record.network.ies p (p + 2 + len) (usub s.record.ielength (p + 2 + len)),
      u32 (s.record.ielength + s.new.length)⟩ s.record.fixed s.wanted

section Writes

variable {p len : ℕ}

theorem network_length : s.record.network.ies.length = maxIeSz := s.record.full

theorem usub_end (h : p + 2 + len ≤ s.record.ielength) :
    usub s.record.ielength (p + 2 + len) = s.record.ielength - (p + 2 + len) := by
  have hmax : s.record.ielength ≤ 768 := ielength_le
  rw [usub, u32]
  omega

theorem Room.place_le {pre post : List Elem} (h : Room s pre post) :
    place s pre + 2 + (encode post).length = s.record.ielength := by
  rw [HiddenRecord.ielength, h.split, encode_append, List.length_append, encode_length_cons, place]
  change _ = _ + (_ + (0 + 2 + _))
  omega

theorem Room.written_length {pre post : List Elem} (h : Room s pre post) :
    s.record.fixed.length + (encode s.wanted).length = s.record.ielength + s.new.length := by
  have hplace := h.place_le
  have hbytes := congrArg List.length h.bytes.2
  simp only [List.length_append, List.length_cons, List.length_nil] at hbytes
  rw [place] at hplace
  omega

theorem u32_ielength : u32 (s.record.ielength + s.new.length) =
    s.record.ielength + s.new.length := by
  have hmax : s.record.ielength ≤ 768 := ielength_le
  have hshort := s.short
  exact Nat.mod_eq_of_lt (by omega)

theorem Room.writes {pre post : List Elem} (h : Room s pre post) : Writes s (place s pre) 0 := by
  have hplace := h.place_le
  have hroom : s.record.ielength + s.new.length ≤ 768 := h.fits
  have hmax : maxIeSz = 768 := rfl
  have hback : usub s.record.ielength (place s pre + 2 + 0) = (encode post).length := by
    rw [usub_end (by omega)]
    omega
  have hlen : s.record.network.ies.length = 768 := network_length
  obtain ⟨hies, hwanted⟩ := h.bytes
  have hhead : (s.record.fixed ++ encode pre).length = place s pre := List.length_append
  have htake : s.record.network.ies.take (place s pre + 1) =
      s.record.fixed ++ encode pre ++ [0] := by
    rw [hies, ← hhead, List.take_length_add_append]
    rfl
  have hdrop : (s.record.network.ies.drop (place s pre + 2)).take (encode post).length =
      encode post := by
    rw [hies, ← hhead, ← List.drop_drop, List.drop_left]
    exact List.take_left
  have hwrite : writeSsid s.new s.record.network.ies (place s pre) (place s pre + 2)
      (encode post).length = _ := writeSsid_eq (by omega)
  rw [Writes, hback, u32_ielength, Nat.add_zero, hwrite, htake, hdrop]
  refine ⟨.inr (by omega), by omega, ⟨s.record.network.ies.drop
    (place s pre + 2 + s.new.length + (encode post).length), ?_⟩, ?_, h.written_length.symm⟩
  · dsimp only
    rw [← List.append_assoc s.record.fixed, hwanted]
    simp only [List.append_assoc, List.cons_append, List.nil_append]
  · simp only [List.length_append, List.length_cons, List.length_nil, List.length_drop, hlen]
    rw [List.length_append] at hhead
    omega

theorem Coincides.writes {pre post : List Elem} (h : Room s pre post) (hc : Coincides s p len)
    (hlen : byteAt s.record.network.ies (p + 1) = len) : Writes s p len := by
  have hmax : s.record.ielength ≤ 768 := ielength_le
  have hsz : maxIeSz = 768 := rfl
  have hroom := h.fits
  have hfull : s.record.network.ies.length = 768 := network_length
  have hend := hc.ends
  have hshort := s.short
  obtain rfl := hc.length
  rw [Writes, usub_end hend, u32_ielength,
    writeSsid_same (by omega) hlen hend (by rw [hfull]; exact hmax)]
  refine ⟨.inr (by omega), by omega, ⟨(putBytes s.record.network.ies (p + 2) s.new).drop
    (s.record.ielength + s.new.length), ?_⟩, ?_, h.written_length.symm⟩
  · dsimp only
    rw [← List.append_assoc, ← hc.bytes, List.take_append_drop]
  · change (putBytes _ _ _).length = 768
    rw [putBytes, List.length_append, List.length_append, List.length_take, List.length_drop]
    omega

theorem room_of_shows {ies : List UInt8} (h : Shows ⟨s.record.macAddress, s.new, ies,
    u32 (s.record.ielength + s.new.length)⟩ s.record.fixed s.wanted) :
    ∃ pre post, Room s pre post := by
  have hpos := s.new_pos
  have hlen := h.ielength
  dsimp only at hlen
  rw [u32_ielength, HiddenRecord.ielength] at hlen
  rcases exists_first (fun e => decide (e.id = 0)) s.record.elements with
    hnone | ⟨pre, e, post, hsplit, hpre, he⟩
  · rw [wanted, withSsid_none _ fun e hmem => of_decide_eq_false (hnone e hmem)] at hlen
    omega
  · have hid : e.id = 0 := of_decide_eq_true he
    have hfirst : ∀ d ∈ pre, d.id ≠ 0 := fun d hd => of_decide_eq_false (hpre d hd)
    rw [wanted, hsplit, withSsid_first _ hfirst hid] at hlen
    simp only [encode_append, List.length_append, encode_length_cons] at hlen
    have hempty : e = emptySsid := by
      obtain ⟨id, data, fits⟩ := e
      obtain rfl : id = 0 := hid
      obtain rfl : data = [] := List.eq_nil_of_length_eq_zero (by dsimp only at hlen; omega)
      rfl
    subst hempty
    refine ⟨pre, post, hsplit, hfirst, ?_⟩
    obtain ⟨rest, hies⟩ := h.ies
    have hfull := h.full
    dsimp only at hies hfull
    rw [hies, List.length_append, List.length_append] at hfull
    have hielen := h.ielength
    dsimp only at hielen
    rw [u32_ielength] at hielen
    omega

theorem Room.kept_byteAt {pre post : List Elem} (h : Room s pre post) (rest : List UInt8) {i : ℕ}
    (hi : i ≤ place s pre) : byteAt (s.record.fixed ++ (encode s.wanted ++ rest)) i =
      byteAt s.record.network.ies i := by
  obtain ⟨hies, hwanted⟩ := h.bytes
  have hsame : s.record.fixed ++ (encode s.wanted ++ rest) =
      (s.record.fixed ++ encode pre ++ [0]) ++ (UInt8.ofNat s.new.length :: (s.new ++
        (encode post ++ rest))) := by
    rw [← List.append_assoc, hwanted]
    simp only [List.append_assoc, List.cons_append, List.nil_append]
  have hold : s.record.network.ies = (s.record.fixed ++ encode pre ++ [0]) ++
      (0 :: (encode post ++ s.record.rest)) := by
    rw [hies]
    simp only [List.append_assoc, List.cons_append, List.nil_append]
  have hlt : i < (s.record.fixed ++ encode pre ++ [0]).length := by
    rw [place] at hi
    simp only [List.length_append, List.length_cons, List.length_nil]
    omega
  rw [hsame, hold, byteAt_append_left hlt, byteAt_append_left hlt]

theorem Room.empty_byteAt {pre post : List Elem} (h : Room s pre post) :
    byteAt s.record.network.ies (place s pre + 1) = 0 := by
  rw [h.bytes.1, place, ← List.length_append, byteAt_append_right]
  rfl

theorem Room.length_byteAt {pre post : List Elem} (h : Room s pre post) (rest : List UInt8) :
    byteAt (s.record.fixed ++ (encode s.wanted ++ rest)) (place s pre + 1) = s.new.length := by
  have hshort := s.short
  rw [← List.append_assoc, h.bytes.2, place, ← List.length_append, List.append_assoc,
    byteAt_append_right]
  change (UInt8.ofNat s.new.length).toNat = _
  rw [UInt8.toNat_ofNat']
  omega

/-- What is written shows where it is written, or that it makes no difference. -/
theorem Writes.lands (hlt : p < s.record.ielength)
    (hlen : byteAt s.record.network.ies (p + 1) = len) (h : Writes s p len) : Lands s p len := by
  obtain ⟨hread, hwrite, hshows⟩ := h
  have hmax : s.record.ielength ≤ 768 := ielength_le
  have hsz : maxIeSz = 768 := rfl
  have hbyte := byteAt_lt s.record.network.ies (p + 1)
  have hend : p + 2 + len ≤ s.record.ielength := by
    by_contra hover
    rw [usub, u32] at hread
    omega
  obtain ⟨pre, post, hroom⟩ := room_of_shows hshows
  have hplace := hroom.place_le
  have hpos := s.new_pos
  have hshort := s.short
  have hfull : s.record.network.ies.length = 768 := network_length
  obtain ⟨hput, hkept⟩ := writeSsid_byteAt (by omega : p + 2 ≤ s.record.network.ies.length)
    (by omega : s.new.length < 256)
  obtain ⟨rest, hies⟩ := hshows.ies
  dsimp only at hies
  refine ⟨pre, post, hroom, ?_⟩
  rcases Nat.lt_trichotomy p (place s pre) with hbefore | hat | hbehind
  · -- the length that is written in front is one of the bytes that stay
    have hstays := hroom.kept_byteAt rest (by omega : p + 1 ≤ place s pre)
    rw [← hies, hput, hlen] at hstays
    subst hstays
    rw [usub_end hend, writeSsid_same (by omega) hlen hend (by omega)] at hies
    refine .inr ⟨rfl, hend, ?_⟩
    rw [hies, ← List.append_assoc]
    exact List.take_left' (by rw [List.length_append]; exact hroom.written_length)
  · exact .inl hat
  · -- the length of the empty SSID stays
    have hstays := hkept (place s pre + 1) (by omega)
    rw [hies, hroom.length_byteAt rest, hroom.empty_byteAt] at hstays
    omega

theorem writes_iff (hlt : p < s.record.ielength)
    (hlen : byteAt s.record.network.ies (p + 1) = len) : Writes s p len ↔ Lands s p len := by
  refine ⟨Writes.lands hlt hlen, ?_⟩
  rintro ⟨pre, post, hroom, rfl | hc⟩
  · rw [← hlen, hroom.empty_byteAt]
    exact hroom.writes
  · exact hc.writes hroom hlen

end Writes

/-! ## The look-up -/

variable (s) in
def lookUp : Search := search s.frame s.record.network

theorem lookUp_small : s.lookUp.Small := by
  have hmax : s.record.ielength ≤ 768 := ielength_le
  exact ⟨s.frame.ieOffset_le, Nat.lt_of_le_of_lt hmax (by decide)⟩

theorem first_writes {q : ℕ} (hq : s.lookUp.First 0 q) :
    s.frame.ieOffset + q < s.record.ielength ∧
      byteAt s.record.network.ies (s.frame.ieOffset + q + 1) = s.lookUp.elemLen q := by
  refine ⟨hq.1.2, ?_⟩
  rw [Search.elemLen, Search.elements, byteAt_drop]
  rfl

theorem replaceSsid_iff {p len : ℕ} :
    ((replaceSsid s.new s.record.network p len).Inside (size s.frame) ∧
      ∃ n, (replaceSsid s.new s.record.network p len).ret = some n ∧
        Shows n s.record.fixed s.wanted) ↔ Writes s p len := by
  have hpos := s.new_pos
  have hshort := s.short
  have hsize : size s.frame .ies = 768 ∧ size s.frame .backupIe = 768 ∧
      size s.frame .recordSsid = 32 := ⟨rfl, rfl, rfl⟩
  have hsz : maxIeSz = 768 := rfl
  have hret : (replaceSsid s.new s.record.network p len).ret = some
      ⟨s.record.macAddress, s.new, writeSsid s.new s.record.network.ies p (p + 2 + len)
        (usub s.record.ielength (p + 2 + len)), u32 (s.record.ielength + s.new.length)⟩ := rfl
  have hlen : s.record.network.ielength = s.record.ielength := rfl
  rw [hret]
  simp only [replaceSsid, Prog.inside_touch_bind, Prog.inside_pure, hsize, and_true, hlen,
    Option.some.injEq, exists_eq_left', Writes]
  constructor
  · rintro ⟨⟨-, hread, -, -, hnew, htail⟩, hshows⟩
    exact ⟨hread, by omega, hshows⟩
  · rintro ⟨hread, hwrite, hshows⟩
    exact ⟨⟨by omega, hread, by omega, by omega, by omega, by omega⟩, hshows⟩

theorem absorbSsid_iff : ((absorbSsid s.frame s.new s.record.network).Inside (size s.frame) ∧
      ∃ n, (absorbSsid s.frame s.new s.record.network).ret = some n ∧
        Shows n s.record.fixed s.wanted) ↔
    s.lookUp.Heads maxIeSz 0 ∧ ((∀ q, ¬ s.lookUp.First 0 q) → s.wanted = s.record.elements) ∧
      ∀ q, s.lookUp.First 0 q → Lands s (s.frame.ieOffset + q) (s.lookUp.elemLen q) := by
  have hsearch : search s.frame s.record.network = s.lookUp := rfl
  rw [absorbSsid, hsearch, Prog.inside_bind, Search.inside_lookUp s.lookUp_small, Prog.ret_bind,
    Search.ret_lookUp s.lookUp_small, Option.bind_some, and_assoc]
  refine and_congr Iff.rfl ?_
  simp only [Option.some.injEq, forall_eq']
  by_cases hfound : ∃ q, s.lookUp.First 0 q
  · obtain ⟨q, hq⟩ := hfound
    obtain ⟨hlt, hlen⟩ := first_writes hq
    rw [hq.ieAt s.lookUp_small]
    refine replaceSsid_iff.trans
      ((writes_iff hlt hlen).trans ⟨fun h => ⟨?_, ?_⟩, fun h => h.2 q hq⟩)
    · exact fun hno => absurd hq (hno q)
    · intro q' hq'
      rw [hq'.unique hq]
      exact h
  · have hno := not_exists.mp hfound
    rw [(Search.ieAt_none s.lookUp_small).mpr hno, ← shows_same]
    refine (and_iff_right ((Prog.inside_pure _).mpr trivial)).trans ?_
    constructor
    · rintro ⟨n, hn, hshows⟩
      cases hn
      exact ⟨fun _ => hshows, fun q hq => absurd hq (hno q)⟩
    · exact fun h => ⟨_, rfl, h.1 hno⟩

variable (s) in
def NoSsid : Prop := ∀ e ∈ s.record.elements, e.id ≠ 0

/-- From where the list starts the SSID element is found, if there is one. -/
theorem aligned_iff (hoff : s.frame.ieOffset = s.record.fixed.length) :
    (s.lookUp.Heads maxIeSz 0 ∧ ((∀ q, ¬ s.lookUp.First 0 q) → s.wanted = s.record.elements) ∧
      ∀ q, s.lookUp.First 0 q → Lands s (s.frame.ieOffset + q) (s.lookUp.elemLen q)) ↔
    NoSsid s ∨ ∃ pre post, Room s pre post := by
  have hmem : s.lookUp.elements = encode s.record.elements ++ s.record.rest := by
    rw [Search.elements, lookUp, search, hoff]
    exact List.drop_left
  have hlen : s.lookUp.ielength = s.lookUp.offset + (encode s.record.elements).length := by
    change s.record.ielength = s.frame.ieOffset + _
    rw [hoff]
    rfl
  have hheads : s.lookUp.Heads maxIeSz 0 := fun p hp => by
    have hle := Search.comes_list_le hmem hlen hp
    have hmax : s.lookUp.ielength ≤ maxIeSz := ielength_le
    omega
  have hzero : ∀ e : Elem, e.id.toNat = 0 ↔ e.id = 0 := fun e => by
    rw [← UInt8.toNat_inj]
    rfl
  have hfirst : ∀ pre e post, s.record.elements = pre ++ e :: post → (∀ d ∈ pre, d.id ≠ 0) →
      e.id = 0 → s.lookUp.First 0 (encode pre).length := fun pre e post hsplit hpre he =>
    (Search.first_list hmem hlen).mpr ⟨pre, e, post, hsplit,
      fun d hd => mt (hzero d).mp (hpre d hd), (hzero e).mpr he, rfl⟩
  rw [and_iff_right hheads]
  constructor
  · rintro ⟨-, hlands⟩
    rcases exists_first (fun e => decide (e.id = 0)) s.record.elements with
      hnone | ⟨pre, e, post, hsplit, hpre, he⟩
    · exact .inl fun e hmem => of_decide_eq_false (hnone e hmem)
    · have hq := hfirst pre e post hsplit (fun d hd => of_decide_eq_false (hpre d hd))
        (of_decide_eq_true he)
      obtain ⟨pre', post', hroom, -⟩ := hlands _ hq
      exact .inr ⟨pre', post', hroom⟩
  · rintro (hno | ⟨pre, post, hroom⟩)
    · refine ⟨fun _ => withSsid_none _ hno, fun q hq => ?_⟩
      obtain ⟨pre, e, post, hsplit, -, he, -⟩ := (Search.first_list hmem hlen).mp hq
      have hin : e ∈ s.record.elements := by
        rw [hsplit]
        exact List.mem_append_right _ List.mem_cons_self
      exact absurd ((hzero e).mp he) (hno e hin)
    · have hq := hfirst pre emptySsid post hroom.split hroom.first rfl
      refine ⟨fun hno => absurd hq (hno _), fun q hq' => ⟨pre, post, hroom, .inl ?_⟩⟩
      rw [hq'.unique hq, hoff]
      rfl

variable (s) in
/-- When the function does what it should, by where the elements of the frame start. -/
def Condition : Prop :=
  if s.record.macAddress = List.replicate 6 0 then s.wanted = s.record.elements
  else if s.frame.ieOffset = s.record.fixed.length then NoSsid s ∨ ∃ pre post, Room s pre post
  else s.lookUp.Heads maxIeSz 0 ∧
    ((∀ q, ¬ s.lookUp.First 0 q) → s.wanted = s.record.elements) ∧
      ∀ q, s.lookUp.First 0 q → Lands s (s.frame.ieOffset + q) (s.lookUp.elemLen q)

end Sighting

open Sighting

/-- The SSID is absorbed as it should be if and only if there is no SSID element, or it is empty,
the new SSID fits behind the rest, and the elements of the frame start where the stored ones do.
Where they start elsewhere, the look-up has to come to that element all the same, or what it
comes to must make no difference. -/
theorem absorbed_iff (s : Sighting) : s.Absorbed ↔ Condition s := by
  rw [Condition]
  split
  · next hmac => exact absorbed_zero hmac
  · next hmac =>
    refine (absorbed_record hmac).trans (absorbSsid_iff.trans ?_)
    split
    · next hoff => exact aligned_iff hoff
    · rfl

def oneZero : Elem := ⟨0, [0], by decide⟩

def zeroSsid : HiddenRecord where
  macAddress := [2, 0, 0, 0, 0, 1]
  ssid := [0]
  short := by decide
  hidden := rfl
  fixed := List.replicate 12 1
  fixedFields := .inl rfl
  elements := [oneZero]
  rest := List.replicate 753 0
  full := by decide +kernel

/-- A probe response of that network tells the SSID, `a`. -/
def tellsSsid : Sighting where
  before := []
  record := zeroSsid
  after := []
  frame :=
    { bytes := [0x50, 0] ++ List.replicate 8 0 ++ [2, 0, 0, 0, 0, 1] ++ List.replicate 8 0
      header := by decide
      fits := by decide }
  new := [97]
  first := nofun
  sender := rfl
  short := by decide
  visible := rfl

/-- The list stays as long as it was, `IELength` grows by one. -/
theorem old_length_counted : tellsSsid.run.ret.map (·.map (·.ielength)) = some [16] ∧
    ¬ tellsSsid.Absorbed := by
  refine ⟨by decide +kernel, fun h => ?_⟩
  have hmac : tellsSsid.record.macAddress ≠ List.replicate 6 0 := by decide
  have hcond := aligned_iff (s := tellsSsid) rfl
  rcases hcond.mp (absorbSsid_iff.mp ((absorbed_record hmac).mp h)) with hno | ⟨pre, post, hroom⟩
  · exact hno oneZero List.mem_cons_self rfl
  · have hsplit : [oneZero] = pre ++ emptySsid :: post := hroom.split
    cases pre with
    | nil =>
      have hdata := congrArg Elem.data (List.cons.inj hsplit).1
      exact nomatch hdata
    | cons d pre =>
      have hlen := congrArg List.length hsplit
      simp only [List.length_cons, List.length_append, List.length_nil] at hlen
      omega

end Rtl8189.SsidAbsorb
