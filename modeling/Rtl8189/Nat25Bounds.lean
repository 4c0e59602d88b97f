import Rtl8189.BufferWalk
import Rtl8189.Nat25Pppoe

/-!
# What the bridge reads of a frame

The bridge inspects frames of the network layer on their way. Lengths come from the frame, and
each protocol has its own checks of them.
-/
namespace Rtl8189.Nat25Bounds

open AccessTrace BufferWalk Nat25Pppoe
open Nat25Db (Nat25Method ethPIp ethPArp ethPIpv6)

/-! ## The accesses -/

inductive Client where
  | none
  | expired
  | fresh
deriving DecidableEq

structure BrExt where
  order : ByteOrder
  /-- `rtw_drv_log_level` lets `RTW_INFO` through. -/
  log : Bool
  addPppoeTag : Bool
  tailroom : ℕ
  pppoeConnectionInProgress : Bool
  client : Client

abbrev Trace := Round (Option ℕ) ℤ

def span (start size : ℕ) : Op := .bytes start size

def when (c : Prop) [Decidable c] (ops : List Op) : List Op := if c then ops else []

def ihl (f : List UInt8) : ℕ := byteAt f 14 % 16

/-- The pointer comparison counts the frame from behind its Ethernet header. -/
def Malformed (f : List UInt8) : Prop := f.length ≤ 4 * ihl f

instance (f : List UInt8) : Decidable (Malformed f) := inferInstanceAs (Decidable (_ ≤ _))

def zeros (f : List UInt8) (i n : ℕ) : Prop := (f.drop i).take n = List.replicate n 0

instance (f : List UInt8) (i n : ℕ) : Decidable (zeros f i n) := inferInstanceAs (Decidable (_ = _))

def ipTrace (x : BrExt) (f : List UInt8) : Nat25Method → Trace
  | .insert =>
    ⟨span 14 1 :: when (¬ Malformed f) (span 26 4 ::
      when (¬ zeros f 26 4) (when x.log [span 26 8] ++ [span 6 6])),
      .inl (if Malformed f then -1 else 0)⟩
  | .lookup =>
    ⟨span 14 1 :: when (¬ Malformed f) (when x.log [span 26 8] ++ [span 30 4] ++
      when (x.client ≠ .expired) [span 0 6]),
      .inl (if Malformed f then -1 else 0)⟩
  | _ => ⟨[span 14 1], .inl (-1)⟩

def arpTrace (x : BrExt) (f : List UInt8) (method : Nat25Method) : Trace :=
  if be16 f 16 ≠ ethPIp then ⟨[span 16 2], .inl (-1)⟩
  else
    let hln := byteAt f 18
    let pln := byteAt f 19
    match method with
    | .check => ⟨[span 16 2], .inl 0⟩
    | .insert => ⟨[span 16 2, span 22 6, span 18 1, span (22 + hln) 4, span 6 6], .inl 0⟩
    | .lookup =>
      ⟨[span 16 2, span 18 1, span 19 1, span (22 + hln + (hln + pln)) 4] ++
        when (x.client = .fresh) [span 0 6] ++ [span (22 + (hln + pln)) 6, span 0 6], .inl 0⟩
    | .parse => ⟨[span 16 2], .inl (-1)⟩

/-- `__nat25_add_pppoe_tag` on a frame of `len` bytes with the PPPoE length `length`. The copies
end in the frame that has grown. -/
def addOps (x : BrExt) (len length tailroom valueLen : ℕ) : List Op :=
  let dataLen := x.order.word valueLen + 4
  when (dataLen ≤ tailroom) [.length ((len : ℤ) - (20 + length)),
    .length ((len + dataLen : ℤ) - (20 + dataLen + length)),
    .length ((len + dataLen : ℤ) - (20 + dataLen))]

def relayAbsent (x : BrExt) (f : List UInt8) : Nat25Method → Trace
  | .insert =>
    ⟨span 6 6 :: addOps x f.length (be16 f 18) x.tailroom 8,
      .inl (if x.order.word 8 + 4 ≤ x.tailroom then 0 else -1)⟩
  | _ => ⟨[], .inl (-1)⟩

/-- With the relay tag at `p`. -/
def relayFound (x : BrExt) (f : List UInt8) (p : ℕ) : Nat25Method → Trace
  | .insert =>
    let old := be16 f (22 + p)
    if 40 < old + 4 + 2 + 6 then ⟨[span (20 + p) 4], .inl (-1)⟩
    else if f.length < 24 + p + old then ⟨[span (20 + p) 4, span (24 + p) old], .inl (-1)⟩
    else
      ⟨[span (20 + p) 4, span (24 + p) old, span (20 + p) (f.length - (20 + p)), span 18 2,
          span 6 6] ++
        addOps x (f.length - (4 + old)) ((be16 f 18 + 65536 - 4 - old) % 65536)
          (x.tailroom + (4 + old)) (8 + old),
        .inl (if x.order.word (8 + old) + 4 ≤ x.tailroom + (4 + old) then 0 else -1)⟩
  | _ =>
    let tagLen := be16 f (22 + p)
    if tagLen < 2 + 6 then ⟨[span (20 + p) 4], .inl (-1)⟩
    else if be16 f (24 + p) ≠ magicCode then ⟨[span (20 + p) 4, span (24 + p) 2], .inl (-1)⟩
    else
      ⟨[span (20 + p) 4, span (24 + p) 2, span (26 + p) 6, span 0 6] ++
        when (32 + p ≤ f.length) ([span (20 + p) (f.length - (20 + p)), span 18 2] ++
          when (2 + 6 < tagLen) [.length ((f.length - 8 : ℤ) - (24 + p))]),
        .inl (if 32 + p ≤ f.length then 0 else -1)⟩

/-- `__nat25_find_pppoe_tag`, and what is done with the tag. -/
def tagRound (x : BrExt) (f : List UInt8) (method : Nat25Method) (p : ℕ) : Trace :=
  if p < be16 f 18 then
    if be16 f (20 + p) = relaySid then relayFound x f p method
    else ⟨[span (20 + p) 4], .inr (some (p + (4 + be16 f (22 + p))))⟩
  else relayAbsent x f method

def pppoeTrace (x : BrExt) (f : List UInt8) : Nat25Method → Trace
  | .check => ⟨[span 16 2], .inl (if be16 f 16 = 0 then 0 else 1)⟩
  | .insert =>
    if be16 f 16 = 0 then
      if byteAt f 15 = padi.toNat ∨ byteAt f 15 = padr.toNat then
        if x.addPppoeTag then ⟨[span 16 2, span 15 1, span 18 2], .inr (some 0)⟩
        else ⟨[span 16 2, span 15 1, span 6 6], .inl 0⟩
      else ⟨[span 16 2, span 15 1], .inl (-1)⟩
    else ⟨[span 16 2, span 0 6, span 6 6], .inl 0⟩
  | .lookup =>
    if byteAt f 15 = pado.toNat ∨ byteAt f 15 = pads.toNat then
      if x.addPppoeTag then ⟨[span 15 1, span 18 2], .inr (some 0)⟩
      else if x.pppoeConnectionInProgress then ⟨[span 15 1, span 0 6], .inl 0⟩
      else ⟨[span 15 1], .inl (-1)⟩
    else
      ⟨[span 15 1, span 16 2] ++ when (be16 f 16 ≠ 0) (span 6 6 ::
        when (x.client = .fresh) [span 0 6]), .inl (if be16 f 16 ≠ 0 then 0 else -1)⟩
  | .parse => ⟨[], .inl (-1)⟩

/-- Where the options of a message start, and the tag of the address: `NDISC_*`. -/
def ndOptions : ℕ → Option (ℕ × ℕ)
  | 133 => some (8, 1)
  | 134 => some (16, 1)
  | 135 => some (24, 1)
  | 136 => some (24, 2)
  | 137 => some (40, 2)
  | _ => none

def icmpLen (f : List UInt8) : ℕ := f.length - 54

def Hit (f : List UInt8) (tag c : ℕ) : Prop :=
  byteAt f (54 + c) = tag ∧ byteAt f (55 + c) = 1 ∧ c + 8 ≤ icmpLen f

instance (f : List UInt8) (tag c : ℕ) : Decidable (Hit f tag c) :=
  inferInstanceAs (Decidable (_ ∧ _))

def payloadLen (x : BrExt) (f : List UInt8) : ℕ := x.order.word (be16 f 18)

def optionRound (x : BrExt) (f : List UInt8) (c : ℕ) : Trace :=
  match ndOptions (byteAt f 54) with
  | none => ⟨[], .inl 0⟩
  | some (_, tag) =>
    if c < icmpLen f then
      if Hit f tag c then
        ⟨[span (54 + c) 2, span (56 + c) 6, span 56 2, span 54 (payloadLen x f), span 22 32],
          .inl 0⟩
      else ⟨[span (54 + c) 2], .inr (some (c + byteAt f (55 + c) * 8))⟩
    else ⟨[], .inl 0⟩

def ipv6Trace (x : BrExt) (f : List UInt8) : Nat25Method → Trace
  | .check => ⟨when (54 < f.length) [span 0 1],
      .inl (if 54 < f.length ∧ byteAt f 0 % 2 = 1 then 0 else -1)⟩
  | .insert =>
    if f.length ≤ 54 then ⟨[], .inl (-1)⟩
    else
      let ops := when x.log [span 22 32] ++ [span 22 16]
      if zeros f 22 16 then ⟨ops, .inl 0⟩
      else if byteAt f 20 = 58 ∧ 58 < f.length then
        match ndOptions (byteAt f 54) with
        | none => ⟨ops ++ [span 6 6, span 20 1, span 54 1], .inl 0⟩
        | some (start, _) =>
          ⟨ops ++ [span 6 6, span 20 1, span 54 1],
            if start ≤ icmpLen f then .inr (some start) else .inl 0⟩
      else ⟨ops ++ [span 6 6, span 20 1], .inl 0⟩
  | .lookup =>
    if f.length ≤ 54 then ⟨[], .inl (-1)⟩
    else ⟨when x.log [span 22 32] ++ [span 38 16] ++ when (x.client = .fresh) [span 0 6], .inl 0⟩
  | .parse => ⟨[], .inl (-1)⟩

def ethPPppDisc : ℕ := 0x8863

def ethPPppSes : ℕ := 0x8864

def passed : List ℕ := [0x888e, 0xe2ae, 0xe2af]

def IsPppoe (f : List UInt8) : Prop := be16 f 12 = ethPPppDisc ∨ be16 f 12 = ethPPppSes

instance (f : List UInt8) : Decidable (IsPppoe f) := inferInstanceAs (Decidable (_ ∨ _))

def passedTrace : Nat25Method → Trace
  | .insert => ⟨[], .inl 0⟩
  | .lookup => ⟨[], .inl 0⟩
  | _ => ⟨[], .inl (-1)⟩

def entry (x : BrExt) (f : List UInt8) (method : Nat25Method) : Trace :=
  if be16 f 12 = ethPIp then ipTrace x f method
  else if be16 f 12 = ethPArp then arpTrace x f method
  else if IsPppoe f then pppoeTrace x f method
  else if be16 f 12 ∈ passed then passedTrace method
  else if be16 f 12 = ethPIpv6 then ipv6Trace x f method
  else ⟨[], .inl (-1)⟩

/-- `nat25_db_handle` on the frame `f`. Only PPPoE and IPv6 have a loop. -/
def nat25DbHandleRound (x : BrExt) (f : List UInt8) (method : Nat25Method) : Option ℕ → Trace
  | none => ⟨span 12 2 :: (entry x f method).ops, (entry x f method).next⟩
  | some p => if IsPppoe f then tagRound x f method p else optionRound x f p

/-- `dhcp_flag_bcast`, with the offset of the UDP header. -/
def dhcpFlagBcast (disabled : Bool) (f : List UInt8) : List Op :=
  let udp := 14 + 4 * ihl f
  when (disabled = false) (span 12 2 :: when (be16 f 12 = ethPIp) (span 23 1 ::
    when (byteAt f 23 = 17) (span 14 1 :: span udp 2 ::
      when (be16 f udp = 68) (span (udp + 2) 2 ::
        when (be16 f (udp + 2) = 67) (span (udp + 244) 4 ::
          when ((f.drop (udp + 244)).take 4 = [0x63, 0x82, 0x53, 0x63]) (span (udp + 18) 2 ::
            when (byteAt f (udp + 18) < 128) [span (udp + 18) 2, span (udp + 6) 2]))))))

/-! ## The frames that are inspected within their bounds -/

def FitsIp (x : BrExt) (f : List UInt8) : Nat25Method → Prop
  | .insert => 15 ≤ f.length ∧ (¬ Malformed f →
      30 ≤ f.length ∧ (¬ zeros f 26 4 → x.log = true → 34 ≤ f.length))
  | .lookup => 15 ≤ f.length ∧ (¬ Malformed f → 34 ≤ f.length)
  | _ => 15 ≤ f.length

def FitsArp (f : List UInt8) (method : Nat25Method) : Prop :=
  18 ≤ f.length ∧ (be16 f 16 = ethPIp →
    match method with
    | .insert => 28 ≤ f.length ∧ 26 + byteAt f 18 ≤ f.length
    | .lookup => 26 + 2 * byteAt f 18 + byteAt f 19 ≤ f.length ∧
        28 + byteAt f 18 + byteAt f 19 ≤ f.length
    | _ => True)

def TagAt (f : List UInt8) : ℕ → Prop :=
  Item (fun p => p + (4 + be16 f (22 + p)))
    (fun p => be16 f 18 ≤ p ∨ be16 f (20 + p) = relaySid) 0

/-- The relay tag at `p` can be taken out or replaced. -/
def FitsRelay (x : BrExt) (f : List UInt8) (p : ℕ) : Nat25Method → Prop
  | .insert =>
    let old := be16 f (22 + p)
    old ≤ 28 → 24 + p + old ≤ f.length ∧
      (x.order.word (8 + old) ≤ x.tailroom + old →
        24 + old + (be16 f 18 + 65532 - old) % 65536 ≤ f.length)
  | _ =>
    8 ≤ be16 f (22 + p) →
      26 + p ≤ f.length ∧ (be16 f (24 + p) = magicCode → 32 + p ≤ f.length)

structure FitsTags (x : BrExt) (f : List UInt8) (method : Nat25Method) : Prop where
  header : 20 ≤ f.length
  tag : ∀ p, TagAt f p → p < be16 f 18 → 24 + p ≤ f.length
  relay : ∀ p, TagAt f p → p < be16 f 18 → be16 f (20 + p) = relaySid → FitsRelay x f p method
  absent : method = .insert → x.order.word 8 + 4 ≤ x.tailroom →
    (∃ p, TagAt f p ∧ be16 f 18 ≤ p) → 20 + be16 f 18 ≤ f.length

def FitsPppoe (x : BrExt) (f : List UInt8) : Nat25Method → Prop
  | .check => 18 ≤ f.length
  | .insert => 18 ≤ f.length ∧ (be16 f 16 = 0 →
      (byteAt f 15 = padi.toNat ∨ byteAt f 15 = padr.toNat) → x.addPppoeTag = true →
        FitsTags x f .insert)
  | .lookup => 16 ≤ f.length ∧
      if byteAt f 15 = pado.toNat ∨ byteAt f 15 = pads.toNat then
        x.addPppoeTag = true → FitsTags x f .lookup
      else 18 ≤ f.length
  | .parse => True

def OptionAt (f : List UInt8) (start tag : ℕ) : ℕ → Prop :=
  Item (fun c => c + byteAt f (55 + c) * 8) (fun c => icmpLen f ≤ c ∨ Hit f tag c) start

/-- No option is cut off behind its type, none before the address has the length zero, and the
sum, if there is one to be worked out, is over bytes of the frame. -/
structure FitsOptions (x : BrExt) (f : List UInt8) (start tag : ℕ) : Prop where
  header : ∀ c, OptionAt f start tag c → c < icmpLen f → c + 2 ≤ icmpLen f
  size : ∀ c, OptionAt f start tag c → c < icmpLen f → ¬ Hit f tag c → byteAt f (55 + c) ≠ 0
  payload : ∀ c, OptionAt f start tag c → Hit f tag c → 54 + payloadLen x f ≤ f.length

def FitsIpv6 (x : BrExt) (f : List UInt8) : Nat25Method → Prop
  | .insert => ¬ zeros f 22 16 → byteAt f 20 = 58 → 58 < f.length →
      ∀ start tag, ndOptions (byteAt f 54) = some (start, tag) → start ≤ icmpLen f →
        FitsOptions x f start tag
  | _ => True

def Fits (x : BrExt) (f : List UInt8) (method : Nat25Method) : Prop :=
  if be16 f 12 = ethPIp then FitsIp x f method
  else if be16 f 12 = ethPArp then FitsArp f method
  else if IsPppoe f then FitsPppoe x f method
  else be16 f 12 = ethPIpv6 → FitsIpv6 x f method

def FitsDhcp (disabled : Bool) (f : List UInt8) : Prop :=
  disabled = false → be16 f 12 = ethPIp → 24 ≤ f.length ∧ (byteAt f 23 = 17 →
    16 + 4 * ihl f ≤ f.length ∧ (be16 f (14 + 4 * ihl f) = 68 →
      18 + 4 * ihl f ≤ f.length ∧ (be16 f (16 + 4 * ihl f) = 67 →
        262 + 4 * ihl f ≤ f.length)))

/-! ## Frames without a loop -/

variable {x : BrExt} {f : List UInt8} {method : Nat25Method} {len : ℕ}

@[simp] theorem span_within {start size : ℕ} :
    (span start size).Within len ↔ (0 < size → start + size ≤ len) := by
  unfold span Op.Within
  constructor <;> intro h hsize <;> have := h hsize <;> omega

@[simp] theorem within_when {c : Prop} [Decidable c] {ops : List Op} :
    Within len (when c ops) ↔ (c → Within len ops) := by
  unfold when
  split_ifs with hc
  · exact ⟨fun h _ => h, fun h => h hc⟩
  · exact ⟨fun _ h => absurd h hc, fun _ => within_nil⟩

theorem ipTrace_within (hlen : 14 ≤ f.length) :
    Within f.length (ipTrace x f method).ops ↔ FitsIp x f method := by
  cases method with
  | insert =>
    simp only [ipTrace, FitsIp, within_cons, within_append, within_when, within_nil, span_within]
    constructor
    · rintro ⟨hihl, hrest⟩
      refine ⟨by omega, fun hm => ?_⟩
      obtain ⟨hsaddr, hlog⟩ := hrest hm
      refine ⟨by omega, fun hz hx => ?_⟩
      have hboth := ((hlog hz).1 hx).1
      omega
    · rintro ⟨hihl, hrest⟩
      refine ⟨fun _ => by omega, fun hm => ?_⟩
      obtain ⟨hsaddr, hlog⟩ := hrest hm
      refine ⟨fun _ => by omega, fun hz => ⟨fun hx => ⟨fun _ => ?_, trivial⟩,
        fun _ => by omega, trivial⟩⟩
      have hboth := hlog hz hx
      omega
  | lookup =>
    simp only [ipTrace, FitsIp, within_cons, within_append, within_when, within_nil, span_within]
    constructor
    · rintro ⟨hihl, hrest⟩
      refine ⟨by omega, fun hm => ?_⟩
      obtain ⟨⟨-, hdaddr, -⟩, -⟩ := hrest hm
      omega
    · rintro ⟨hihl, hrest⟩
      refine ⟨fun _ => by omega, fun hm => ?_⟩
      have hdaddr := hrest hm
      exact ⟨⟨fun _ => ⟨fun _ => by omega, trivial⟩, fun _ => by omega, trivial⟩,
        fun _ => ⟨fun _ => by omega, trivial⟩⟩
  | _ =>
    simp only [ipTrace, FitsIp, within_cons, within_nil, span_within, and_true]
    omega

theorem arpTrace_within (hlen : 14 ≤ f.length) :
    Within f.length (arpTrace x f method).ops ↔ FitsArp f method := by
  unfold arpTrace FitsArp
  by_cases hpro : be16 f 16 = ethPIp
  · rw [if_neg (not_not.mpr hpro), imp_iff_right hpro]
    cases method with
    | insert =>
      simp only [within_cons, within_nil, span_within, and_true]
      omega
    | lookup =>
      simp only [within_cons, within_append, within_when, within_nil, span_within, and_true]
      constructor
      · rintro ⟨⟨hhead, -⟩, hwrite⟩
        omega
      · intro h
        exact ⟨⟨by omega, fun _ => by omega⟩, by omega⟩
    | _ =>
      simp only [within_cons, within_nil, span_within, and_true]
      omega
  · rw [if_pos hpro]
    have hnone : ∀ p : Prop, be16 f 16 = ethPIp → p := fun p h => absurd h hpro
    simp only [within_cons, within_nil, span_within, and_true, iff_true_intro (hnone _)]
    omega

/-- What `__nat25_add_pppoe_tag` needs. -/
theorem addOps_within {n length tailroom valueLen : ℕ} (hn : 20 ≤ n) :
    Within len (addOps x n length tailroom valueLen) ↔
      (x.order.word valueLen + 4 ≤ tailroom → 20 + length ≤ n) := by
  simp only [addOps, within_when, within_cons, within_nil, length_within, and_true]
  refine imp_congr_right fun _ => ?_
  omega

theorem ipv6Trace_within (hno : method ≠ .insert) :
    Within f.length (ipv6Trace x f method).ops := by
  cases method with
  | insert => exact absurd rfl hno
  | check =>
    simp only [ipv6Trace, within_when, within_cons, within_nil, span_within, and_true]
    omega
  | lookup =>
    simp only [ipv6Trace]
    split_ifs with hshort
    · exact within_nil
    · simp only [within_append, within_when, within_cons, within_nil, span_within, and_true]
      exact ⟨⟨fun _ => by omega, by omega⟩, fun _ => by omega⟩
  | parse => exact within_nil

theorem dhcpFlagBcast_within {disabled : Bool} (hlen : 14 ≤ f.length) :
    Within f.length (dhcpFlagBcast disabled f) ↔ FitsDhcp disabled f := by
  have hdest : 14 + 4 * ihl f + 2 = 16 + 4 * ihl f := by omega
  simp only [dhcpFlagBcast, FitsDhcp, within_when, within_cons, within_nil, span_within, and_true,
    hdest]
  refine imp_congr_right fun _ => ?_
  constructor
  · rintro ⟨-, h⟩ hproto
    obtain ⟨hudp, h⟩ := h hproto
    refine ⟨by omega, fun hprot => ?_⟩
    obtain ⟨-, hsource, h⟩ := h hprot
    refine ⟨by omega, fun hclient => ?_⟩
    obtain ⟨hport, h⟩ := h hclient
    refine ⟨by omega, fun hserver => ?_⟩
    obtain ⟨hcookie, -⟩ := h hserver
    omega
  · intro h
    refine ⟨fun _ => hlen, fun hproto => ?_⟩
    obtain ⟨hudp, h⟩ := h hproto
    refine ⟨fun _ => by omega, fun hprot => ?_⟩
    obtain ⟨hsource, h⟩ := h hprot
    refine ⟨fun _ => by omega, fun _ => by omega, fun hclient => ?_⟩
    obtain ⟨hport, h⟩ := h hclient
    refine ⟨fun _ => by omega, fun hserver => ?_⟩
    have hcookie := h hserver
    exact ⟨fun _ => by omega, fun _ => ⟨fun _ => by omega, fun _ =>
      ⟨fun _ => by omega, fun _ => by omega⟩⟩⟩

theorem bounded_of_entry {ops : List Op} {r : ℤ} (hentry : entry x f method = ⟨ops, .inl r⟩)
    (hlen : 14 ≤ f.length) :
    Bounded (nat25DbHandleRound x f method) f.length none ↔ Within f.length ops := by
  have hhead : (span 12 2).Within f.length := span_within.mpr fun _ => hlen
  have hnone : nat25DbHandleRound x f method none = ⟨span 12 2 :: ops, .inl r⟩ := by
    simp only [nat25DbHandleRound, hentry]
  constructor
  · intro h
    have hops := h.ops
    rw [hnone] at hops
    exact ((within_cons _ _).mp hops).2
  · intro h
    refine ⟨⟨r, 1, by rw [result, hnone]⟩, stays_iff.mpr fun t ht => ?_⟩
    obtain rfl | ⟨u, hu, -⟩ := ht.cases_head
    · rw [hnone]
      exact (within_cons _ _).mpr ⟨hhead, h⟩
    · rw [hnone] at hu
      cases hu

/-! ## The tags of a discovery frame -/

theorem relayFound_insert {p : ℕ} :
    Within f.length (relayFound x f p .insert).ops ↔
      24 + p ≤ f.length ∧ FitsRelay x f p .insert := by
  simp only [relayFound, FitsRelay]
  by_cases hlong : 40 < be16 f (22 + p) + 4 + 2 + 6
  · simp only [if_pos hlong, within_cons, within_nil, span_within, and_true]
    omega
  by_cases hcut : f.length < 24 + p + be16 f (22 + p)
  · simp only [if_neg hlong, if_pos hcut, within_cons, within_nil, span_within, and_true]
    omega
  · rw [if_neg hlong, if_neg hcut]
    have hkept : 20 ≤ f.length - (4 + be16 f (22 + p)) := by omega
    simp only [within_cons, within_append, within_nil, span_within, addOps_within hkept]
    have hdata : x.order.word (8 + be16 f (22 + p)) + 4 ≤ x.tailroom + (4 + be16 f (22 + p)) ↔
        x.order.word (8 + be16 f (22 + p)) ≤ x.tailroom + be16 f (22 + p) := by omega
    have hsub : be16 f 18 + 65536 - 4 - be16 f (22 + p) =
        be16 f 18 + 65532 - be16 f (22 + p) := by omega
    rw [hdata, hsub]
    constructor
    · rintro ⟨⟨htag, -⟩, hadd⟩
      refine ⟨by omega, fun _ => ⟨by omega, fun hroom => ?_⟩⟩
      have hfits := hadd hroom
      omega
    · rintro ⟨htag, hfits⟩
      obtain ⟨-, hfits⟩ := hfits (by omega)
      refine ⟨⟨fun _ => by omega, fun _ => by omega, fun _ => by omega, fun _ => by omega,
        fun _ => by omega, trivial⟩, fun hroom => ?_⟩
      have hin := hfits hroom
      omega

theorem relayFound_lookup {p : ℕ} :
    Within f.length (relayFound x f p .lookup).ops ↔
      24 + p ≤ f.length ∧ FitsRelay x f p .lookup := by
  simp only [relayFound, FitsRelay]
  by_cases hshort : be16 f (22 + p) < 2 + 6
  · simp only [if_pos hshort, within_cons, within_nil, span_within, and_true]
    omega
  by_cases hmagic : be16 f (24 + p) = magicCode
  case neg =>
    simp only [if_neg hshort, if_pos hmagic, within_cons, within_nil, span_within, and_true]
    omega
  case pos =>
    rw [if_neg hshort, if_neg (not_not.mpr hmagic)]
    simp only [within_cons, within_append, within_when, within_nil, span_within, length_within,
      and_true, imp_iff_right hmagic]
    constructor
    · rintro ⟨⟨htag, hcode, hmac, -⟩, -⟩
      omega
    · rintro ⟨htag, hfits⟩
      obtain ⟨hcode, hmac⟩ := hfits (by omega)
      refine ⟨⟨fun _ => by omega, fun _ => by omega, fun _ => by omega, fun _ => by omega⟩,
        fun _ => ⟨⟨fun _ => by omega, fun _ => by omega⟩, fun _ => by omega⟩⟩

theorem relayAbsent_insert (hlen : 20 ≤ f.length) :
    Within f.length (relayAbsent x f .insert).ops ↔
      (x.order.word 8 + 4 ≤ x.tailroom → 20 + be16 f 18 ≤ f.length) := by
  simp only [relayAbsent, within_cons, span_within, addOps_within hlen]
  exact and_iff_right fun _ => by omega

abbrev TagStop (f : List UInt8) (p : ℕ) : Prop := be16 f 18 ≤ p ∨ be16 f (20 + p) = relaySid

theorem tagRound_go {p : ℕ} (hp : ¬ TagStop f p) :
    tagRound x f method p = ⟨[span (20 + p) 4], .inr (some (p + (4 + be16 f (22 + p))))⟩ := by
  obtain ⟨hin, hrelay⟩ := not_or.mp hp
  rw [tagRound, if_pos (Nat.lt_of_not_le hin), if_neg hrelay]

theorem tagRound_stop {p : ℕ} (hp : TagStop f p) :
    ∃ r, (tagRound x f method p).next = .inl r := by
  unfold tagRound
  by_cases hin : p < be16 f 18
  · rw [if_pos hin, if_pos (hp.resolve_left (Nat.not_le_of_lt hin))]
    cases method <;> simp only [relayFound] <;> split_ifs <;> exact ⟨_, rfl⟩
  · rw [if_neg hin]
    cases method <;> exact ⟨_, rfl⟩

theorem tags_bounded_iff (hlen : 14 ≤ f.length) (hpppoe : IsPppoe f)
    (hmethod : method = .insert ∨ method = .lookup) {ops : List Op}
    (hentry : entry x f method = ⟨ops, .inr (some 0)⟩) (hops : span 18 2 ∈ ops) :
    Bounded (nat25DbHandleRound x f method) f.length none ↔
      Within f.length ops ∧ FitsTags x f method := by
  have hnone : nat25DbHandleRound x f method none = ⟨span 12 2 :: ops, .inr (some 0)⟩ := by
    simp only [nat25DbHandleRound, hentry]
  have hsome : ∀ p, nat25DbHandleRound x f method (some p) = tagRound x f method p :=
    fun p => if_pos hpppoe
  have hstart : (nat25DbHandleRound x f method none).next = .inr (some 0) := by rw [hnone]
  have hstop : ∀ p, TagStop f p → ∃ r, (nat25DbHandleRound x f method (some p)).next = .inl r :=
    fun p hp => by rw [hsome]; exact tagRound_stop hp
  have hgo : ∀ p, ¬ TagStop f p → (nat25DbHandleRound x f method (some p)).next =
      .inr (some (p + (4 + be16 f (22 + p)))) :=
    fun p hp => by rw [hsome, tagRound_go hp]
  have hentryOps : Within f.length (nat25DbHandleRound x f method none).ops ↔
      Within f.length ops := by
    rw [hnone, within_cons]
    exact and_iff_right (span_within.mpr fun _ => hlen)
  -- what the round at a tag needs
  have hround : 20 ≤ f.length → ∀ p, Within f.length (tagRound x f method p).ops ↔
      (p < be16 f 18 → 24 + p ≤ f.length) ∧
        (p < be16 f 18 → be16 f (20 + p) = relaySid → FitsRelay x f p method) ∧
        (be16 f 18 ≤ p → method = .insert → x.order.word 8 + 4 ≤ x.tailroom →
          20 + be16 f 18 ≤ f.length) := by
    intro hheader p
    unfold tagRound
    by_cases hin : p < be16 f 18
    · rw [if_pos hin, imp_iff_right hin, imp_iff_right hin,
        and_iff_left fun hle => absurd hin (Nat.not_lt_of_le hle)]
      by_cases hrelay : be16 f (20 + p) = relaySid
      · rw [if_pos hrelay, imp_iff_right hrelay]
        obtain rfl | rfl := hmethod
        · exact relayFound_insert
        · exact relayFound_lookup
      · rw [if_neg hrelay, and_iff_left fun h => absurd h hrelay]
        simp only [within_cons, within_nil, span_within, and_true]
        omega
    · rw [if_neg hin, and_iff_right fun h => absurd h hin, and_iff_right fun h => absurd h hin,
        imp_iff_right (Nat.le_of_not_lt hin)]
      obtain rfl | rfl := hmethod
      · rw [imp_iff_right rfl]
        exact relayAbsent_insert hheader
      · exact iff_of_true within_nil (by rintro ⟨⟩)
  constructor
  · intro h
    have hin := hentryOps.mp h.ops
    have hheader : 20 ≤ f.length := span_within.mp (hin _ hops) (by decide)
    have hall := (chain_stays_iff hstart hstop hgo h.ops).mp h.stays
    have hfits : ∀ p, TagAt f p → _ := fun p hp =>
      (hround hheader p).mp (by rw [← hsome]; exact hall p hp)
    refine ⟨hin, hheader, fun p hp => (hfits p hp).1, fun p hp => (hfits p hp).2.1, ?_⟩
    rintro hinsert hroom ⟨p, hp, hend⟩
    exact (hfits p hp).2.2 hend hinsert hroom
  · rintro ⟨hin, hfits⟩
    have hlt : ∀ p, TagAt f p → ¬ TagStop f p →
        p < p + (4 + be16 f (22 + p)) ∧ p < be16 f 18 := by
      intro p _ hp
      obtain ⟨hlt, -⟩ := not_or.mp hp
      omega
    refine ⟨chain_ends hstart hstop hgo hlt,
      (chain_stays_iff hstart hstop hgo (hentryOps.mpr hin)).mpr fun p hp => ?_⟩
    rw [hsome]
    exact (hround hfits.header p).mpr ⟨hfits.tag p hp, hfits.relay p hp,
      fun hend hinsert hroom => hfits.absent hinsert hroom ⟨p, hp, hend⟩⟩

/-! ## The options of neighbour discovery -/

abbrev OptionStop (f : List UInt8) (tag c : ℕ) : Prop := icmpLen f ≤ c ∨ Hit f tag c

theorem options_bounded_iff (hlen : 14 ≤ f.length) (hpppoe : ¬ IsPppoe f) {ops : List Op}
    {start tag : ℕ} (hnd : ndOptions (byteAt f 54) = some (start, tag))
    (hentry : entry x f method = ⟨ops, .inr (some start)⟩) (hops : Within f.length ops) :
    Bounded (nat25DbHandleRound x f method) f.length none ↔ FitsOptions x f start tag := by
  have hnone : nat25DbHandleRound x f method none = ⟨span 12 2 :: ops, .inr (some start)⟩ := by
    simp only [nat25DbHandleRound, hentry]
  have hsome : ∀ c, nat25DbHandleRound x f method (some c) = optionRound x f c :=
    fun c => if_neg hpppoe
  have hstart : (nat25DbHandleRound x f method none).next = .inr (some start) := by rw [hnone]
  have hend : ∀ c, ¬ c < icmpLen f → optionRound x f c = ⟨[], .inl 0⟩ := by
    intro c hc
    simp only [optionRound, hnd, if_neg hc]
  have hhit : ∀ c, c < icmpLen f → Hit f tag c → optionRound x f c =
      ⟨[span (54 + c) 2, span (56 + c) 6, span 56 2, span 54 (payloadLen x f), span 22 32],
        .inl 0⟩ := by
    intro c hc hfound
    simp only [optionRound, hnd, if_pos hc, if_pos hfound]
  have hmiss : ∀ c, c < icmpLen f → ¬ Hit f tag c → optionRound x f c =
      ⟨[span (54 + c) 2], .inr (some (c + byteAt f (55 + c) * 8))⟩ := by
    intro c hc hfound
    simp only [optionRound, hnd, if_pos hc, if_neg hfound]
  have hstop : ∀ c, OptionStop f tag c →
      ∃ r, (nat25DbHandleRound x f method (some c)).next = .inl r := by
    intro c hc
    rw [hsome]
    by_cases hin : c < icmpLen f
    · rw [hhit c hin (hc.resolve_left (Nat.not_le_of_lt hin))]
      exact ⟨0, rfl⟩
    · rw [hend c hin]
      exact ⟨0, rfl⟩
  have hgo : ∀ c, ¬ OptionStop f tag c → (nat25DbHandleRound x f method (some c)).next =
      .inr (some (c + byteAt f (55 + c) * 8)) := by
    intro c hc
    obtain ⟨hin, hfound⟩ := not_or.mp hc
    rw [hsome, hmiss c (Nat.lt_of_not_le hin) hfound]
  have hentryOps : Within f.length (nat25DbHandleRound x f method none).ops := by
    rw [hnone, within_cons]
    exact ⟨span_within.mpr fun _ => hlen, hops⟩
  have hround : ∀ c, Within f.length (optionRound x f c).ops ↔
      (c < icmpLen f → c + 2 ≤ icmpLen f) ∧
        (Hit f tag c → 54 + payloadLen x f ≤ f.length) := by
    intro c
    by_cases hin : c < icmpLen f
    · by_cases hfound : Hit f tag c
      · have height : c + 8 ≤ f.length - 54 := hfound.2.2
        rw [hhit c hin hfound, imp_iff_right hin, imp_iff_right hfound]
        simp only [within_cons, within_nil, span_within, and_true, icmpLen]
        omega
      · have hlt : c < f.length - 54 := hin
        rw [hmiss c hin hfound, imp_iff_right hin, and_iff_left fun h => absurd h hfound]
        simp only [within_cons, within_nil, span_within, and_true, icmpLen]
        omega
    · rw [hend c hin]
      refine iff_of_true within_nil ⟨fun h => absurd h hin, fun hfound => ?_⟩
      exact absurd (Nat.lt_of_lt_of_le (Nat.lt_add_of_pos_right (by decide)) hfound.2.2) hin
  have hreach : ∀ c, OptionAt f start tag c →
      Reaches (nat25DbHandleRound x f method) none (some c) :=
    fun c hc => (reaches_item_iff hstart hstop hgo).mpr (.inr ⟨c, rfl, hc⟩)
  constructor
  · intro h
    have hall := (chain_stays_iff hstart hstop hgo hentryOps).mp h.stays
    have hfits : ∀ c, OptionAt f start tag c → _ := fun c hc =>
      (hround c).mp (by rw [← hsome]; exact hall c hc)
    refine ⟨fun c hc => (hfits c hc).1, fun c hc hin hfound hzero => ?_,
      fun c hc => (hfits c hc).2⟩
    -- an option without a length is met again and again
    obtain ⟨r, hr⟩ := h.ends
    refine not_returns_of_stuck (hreach c hc) ?_ r hr
    rw [hsome, hmiss c hin hfound, hzero, Nat.zero_mul, Nat.add_zero]
  · intro hfits
    have hlt : ∀ c, OptionAt f start tag c → ¬ OptionStop f tag c →
        c < c + byteAt f (55 + c) * 8 ∧ c < icmpLen f := by
      intro c hc hgoes
      obtain ⟨hin, hfound⟩ := not_or.mp hgoes
      have hsize := hfits.size c hc (Nat.lt_of_not_le hin) hfound
      omega
    refine ⟨chain_ends hstart hstop hgo hlt,
      (chain_stays_iff hstart hstop hgo hentryOps).mpr fun c hc => ?_⟩
    rw [hsome]
    exact (hround c).mpr ⟨hfits.header c hc, hfits.payload c hc⟩

/-! ## All frames -/

theorem pppoe_insert_bounded_iff (hlen : 14 ≤ f.length) (hpppoe : IsPppoe f)
    (hentry : entry x f .insert = pppoeTrace x f .insert) :
    Bounded (nat25DbHandleRound x f .insert) f.length none ↔ FitsPppoe x f .insert := by
  simp only [pppoeTrace] at hentry
  simp only [FitsPppoe]
  by_cases hsid : be16 f 16 = 0
  · rw [if_pos hsid] at hentry
    rw [imp_iff_right hsid]
    by_cases hcode : byteAt f 15 = padi.toNat ∨ byteAt f 15 = padr.toNat
    · rw [if_pos hcode] at hentry
      rw [imp_iff_right hcode]
      by_cases htag : x.addPppoeTag = true
      · rw [if_pos htag] at hentry
        rw [imp_iff_right htag, tags_bounded_iff hlen hpppoe (.inl rfl) hentry (by simp)]
        simp only [within_cons, within_nil, span_within, and_true]
        constructor
        · rintro ⟨⟨hin, -⟩, hfits⟩
          exact ⟨hin (by decide), hfits⟩
        · rintro ⟨hin, hfits⟩
          have hheader := hfits.header
          exact ⟨⟨fun _ => hin, fun _ => by omega, fun _ => hheader⟩, hfits⟩
      · rw [if_neg htag] at hentry
        rw [bounded_of_entry hentry hlen, and_iff_left fun h => absurd h htag]
        simp only [within_cons, within_nil, span_within, and_true]
        omega
    · rw [if_neg hcode] at hentry
      rw [bounded_of_entry hentry hlen, and_iff_left fun h => absurd h hcode]
      simp only [within_cons, within_nil, span_within, and_true]
      omega
  · rw [if_neg hsid] at hentry
    rw [bounded_of_entry hentry hlen, and_iff_left fun h => absurd h hsid]
    simp only [within_cons, within_nil, span_within, and_true]
    omega

theorem pppoe_lookup_bounded_iff (hlen : 14 ≤ f.length) (hpppoe : IsPppoe f)
    (hentry : entry x f .lookup = pppoeTrace x f .lookup) :
    Bounded (nat25DbHandleRound x f .lookup) f.length none ↔ FitsPppoe x f .lookup := by
  simp only [pppoeTrace] at hentry
  simp only [FitsPppoe]
  by_cases hcode : byteAt f 15 = pado.toNat ∨ byteAt f 15 = pads.toNat
  · rw [if_pos hcode] at hentry ⊢
    by_cases htag : x.addPppoeTag = true
    · rw [if_pos htag] at hentry
      rw [imp_iff_right htag, tags_bounded_iff hlen hpppoe (.inr rfl) hentry (by simp)]
      simp only [within_cons, within_nil, span_within, and_true]
      constructor
      · rintro ⟨⟨hin, -⟩, hfits⟩
        exact ⟨hin (by decide), hfits⟩
      · rintro ⟨hin, hfits⟩
        exact ⟨⟨fun _ => hin, fun _ => hfits.header⟩, hfits⟩
    · rw [if_neg htag] at hentry
      rw [and_iff_left fun h => absurd h htag]
      by_cases hprogress : x.pppoeConnectionInProgress = true
      · rw [if_pos hprogress] at hentry
        rw [bounded_of_entry hentry hlen]
        simp only [within_cons, within_nil, span_within, and_true]
        omega
      · rw [if_neg hprogress] at hentry
        rw [bounded_of_entry hentry hlen]
        simp only [within_cons, within_nil, span_within, and_true]
        omega
  · rw [if_neg hcode] at hentry ⊢
    rw [bounded_of_entry hentry hlen]
    simp only [within_cons, within_append, within_when, within_nil, span_within, and_true]
    constructor
    · rintro ⟨⟨hin, hsid⟩, -⟩
      exact ⟨hin (by decide), hsid (by decide)⟩
    · rintro ⟨hin, hsid⟩
      exact ⟨⟨fun _ => hin, fun _ => hsid⟩, fun _ => ⟨fun _ => by omega, fun _ => by omega⟩⟩

theorem pppoe_bounded_iff (hlen : 14 ≤ f.length) (hpppoe : IsPppoe f)
    (hentry : entry x f method = pppoeTrace x f method) :
    Bounded (nat25DbHandleRound x f method) f.length none ↔ FitsPppoe x f method := by
  cases method with
  | check =>
    rw [bounded_of_entry hentry hlen]
    simp only [FitsPppoe, within_cons, within_nil, span_within, and_true]
    omega
  | insert => exact pppoe_insert_bounded_iff hlen hpppoe hentry
  | lookup => exact pppoe_lookup_bounded_iff hlen hpppoe hentry
  | parse =>
    rw [bounded_of_entry hentry hlen]
    exact iff_of_true within_nil trivial

theorem ipv6_insert_bounded_iff (hlen : 14 ≤ f.length) (hpppoe : ¬ IsPppoe f)
    (hentry : entry x f .insert = ipv6Trace x f .insert) :
    Bounded (nat25DbHandleRound x f .insert) f.length none ↔ FitsIpv6 x f .insert := by
  simp only [ipv6Trace] at hentry
  simp only [FitsIpv6]
  by_cases hshort : f.length ≤ 54
  · rw [if_pos hshort] at hentry
    rw [bounded_of_entry hentry hlen]
    exact iff_of_true within_nil fun _ _ h => absurd h (by omega)
  rw [if_neg hshort] at hentry
  have hops : Within f.length (when x.log [span 22 32] ++ [span 22 16]) := by
    simp only [within_append, within_when, within_cons, within_nil, span_within, and_true]
    exact ⟨fun _ _ => by omega, fun _ => by omega⟩
  by_cases hzero : zeros f 22 16
  · rw [if_pos hzero] at hentry
    rw [bounded_of_entry hentry hlen]
    exact iff_of_true hops fun h => absurd hzero h
  rw [if_neg hzero] at hentry
  rw [imp_iff_right hzero]
  by_cases hicmp : byteAt f 20 = 58 ∧ 58 < f.length
  case neg =>
    rw [if_neg hicmp] at hentry
    rw [bounded_of_entry hentry hlen]
    refine iff_of_true ((within_append _ _).mpr ⟨hops, ?_⟩) fun h h' => absurd ⟨h, h'⟩ hicmp
    simp only [within_cons, within_nil, span_within, and_true]
    omega
  case pos =>
    rw [if_pos hicmp] at hentry
    rw [imp_iff_right hicmp.1, imp_iff_right hicmp.2]
    have hall : Within f.length (when x.log [span 22 32] ++ [span 22 16] ++
        [span 6 6, span 20 1, span 54 1]) := by
      refine (within_append _ _).mpr ⟨hops, ?_⟩
      simp only [within_cons, within_nil, span_within, and_true]
      omega
    cases hnd : ndOptions (byteAt f 54) with
    | none =>
      rw [hnd] at hentry
      rw [bounded_of_entry hentry hlen]
      exact iff_of_true hall (by rintro _ _ ⟨⟩)
    | some place =>
      obtain ⟨start, tag⟩ := place
      rw [hnd] at hentry
      dsimp only at hentry
      by_cases hstart : start ≤ icmpLen f
      · rw [if_pos hstart] at hentry
        rw [options_bounded_iff hlen hpppoe hnd hentry hall]
        constructor
        · intro h _ _ heq _
          cases heq
          exact h
        · exact fun h => h start tag rfl hstart
      · rw [if_neg hstart] at hentry
        rw [bounded_of_entry hentry hlen]
        refine iff_of_true hall fun _ _ heq h => ?_
        cases heq
        exact absurd h hstart

theorem ipv6_bounded_iff (hlen : 14 ≤ f.length) (hpppoe : ¬ IsPppoe f)
    (hentry : entry x f method = ipv6Trace x f method) :
    Bounded (nat25DbHandleRound x f method) f.length none ↔ FitsIpv6 x f method := by
  by_cases hinsert : method = .insert
  · subst hinsert
    exact ipv6_insert_bounded_iff hlen hpppoe hentry
  · have hnext : ∃ r, ipv6Trace x f method = ⟨(ipv6Trace x f method).ops, .inl r⟩ := by
      cases method with
      | insert => exact absurd rfl hinsert
      | lookup =>
        simp only [ipv6Trace]
        split_ifs <;> exact ⟨_, rfl⟩
      | _ => exact ⟨_, rfl⟩
    obtain ⟨r, hr⟩ := hnext
    rw [bounded_of_entry (hentry.trans hr) hlen]
    refine iff_of_true (ipv6Trace_within hinsert) ?_
    cases method with
    | insert => exact absurd rfl hinsert
    | _ => trivial

theorem nat25DbHandle_bounded_iff (hlen : 14 ≤ f.length) :
    Bounded (nat25DbHandleRound x f method) f.length none ↔ Fits x f method := by
  unfold Fits
  by_cases hip : be16 f 12 = ethPIp
  · have hentry : entry x f method = ipTrace x f method := if_pos hip
    have hnext : ∃ r, ipTrace x f method = ⟨(ipTrace x f method).ops, .inl r⟩ := by
      cases method <;> exact ⟨_, rfl⟩
    obtain ⟨r, hr⟩ := hnext
    rw [if_pos hip, bounded_of_entry (hentry.trans hr) hlen, ipTrace_within hlen]
  rw [if_neg hip]
  by_cases harp : be16 f 12 = ethPArp
  · have hentry : entry x f method = arpTrace x f method := by
      rw [entry, if_neg hip, if_pos harp]
    have hnext : ∃ r, arpTrace x f method = ⟨(arpTrace x f method).ops, .inl r⟩ := by
      unfold arpTrace
      split_ifs
      · exact ⟨_, rfl⟩
      · cases method <;> exact ⟨_, rfl⟩
    obtain ⟨r, hr⟩ := hnext
    rw [if_pos harp, bounded_of_entry (hentry.trans hr) hlen, arpTrace_within hlen]
  rw [if_neg harp]
  by_cases hpppoe : IsPppoe f
  · rw [if_pos hpppoe]
    exact pppoe_bounded_iff hlen hpppoe (by rw [entry, if_neg hip, if_neg harp, if_pos hpppoe])
  rw [if_neg hpppoe]
  by_cases hv6 : be16 f 12 = ethPIpv6
  · have hpassed : be16 f 12 ∉ passed := by
      rw [hv6]
      decide
    rw [imp_iff_right hv6]
    refine ipv6_bounded_iff hlen hpppoe ?_
    rw [entry, if_neg hip, if_neg harp, if_neg hpppoe, if_neg hpassed, if_pos hv6]
  · have hnext : ∃ r, entry x f method = ⟨[], .inl r⟩ := by
      rw [entry, if_neg hip, if_neg harp, if_neg hpppoe, if_neg hv6]
      split_ifs
      · cases method <;> exact ⟨_, rfl⟩
      · exact ⟨_, rfl⟩
    obtain ⟨r, hr⟩ := hnext
    rw [bounded_of_entry hr hlen]
    exact iff_of_true within_nil fun h => absurd h hv6

theorem inspection_iff (hlen : 14 ≤ f.length) (disabled : Bool) :
    (Bounded (nat25DbHandleRound x f method) f.length none ∧
        Within f.length (dhcpFlagBcast disabled f)) ↔
      Fits x f method ∧ FitsDhcp disabled f :=
  and_congr (nat25DbHandle_bounded_iff hlen) (dhcpFlagBcast_within hlen)

/-- A client solicits its neighbour, with an option of the length zero in front of its address. -/
def solicitation (optionLen : UInt8) : List UInt8 :=
  [0x33, 0x33, 0xff, 0, 0, 1, 2, 0, 0, 0, 0, 0x17, 0x86, 0xdd] ++
    ([0x60, 0, 0, 0, 0, 0x20, 58, 255] ++
      (List.replicate 15 0xfe ++ [1]) ++ (List.replicate 15 0xff ++ [2])) ++
    ([135, 0, 0, 0, 0, 0, 0, 0] ++ List.replicate 16 0xfe ++
      [14, optionLen, 0, 0, 0, 0, 0, 0])

def bridge : BrExt where
  order := .little
  log := true
  addPppoeTag := true
  tailroom := 64
  pppoeConnectionInProgress := false
  client := .none

theorem solicitation_not_ends (r : ℤ) :
    ¬ Returns (nat25DbHandleRound bridge (solicitation 0) .insert) none r := by
  have hentry : (nat25DbHandleRound bridge (solicitation 0) .insert none).next =
      .inr (some 24) := by decide +kernel
  refine not_returns_of_stuck (.next .start hentry) ?_ r
  decide +kernel

/-- The search stays at the option for ever; and a packet without an address is read behind its
end. -/
theorem inspection_unbounded :
    14 ≤ (solicitation 0).length ∧
      ¬ Bounded (nat25DbHandleRound bridge (solicitation 0) .insert)
        (solicitation 0).length none ∧
      ¬ Bounded (nat25DbHandleRound bridge ((List.replicate 12 2) ++ [8, 0, 0x40]) .lookup)
        15 none := by
  refine ⟨by decide +kernel, ?_, ?_⟩
  · rintro ⟨⟨r, hr⟩, -⟩
    exact solicitation_not_ends r hr
  · intro h
    have hops := h.ops
    exact absurd hops (by decide +kernel)

/-- With a length the option is passed, and the message ends. -/
theorem inspection_solicitation :
    Bounded (nat25DbHandleRound bridge (solicitation 1) .insert) (solicitation 1).length none ∧
      Within (solicitation 1).length (dhcpFlagBcast false (solicitation 1)) := by
  refine (inspection_iff (by decide +kernel) false).mpr ⟨?_, ?_⟩
  · have hfits : FitsOptions bridge (solicitation 1) 24 1 := by
      have hitem : ∀ c, OptionAt (solicitation 1) 24 1 c → c = 24 ∨ c = 32 := by
        intro c hc
        induction hc with
        | first => exact .inl rfl
        | next _ hgo ih =>
          obtain rfl | rfl := ih
          · exact .inr (by decide +kernel)
          · exact absurd (.inl (by decide +kernel)) hgo
      refine ⟨fun c hc => ?_, fun c hc => ?_, fun c hc => ?_⟩ <;>
        obtain rfl | rfl := hitem c hc <;> decide +kernel
    have hnot : ¬ IsPppoe (solicitation 1) := by decide +kernel
    rw [Fits, if_neg (by decide +kernel), if_neg (by decide +kernel), if_neg hnot]
    rintro - - - - start tag hnd -
    have hplace : ndOptions (byteAt (solicitation 1) 54) = some (24, 1) := by decide +kernel
    rw [hplace] at hnd
    cases hnd
    exact hfits
  · intro _ hproto
    exact absurd hproto (by decide +kernel)

end Rtl8189.Nat25Bounds
