import Rtl8189.AttrWalk
import Rtl8189.IeLookup
import Rtl8189.WalkCalls

/-!
# Loops over the elements of a frame

The loops of `OnAssocRsp`, `update_beacon_info`, `process_csa_ie`, `is_ap_in_tkip` and
`check_assoc_AP` go from element to element by the lengths that they read. What a `case` reads
is at fixed places behind the header.
-/
namespace Rtl8189.ElementWalk

open AccessTrace AttrWalk BufferWalk WalkCalls

open IeLookup (u32)

/-! ## Loops over elements -/

/-- What a `case` reads, and where it leads: out of the function, or on, perhaps with a loop of
its own before. -/
structure Visit (α κ ρ : Type*) where
  ops : List Op
  next : ρ ⊕ α × Option κ

def Visit.on {α κ ρ : Type*} (ops : List Op) (a : α) : Visit α κ ρ := ⟨ops, .inr (a, none)⟩

structure ElemLoop (α κ ρ : Type*) where
  base : ℕ
  start : ρ ⊕ ℕ × α
  more : ℕ → Bool
  visit : ℕ → α → Visit α κ ρ
  inner : ℕ → κ → Round κ Unit
  done : α → ρ

namespace ElemLoop

variable {α κ ρ : Type*} (e : ElemLoop α κ ρ) (mem : List UInt8)

def pos (x : ℕ × α) : ℕ := e.base + x.1

/-- The id, what the `case` reads, and the length where the loop goes on. -/
def turnOps (x : ℕ × α) : List Op :=
  .bytes (e.pos x) 1 :: ((e.visit (e.pos x) x.2).ops ++
    match (e.visit (e.pos x) x.2).next with
    | .inl _ => []
    | .inr _ => [.bytes (e.pos x + 1 : ℕ) 1])

def toLoop : Loop (ℕ × α) κ ρ where
  start := e.start
  ops x := if e.more x.1 then e.turnOps x else []
  out x := if e.more x.1 then (e.visit (e.pos x) x.2).next.map id Prod.snd else .inl (e.done x.2)
  step x := (u32 (x.1 + (byteAt mem (e.pos x + 1) + 2)),
    match (e.visit (e.pos x) x.2).next with
    | .inl _ => x.2
    | .inr (a, _) => a)
  inner x c := e.inner (e.pos x) c

def Comes (x₀ x : ℕ × α) : Prop :=
  Item (e.toLoop mem).step (e.toLoop mem).Stop x₀ x ∧ e.more x.1 = true

/-- Of each element that the loop comes to, the bytes needed are in the buffer. -/
def Inside (len : ℕ) (need : ℕ → α → ℕ) : Prop :=
  ∀ x₀, e.start = .inr x₀ → ∀ x, e.Comes mem x₀ x → e.pos x + need (e.pos x) x.2 ≤ len

variable {e mem} {len : ℕ} {x₀ x : ℕ × α}

theorem step_lt (hlen : len ≤ 65536) (hgo : ¬ (e.toLoop mem).Stop x)
    (hfits : (e.toLoop mem).Fits len x) : len - ((e.toLoop mem).step x).1 < len - x.1 := by
  have hmore : e.more x.1 = true := by
    by_contra hend
    exact hgo ⟨_, if_neg hend⟩
  have hops : Within len ((e.toLoop mem).ops x) := hfits.1
  dsimp only [toLoop] at hops
  rw [if_pos hmore, turnOps, within_cons] at hops
  have hin : e.pos x + 1 ≤ len := (bytes_within_iff _ Nat.one_pos).mp hops.1
  have hpos : e.pos x = e.base + x.1 := rfl
  have hbyte := byteAt_lt mem (e.pos x + 1)
  have hstep : ((e.toLoop mem).step x).1 = x.1 + (byteAt mem (e.pos x + 1) + 2) :=
    Nat.mod_eq_of_lt (by omega)
  omega

theorem bounded_iff (hlen : len ≤ 65536) : Bounded (e.toLoop mem).round len .entry ↔
    ∀ x₀, e.start = .inr x₀ → ∀ x, e.Comes mem x₀ x → Within len (e.turnOps x) ∧
      ∀ a c, (e.visit (e.pos x) x.2).next = .inr (a, some c) →
        Bounded (e.inner (e.pos x)) len c := by
  rw [Loop.bounded_iff (fun x => len - x.1) fun x => step_lt hlen]
  refine forall₂_congr fun x₀ _ => forall_congr' fun x => ?_
  rw [Loop.Fits]
  dsimp only [toLoop]
  constructor
  · intro h ⟨hx, hin⟩
    rw [if_pos hin, if_pos hin] at h
    obtain ⟨hops, hcall⟩ := h hx
    refine ⟨hops, fun a c hnext => hcall c ?_⟩
    rw [hnext]
    rfl
  · intro h hx
    by_cases hin : e.more x.1 = true
    · obtain ⟨hops, hcall⟩ := h ⟨hx, hin⟩
      rw [if_pos hin, if_pos hin]
      refine ⟨hops, fun c hnext => ?_⟩
      cases hv : (e.visit (e.pos x) x.2).next with
      | inl r =>
        rw [hv] at hnext
        exact nomatch hnext
      | inr q =>
        obtain ⟨a, k⟩ := q
        rw [hv] at hnext
        obtain rfl : k = some c := Sum.inr.inj hnext
        exact hcall a c hv
    · rw [if_neg hin, if_neg hin]
      exact ⟨within_nil, fun c hnext => nomatch hnext⟩

end ElemLoop

/-! ## Frames -/

/-- What is in memory from `pframe` on, and the length of the frame, which is a `u16`. -/
structure MgntFrame where
  mem : List UInt8
  pktLen : ℕ
  fits : pktLen < 65536

/-- The elements of the network that is joined: at most `MAX_IE_SZ` bytes are stored. -/
structure NetworkIes where
  ies : List UInt8
  ielength : ℕ
  fits : ielength ≤ 768

/-- A difference of `uint`s. -/
def usub (a b : ℕ) : ℕ := (a + 4294967296 - b) % 4294967296

/-- `_rtw_memcmp` -/
def Matches (mem : List UInt8) (p : ℕ) (bytes : List UInt8) : Prop :=
  (mem.drop p).take bytes.length = bytes

instance (mem : List UInt8) (p : ℕ) (bytes : List UInt8) : Decidable (Matches mem p bytes) :=
  inferInstanceAs (Decidable (_ = _))

section Functions

variable (mem : List UInt8) (pos : ℕ)

def elementId : ℕ := byteAt mem pos

def length : ℕ := byteAt mem (pos + 1)

/-- `data[i]` -/
def data (i : ℕ) : ℕ := byteAt mem (pos + 2 + i)

/-! ## `is_ap_in_tkip` -/

def rtwWpaOui : List UInt8 := [0x00, 0x50, 0xf2, 0x01]

def wpaTkipCipher : List UInt8 := [0x00, 0x50, 0xf2, 0x02]

def rsnTkipCipher : List UInt8 := [0x00, 0x0f, 0xac, 0x02]

def tkipVisit : Visit Unit Empty Bool :=
  if elementId mem pos = 221 then
    if Matches mem (pos + 2) rtwWpaOui then
      ⟨[.bytes (pos + 2 : ℕ) 4, .bytes (pos + 2 + 12 : ℕ) 4],
        if Matches mem (pos + 2 + 12) wpaTkipCipher then .inl true else .inr ((), none)⟩
    else .on [.bytes (pos + 2 : ℕ) 4] ()
  else if elementId mem pos = 48 then
    ⟨[.bytes (pos + 2 + 8 : ℕ) 4],
      if Matches mem (pos + 2 + 8) rsnTkipCipher then .inl true else .inr ((), none)⟩
  else .on [] ()

def isApInTkip (n : NetworkIes) : ElemLoop Unit Empty Bool where
  base := 0
  start := if (le16 n.ies 10).testBit 4 then .inr (12, ()) else .inl false
  more i := i < n.ielength
  visit p _ := tkipVisit n.ies p
  inner _ c := nomatch c
  done _ := false

def tkipNeed : ℕ :=
  if elementId mem pos = 221 then if Matches mem (pos + 2) rtwWpaOui then 18 else 6
  else if elementId mem pos = 48 then 14
  else 2

/-! ## `check_assoc_AP` -/

inductive HtIotPeer where
  | unknown
  | realtek
  | realtek92se
  | broadcom
  | ralink
  | atheros
  | cisco
  | marvell
  | realtekSoftap
  | airgo
  | realtekJaguarBcutap
  | realtekJaguarCcutap
  deriving DecidableEq, Repr

def ouiPeer : Option HtIotPeer :=
  let oui := (mem.drop (pos + 2)).take 3
  if oui = [0x00, 0x03, 0x7f] ∨ oui = [0x00, 0x13, 0x74] then some .atheros
  else if oui = [0x00, 0x10, 0x18] ∨ oui = [0x00, 0x0a, 0xf7] ∨ oui = [0x00, 0x05, 0xb5] then
    some .broadcom
  else if oui = [0x00, 0x50, 0x43] then some .marvell
  else if oui = [0x00, 0x0c, 0x43] then some .ralink
  else if oui = [0x00, 0x40, 0x96] then some .cisco
  else if oui = [0x00, 0xe0, 0x4c] then some .realtek
  else if oui = [0x00, 0x0a, 0xf5] then some .airgo
  else none

/-- `Vender`; the capabilities have bits 5 and 4 for 92SE and SOFTAP, and 1 and 2 for the cuts. -/
def vender : HtIotPeer :=
  if length mem pos < 5 then .realtek
  else if data mem pos 4 = 2 ∧ (data mem pos 6).testBit 2 then .realtekJaguarCcutap
  else if data mem pos 4 = 2 ∧ (data mem pos 6).testBit 1 then .realtekJaguarBcutap
  else if (data mem pos 5).testBit 4 then .realtekSoftap
  else if data mem pos 4 = 1 ∧ (data mem pos 5).testBit 5 then .realtek92se
  else .realtek

def venderOps : List Op :=
  .bytes (pos + 1 : ℕ) 1 ::
    if length mem pos < 5 then []
    else .bytes (pos + 2 + 4 : ℕ) 1 :: .bytes (pos + 2 + 5 : ℕ) 1 ::
      if data mem pos 4 = 2 then [.bytes (pos + 2 + 6 : ℕ) 1] else []

def peerVisit : Visit Unit Empty HtIotPeer :=
  if elementId mem pos = 221 then
    match ouiPeer mem pos with
    | some peer =>
      if peer = .realtek then
        ⟨.bytes (pos + 2 : ℕ) 3 :: venderOps mem pos, .inl (vender mem pos)⟩
      else ⟨[.bytes (pos + 2 : ℕ) 3], .inl peer⟩
    | none => .on [.bytes (pos + 2 : ℕ) 3] ()
  else .on [] ()

/-- `check_assoc_AP` on what starts `base` bytes into the memory. -/
def checkAssocAp (base len : ℕ) : ElemLoop Unit Empty HtIotPeer where
  base := base
  start := .inr (12, ())
  more i := i < len
  visit p _ := peerVisit mem p
  inner _ c := nomatch c
  done _ := .unknown

def beaconAssocAp (f : MgntFrame) : ElemLoop Unit Empty HtIotPeer :=
  checkAssocAp f.mem 24 (usub f.pktLen 24)

def networkAssocAp (n : NetworkIes) : ElemLoop Unit Empty HtIotPeer :=
  checkAssocAp n.ies 0 n.ielength

/-- The byte behind an element of five is looked at as well. -/
def venderNeed : ℕ := if length mem pos < 5 then 5 else if data mem pos 4 = 2 then 9 else 8

def peerNeed : ℕ :=
  if elementId mem pos = 221 then
    if ouiPeer mem pos = some .realtek then venderNeed mem pos else 5
  else 2

/-! ## Beacons -/

/-- `check_ielen`, which does not come to its end without fuel as it takes two bytes at least. -/
def checkIelen : ℕ → ℕ → ℕ → Bool
  | 0, _, left => left = 0
  | fuel + 1, pos, left =>
    if 2 ≤ left then
      if left - 2 < length mem pos then false
      else if elementId mem pos = 221 ∧ length mem pos < 3 then false
      else checkIelen fuel (pos + (2 + length mem pos)) (left - (2 + length mem pos))
    else left = 0

/-- `validate_beacon_len`, which `OnBeacon` asks first. -/
def validateBeaconLen (f : MgntFrame) : Bool :=
  if f.pktLen < 36 then false else checkIelen f.mem f.pktLen 36 (f.pktLen - 36)

/-! ## `process_csa_ie` -/

def csaVisit (ch : ℕ) : Visit ℕ Empty (Option ℕ) :=
  if elementId mem pos = 37 then .on [.bytes (pos + 2 + 1 : ℕ) 1] (data mem pos 1) else .on [] ch

/-- `process_csa_ie` as for a beacon, with the channel that it sets. -/
def processCsaIe (csaCh : ℕ) (f : MgntFrame) : ElemLoop ℕ Empty (Option ℕ) where
  base := 36
  start := if csaCh ≠ 0 then .inl none else .inr (0, 0)
  more i := u32 (i + 1) < usub f.pktLen 36
  visit p ch := csaVisit f.mem p ch
  inner _ c := nomatch c
  done ch := if ch ≠ 0 then some ch else none

def csaNeed : ℕ := if elementId mem pos = 37 then 4 else 2

/-! ## `update_beacon_info` -/

structure HandlerCfg where
  qosOption : Bool := true
  htOption : Bool := true
  cbw40 : Bool := true
  apState : Bool := false
  miracast : Bool := true

structure BwState where
  curBwmode : ℕ
  curChOffset : ℕ
  deriving DecidableEq, Repr

def wmmParaOui : List UInt8 := [0x00, 0x50, 0xf2, 0x02, 0x01, 0x01]

/-- `WMM_param_handler` -/
def wmmOps (cfg : HandlerCfg) : List Op :=
  if cfg.qosOption then [.bytes (pos + 2 + 6 : ℕ) 18] else []

/-- `HT_info_handler` -/
def htInfoOps (cfg : HandlerCfg) : List Op :=
  if cfg.htOption ∧ length mem pos ≤ 22 then [.bytes (pos + 2 : ℕ) (length mem pos)] else []

/-- `ERP_IE_handler` -/
def erpOps : List Op :=
  if length mem pos ≤ 1 then [.bytes (pos + 2 : ℕ) (length mem pos)] else []

/-- The new mode and offset in `bwmode_update_check`. -/
def newBw (cfg : HandlerCfg) : BwState :=
  if (data mem pos 1).testBit 2 ∧ cfg.cbw40 then
    if data mem pos 1 % 4 = 1 then ⟨1, 1⟩
    else if data mem pos 1 % 4 = 3 then ⟨1, 2⟩
    else ⟨0, 0⟩
  else ⟨0, 0⟩

def BwChecked (cfg : HandlerCfg) (s : BwState) : Prop :=
  cfg.htOption = true ∧ s.curBwmode < 2 ∧ length mem pos ≤ 22

instance (cfg : HandlerCfg) (s : BwState) : Decidable (BwChecked mem pos cfg s) :=
  inferInstanceAs (Decidable (_ ∧ _ ∧ _))

def BwShrinks (cfg : HandlerCfg) (s : BwState) : Prop :=
  newBw mem pos cfg ≠ s ∧ (newBw mem pos cfg).curBwmode < s.curBwmode

instance (cfg : HandlerCfg) (s : BwState) : Decidable (BwShrinks mem pos cfg s) :=
  inferInstanceAs (Decidable (_ ∧ _))

def bwmodeUpdateCheck (cfg : HandlerCfg) (s : BwState) : Visit BwState Empty BwState :=
  if BwChecked mem pos cfg s then
    if BwShrinks mem pos cfg s then
      .on (.bytes (pos + 2 + 1 : ℕ) 1 :: htInfoOps mem pos cfg) (newBw mem pos cfg)
    else .on [.bytes (pos + 2 + 1 : ℕ) 1] s
  else .on [] s

def beaconVisit (cfg : HandlerCfg) (s : BwState) : Visit BwState Empty BwState :=
  if elementId mem pos = 221 then
    .on (.bytes (pos + 2 : ℕ) 6 ::
      if Matches mem (pos + 2) wmmParaOui ∧ length mem pos = 24 then wmmOps pos cfg else []) s
  else if elementId mem pos = 61 then bwmodeUpdateCheck mem pos cfg s
  else if elementId mem pos = 42 then .on (erpOps mem pos) s
  else .on [] s

def updateBeaconInfo (cfg : HandlerCfg) (s : BwState) (f : MgntFrame) :
    ElemLoop BwState Empty BwState where
  base := 36
  start := .inr (0, s)
  more i := i < usub f.pktLen 36
  visit p s := beaconVisit f.mem p cfg s
  inner _ c := nomatch c
  done s := s

def beaconNeed (cfg : HandlerCfg) (s : BwState) : ℕ :=
  if elementId mem pos = 221 then
    if Matches mem (pos + 2) wmmParaOui ∧ length mem pos = 24 ∧ cfg.qosOption then 26 else 8
  else if elementId mem pos = 61 then
    if BwChecked mem pos cfg s then
      if BwShrinks mem pos cfg s then max 4 (2 + length mem pos) else 4
    else 2
  else if elementId mem pos = 42 then if length mem pos ≤ 1 then 2 + length mem pos else 2
  else 2

/-! ## `OnAssocRsp` -/

structure HtTx where
  ldpc : Bool := false
  stbc : Bool := false
  deriving DecidableEq, Repr

inductive AssocRes where
  | ignored
  | rejected
  | joined (aid : ℕ) (caps : HtTx)
  deriving DecidableEq, Repr

structure Joining where
  macAddr : MacAddr
  authSuccess : Bool := false
  assocState : Bool := true
  assocSuccess : Bool := false
  joinAbort : Bool := false

/-- What `HT_caps_handler` reads. -/
def htCapsOps (cfg : HandlerCfg) (caps : HtTx) : List Op :=
  .bytes (pos + 2 : ℕ) (length mem pos) ::
    ((if ¬ cfg.apState ∧ caps.ldpc then [Op.bytes (pos + 2 : ℕ) 1] else []) ++
      if caps.stbc then [Op.bytes (pos + 2 + 1 : ℕ) 1] else [])

def htCapsHandler (cfg : HandlerCfg) (caps : HtTx) : HtTx where
  ldpc := if cfg.apState then caps.ldpc else caps.ldpc && (data mem pos 0).testBit 0
  stbc := caps.stbc && data mem pos 1 % 4 ≠ 0

def assocVisit (cfg : HandlerCfg) (caps : HtTx) : Visit HtTx AttrPtr AssocRes :=
  if elementId mem pos = 221 then
    if Matches mem (pos + 2) wmmParaOui then .on (.bytes (pos + 2 : ℕ) 6 :: wmmOps pos cfg) caps
    else if Matches mem (pos + 2) wfdOui then
      ⟨[.bytes (pos + 2 : ℕ) 6, .bytes (pos + 2 : ℕ) 4],
        .inr (caps, if cfg.miracast then some none else none)⟩
    else .on [.bytes (pos + 2 : ℕ) 6, .bytes (pos + 2 : ℕ) 4] caps
  else if elementId mem pos = 45 then
    if cfg.htOption then .on (htCapsOps mem pos cfg caps) (htCapsHandler mem pos cfg caps)
    else .on [] caps
  else if elementId mem pos = 61 then .on (htInfoOps mem pos cfg) caps
  else if elementId mem pos = 42 then .on (erpOps mem pos) caps
  else .on [] caps

def shift (n : ℕ) : Op → Op
  | .length m => .length m
  | .bytes start size => .bytes (n + start) size

/-- `rtw_process_wfd_ie`: the port is taken from the attribute of the device, if it is not
empty. The length is that of the element without its header. -/
def processWfdIe (c : AttrPtr) : Round AttrPtr Unit :=
  let search := wfdRound (mem.drop pos) (length mem pos) 0 false c
  match search.next with
  | .inr c' => ⟨search.ops.map (shift pos), .inr c'⟩
  | .inl (some (p, n)) =>
    ⟨search.ops.map (shift pos) ++ if n ≠ 0 ∧ n ≠ 3 then [.bytes (pos + p + 5 : ℕ) 2] else [],
      .inl ()⟩
  | .inl none => ⟨search.ops.map (shift pos), .inl ()⟩

def toUs (ad : Joining) : Prop :=
  (mem.drop (if (byteAt mem 1).testBit 0 then 16 else 4)).take 6 = ad.macAddr.toList

instance (ad : Joining) : Decidable (toUs mem ad) := inferInstanceAs (Decidable (_ = _))

def assocAid : ℕ := le16 mem 28 % 16384

def assocStart (ad : Joining) (caps : HtTx) : AssocRes ⊕ ℕ × HtTx :=
  if ¬ toUs mem ad then .inl .ignored
  else if ¬ (ad.authSuccess ∨ ad.assocState) ∨ ad.joinAbort then .inl .ignored
  else if ad.assocSuccess then .inl .ignored
  else if le16 mem 26 ≠ 0 then .inl .rejected
  else if assocAid mem < 1 ∨ 2007 < assocAid mem then .inl .rejected
  else .inr (30, caps)

def onAssocRsp (ad : Joining) (cfg : HandlerCfg) (caps : HtTx) (f : MgntFrame) :
    ElemLoop HtTx AttrPtr AssocRes where
  base := 0
  start := assocStart f.mem ad caps
  more i := i < f.pktLen
  visit p caps := assocVisit f.mem p cfg caps
  inner p c := processWfdIe f.mem p c
  done caps := .joined (assocAid f.mem) caps

def assocNeed (cfg : HandlerCfg) (caps : HtTx) : ℕ :=
  if elementId mem pos = 221 then
    if Matches mem (pos + 2) wmmParaOui ∧ cfg.qosOption then 26 else 8
  else if elementId mem pos = 45 then
    if cfg.htOption then
      max (2 + length mem pos)
        (max (if ¬ cfg.apState ∧ caps.ldpc then 3 else 2) (if caps.stbc then 4 else 2))
    else 2
  else if elementId mem pos = 61 then
    if cfg.htOption ∧ length mem pos ≤ 22 then 2 + length mem pos else 2
  else if elementId mem pos = 42 then if length mem pos ≤ 1 then 2 + length mem pos else 2
  else 2

def WfdHandled (cfg : HandlerCfg) : Prop :=
  elementId mem pos = 221 ∧ ¬ Matches mem (pos + 2) wmmParaOui ∧ Matches mem (pos + 2) wfdOui ∧
    cfg.miracast = true

def wfdLen (p : ℕ) : ℕ := (be16 mem (pos + p + 1) + 3) % 65536

def WfdStop (p : ℕ) : Prop :=
  length mem pos < p + 3 ∨ length mem pos < p + wfdLen mem pos p ∨ byteAt mem (pos + p) = 0

/-- Of each attribute that the search comes to, the header is in the frame, and the port that is
taken from one; and none that is passed by seems to have no bytes at all. -/
def WfdFits (flen : ℕ) : Prop :=
  6 < length mem pos → ∀ p, Item (fun p => p + wfdLen mem pos p) (WfdStop mem pos) 6 p →
    p + 3 ≤ length mem pos → pos + p + 3 ≤ flen ∧
      (p + wfdLen mem pos p ≤ length mem pos →
        if byteAt mem (pos + p) = 0 then
          wfdLen mem pos p ≠ 0 → wfdLen mem pos p ≠ 3 → pos + p + 7 ≤ flen
        else wfdLen mem pos p ≠ 0)

end Functions

/-! ## What is read of an element -/

theorem within_bytes {len : ℕ} (p n : ℕ) : (Op.bytes p n).Within len ↔ n = 0 ∨ p + n ≤ len := by
  cases n with
  | zero => exact iff_of_true (fun h => absurd h (Nat.lt_irrefl 0)) (.inl rfl)
  | succ n =>
    rw [bytes_within_iff p (Nat.succ_pos n), or_iff_right (Nat.succ_ne_zero n)]

def Visit.Asks {α κ ρ : Type*} (v : Visit α κ ρ) (pos len : ℕ) : Prop :=
  pos + 1 ≤ len ∧ Within len v.ops ∧ (v.next.isRight = true → pos + 2 ≤ len)

theorem turn_within {α κ ρ : Type*} {e : ElemLoop α κ ρ} {len : ℕ} {x : ℕ × α} :
    Within len (e.turnOps x) ↔ (e.visit (e.pos x) x.2).Asks (e.pos x) len := by
  rw [ElemLoop.turnOps, within_cons, within_append]
  refine and_congr (bytes_within_iff _ Nat.one_pos) (and_congr Iff.rfl ?_)
  cases (e.visit (e.pos x) x.2).next with
  | inl r => exact iff_of_true within_nil nofun
  | inr q =>
    rw [within_cons, and_iff_left within_nil, Sum.isRight_inr]
    exact (bytes_within_iff _ Nat.one_pos).trans ⟨fun h _ => h, fun h => h rfl⟩

section Turns

variable {α κ ρ : Type*} {mem : List UInt8} {pos len : ℕ}

theorem asks_on {ops : List Op} {a : α} :
    (Visit.on ops a : Visit α κ ρ).Asks pos len ↔ pos + 2 ≤ len ∧ Within len ops := by
  constructor
  · rintro ⟨-, hops, hon⟩
    exact ⟨hon rfl, hops⟩
  · rintro ⟨hlen, hops⟩
    exact ⟨by omega, hops, fun _ => hlen⟩

theorem asks_inl {ops : List Op} {r : ρ} :
    (⟨ops, .inl r⟩ : Visit α κ ρ).Asks pos len ↔ pos + 1 ≤ len ∧ Within len ops :=
  and_congr_right fun _ => and_iff_left nofun

theorem asks_inr {ops : List Op} {q : α × Option κ} :
    (⟨ops, .inr q⟩ : Visit α κ ρ).Asks pos len ↔ pos + 2 ≤ len ∧ Within len ops := by
  constructor
  · rintro ⟨-, hops, hon⟩
    exact ⟨hon rfl, hops⟩
  · rintro ⟨hlen, hops⟩
    exact ⟨by omega, hops, fun _ => hlen⟩

theorem within_pair (p n q m : ℕ) :
    Within len [.bytes p n, .bytes q m] ↔ (n = 0 ∨ p + n ≤ len) ∧ (m = 0 ∨ q + m ≤ len) := by
  rw [within_cons, within_cons, and_iff_left within_nil, within_bytes, within_bytes]

theorem within_one (p n : ℕ) : Within len [.bytes p n] ↔ n = 0 ∨ p + n ≤ len := by
  rw [within_cons, and_iff_left within_nil, within_bytes]

theorem tkip_asks : (tkipVisit mem pos).Asks pos len ↔ pos + tkipNeed mem pos ≤ len := by
  unfold tkipVisit tkipNeed
  by_cases hvendor : elementId mem pos = 221
  · rw [if_pos hvendor, if_pos hvendor]
    by_cases hwpa : Matches mem (pos + 2) rtwWpaOui
    · rw [if_pos hwpa, if_pos hwpa]
      split
      · rw [asks_inl, within_pair]
        omega
      · rw [asks_inr, within_pair]
        omega
    · rw [if_neg hwpa, if_neg hwpa, asks_on, within_one]
      omega
  · rw [if_neg hvendor, if_neg hvendor]
    by_cases hrsn : elementId mem pos = 48
    · rw [if_pos hrsn, if_pos hrsn]
      split
      · rw [asks_inl, within_one]
        omega
      · rw [asks_inr, within_one]
        omega
    · rw [if_neg hrsn, if_neg hrsn, asks_on]
      exact and_iff_left within_nil

theorem vender_within :
    pos + 5 ≤ len ∧ Within len (venderOps mem pos) ↔ pos + venderNeed mem pos ≤ len := by
  unfold venderOps venderNeed
  rw [within_cons, within_bytes]
  by_cases hshort : length mem pos < 5
  · rw [if_pos hshort, if_pos hshort, and_iff_left within_nil]
    omega
  · rw [if_neg hshort, if_neg hshort, within_cons, within_cons, within_bytes, within_bytes]
    by_cases htwo : data mem pos 4 = 2
    · rw [if_pos htwo, if_pos htwo, within_one]
      omega
    · rw [if_neg htwo, if_neg htwo, and_iff_left within_nil]
      omega

theorem peer_asks : (peerVisit mem pos).Asks pos len ↔ pos + peerNeed mem pos ≤ len := by
  unfold peerVisit peerNeed
  by_cases hvendor : elementId mem pos = 221
  · rw [if_pos hvendor, if_pos hvendor]
    cases ouiPeer mem pos with
    | none =>
      rw [if_neg nofun]
      dsimp only
      rw [asks_on, within_one]
      omega
    | some peer =>
      dsimp only
      by_cases hrealtek : peer = .realtek
      · rw [if_pos hrealtek, if_pos (congrArg some hrealtek), asks_inl, within_cons, within_bytes,
          ← vender_within, ← and_assoc]
        refine and_congr_left' ?_
        omega
      · rw [if_neg hrealtek, if_neg fun h => hrealtek (Option.some.inj h), asks_inl, within_one]
        omega
  · rw [if_neg hvendor, if_neg hvendor, asks_on]
    exact and_iff_left within_nil

theorem csa_asks {ch : ℕ} : (csaVisit mem pos ch).Asks pos len ↔ pos + csaNeed mem pos ≤ len := by
  unfold csaVisit csaNeed
  by_cases hcsa : elementId mem pos = 37
  · rw [if_pos hcsa, if_pos hcsa, asks_on, within_one]
    omega
  · rw [if_neg hcsa, if_neg hcsa, asks_on]
    exact and_iff_left within_nil

theorem wmm_within {cfg : HandlerCfg} :
    Within len (wmmOps pos cfg) ↔ (cfg.qosOption = true → pos + 26 ≤ len) := by
  rw [wmmOps]
  by_cases hqos : cfg.qosOption = true
  · rw [if_pos hqos, within_one, forall_prop_of_true hqos]
    omega
  · rw [if_neg hqos]
    exact iff_of_true within_nil fun h => absurd h hqos

theorem htInfo_within {cfg : HandlerCfg} (h : pos + 2 ≤ len) :
    Within len (htInfoOps mem pos cfg) ↔
      pos + (if cfg.htOption ∧ length mem pos ≤ 22 then 2 + length mem pos else 2) ≤ len := by
  rw [htInfoOps]
  by_cases hht : cfg.htOption = true ∧ length mem pos ≤ 22
  · rw [if_pos hht, if_pos hht, within_one]
    omega
  · rw [if_neg hht, if_neg hht]
    exact iff_of_true within_nil h

theorem erp_within (h : pos + 2 ≤ len) : Within len (erpOps mem pos) ↔
    pos + (if length mem pos ≤ 1 then 2 + length mem pos else 2) ≤ len := by
  rw [erpOps]
  by_cases hone : length mem pos ≤ 1
  · rw [if_pos hone, if_pos hone, within_one]
    omega
  · rw [if_neg hone, if_neg hone]
    exact iff_of_true within_nil h

theorem bwmode_asks {cfg : HandlerCfg} {s : BwState} :
    (bwmodeUpdateCheck mem pos cfg s).Asks pos len ↔
      pos + (if BwChecked mem pos cfg s then
        if BwShrinks mem pos cfg s then max 4 (2 + length mem pos) else 4 else 2) ≤ len := by
  unfold bwmodeUpdateCheck
  by_cases hcheck : BwChecked mem pos cfg s
  · rw [if_pos hcheck, if_pos hcheck]
    by_cases hshrink : BwShrinks mem pos cfg s
    · have hhandled : cfg.htOption = true ∧ length mem pos ≤ 22 := ⟨hcheck.1, hcheck.2.2⟩
      rw [if_pos hshrink, if_pos hshrink, asks_on, within_cons, within_bytes]
      constructor
      · rintro ⟨hlen, hfirst, hinfo⟩
        rw [htInfo_within hlen, if_pos hhandled] at hinfo
        omega
      · intro h
        have hlen : pos + 2 ≤ len := by omega
        refine ⟨hlen, by omega, ?_⟩
        rw [htInfo_within hlen, if_pos hhandled]
        omega
    · rw [if_neg hshrink, if_neg hshrink, asks_on, within_one]
      omega
  · rw [if_neg hcheck, if_neg hcheck, asks_on]
    exact and_iff_left within_nil

theorem beacon_asks {cfg : HandlerCfg} {s : BwState} :
    (beaconVisit mem pos cfg s).Asks pos len ↔ pos + beaconNeed mem pos cfg s ≤ len := by
  unfold beaconVisit beaconNeed
  by_cases hvendor : elementId mem pos = 221
  · rw [if_pos hvendor, if_pos hvendor, asks_on, within_cons, within_bytes]
    by_cases hwmm : Matches mem (pos + 2) wmmParaOui ∧ length mem pos = 24
    · rw [if_pos hwmm, wmm_within]
      by_cases hqos : cfg.qosOption = true
      · rw [if_pos ⟨hwmm.1, hwmm.2, hqos⟩, forall_prop_of_true hqos]
        omega
      · rw [if_neg fun h => hqos h.2.2]
        exact ⟨fun h => by omega, fun h => ⟨by omega, by omega, fun h' => absurd h' hqos⟩⟩
    · rw [if_neg hwmm, if_neg fun h => hwmm ⟨h.1, h.2.1⟩, and_iff_left within_nil]
      omega
  · rw [if_neg hvendor, if_neg hvendor]
    by_cases hinfo : elementId mem pos = 61
    · rw [if_pos hinfo, if_pos hinfo]
      exact bwmode_asks
    · rw [if_neg hinfo, if_neg hinfo]
      by_cases herp : elementId mem pos = 42
      · rw [if_pos herp, if_pos herp, asks_on]
        refine ⟨fun h => (erp_within h.1).mp h.2, fun h => ?_⟩
        have hlen : pos + 2 ≤ len := by
          split at h <;> omega
        exact ⟨hlen, (erp_within hlen).mpr h⟩
      · rw [if_neg herp, if_neg herp, asks_on]
        exact and_iff_left within_nil

theorem htCaps_within {cfg : HandlerCfg} {caps : HtTx} (h : pos + 2 ≤ len) :
    Within len (htCapsOps mem pos cfg caps) ↔ pos + max (2 + length mem pos)
      (max (if ¬ cfg.apState ∧ caps.ldpc then 3 else 2) (if caps.stbc then 4 else 2)) ≤ len := by
  have hldpc : Within len (if ¬ cfg.apState ∧ caps.ldpc then [.bytes (pos + 2 : ℕ) 1] else []) ↔
      pos + (if ¬ cfg.apState ∧ caps.ldpc then 3 else 2) ≤ len := by
    split
    · rw [within_one]
      omega
    · exact iff_of_true within_nil h
  have hstbc : Within len (if caps.stbc then [.bytes (pos + 2 + 1 : ℕ) 1] else []) ↔
      pos + (if caps.stbc then 4 else 2) ≤ len := by
    split
    · rw [within_one]
      omega
    · exact iff_of_true within_nil h
  rw [htCapsOps, within_cons, within_append, hldpc, hstbc, within_bytes]
  omega

theorem assoc_asks {cfg : HandlerCfg} {caps : HtTx} :
    (assocVisit mem pos cfg caps).Asks pos len ↔ pos + assocNeed mem pos cfg caps ≤ len := by
  unfold assocVisit assocNeed
  by_cases hvendor : elementId mem pos = 221
  · rw [if_pos hvendor, if_pos hvendor]
    by_cases hwmm : Matches mem (pos + 2) wmmParaOui
    · rw [if_pos hwmm, asks_on, within_cons, within_bytes, wmm_within]
      by_cases hqos : cfg.qosOption = true
      · rw [if_pos ⟨hwmm, hqos⟩, forall_prop_of_true hqos]
        omega
      · rw [if_neg fun h => hqos h.2]
        exact ⟨fun h => by omega, fun h => ⟨by omega, by omega, fun h' => absurd h' hqos⟩⟩
    · have hother : ¬ (Matches mem (pos + 2) wmmParaOui ∧ cfg.qosOption = true) :=
        fun h => hwmm h.1
      rw [if_neg hwmm, if_neg hother]
      by_cases hwfd : Matches mem (pos + 2) wfdOui
      · rw [if_pos hwfd, asks_inr, within_pair]
        omega
      · rw [if_neg hwfd, asks_on, within_pair]
        omega
  · rw [if_neg hvendor, if_neg hvendor]
    by_cases hcaps : elementId mem pos = 45
    · rw [if_pos hcaps, if_pos hcaps]
      by_cases hht : cfg.htOption = true
      · rw [if_pos hht, if_pos hht, asks_on]
        refine ⟨fun h => (htCaps_within h.1).mp h.2, fun h => ?_⟩
        have hlen : pos + 2 ≤ len := by omega
        exact ⟨hlen, (htCaps_within hlen).mpr h⟩
      · rw [if_neg hht, if_neg hht, asks_on]
        exact and_iff_left within_nil
    · rw [if_neg hcaps, if_neg hcaps]
      by_cases hinfo : elementId mem pos = 61
      · rw [if_pos hinfo, if_pos hinfo, asks_on]
        refine ⟨fun h => (htInfo_within h.1).mp h.2, fun h => ?_⟩
        have hlen : pos + 2 ≤ len := by
          split at h <;> omega
        exact ⟨hlen, (htInfo_within hlen).mpr h⟩
      · rw [if_neg hinfo, if_neg hinfo]
        by_cases herp : elementId mem pos = 42
        · rw [if_pos herp, if_pos herp, asks_on]
          refine ⟨fun h => (erp_within h.1).mp h.2, fun h => ?_⟩
          have hlen : pos + 2 ≤ len := by
            split at h <;> omega
          exact ⟨hlen, (erp_within hlen).mpr h⟩
        · rw [if_neg herp, if_neg herp, asks_on]
          exact and_iff_left within_nil

theorem assoc_call {cfg : HandlerCfg} {caps caps' : HtTx} {c : AttrPtr} :
    (assocVisit mem pos cfg caps).next = .inr (caps', some c) ↔
      WfdHandled mem pos cfg ∧ caps' = caps ∧ c = none := by
  unfold assocVisit
  constructor
  · intro h
    split_ifs at h with hvendor hwmm hwfd hmiracast <;> cases h
    exact ⟨⟨hvendor, hwmm, hwfd, hmiracast⟩, rfl, rfl⟩
  · rintro ⟨⟨hvendor, hwmm, hwfd, hmiracast⟩, rfl, rfl⟩
    rw [if_pos hvendor, if_neg hwmm, if_pos hwfd]
    exact congrArg (fun k => Sum.inr (caps', k)) (if_pos hmiracast)

end Turns

/-! ## The search in a WFD element -/

section Wfd

variable {mem : List UInt8} {pos len : ℕ}

theorem within_shift (p n : ℕ) : (shift pos (.bytes p n)).Within len ↔ n = 0 ∨ pos + p + n ≤ len :=
  within_bytes (pos + p) n

theorem wfdLen_eq (p : ℕ) : attrSize be16 (mem.drop pos) p % 65536 = wfdLen mem pos p := by
  rw [attrSize, wfdLen, be16_drop, Nat.add_assoc]

theorem wfd_out {p : ℕ} (h : ¬ p + 3 ≤ length mem pos) :
    processWfdIe mem pos (some p) = ⟨[], .inl ()⟩ := by
  unfold processWfdIe wfdRound
  rw [attrRound_out h]
  rfl

theorem wfd_unfit {p : ℕ} (h : p + 3 ≤ length mem pos)
    (hfit : length mem pos < p + wfdLen mem pos p) :
    processWfdIe mem pos (some p) = ⟨[shift pos (.bytes p 3)], .inl ()⟩ := by
  unfold processWfdIe wfdRound
  rw [attrRound_unfit h (by rwa [wfdLen_eq])]
  rfl

theorem wfd_found {p : ℕ} (h : p + 3 ≤ length mem pos)
    (hfit : ¬ length mem pos < p + wfdLen mem pos p) (hid : byteAt mem (pos + p) = 0) :
    processWfdIe mem pos (some p) =
      ⟨shift pos (.bytes p 3) :: if wfdLen mem pos p ≠ 0 ∧ wfdLen mem pos p ≠ 3 then
        [.bytes (pos + p + 5 : ℕ) 2] else [], .inl ()⟩ := by
  unfold processWfdIe wfdRound
  rw [attrRound_found h (by rwa [wfdLen_eq]) (by rwa [byteAt_drop]), wfdLen_eq]
  rfl

theorem wfd_next {p : ℕ} (h : ¬ WfdStop mem pos p) :
    processWfdIe mem pos (some p) =
      ⟨[shift pos (.bytes p 3)], .inr (some (p + wfdLen mem pos p))⟩ := by
  have hin : p + 3 ≤ length mem pos := Nat.le_of_not_lt fun hlt => h (.inl hlt)
  have hfit : ¬ length mem pos < p + wfdLen mem pos p := fun hlt => h (.inr (.inl hlt))
  have hid : ¬ byteAt mem (pos + p) = 0 := fun hid => h (.inr (.inr hid))
  unfold processWfdIe wfdRound
  rw [attrRound_next hin (by rwa [wfdLen_eq]) (by rwa [ne_eq, byteAt_drop]), wfdLen_eq]
  rfl

theorem wfd_stop {p : ℕ} (h : WfdStop mem pos p) :
    ∃ r, (processWfdIe mem pos (some p)).next = .inl r := by
  by_cases hin : p + 3 ≤ length mem pos
  · by_cases hfit : length mem pos < p + wfdLen mem pos p
    · exact ⟨(), by rw [wfd_unfit hin hfit]⟩
    · have hid : byteAt mem (pos + p) = 0 :=
        (h.resolve_left (Nat.not_lt_of_le hin)).resolve_left hfit
      exact ⟨(), by rw [wfd_found hin hfit hid]⟩
  · exact ⟨(), by rw [wfd_out hin]⟩

theorem wfd_ops {p : ℕ} : Within len (processWfdIe mem pos (some p)).ops ↔
    (p + 3 ≤ length mem pos → pos + p + 3 ≤ len ∧
      (p + wfdLen mem pos p ≤ length mem pos → byteAt mem (pos + p) = 0 →
        wfdLen mem pos p ≠ 0 → wfdLen mem pos p ≠ 3 → pos + p + 7 ≤ len)) := by
  by_cases hin : p + 3 ≤ length mem pos
  · rw [forall_prop_of_true hin]
    by_cases hfit : length mem pos < p + wfdLen mem pos p
    · rw [wfd_unfit hin hfit, within_cons, and_iff_left within_nil, within_shift]
      exact ⟨fun h => ⟨by omega, fun hle => absurd hfit (Nat.not_lt_of_le hle)⟩, fun h => .inr h.1⟩
    · by_cases hid : byteAt mem (pos + p) = 0
      · rw [wfd_found hin hfit hid, within_cons, within_shift]
        by_cases hport : wfdLen mem pos p ≠ 0 ∧ wfdLen mem pos p ≠ 3
        · rw [if_pos hport, within_one]
          constructor
          · intro h
            exact ⟨by omega, fun _ _ _ _ => by omega⟩
          · intro h
            have hend := h.2 (Nat.le_of_not_lt hfit) hid hport.1 hport.2
            omega
        · rw [if_neg hport, and_iff_left within_nil]
          exact ⟨fun h => ⟨by omega, fun _ _ hz ht => absurd ⟨hz, ht⟩ hport⟩, fun h => .inr h.1⟩
      · have hgo : ¬ WfdStop mem pos p := by
          rintro (hout | hbig | hzero)
          · exact absurd hin (Nat.not_le_of_lt hout)
          · exact hfit hbig
          · exact hid hzero
        rw [wfd_next hgo, within_cons, and_iff_left within_nil, within_shift]
        exact ⟨fun h => ⟨by omega, fun _ hzero => absurd hzero hid⟩, fun h => .inr h.1⟩
  · rw [wfd_out hin]
    exact iff_of_true within_nil fun h => absurd h hin

theorem wfd_ends (hentry : (processWfdIe mem pos none).next = .inr (some 6)) :
    (∃ r, Returns (processWfdIe mem pos) none r) ↔
      ∀ p, Item (fun p => p + wfdLen mem pos p) (WfdStop mem pos) 6 p → ¬ WfdStop mem pos p →
        wfdLen mem pos p ≠ 0 := by
  have hgo : ∀ p, ¬ WfdStop mem pos p →
      (processWfdIe mem pos (some p)).next = .inr (some (p + wfdLen mem pos p)) := fun p h => by
    rw [wfd_next h]
  constructor
  · rintro ⟨r, hr⟩ p hp hgoes hzero
    have hreach := (reaches_item_iff hentry (fun _ => wfd_stop) hgo).mpr (.inr ⟨p, rfl, hp⟩)
    refine not_returns_of_stuck hreach ?_ r hr
    rw [hgo p hgoes, hzero, Nat.add_zero]
  · intro h
    have hlt : ∀ p, Item (fun p => p + wfdLen mem pos p) (WfdStop mem pos) 6 p →
        ¬ WfdStop mem pos p → p < p + wfdLen mem pos p ∧ p < length mem pos := by
      intro p hp hgoes
      have hpos := h p hp hgoes
      have hin : ¬ length mem pos < p + 3 := fun hlt => hgoes (.inl hlt)
      omega
    exact chain_ends hentry (fun _ => wfd_stop) hgo hlt

theorem wfd_open (hopens : Opens (mem.drop pos) wfdOui) (hlong : 6 < length mem pos) :
    processWfdIe mem pos none =
      ⟨[shift pos (.bytes (0 : ℕ) 1), shift pos (.bytes (2 : ℕ) 4)], .inr (some 6)⟩ := by
  have hsearch : wfdRound (mem.drop pos) (length mem pos) 0 false none =
      ⟨[.bytes (0 : ℕ) 1, .bytes (2 : ℕ) 4], .inr (some 6)⟩ := by
    rw [wfdRound, attrRound, if_neg (Nat.not_le_of_lt hlong), ouiOps, if_pos hopens.1,
      if_pos hopens]
    rfl
  unfold processWfdIe
  rw [hsearch]
  rfl

/-- The search ends inside if and only if each attribute fits. -/
theorem wfd_bounded (hopens : Opens (mem.drop pos) wfdOui) (hlen : pos + 6 ≤ len) :
    Bounded (processWfdIe mem pos) len none ↔ WfdFits mem pos len := by
  by_cases hlong : 6 < length mem pos
  · have hopen := wfd_open hopens hlong
    have hentry : (processWfdIe mem pos none).next = .inr (some 6) := by rw [hopen]
    have hgo : ∀ p, ¬ WfdStop mem pos p →
        (processWfdIe mem pos (some p)).next = .inr (some (p + wfdLen mem pos p)) := fun p h => by
      rw [wfd_next h]
    have hops : Within len (processWfdIe mem pos none).ops := by
      rw [hopen, within_cons, within_cons, within_shift, within_shift]
      exact ⟨.inr (by omega), .inr (by omega), within_nil⟩
    constructor
    · intro h _ p hp hin
      have hreads := wfd_ops.mp
        ((chain_stays_iff hentry (fun _ => wfd_stop) hgo hops).mp h.stays p hp) hin
      refine ⟨hreads.1, fun hfit => ?_⟩
      by_cases hid : byteAt mem (pos + p) = 0
      · rw [if_pos hid]
        exact hreads.2 hfit hid
      · rw [if_neg hid]
        refine (wfd_ends hentry).mp h.ends p hp ?_
        rintro (hout | hbig | hzero)
        · omega
        · omega
        · exact hid hzero
    · intro h
      have hfits := h hlong
      refine ⟨(wfd_ends hentry).mpr fun p hp hgoes => ?_,
        (chain_stays_iff hentry (fun _ => wfd_stop) hgo hops).mpr fun p hp =>
          wfd_ops.mpr fun hin => ⟨(hfits p hp hin).1, fun hfit hid => ?_⟩⟩
      · have hin : p + 3 ≤ length mem pos := Nat.le_of_not_lt fun hlt => hgoes (.inl hlt)
        have hfit : p + wfdLen mem pos p ≤ length mem pos :=
          Nat.le_of_not_lt fun hlt => hgoes (.inr (.inl hlt))
        have hsize := (hfits p hp hin).2 hfit
        rwa [if_neg fun hid => hgoes (.inr (.inr hid))] at hsize
      · have hport := (hfits p hp hin).2 hfit
        rwa [if_pos hid] at hport
  · have hshort : wfdRound (mem.drop pos) (length mem pos) 0 false none = ⟨[], .inl none⟩ :=
      if_pos (Nat.le_of_not_lt hlong)
    have hround : processWfdIe mem pos none = ⟨[], .inl ()⟩ := by
      unfold processWfdIe
      rw [hshort]
      rfl
    have hdone : (processWfdIe mem pos none).next = .inl () := by rw [hround]
    refine iff_of_true ⟨⟨(), returns_iff.mpr ⟨none, .start, hdone⟩⟩,
      stays_iff.mpr fun t ht => ?_⟩ fun h => absurd h hlong
    obtain rfl | ⟨t', hnext, -⟩ := ht.cases_head
    · rw [hround]
      exact within_nil
    · rw [hdone] at hnext
      exact nomatch hnext

end Wfd

/-! ## The five loops -/

section Loops

variable {α ρ : Type*} {e : ElemLoop α Empty ρ} {mem : List UInt8} {len : ℕ}

theorem bounded_iff_inside {need : ℕ → α → ℕ} (hlen : len ≤ 65536)
    (hneed : ∀ p a, (e.visit p a).Asks p len ↔ p + need p a ≤ len) :
    Bounded (e.toLoop mem).round len .entry ↔ e.Inside mem len need := by
  rw [ElemLoop.bounded_iff hlen, ElemLoop.Inside]
  simp only [turn_within, hneed]
  exact forall₂_congr fun x₀ _ => forall₂_congr fun x _ => and_iff_left fun _ c => nomatch c

end Loops

/-- The WFD elements that are handed on fit as well. -/
def WfdInside (ad : Joining) (cfg : HandlerCfg) (caps : HtTx) (f : MgntFrame) : Prop :=
  ∀ x₀, (onAssocRsp ad cfg caps f).start = .inr x₀ →
    ∀ x, (onAssocRsp ad cfg caps f).Comes f.mem x₀ x →
      WfdHandled f.mem ((onAssocRsp ad cfg caps f).pos x) cfg →
        WfdFits f.mem ((onAssocRsp ad cfg caps f).pos x) f.pktLen

theorem wfd_opens {mem : List UInt8} {pos : ℕ} {cfg : HandlerCfg} (h : WfdHandled mem pos cfg) :
    Opens (mem.drop pos) wfdOui := by
  constructor
  · rw [byteAt_drop]
    exact h.1
  · rw [List.drop_drop]
    exact h.2.2.1

theorem wfd_needs {mem : List UInt8} {pos : ℕ} {cfg : HandlerCfg} {caps : HtTx}
    (h : WfdHandled mem pos cfg) : assocNeed mem pos cfg caps = 8 := by
  rw [assocNeed, if_pos h.1, if_neg fun hwmm => h.2.1 hwmm.1]

theorem assoc_inside {ad : Joining} {cfg : HandlerCfg} {caps : HtTx} {f : MgntFrame} :
    Bounded ((onAssocRsp ad cfg caps f).toLoop f.mem).round f.pktLen .entry ↔
      (onAssocRsp ad cfg caps f).Inside f.mem f.pktLen (fun p caps => assocNeed f.mem p cfg caps) ∧
        WfdInside ad cfg caps f := by
  have hfits : ∀ x : ℕ × HtTx,
      (Within f.pktLen ((onAssocRsp ad cfg caps f).turnOps x) ∧
        ∀ a c, (assocVisit f.mem ((onAssocRsp ad cfg caps f).pos x) cfg x.2).next =
            .inr (a, some c) →
          Bounded (processWfdIe f.mem ((onAssocRsp ad cfg caps f).pos x)) f.pktLen c) ↔
      (onAssocRsp ad cfg caps f).pos x +
          assocNeed f.mem ((onAssocRsp ad cfg caps f).pos x) cfg x.2 ≤ f.pktLen ∧
        (WfdHandled f.mem ((onAssocRsp ad cfg caps f).pos x) cfg →
          WfdFits f.mem ((onAssocRsp ad cfg caps f).pos x) f.pktLen) := by
    intro x
    generalize hpos : (onAssocRsp ad cfg caps f).pos x = pos
    rw [turn_within, hpos]
    refine (and_congr_left' assoc_asks).trans (and_congr_right fun hin => ?_)
    constructor
    · intro h hwfd
      rw [wfd_needs hwfd] at hin
      rw [← wfd_bounded (wfd_opens hwfd) (by omega)]
      exact h x.2 none (assoc_call.mpr ⟨hwfd, rfl, rfl⟩)
    · intro h a c hnext
      obtain ⟨hwfd, -, rfl⟩ := assoc_call.mp hnext
      rw [wfd_needs hwfd] at hin
      exact (wfd_bounded (wfd_opens hwfd) (by omega)).mpr (h hwfd)
  rw [ElemLoop.bounded_iff f.fits.le]
  constructor
  · intro h
    exact ⟨fun x₀ hstart x hx => ((hfits x).mp (h x₀ hstart x hx)).1,
      fun x₀ hstart x hx => ((hfits x).mp (h x₀ hstart x hx)).2⟩
  · rintro ⟨hinside, hwfd⟩ x₀ hstart x hx
    exact (hfits x).mpr ⟨hinside x₀ hstart x hx, hwfd x₀ hstart x hx⟩

/-! ## Beacons that are let through -/

section Validated

variable {α : Type*} {ρ : Type*} {e : ElemLoop α Empty ρ} {mem : List UInt8} {len : ℕ}
  {x₀ x : ℕ × α}

theorem checkIelen_step {fuel pos left : ℕ} (h : checkIelen mem fuel pos left = true)
    (hleft : 0 < left) : 2 + length mem pos ≤ left ∧ ∃ fuel',
      checkIelen mem fuel' (pos + (2 + length mem pos)) (left - (2 + length mem pos)) = true := by
  cases fuel with
  | zero =>
    have hzero : left = 0 := of_decide_eq_true h
    omega
  | succ fuel =>
    rw [checkIelen] at h
    split_ifs at h with htwo hfit hvendor
    · exact ⟨by omega, fuel, h⟩
    · have hzero : left = 0 := of_decide_eq_true h
      omega

/-- Each element of a beacon that is let through is in the frame as a whole. -/
theorem comes_fits (hlen : len < 65536)
    (hmore : ∀ i, i ≤ 65536 → e.more i = true → e.base + i < len)
    (hfirst : e.pos x₀ ≤ len ∧ ∃ fuel, checkIelen mem fuel (e.pos x₀) (len - e.pos x₀) = true)
    (hx : e.Comes mem x₀ x) : e.pos x + (2 + length mem (e.pos x)) ≤ len := by
  have hpos : ∀ y : ℕ × α, e.pos y = e.base + y.1 := fun _ => rfl
  have hvalid : ∀ y, Item (e.toLoop mem).step (e.toLoop mem).Stop x₀ y →
      e.pos y ≤ len ∧ ∃ fuel, checkIelen mem fuel (e.pos y) (len - e.pos y) = true := by
    intro y hy
    induction hy with
    | first => exact hfirst
    | @next y _ hgo ih =>
      obtain ⟨hle, fuel, hcheck⟩ := ih
      have hin : e.more y.1 = true := by
        by_contra hend
        exact hgo ⟨_, if_neg hend⟩
      have hle' := hpos y
      have hlt := hmore y.1 (by omega) hin
      obtain ⟨hfits, fuel', hnext⟩ := checkIelen_step hcheck (by omega)
      have hlength : byteAt mem (e.pos y + 1) = length mem (e.pos y) := rfl
      have hstep : ((e.toLoop mem).step y).1 = y.1 + (byteAt mem (e.pos y + 1) + 2) :=
        Nat.mod_eq_of_lt (by omega)
      have hnew : e.pos ((e.toLoop mem).step y) = e.pos y + (2 + length mem (e.pos y)) := by
        have hnext' := hpos ((e.toLoop mem).step y)
        omega
      rw [hnew]
      refine ⟨by omega, fuel', ?_⟩
      rwa [Nat.sub_add_eq]
  obtain ⟨hle, fuel, hcheck⟩ := hvalid x hx.1
  have hle' := hpos x
  have hlt := hmore x.1 (by omega) hx.2
  have hfits := (checkIelen_step hcheck (by omega)).1
  omega

/-- Of each element that is too short for its `case`, enough bytes follow. -/
def ShortInside (e : ElemLoop α Empty ρ) (mem : List UInt8) (len : ℕ) (need : ℕ → α → ℕ) : Prop :=
  ∀ x₀, e.start = .inr x₀ → ∀ x, e.Comes mem x₀ x →
    2 + length mem (e.pos x) < need (e.pos x) x.2 → e.pos x + need (e.pos x) x.2 ≤ len

theorem inside_iff_short {need : ℕ → α → ℕ}
    (hfits : ∀ x₀, e.start = .inr x₀ → ∀ x, e.Comes mem x₀ x →
      e.pos x + (2 + length mem (e.pos x)) ≤ len) :
    e.Inside mem len need ↔ ShortInside e mem len need := by
  refine forall₂_congr fun x₀ hstart => forall₂_congr fun x hx => ⟨fun h _ => h, fun h => ?_⟩
  by_cases hshort : 2 + length mem (e.pos x) < need (e.pos x) x.2
  · exact h hshort
  · have hin := hfits x₀ hstart x hx
    omega

theorem validated {f : MgntFrame} (h : validateBeaconLen f = true) :
    36 ≤ f.pktLen ∧ checkIelen f.mem f.pktLen 36 (f.pktLen - 36) = true := by
  rw [validateBeaconLen] at h
  split_ifs at h with hshort
  exact ⟨by omega, h⟩

theorem usub_of_le {a b : ℕ} (h : b ≤ a) (ha : a < 4294967296) : usub a b = a - b := by
  rw [usub]
  omega

theorem beacon_iff {f : MgntFrame} {need : ℕ → α → ℕ} (h : validateBeaconLen f = true)
    (hmore : ∀ i, i ≤ 65536 → e.more i = true → e.base + i < f.pktLen)
    (hstart : ∀ x₀, e.start = .inr x₀ → e.pos x₀ = 36)
    (hneed : ∀ p a, (e.visit p a).Asks p f.pktLen ↔ p + need p a ≤ f.pktLen) :
    Bounded (e.toLoop f.mem).round f.pktLen .entry ↔ ShortInside e f.mem f.pktLen need := by
  obtain ⟨hlong, hcheck⟩ := validated h
  rw [bounded_iff_inside f.fits.le hneed]
  refine inside_iff_short fun x₀ hx₀ x hx => comes_fits f.fits hmore ?_ hx
  rw [hstart x₀ hx₀]
  exact ⟨hlong, f.pktLen, hcheck⟩

theorem update_iff {cfg : HandlerCfg} {s : BwState} {f : MgntFrame}
    (h : validateBeaconLen f = true) :
    Bounded ((updateBeaconInfo cfg s f).toLoop f.mem).round f.pktLen .entry ↔
      ShortInside (updateBeaconInfo cfg s f) f.mem f.pktLen
        fun p s => beaconNeed f.mem p cfg s := by
  have hlen := f.fits
  refine beacon_iff h (fun i _ hi => ?_) (fun x₀ hx₀ => ?_) fun _ _ => beacon_asks
  · dsimp only [updateBeaconInfo] at hi
    have hlt := of_decide_eq_true hi
    rw [usub_of_le (validated h).1 (by omega)] at hlt
    exact Nat.add_lt_of_lt_sub' hlt
  · cases hx₀
    rfl

theorem csa_iff {csaCh : ℕ} {f : MgntFrame} (h : validateBeaconLen f = true) :
    Bounded ((processCsaIe csaCh f).toLoop f.mem).round f.pktLen .entry ↔
      ShortInside (processCsaIe csaCh f) f.mem f.pktLen fun p _ => csaNeed f.mem p := by
  have hlen := f.fits
  refine beacon_iff h (fun i hle hi => ?_) (fun x₀ hx₀ => ?_) fun _ _ => csa_asks
  · dsimp only [processCsaIe] at hi
    have hlt := of_decide_eq_true hi
    have hu32 : u32 (i + 1) = i + 1 := Nat.mod_eq_of_lt (by omega)
    rw [usub_of_le (validated h).1 (by omega), hu32] at hlt
    exact Nat.add_lt_of_lt_sub' (Nat.lt_of_succ_lt hlt)
  · have hstart : (if csaCh ≠ 0 then Sum.inl none else Sum.inr (0, 0)) = Sum.inr x₀ := hx₀
    split_ifs at hstart
    cases hstart
    rfl

theorem peer_iff {f : MgntFrame} (h : validateBeaconLen f = true) :
    Bounded ((beaconAssocAp f).toLoop f.mem).round f.pktLen .entry ↔
      ShortInside (beaconAssocAp f) f.mem f.pktLen fun p _ => peerNeed f.mem p := by
  have hlen := f.fits
  have hlong := (validated h).1
  refine beacon_iff h (fun i _ hi => ?_) (fun x₀ hx₀ => ?_) fun _ _ => peer_asks
  · dsimp only [beaconAssocAp, checkAssocAp] at hi
    have hlt := of_decide_eq_true hi
    rw [usub_of_le (by omega) (by omega)] at hlt
    exact Nat.add_lt_of_lt_sub' hlt
  · cases hx₀
    rfl

end Validated

/-- An Association Response is walked through within the frame if and only if the frame holds, of
every element that the loop comes to, the bytes that its `case` needs, and the WFD elements fit.
Of a beacon that is let through only the elements too short for their `case` count; the elements
of the network that is joined may be those of a Probe Response, which is not checked. -/
theorem elements_inside (ad : Joining) (cfg : HandlerCfg) (caps : HtTx) (f : MgntFrame)
    (s : BwState) (csaCh : ℕ) (n : NetworkIes) :
    (Bounded ((onAssocRsp ad cfg caps f).toLoop f.mem).round f.pktLen .entry ↔
      (onAssocRsp ad cfg caps f).Inside f.mem f.pktLen
          (fun p caps => assocNeed f.mem p cfg caps) ∧
        WfdInside ad cfg caps f) ∧
    ((validateBeaconLen f = true →
        Bounded ((updateBeaconInfo cfg s f).toLoop f.mem).round f.pktLen .entry) ↔
      (validateBeaconLen f = true →
        ShortInside (updateBeaconInfo cfg s f) f.mem f.pktLen
          fun p s => beaconNeed f.mem p cfg s)) ∧
    ((validateBeaconLen f = true →
        Bounded ((processCsaIe csaCh f).toLoop f.mem).round f.pktLen .entry) ↔
      (validateBeaconLen f = true →
        ShortInside (processCsaIe csaCh f) f.mem f.pktLen fun p _ => csaNeed f.mem p)) ∧
    ((validateBeaconLen f = true →
        Bounded ((beaconAssocAp f).toLoop f.mem).round f.pktLen .entry) ↔
      (validateBeaconLen f = true →
        ShortInside (beaconAssocAp f) f.mem f.pktLen fun p _ => peerNeed f.mem p)) ∧
    (Bounded ((isApInTkip n).toLoop n.ies).round n.ielength .entry ↔
      (isApInTkip n).Inside n.ies n.ielength fun p _ => tkipNeed n.ies p) ∧
    (Bounded ((networkAssocAp n).toLoop n.ies).round n.ielength .entry ↔
      (networkAssocAp n).Inside n.ies n.ielength fun p _ => peerNeed n.ies p) := by
  have hies : n.ielength ≤ 65536 := n.fits.trans (by decide)
  refine ⟨assoc_inside, forall_congr' update_iff, forall_congr' csa_iff, forall_congr' peer_iff,
    ?_, ?_⟩
  · exact bounded_iff_inside hies fun _ _ => tkip_asks
  · exact bounded_iff_inside hies fun _ _ => peer_asks

def station : Joining := { macAddr := Vector.replicate 6 6 }

def assocRsp (ies : List UInt8) (h : ies.length < 65506) : MgntFrame where
  mem := [0x10, 0, 0, 0] ++ List.replicate 20 6 ++ [1, 0, 0, 0, 1, 0] ++ ies
  pktLen := 30 + ies.length
  fits := by omega

def beacon (ies : List UInt8) (h : ies.length < 65500) : MgntFrame where
  mem := List.replicate 36 0 ++ ies
  pktLen := 36 + ies.length
  fits := by omega

def wfdStuck : List UInt8 := [221, 9, 0x50, 0x6f, 0x9a, 0x0a, 1, 0xff, 0xfd, 0, 0]

def shortVendor : MgntFrame := beacon [221, 3, 0, 0x50, 0xf2] (by decide)

def shortCsa : MgntFrame := beacon [37, 0] (by decide)

def shortRealtek : MgntFrame := beacon [221, 5, 0, 0xe0, 0x4c, 2, 1] (by decide)

def shortRsn : NetworkIes := ⟨List.replicate 10 0 ++ [16, 0, 48, 0], 14, by decide⟩

/-- Elements that are cut off or too short for their kind, the beacons among them let through,
and a search that does not end. -/
theorem elements_overrun :
    ¬ Bounded ((onAssocRsp station {} {} (assocRsp [221] (by decide))).toLoop
        (assocRsp [221] (by decide)).mem).round 31 .entry ∧
      (∀ r, ¬ Returns ((onAssocRsp station {} {} (assocRsp wfdStuck (by decide))).toLoop
        (assocRsp wfdStuck (by decide)).mem).round .entry r) ∧
      (validateBeaconLen shortVendor = true ∧
        ¬ Bounded ((updateBeaconInfo {} ⟨1, 1⟩ shortVendor).toLoop shortVendor.mem).round 41
          .entry) ∧
      (validateBeaconLen shortCsa = true ∧
        ¬ Bounded ((processCsaIe 0 shortCsa).toLoop shortCsa.mem).round 38 .entry) ∧
      (validateBeaconLen shortRealtek = true ∧
        ¬ Bounded ((beaconAssocAp shortRealtek).toLoop shortRealtek.mem).round 43 .entry) ∧
      ¬ Bounded ((isApInTkip shortRsn).toLoop shortRsn.ies).round 14 .entry := by
  refine ⟨fun h => absurd (h.stays 2) (by decide), ?_, ⟨by decide, fun h => ?_⟩,
    ⟨by decide, fun h => ?_⟩, ⟨by decide, fun h => ?_⟩, fun h => absurd (h.stays 2) (by decide)⟩
  · have hitem : Reaches ((onAssocRsp station {} {} (assocRsp wfdStuck (by decide))).toLoop
        (assocRsp wfdStuck (by decide)).mem).round .entry (.item (30, {})) := .next .start rfl
    have hcall : Reaches ((onAssocRsp station {} {} (assocRsp wfdStuck (by decide))).toLoop
        (assocRsp wfdStuck (by decide)).mem).round .entry (.call (30, {}) (some 6)) :=
      .next (.next hitem rfl) rfl
    exact not_returns_of_stuck hcall rfl
  · exact absurd (h.stays 2) (by decide)
  · exact absurd (h.stays 2) (by decide)
  · exact absurd (h.stays 2) (by decide)

end Rtl8189.ElementWalk
