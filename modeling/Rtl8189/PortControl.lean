import Rtl8189.Defrag

/-!
# The controlled port

`portctrl` reads two bytes of a data frame before it lets the frame pass; what
the network stack gets is made afterwards by `wlanhdr_to_ethhdr` or
`amsdu_to_msdu`. The two look for the EtherType in different places.
-/
namespace Rtl8189.PortControl

open Defrag

structure Msdu where
  dst : List UInt8
  src : List UInt8
  hProto : ℕ
  payload : List UInt8
  deriving DecidableEq

structure RxEnv where
  auth8021X : Bool := true
  /-- The station is known and its `ieee8021x_blocked` is set. -/
  blocked : MacAddr → Bool := fun _ => true
  cannotRun : Bool := false
  /-- `rtw_os_alloc_msdu_pkt` gets its packet, with so many subframes still allowed. -/
  msduAlloc : ℕ → Bool := fun _ => true
  apForward : Bool := false
  myAddr : List UInt8 := List.replicate 6 0
  sta : List UInt8 → Bool := fun _ => false
  bcmcSta : Bool := false
  skbClone : Bool := true

def rfc1042Header : List UInt8 := [0xaa, 0xaa, 0x03, 0x00, 0x00, 0x00]

def bridgeTunnelHeader : List UInt8 := [0xaa, 0xaa, 0x03, 0x00, 0x00, 0xf8]

/-- Whether `p` starts with a header that is replaced by its EtherType. -/
def bsnaphdr (p : List UInt8) : Bool :=
  (p.take 6 = rfc1042Header ∧ be16 p 6 ≠ 0x8137 ∧ be16 p 6 ≠ 0x80f3) ∨
    p.take 6 = bridgeTunnelHeader

def bodyOffset (f : RecvFrame) : ℕ := f.attrib.hdrlen + f.attrib.ivLen

def portctrl (env : RxEnv) (f : RecvFrame) : Option RecvFrame :=
  if env.auth8021X then
    if env.blocked f.attrib.ta then
      if be16 f.view (bodyOffset f + 6) = 0x888e then some f else none
    else some f
  else some f

def trimIcv (f : RecvFrame) : RecvFrame :=
  if f.attrib.encrypt ≠ .noPrivacy then (f.recvframePullTail f.attrib.icvLen).getD f else f

/-- `len` of `wlanhdr_to_ethhdr` for a body that keeps its header. -/
def bodyLen16 (f : RecvFrame) : ℕ := (((trimIcv f).len - bodyOffset f : ℤ) % 65536).toNat

/-- Test frames of the `WIFI_MP_STATE` have left in `recv_func_prehandle`. -/
def wlanhdrToEthhdr (f : RecvFrame) : Option RecvFrame :=
  let snap := bsnaphdr ((trimIcv f).view.drop (bodyOffset f))
  let rmvLen := bodyOffset f + if snap then 6 else 0
  let ethType := be16 (trimIcv f).view rmvLen
  ((trimIcv f).recvframePull (rmvLen - 14 + if snap then 2 else 0)).map fun g =>
    let addrs := f.attrib.dst.toList ++ f.attrib.src.toList
    let g := g.overwrite (addrs ++ if snap then [] else be16Bytes (bodyLen16 f))
    { g with attrib := { g.attrib with ethType := ethType } }

structure Subframe where
  da : List UInt8
  sa : List UInt8
  msdu : List UInt8

/-- The loop of `amsdu_to_msdu` with `left` of the `MAX_SUBFRAME_COUNT`
subframes still allowed. -/
def subframes (alloc : ℕ → Bool) : ℕ → List UInt8 → List Subframe
  | 0, _ => []
  | left + 1, pdata =>
    let n := be16 pdata 12
    if pdata.length ≤ 14 then []
    else if pdata.length < 14 + n then []
    else if alloc left = false then []
    else
      let rest := pdata.drop (14 + n)
      let paddingLen := (4 - (n + 14) % 4) % 4
      ⟨pdata.take 6, (pdata.drop 6).take 6, (pdata.drop 14).take n⟩ ::
        if rest.length < paddingLen then [] else subframes alloc left (rest.drop paddingLen)

/-- An MSDU whose header `rtw_os_alloc_msdu_pkt` replaces by its EtherType. -/
def snapMsdu (msdu : List UInt8) : Bool := 8 ≤ msdu.length ∧ bsnaphdr msdu

def rtwOsAllocMsduPkt (s : Subframe) : Msdu :=
  if snapMsdu s.msdu then ⟨s.da, s.sa, be16 s.msdu 6, s.msdu.drop 8⟩
  else ⟨s.da, s.sa, s.msdu.length % 65536, s.msdu⟩

/-- What `amsdu_to_msdu` parses: header and IV are pulled one after the other. -/
def amsduData (f : RecvFrame) : List UInt8 :=
  let f := (f.recvframePull f.attrib.hdrlen).getD f
  ((f.recvframePull f.attrib.ivLen).getD f).rxData

def amsduToMsdu (env : RxEnv) (f : RecvFrame) : List Msdu :=
  (subframes env.msduAlloc 64 (amsduData f)).map rtwOsAllocMsduPkt

def toMsdu (g : RecvFrame) : Msdu :=
  ⟨g.view.take 6, (g.view.drop 6).take 6, be16 g.view 12, g.rxData.drop 14⟩

/-- `rtw_os_recv_indicate_pkt` of an access point sends the packet out again and
does not deliver it. -/
def forwardedOnly (env : RxEnv) (dst : List UInt8) : Bool :=
  env.apForward && dst != env.myAddr &&
    if (dst.headD 0).toNat % 2 = 1 then env.bcmcSta && !env.skbClone else env.sta dst

def recvProcessMpdu (env : RxEnv) (f : RecvFrame) : List Msdu :=
  (if f.attrib.amsdu then amsduToMsdu env f
   else if env.cannotRun then []
   else ((wlanhdrToEthhdr f).map toMsdu).toList).filter fun m => !forwardedOnly env m.dst

/-- The MSDUs delivered on behalf of one received frame. Between `portctrl` and
`recv_process_mpdu` the reorder window only delays or drops the frame. -/
def delivered (micOk : RecvFrame → Bool) (env : RxEnv) (pdefragQ : Option (List RecvFrame))
    (f : RecvFrame) : List Msdu :=
  (((recvframeChkDefrag micOk pdefragQ f).frame.bind (portctrl env)).map
    (recvProcessMpdu env)).getD []

def EapolMsdu (msdu : List UInt8) : Prop :=
  if snapMsdu msdu then be16 msdu 6 = 0x888e else msdu.length % 65536 = 0x888e

/-- The body of a plain frame is delivered with EtherType 0x888E or not at all,
given that its bytes 6 and 7 are 0x888E. -/
def PlainSafe (env : RxEnv) (f : RecvFrame) : Prop :=
  env.cannotRun ∨ forwardedOnly env f.attrib.dst.toList ∨
    bsnaphdr (f.view.drop (bodyOffset f)) ∨ (trimIcv f).len + 14 < bodyOffset f ∨
    bodyLen16 f = 0x888e

instance (env : RxEnv) (f : RecvFrame) : Decidable (PlainSafe env f) :=
  inferInstanceAs (Decidable (_ ∨ _))

/-- Bytes 6 and 7 of the body are not 0x888E, or what the delivery path makes of
the body agrees with them. -/
def PortSafe (env : RxEnv) (f : RecvFrame) : Prop :=
  be16 f.view (bodyOffset f + 6) ≠ 0x888e ∨
    if f.attrib.amsdu then
      ∀ s ∈ subframes env.msduAlloc 64 (amsduData f), forwardedOnly env s.da ∨ EapolMsdu s.msdu
    else PlainSafe env f

theorem be16_be16Bytes {n : ℕ} (h : n < 65536) : be16 (be16Bytes n) 0 = n := by
  have hhi : byteAt (be16Bytes n) 0 = n / 256 % 256 := rfl
  have hlo : byteAt (be16Bytes n) 1 = n % 256 := rfl
  simp only [be16, hhi, hlo]
  omega

theorem trimIcv_view (f : RecvFrame) : (trimIcv f).view = f.view := by
  simp only [trimIcv]
  split_ifs
  · cases h : f.recvframePullTail f.attrib.icvLen with
    | none => rfl
    | some g => exact RecvFrame.recvframePullTail_view h
  · rfl

theorem bodyLen16_lt (f : RecvFrame) : bodyLen16 f < 65536 := by
  simp only [bodyLen16]
  omega

theorem addrs_length (f : RecvFrame) :
    (f.attrib.dst.toList ++ f.attrib.src.toList).length = 12 := by simp

theorem toMsdu_dst {f g : RecvFrame} (h : wlanhdrToEthhdr f = some g) :
    (toMsdu g).dst = f.attrib.dst.toList := by
  simp only [wlanhdrToEthhdr, Option.map_eq_some_iff] at h
  obtain ⟨p, hp, rfl⟩ := h
  have hview : ∀ (q : RecvFrame) (x : RxPktAttrib), RecvFrame.view { q with attrib := x } = q.view :=
    fun _ _ => rfl
  simp only [toMsdu, hview, RecvFrame.overwrite_view, List.append_assoc]
  exact List.take_left' (by simp)

/-- The EtherType is found where `portctrl` looks only behind a SNAP header. -/
theorem toMsdu_hProto {f g : RecvFrame} (h : wlanhdrToEthhdr f = some g)
    (hhdr : 14 ≤ bodyOffset f) :
    (toMsdu g).hProto = if bsnaphdr (f.view.drop (bodyOffset f)) then
      be16 f.view (bodyOffset f + 6) else bodyLen16 f := by
  simp only [wlanhdrToEthhdr, Option.map_eq_some_iff, trimIcv_view] at h
  obtain ⟨p, hp, rfl⟩ := h
  have hview : ∀ (q : RecvFrame) (x : RxPktAttrib), RecvFrame.view { q with attrib := x } = q.view :=
    fun _ _ => rfl
  have hpv := RecvFrame.recvframePull_view hp
  rw [trimIcv_view] at hpv
  have h12 := addrs_length f
  simp only [toMsdu, hview, RecvFrame.overwrite_view]
  split_ifs at hp hpv ⊢ with hsnap
  · have hmove := be16_append_right (f.attrib.dst.toList ++ f.attrib.src.toList)
      (p.view.drop 12) 0
    rw [h12] at hmove
    rw [List.append_nil, h12, hmove, hpv, List.drop_drop, be16_drop]
    congr 1
    omega
  · have hmove := be16_append_right (f.attrib.dst.toList ++ f.attrib.src.toList)
      (be16Bytes (bodyLen16 f) ++ p.view.drop 14) 0
    rw [h12] at hmove
    rw [List.length_append, h12, List.append_assoc]
    exact hmove.trans (be16_be16Bytes (bodyLen16_lt f))

theorem wlanhdrToEthhdr_isSome (f : RecvFrame) (hhdr : 14 ≤ bodyOffset f)
    (hsnap : bsnaphdr (f.view.drop (bodyOffset f)) = false) :
    (wlanhdrToEthhdr f).isSome ↔ bodyOffset f ≤ (trimIcv f).len + 14 := by
  simp only [wlanhdrToEthhdr, trimIcv_view, hsnap, Option.isSome_map, RecvFrame.recvframePull,
    Option.isSome_ite, Bool.false_eq_true, if_false]
  omega

theorem plain_safe (env : RxEnv) (f : RecvFrame) (hamsdu : f.attrib.amsdu = false)
    (hhdr : 14 ≤ bodyOffset f) (hbytes : be16 f.view (bodyOffset f + 6) = 0x888e) :
    (∀ m ∈ recvProcessMpdu env f, m.hProto = 0x888e) ↔ PlainSafe env f := by
  simp only [recvProcessMpdu, hamsdu, Bool.false_eq_true, if_false, PlainSafe, List.mem_filter,
    Bool.not_eq_true']
  by_cases hrun : env.cannotRun
  · simp [hrun]
  simp only [hrun, Bool.false_eq_true, if_false, false_or, Option.mem_toList,
    Option.map_eq_some_iff]
  constructor
  · intro hall
    by_contra hsafe
    push Not at hsafe
    obtain ⟨hfwd, hsnap, hlen, hlen16⟩ := hsafe
    have hsome := (wlanhdrToEthhdr_isSome f hhdr (by simpa using hsnap)).mpr (by omega)
    obtain ⟨g, hg⟩ := Option.isSome_iff_exists.mp hsome
    have hproto := hall (toMsdu g) ⟨⟨g, hg, rfl⟩, by rw [toMsdu_dst hg]; simpa using hfwd⟩
    rw [toMsdu_hProto hg hhdr, if_neg hsnap] at hproto
    exact hlen16 hproto
  · intro hsafe m hm
    obtain ⟨⟨g, hg, rfl⟩, hfwd⟩ := hm
    rw [toMsdu_dst hg] at hfwd
    rw [toMsdu_hProto hg hhdr]
    split_ifs with hsnap
    · exact hbytes
    · have hsome := (wlanhdrToEthhdr_isSome f hhdr (by simpa using hsnap)).mp (by simp [hg])
      rcases hsafe with h | h | h | h
      · simp [h] at hfwd
      · exact absurd h hsnap
      · omega
      · exact h

theorem rtwOsAllocMsduPkt_eapol (s : Subframe) :
    (rtwOsAllocMsduPkt s).hProto = 0x888e ↔ EapolMsdu s.msdu := by
  simp only [rtwOsAllocMsduPkt, EapolMsdu]
  split_ifs <;> rfl

theorem rtwOsAllocMsduPkt_dst (s : Subframe) : (rtwOsAllocMsduPkt s).dst = s.da := by
  simp only [rtwOsAllocMsduPkt]
  split_ifs <;> rfl

theorem amsdu_safe (env : RxEnv) (f : RecvFrame) (hamsdu : f.attrib.amsdu = true) :
    (∀ m ∈ recvProcessMpdu env f, m.hProto = 0x888e) ↔
      ∀ s ∈ subframes env.msduAlloc 64 (amsduData f),
        forwardedOnly env s.da ∨ EapolMsdu s.msdu := by
  simp only [recvProcessMpdu, hamsdu, if_true, List.mem_filter, amsduToMsdu, List.mem_map]
  constructor
  · intro hall s hs
    by_cases hfwd : forwardedOnly env s.da = true
    · exact Or.inl hfwd
    · refine Or.inr ((rtwOsAllocMsduPkt_eapol s).mp (hall _ ⟨⟨s, hs, rfl⟩, ?_⟩))
      rw [rtwOsAllocMsduPkt_dst]
      simpa using hfwd
  · intro hsafe m hm
    obtain ⟨⟨s, hs, rfl⟩, hfwd⟩ := hm
    rw [rtwOsAllocMsduPkt_dst] at hfwd
    rcases hsafe s hs with h | h
    · simp [h] at hfwd
    · exact (rtwOsAllocMsduPkt_eapol s).mpr h

/-- What passes the closed port is all EAPOL exactly when the delivery path reads
the frame as `portctrl` does. -/
theorem delivered_eapol_iff (micOk : RecvFrame → Bool) (env : RxEnv)
    (pdefragQ : Option (List RecvFrame)) (f : RecvFrame) (h8021X : env.auth8021X = true)
    (hblocked : ∀ g, (recvframeChkDefrag micOk pdefragQ f).frame = some g →
      env.blocked g.attrib.ta = true ∧ 24 ≤ g.attrib.hdrlen) :
    (∀ m ∈ delivered micOk env pdefragQ f, m.hProto = 0x888e) ↔
      ∀ g, (recvframeChkDefrag micOk pdefragQ f).frame = some g → PortSafe env g := by
  simp only [delivered]
  cases hg : (recvframeChkDefrag micOk pdefragQ f).frame with
  | none => simp
  | some g =>
    obtain ⟨hta, hhdr⟩ := hblocked g hg
    have hoff : 14 ≤ bodyOffset g := by
      simp only [bodyOffset]
      omega
    simp only [Option.bind_some, portctrl, h8021X, hta, if_true, PortSafe, Option.some.injEq,
      forall_eq']
    by_cases hbytes : be16 g.view (bodyOffset g + 6) = 0x888e
    · simp only [hbytes, if_true, Option.map_some, Option.getD_some, ne_eq, not_true_eq_false,
        false_or]
      by_cases hamsdu : g.attrib.amsdu = true
      · simp only [hamsdu, if_true]
        exact amsdu_safe env g hamsdu
      · simp only [hamsdu]
        exact plain_safe env g (by simpa using hamsdu) hoff hbytes
    · simp [hbytes]

def dataFrame (amsdu : Bool) (body : List UInt8) : RecvFrame where
  attrib := { amsdu := amsdu }
  rxData := 8 :: List.replicate 23 0 ++ body

theorem delivered_eapol_iff_key :
    let body := rfc1042Header ++ [0x88, 0x8e, 2, 3]
    ∀ m ∈ delivered (fun _ => true) {} none (dataFrame false body), m.hProto = 0x888e :=
  (delivered_eapol_iff _ {} none _ rfl (fun g hg => by
      obtain rfl : dataFrame false (rfc1042Header ++ [0x88, 0x8e, 2, 3]) = g := Option.some.inj hg
      decide)).mpr
    fun g hg => by
      obtain rfl : dataFrame false (rfc1042Header ++ [0x88, 0x8e, 2, 3]) = g := Option.some.inj hg
      have hplain : PlainSafe {} (dataFrame false (rfc1042Header ++ [0x88, 0x8e, 2, 3])) := by
        decide
      exact Or.inr hplain

/-- An LLC body with 88 8e where the EtherType of a SNAP header would be, and an
A-MSDU whose first source address starts with 88 8e and whose subframe is an IP
packet. -/
theorem delivered_not_eapol :
    (delivered (fun _ => true) {} none
      (dataFrame false [0x42, 0x42, 3, 0, 0, 0, 0x88, 0x8e, 1, 2])).map Msdu.hProto = [10] ∧
    (delivered (fun _ => true) {} none
      (dataFrame true ([1, 0, 0, 0, 0, 1] ++ [0x88, 0x8e, 0, 0, 0, 2] ++ [0, 10] ++
        rfc1042Header ++ [0x08, 0, 0x45, 0]))).map Msdu.hProto = [0x0800] := by
  decide

end Rtl8189.PortControl
