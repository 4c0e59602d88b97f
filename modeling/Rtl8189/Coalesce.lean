import Mathlib.Algebra.Group.Int.Defs
import Mathlib.Data.Int.Basic
import Rtl8189.RecvFrame

/-!
# Laying out the fragments of a transmit frame

`rtw_xmitframe_coalesce` writes the fragments of an MSDU one behind the other.
`xmitframe_addmic` and the encryption functions walk over them again and work
out anew where each fragment is. Positions are addresses, since the macros align
addresses.
-/
namespace Rtl8189.Coalesce

structure PktAttrib where
  hdrlen : ℕ := 24
  encrypt : Encrypt := .noPrivacy
  bswenc : Bool := false
  bmcst : Bool := false
  etherType : ℕ := 0x0800

namespace PktAttrib

def ivLen (a : PktAttrib) : ℤ := a.encrypt.ivLen

def icvLen (a : PktAttrib) : ℤ := a.encrypt.icvLen

def swIcv (a : PktAttrib) : ℤ := if a.bswenc then a.icvLen else 0

end PktAttrib

structure WlanHdr where
  mFrag : Bool := false
  fragNum : ℕ := 0
  deriving DecidableEq

structure Frag where
  memStart : ℤ
  hdr : WlanHdr
  body : List UInt8
  deriving DecidableEq

structure Coalesced where
  frags : List Frag := []
  lastTxcmdsz : ℤ := 0

def rnd4 (x : ℤ) : ℤ := (x / 4 + if x % 4 = 0 then 0 else 1) * 4

def rtwPutSnap (hProto : ℕ) : List UInt8 :=
  [0xaa, 0xaa, 0x03] ++
    (if hProto = 0x8137 ∨ hProto = 0x80f3 then [0x00, 0x00, 0xf8] else [0x00, 0x00, 0x00]) ++
    be16Bytes hProto

def pktfileRead (pkt : List UInt8) (rlen : ℤ) : List UInt8 := pkt.take (rlen % 2 ^ 32).toNat

def mpduRoom (a : PktAttrib) (fragLen : ℤ) (llc : List UInt8) : ℤ :=
  fragLen - 4 - a.hdrlen - a.ivLen - llc.length - a.swIcv

/-- The loop of `rtw_xmitframe_coalesce`. A further fragment gets a copy of the
first header, whose fragment number nobody changes. -/
def coalesceLoop (a : PktAttrib) (fragLen : ℤ) :
    ℕ → ℕ → ℤ → WlanHdr → List UInt8 → Coalesced
  | 0, _, _, _, _ => {}
  | fuel + 1, frgInx, memStart, hdr, pkt =>
    let hdr := { hdr with mFrag := true }
    let llc := if frgInx = 0 then rtwPutSnap a.etherType else []
    let mem := if a.bmcst then pkt else pktfileRead pkt (mpduRoom a fragLen llc)
    let pframe := memStart + a.hdrlen + a.ivLen + llc.length + mem.length + a.swIcv
    let rest := pkt.drop mem.length
    if a.bmcst || rest.isEmpty then
      { frags := [⟨memStart, { hdr with mFrag := false }, llc ++ mem⟩]
        lastTxcmdsz := a.hdrlen + a.ivLen + (if frgInx = 0 then llc.length else 0) + a.swIcv +
          mem.length }
    else
      let next := coalesceLoop a fragLen fuel (frgInx + 1) (rnd4 pframe + 32) hdr rest
      { next with frags := ⟨memStart, hdr, llc ++ mem⟩ :: next.frags }

/-- An address and a length. -/
abbrev Span := ℤ × ℤ

structure MicWalk where
  spans : List Span
  micAt : ℤ

/-- The loop of `xmitframe_addmic` over so many more fragments. -/
def micWalk (a : PktAttrib) (fragLen lastTxcmdsz : ℤ) : ℕ → ℤ → MicWalk
  | 0, payload => ⟨[], payload⟩
  | n + 1, payload =>
    let payload := rnd4 payload + a.hdrlen + a.ivLen
    if n = 0 then
      let length := lastTxcmdsz - a.hdrlen - a.ivLen - a.swIcv
      ⟨[(payload, length)], payload + length⟩
    else
      let length := fragLen - a.hdrlen - a.ivLen - a.swIcv
      let next := micWalk a fragLen lastTxcmdsz n (payload + length + a.icvLen)
      { next with spans := (payload, length) :: next.spans }

/-- The loop that `rtw_wep_encrypt`, `rtw_tkip_encrypt` and `rtw_aes_encrypt`
have in common. -/
def encryptWalk (a : PktAttrib) (fragLen lastTxcmdsz : ℤ) : ℕ → ℤ → List Span
  | 0, _ => []
  | n + 1, pframe =>
    let payload := pframe + a.ivLen + a.hdrlen
    if n = 0 then [(payload, lastTxcmdsz - a.hdrlen - a.ivLen - a.icvLen)]
    else
      (payload, fragLen - a.hdrlen - a.ivLen - a.icvLen) ::
        encryptWalk a fragLen lastTxcmdsz n (rnd4 (pframe + fragLen))

def rtwWepEncrypt (a : PktAttrib) (fragLen lastTxcmdsz : ℤ) (nrFrags : ℕ) (buf : ℤ) : List Span :=
  if a.encrypt = .wep40 ∨ a.encrypt = .wep104 then
    encryptWalk a fragLen lastTxcmdsz nrFrags (buf + 32)
  else []

def rtwTkipEncrypt (a : PktAttrib) (fragLen lastTxcmdsz : ℤ) (nrFrags : ℕ) (buf : ℤ) : List Span :=
  if a.encrypt = .tkip then encryptWalk a fragLen lastTxcmdsz nrFrags (buf + 32) else []

def rtwAesEncrypt (a : PktAttrib) (fragLen lastTxcmdsz : ℤ) (nrFrags : ℕ) (buf : ℤ) : List Span :=
  if a.encrypt = .aes then encryptWalk a fragLen lastTxcmdsz nrFrags (buf + 32) else []

def xmitframeSwencrypt (a : PktAttrib) (fragLen lastTxcmdsz : ℤ) (nrFrags : ℕ) (buf : ℤ) :
    List Span :=
  if a.bswenc then
    match a.encrypt with
    | .wep40 | .wep104 => rtwWepEncrypt a fragLen lastTxcmdsz nrFrags buf
    | .tkip => rtwTkipEncrypt a fragLen lastTxcmdsz nrFrags buf
    | .aes => rtwAesEncrypt a fragLen lastTxcmdsz nrFrags buf
    | _ => []
  else []

/-- A frame as `rtw_xmitframe_coalesce` leaves it: the fragments, the spans that
went into the Michael code and the place of the code, the spans encrypted. -/
structure TxLayout where
  frags : List Frag
  lastTxcmdsz : ℤ
  mic : Option MicWalk
  encrypted : List Span

/-- Refused when there is no buffer, no header can be made or the Michael key is
null. -/
structure TxEnv where
  bufAddr : Option ℤ
  makeWlanhdr : Bool := true
  micKeySet : Bool := true

def rtwXmitframeCoalesce (env : TxEnv) (a : PktAttrib) (fragLen : ℤ) (payload : List UInt8) :
    Option TxLayout :=
  match env.bufAddr with
  | none => none
  | some buf =>
    if env.makeWlanhdr = false then none
    else
      let c := coalesceLoop a fragLen (payload.length + 1) 0 (buf + 32) {} payload
      if a.encrypt = .tkip then
        if env.micKeySet = false then none
        else
          let mic := micWalk a fragLen c.lastTxcmdsz c.frags.length (buf + 32)
          let last := c.lastTxcmdsz + 8
          some ⟨c.frags, last, some mic, xmitframeSwencrypt a fragLen last c.frags.length buf⟩
      else
        some ⟨c.frags, c.lastTxcmdsz, none,
          xmitframeSwencrypt a fragLen c.lastTxcmdsz c.frags.length buf⟩

/-- The bytes of the last fragment that `xmitframe_addmic` appends. -/
def micLen (a : PktAttrib) (f : Frag) : ℤ :=
  if f.hdr.mFrag = false ∧ a.encrypt = .tkip then 8 else 0

def bodySpan (a : PktAttrib) (f : Frag) : Span :=
  (f.memStart + a.hdrlen + a.ivLen, f.body.length)

def mpduLen (a : PktAttrib) (f : Frag) : ℤ :=
  a.hdrlen + a.ivLen + f.body.length + micLen a f + a.icvLen

def SwCipher (a : PktAttrib) : Prop :=
  a.bswenc = true ∧ (a.encrypt = .wep40 ∨ a.encrypt = .wep104 ∨ a.encrypt = .tkip ∨ a.encrypt = .aes)

/-- The fragments are those of the MSDU, no longer than the threshold and numbered
in order, and what is authenticated and encrypted is what was written. -/
structure LaidOut (a : PktAttrib) (fragLen : ℤ) (payload : List UInt8) (t : TxLayout) : Prop where
  bodies : (t.frags.map Frag.body).flatten = rtwPutSnap a.etherType ++ payload
  lengths : ∀ f ∈ t.frags, mpduLen a f ≤ fragLen
  numbers : t.frags.map (fun f => f.hdr.fragNum) = List.range t.frags.length
  more : t.frags.map (fun f => f.hdr.mFrag) = List.replicate (t.frags.length - 1) true ++ [false]
  mic : a.encrypt = .tkip → ∃ m, t.mic = some m ∧ m.spans = t.frags.map (bodySpan a) ∧
    ∀ f ∈ t.frags.getLast?, m.micAt = (bodySpan a f).1 + (bodySpan a f).2
  encrypted : SwCipher a →
    t.encrypted = t.frags.map fun f => ((bodySpan a f).1, (bodySpan a f).2 + micLen a f)

theorem rtwPutSnap_length (hProto : ℕ) : (rtwPutSnap hProto).length = 8 := by
  simp only [rtwPutSnap]
  split_ifs <;> rfl

theorem PktAttrib.swIcv_le (a : PktAttrib) : 0 ≤ a.swIcv ∧ a.swIcv ≤ 16 ∧ a.swIcv ≤ a.icvLen := by
  have hle : a.icvLen ≤ 16 ∧ 0 ≤ a.icvLen := by
    simp only [PktAttrib.icvLen]
    cases a.encrypt <;> decide
  simp only [swIcv]
  split_ifs <;> omega

theorem PktAttrib.ivLen_le (a : PktAttrib) : 0 ≤ a.ivLen ∧ a.ivLen ≤ 18 := by
  simp only [PktAttrib.ivLen]
  cases a.encrypt <;> decide

section Loop

variable {a : PktAttrib} {fragLen : ℤ}

/-- A threshold and a header that leave room in every fragment. -/
structure Sizes (a : PktAttrib) (fragLen : ℤ) : Prop where
  low : 256 ≤ fragLen
  high : fragLen ≤ 2346
  hdrlen : a.hdrlen ≤ 36

theorem mpduRoom_pos (h : Sizes a fragLen) {llc : List UInt8} (hllc : llc.length ≤ 8) :
    0 < mpduRoom a fragLen llc ∧ mpduRoom a fragLen llc < 2 ^ 32 := by
  have hiv := a.ivLen_le
  have hsw := a.swIcv_le
  have hlow := h.low
  have hhigh := h.high
  have hhdr := h.hdrlen
  simp only [mpduRoom]
  omega

def llcOf (a : PktAttrib) (frgInx : ℕ) : List UInt8 :=
  if frgInx = 0 then rtwPutSnap a.etherType else []

theorem llcOf_length_le (a : PktAttrib) (frgInx : ℕ) : (llcOf a frgInx).length ≤ 8 := by
  simp only [llcOf]
  split_ifs
  · rw [rtwPutSnap_length]
  · exact Nat.zero_le 8

def roomOf (a : PktAttrib) (fragLen : ℤ) (frgInx : ℕ) : ℕ :=
  (mpduRoom a fragLen (llcOf a frgInx)).toNat

/-- One round of the loop: the rest of the packet if it fits, else what fits. -/
theorem coalesceLoop_succ (h : Sizes a fragLen) (fuel frgInx : ℕ) (memStart : ℤ) (hdr : WlanHdr)
    (pkt : List UInt8) :
    coalesceLoop a fragLen (fuel + 1) frgInx memStart hdr pkt =
      if a.bmcst = true ∨ pkt.length ≤ roomOf a fragLen frgInx then
        { frags := [⟨memStart, { hdr with mFrag := false }, llcOf a frgInx ++ pkt⟩]
          lastTxcmdsz := a.hdrlen + a.ivLen + (llcOf a frgInx).length + a.swIcv + pkt.length }
      else
        let next := coalesceLoop a fragLen fuel (frgInx + 1)
          (rnd4 (memStart + a.hdrlen + a.ivLen + (llcOf a frgInx).length +
            roomOf a fragLen frgInx + a.swIcv) + 32) { hdr with mFrag := true }
          (pkt.drop (roomOf a fragLen frgInx))
        { next with frags := ⟨memStart, { hdr with mFrag := true },
            llcOf a frgInx ++ pkt.take (roomOf a fragLen frgInx)⟩ :: next.frags } := by
  obtain ⟨hpos, hlt⟩ := mpduRoom_pos h (llcOf_length_le a frgInx)
  have hread : pktfileRead pkt (mpduRoom a fragLen (llcOf a frgInx)) =
      pkt.take (roomOf a fragLen frgInx) := by
    rw [pktfileRead, Int.emod_eq_of_lt (by omega) hlt, roomOf]
  have hllc : (if frgInx = 0 then (llcOf a frgInx).length else 0) = (llcOf a frgInx).length := by
    simp only [llcOf]
    split_ifs <;> rfl
  simp only [coalesceLoop, ← llcOf.eq_def, hread, hllc]
  by_cases hb : a.bmcst = true
  · simp [hb]
  · simp only [hb, Bool.false_eq_true, if_false, Bool.false_or, false_or]
    by_cases hfit : pkt.length ≤ roomOf a fragLen frgInx
    · rw [List.take_of_length_le hfit]
      simp [hfit]
    · have hcut : (pkt.take (roomOf a fragLen frgInx)).length = roomOf a fragLen frgInx := by
        rw [List.length_take]
        omega
      have hrest : (pkt.drop (roomOf a fragLen frgInx)).isEmpty = false := by
        rw [List.isEmpty_eq_false_iff, ne_eq, List.drop_eq_nil_iff]
        exact hfit
      rw [hcut, hrest]
      simp only [hfit, if_false, Bool.false_eq_true]

theorem roomOf_pos (h : Sizes a fragLen) (frgInx : ℕ) : 0 < roomOf a fragLen frgInx := by
  have hpos := (mpduRoom_pos h (llcOf_length_le a frgInx)).1
  simp only [roomOf]
  omega

theorem coalesceLoop_bodies (h : Sizes a fragLen) {fuel : ℕ} (frgInx : ℕ) (memStart : ℤ)
    (hdr : WlanHdr) {pkt : List UInt8} (hfuel : pkt.length < fuel) :
    ((coalesceLoop a fragLen fuel frgInx memStart hdr pkt).frags.map Frag.body).flatten =
      llcOf a frgInx ++ pkt := by
  induction fuel generalizing frgInx memStart hdr pkt with
  | zero => omega
  | succ fuel ih =>
    have hpos := roomOf_pos h frgInx
    rw [coalesceLoop_succ h]
    split_ifs with hlast
    · simp
    · rw [not_or] at hlast
      have hrest : (pkt.drop (roomOf a fragLen frgInx)).length < fuel := by
        rw [List.length_drop]
        omega
      simp only [List.map_cons, List.flatten_cons, ih _ _ _ hrest]
      simp [llcOf]

theorem coalesceLoop_more (h : Sizes a fragLen) {fuel : ℕ} (frgInx : ℕ) (memStart : ℤ)
    (hdr : WlanHdr) {pkt : List UInt8} (hfuel : pkt.length < fuel) :
    let l := (coalesceLoop a fragLen fuel frgInx memStart hdr pkt).frags
    l ≠ [] ∧ l.map (fun f => f.hdr.mFrag) = List.replicate (l.length - 1) true ++ [false] := by
  induction fuel generalizing frgInx memStart hdr pkt with
  | zero => omega
  | succ fuel ih =>
    have hpos := roomOf_pos h frgInx
    rw [coalesceLoop_succ h]
    split_ifs with hlast
    · simp
    · rw [not_or] at hlast
      have hrest : (pkt.drop (roomOf a fragLen frgInx)).length < fuel := by
        rw [List.length_drop]
        omega
      obtain ⟨hne, hmore⟩ := ih (frgInx + 1)
        (rnd4 (memStart + a.hdrlen + a.ivLen + (llcOf a frgInx).length +
            roomOf a fragLen frgInx + a.swIcv) + 32) { hdr with mFrag := true } hrest
      refine ⟨List.cons_ne_nil _ _, ?_⟩
      have hlen := List.length_pos_of_ne_nil hne
      simp only [List.map_cons, hmore, List.length_cons, Nat.add_sub_cancel]
      rw [← List.cons_append, ← List.replicate_succ, Nat.sub_add_cancel hlen]

theorem coalesceLoop_fragNum (h : Sizes a fragLen) (fuel frgInx : ℕ) (memStart : ℤ)
    (hdr : WlanHdr) (pkt : List UInt8) :
    ∀ f ∈ (coalesceLoop a fragLen fuel frgInx memStart hdr pkt).frags,
      f.hdr.fragNum = hdr.fragNum := by
  induction fuel generalizing frgInx memStart hdr pkt with
  | zero => simp [coalesceLoop]
  | succ fuel ih =>
    rw [coalesceLoop_succ h]
    split_ifs with hlast
    · simp
    · intro f hf
      rcases List.mem_cons.mp hf with rfl | hf
      · rfl
      · have hnum := ih _ _ _ _ f hf
        exact hnum

def OneFragment (a : PktAttrib) (fragLen : ℤ) (payload : List UInt8) : Prop :=
  a.bmcst = true ∨ a.hdrlen + a.ivLen + 8 + payload.length + a.swIcv ≤ fragLen - 4

def FitsOne (a : PktAttrib) (fragLen : ℤ) (payload : List UInt8) : Prop :=
  a.hdrlen + a.ivLen + 8 + payload.length + (if a.encrypt = .tkip then 8 else 0) + a.icvLen ≤
    fragLen

theorem le_roomOf_iff (h : Sizes a fragLen) (payload : List UInt8) :
    payload.length ≤ roomOf a fragLen 0 ↔
      a.hdrlen + a.ivLen + 8 + payload.length + a.swIcv ≤ fragLen - 4 := by
  have hllc : ((llcOf a 0).length : ℤ) = 8 := by
    simp only [llcOf, if_true, rtwPutSnap_length]
    rfl
  have hpos := (mpduRoom_pos h (llcOf_length_le a 0)).1
  simp only [roomOf, mpduRoom, hllc] at hpos ⊢
  omega

theorem coalesceLoop_one (h : Sizes a fragLen) {payload : List UInt8}
    (hone : OneFragment a fragLen payload) (memStart : ℤ) :
    coalesceLoop a fragLen (payload.length + 1) 0 memStart {} payload =
      { frags := [⟨memStart, {}, rtwPutSnap a.etherType ++ payload⟩]
        lastTxcmdsz := a.hdrlen + a.ivLen + 8 + a.swIcv + payload.length } := by
  rw [OneFragment, ← le_roomOf_iff h] at hone
  rw [coalesceLoop_succ h, if_pos hone]
  simp [llcOf, rtwPutSnap_length]

theorem coalesceLoop_numbers (h : Sizes a fragLen) {payload : List UInt8} {memStart : ℤ}
    (hnum : let l := (coalesceLoop a fragLen (payload.length + 1) 0 memStart {} payload).frags
      l.map (fun f => f.hdr.fragNum) = List.range l.length) : OneFragment a fragLen payload := by
  by_contra hmany
  rw [OneFragment, ← le_roomOf_iff h] at hmany
  have hzero := coalesceLoop_fragNum h (payload.length + 1) 0 memStart {} payload
  rw [coalesceLoop_succ h, if_neg hmany] at hnum hzero
  rw [not_or, not_le] at hmany
  have hpos := roomOf_pos h 0
  have hrest : (payload.drop (roomOf a fragLen 0)).length < payload.length := by
    rw [List.length_drop]
    omega
  have hne := (coalesceLoop_more h (0 + 1)
    (rnd4 (memStart + a.hdrlen + a.ivLen + (llcOf a 0).length + roomOf a fragLen 0 + a.swIcv) + 32)
    { mFrag := true } hrest).1
  have hlen := List.length_pos_of_ne_nil hne
  simp only [List.length_cons] at hnum
  have hone : 1 ∈ List.range (_ + 1) := List.mem_range.mpr (Nat.succ_lt_succ hlen)
  rw [← hnum, List.mem_map] at hone
  obtain ⟨f, hf, hf1⟩ := hone
  exact Nat.one_ne_zero (hf1.symm.trans (hzero f hf))

end Loop

section Layout

variable {env : TxEnv} {a : PktAttrib} {fragLen buf : ℤ} {payload : List UInt8} {t : TxLayout}

theorem rtwXmitframeCoalesce_some (henv : env.bufAddr = some buf)
    (ht : rtwXmitframeCoalesce env a fragLen payload = some t) :
    let c := coalesceLoop a fragLen (payload.length + 1) 0 (buf + 32) {} payload
    t.frags = c.frags ∧
      t.lastTxcmdsz = c.lastTxcmdsz + (if a.encrypt = .tkip then 8 else 0) ∧
      (a.encrypt = .tkip →
        t.mic = some (micWalk a fragLen c.lastTxcmdsz c.frags.length (buf + 32))) ∧
      t.encrypted = xmitframeSwencrypt a fragLen t.lastTxcmdsz c.frags.length buf := by
  simp only [rtwXmitframeCoalesce, henv] at ht
  split_ifs at ht with hhdr htkip hkey
  · obtain rfl := Option.some.inj ht
    exact ⟨rfl, by rw [if_pos htkip], fun _ => rfl, rfl⟩
  · obtain rfl := Option.some.inj ht
    refine ⟨rfl, ?_, fun h => absurd h htkip, rfl⟩
    rw [if_neg htkip, Int.add_zero]

theorem xmitframeSwencrypt_cipher (h : SwCipher a) (last : ℤ) (n : ℕ) :
    xmitframeSwencrypt a fragLen last n buf = encryptWalk a fragLen last n (buf + 32) := by
  obtain ⟨hsw, henc | henc | henc | henc⟩ := h <;>
    simp [xmitframeSwencrypt, hsw, henc, rtwWepEncrypt, rtwTkipEncrypt, rtwAesEncrypt]

theorem rnd4_of_dvd {x : ℤ} (h : 4 ∣ x) : rnd4 x = x := by
  simp only [rnd4]
  rw [if_pos (Int.emod_eq_zero_of_dvd h)]
  omega

theorem laidOut_one (h : Sizes a fragLen) (hbuf : 4 ∣ buf) (henv : env.bufAddr = some buf)
    (ht : rtwXmitframeCoalesce env a fragLen payload = some t)
    (hone : OneFragment a fragLen payload) (hfits : FitsOne a fragLen payload) :
    LaidOut a fragLen payload t := by
  obtain ⟨hfrags, hlast, hmic, henc⟩ := rtwXmitframeCoalesce_some henv ht
  rw [coalesceLoop_one h hone] at hfrags hlast hmic henc
  have hlen : ((rtwPutSnap a.etherType ++ payload).length : ℤ) = 8 + payload.length := by
    rw [List.length_append, rtwPutSnap_length]
    rfl
  have hal : rnd4 (buf + 32) = buf + 32 := rnd4_of_dvd (by omega)
  constructor
  · simp [hfrags]
  · intro f hf
    rw [hfrags, List.mem_singleton] at hf
    subst hf
    simp only [mpduLen, micLen, true_and, hlen]
    simp only [FitsOne] at hfits
    omega
  · simp [hfrags]
  · simp [hfrags]
  · intro htkip
    refine ⟨_, hmic htkip, ?_, ?_⟩
    · simp only [hfrags, List.length_singleton, micWalk, if_true, hal, List.map_cons, List.map_nil,
        bodySpan, hlen]
      congr 2
      omega
    · simp only [hfrags, List.getLast?_singleton, Option.mem_some_iff, forall_eq',
        List.length_singleton, micWalk, if_true, hal, bodySpan, hlen]
      omega
  · intro hsw
    have hicv : a.swIcv = a.icvLen := by simp only [PktAttrib.swIcv, hsw.1, if_true]
    rw [henc, xmitframeSwencrypt_cipher hsw, hlast]
    simp only [hfrags, List.length_singleton, encryptWalk, if_true, List.map_cons, List.map_nil,
      bodySpan, micLen, true_and, hlen, hicv, List.cons.injEq, Prod.mk.injEq, and_true]
    constructor
    · omega
    · omega

/-- For every MSDU that is not refused: the layout is right exactly when the MSDU
goes out in one fragment within the threshold. -/
theorem rtwXmitframeCoalesce_laidOut_iff (env : TxEnv) (h : Sizes a fragLen)
    (henv : env.bufAddr = some buf) (hbuf : 4 ∣ buf)
    (ht : rtwXmitframeCoalesce env a fragLen payload = some t) :
    LaidOut a fragLen payload t ↔ OneFragment a fragLen payload ∧ FitsOne a fragLen payload := by
  constructor
  · intro hl
    have hfrags := (rtwXmitframeCoalesce_some henv ht).1
    have hnum := hl.numbers
    rw [hfrags] at hnum
    have hone := coalesceLoop_numbers h hnum
    rw [coalesceLoop_one h hone] at hfrags
    have hlen := hl.lengths ⟨buf + 32, {}, rtwPutSnap a.etherType ++ payload⟩ (by rw [hfrags]; simp)
    refine ⟨hone, ?_⟩
    simp only [mpduLen, micLen, true_and, List.length_append, rtwPutSnap_length] at hlen
    simp only [FitsOne]
    omega
  · intro hfit
    exact laidOut_one h hbuf henv ht hfit.1 hfit.2

end Layout

def aesSw : PktAttrib where
  encrypt := .aes
  bswenc := true

theorem rtwXmitframeCoalesce_laidOut_three :
    ∃ t, rtwXmitframeCoalesce { bufAddr := some 512 } aesSw 256 [1, 2, 3] = some t ∧
      LaidOut aesSw 256 [1, 2, 3] t :=
  ⟨_, rfl, (rtwXmitframeCoalesce_laidOut_iff { bufAddr := some 512 }
    ⟨by decide, by decide, by decide⟩ rfl (by decide) rfl).mpr
    ⟨Or.inr (by decide), by simp only [FitsOne]; decide⟩⟩

set_option maxRecDepth 4000 in
/-- Two fragments: both have the number 0, and the encryption starts 28 bytes before
the second body and runs 4 bytes past the first. -/
theorem second_fragment_misplaced :
    let payload : List UInt8 := List.replicate 210 0
    ∃ t, rtwXmitframeCoalesce { bufAddr := some 512 } aesSw 256 payload = some t ∧
      t.frags.map (fun f => f.hdr.fragNum) = [0, 0] ∧
      t.frags.map (bodySpan aesSw) = [(576, 212), (860, 6)] ∧
      t.encrypted = [(576, 216), (832, 6)] ∧ ¬ LaidOut aesSw 256 payload t := by
  refine ⟨_, rfl, by decide, by decide, by decide, fun h => ?_⟩
  have hnum := h.numbers
  revert hnum
  decide

end Rtl8189.Coalesce
