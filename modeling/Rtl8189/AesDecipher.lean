import Mathlib.Algebra.Group.Int.Defs
import Mathlib.Data.Int.Basic
import Mathlib.Data.Nat.Basic
import Rtl8189.BlockModes
import Rtl8189.RecvFrame

/-!
# Software decryption of CCMP

`aes_decipher` decrypts in place, copies the frame to the buffer `message`, and there
computes the MIC and encrypts the frame again. The buffer keeps its contents from call
to call, and takes frames of at most `MAX_MSG_SIZE` bytes.
-/
namespace Rtl8189.AesDecipher

open BlockModes

/-- Conversion to `uint`. -/
def u32 (n : ℤ) : ℕ := (n % 2 ^ 32).toNat

theorem u32_natCast {n : ℕ} (h : n < 2 ^ 32) : u32 n = n := by
  rw [u32]
  omega

def wlanHdrA3QosLen : ℕ := 26

def wlanHdrA4QosLen : ℕ := 32

def maxMsgSize : ℕ := 2048

/-! ## Header blocks -/

def pnVector (pframe : Mem) (hdrlen : ℕ) : List UInt8 :=
  [0, 1, 4, 5, 6, 7].map fun k => pframe (hdrlen + k)

/-- How a frame is read: whether it has a fourth address and a QoS field, and
whether it is a management frame. -/
structure Layout where
  a4Exists : Bool
  qcExists : Bool
  mgt : Bool
  deriving DecidableEq

/-- The test for the CF subtypes compares them with a nibble, and never holds. -/
def layoutOf (pframe : Mem) (hdrlen : ℕ) : Layout where
  a4Exists := hdrlen ≠ 24 ∧ hdrlen ≠ wlanHdrA3QosLen
  qcExists := (pframe 0).toNat / 4 % 4 = 2 ∧ (pframe 0).toNat / 16 ∈ [8, 9, 10, 11]
  mgt := (pframe 0).toNat / 4 % 4 = 0

def priorityByte (lay : Layout) (mpdu : Mem) : UInt8 :=
  (if lay.qcExists then mpdu (if lay.a4Exists then 30 else 24) &&& 0x0f else 0) |||
    if lay.mgt then 0x10 else 0

def constructMicIv (lay : Layout) (mpdu : Mem) (payloadLength : ℕ) (pn : List UInt8) : Block :=
  fun i =>
    if i.val = 0 then 0x59
    else if i.val = 1 then priorityByte lay mpdu
    else if i.val < 8 then mpdu (i + 8)
    else if i.val < 14 then pn.getD (13 - i) 0
    else if i.val = 14 then UInt8.ofNat (payloadLength / 256)
    else UInt8.ofNat (payloadLength % 256)

def constructMicHeader1 (lay : Layout) (headerLength : ℕ) (mpdu : Mem) : Block := fun i =>
  if i.val = 0 then UInt8.ofNat ((headerLength - 2) / 256)
  else if i.val = 1 then UInt8.ofNat ((headerLength - 2) % 256)
  else if i.val = 2 then if lay.mgt then mpdu 0 else mpdu 0 &&& 0xcf
  else if i.val = 3 then mpdu 1 &&& 0xc7
  else mpdu i

def constructMicHeader2 (lay : Layout) (mpdu : Mem) : Block := fun i =>
  if i.val < 6 then mpdu (16 + i)
  else if i.val < 8 then 0
  else if lay.a4Exists then
    if i.val < 14 then mpdu (16 + i)
    else if i.val = 14 ∧ lay.qcExists then mpdu 30 &&& 0x0f
    else 0
  else if i.val = 8 ∧ lay.qcExists then mpdu 24 &&& 0x0f
  else 0

def constructCtrPreload (lay : Layout) (mpdu : Mem) (pn : List UInt8) (c : ℕ) : Block := fun i =>
  if i.val = 0 then 1
  else if i.val = 1 then priorityByte lay mpdu
  else if i.val < 8 then mpdu (i + 8)
  else if i.val < 14 then pn.getD (13 - i) 0
  else if i.val = 14 then UInt8.ofNat (c / 256)
  else UInt8.ofNat (c % 256)

/-! ## Decryption -/

structure Deciphered where
  pframe : Mem
  message : Mem
  res : Bool

/-- `enc` is `aes128k128d` with the key. -/
def aesDecipher (enc : Block → Block) (message : Mem) (hdrlen : ℕ) (pframe : Mem) (plen : ℕ) :
    Deciphered :=
  let lay := layoutOf pframe hdrlen
  let size := u32 (plen - 8)
  let pn := pnVector pframe hdrlen
  let hdrlen :=
    if lay.qcExists ∧ hdrlen ≠ wlanHdrA3QosLen ∧ hdrlen ≠ wlanHdrA4QosLen then hdrlen + 2
    else hdrlen
  let p := hdrlen + 8
  let pframe := crypt (fun m c => enc (constructCtrPreload lay m pn c)) pframe p size
  let message := fun k =>
    if u32 (hdrlen + plen + 8) ≤ maxMsgSize ∧ k < hdrlen + plen + 8 then pframe k else message k
  let pn := pnVector pframe hdrlen
  let out := enc (constructMicIv lay message size pn)
  let out := enc (xorBlock out (constructMicHeader1 lay hdrlen message))
  let out := enc (xorBlock out (constructMicHeader2 lay message))
  let mic := chain enc message p size out
  let message := write message (p + size) 8 mic
  let message := crypt (fun m c => enc (constructCtrPreload lay m pn c)) message p size
  -- the MIC is encrypted with counter 0
  let out := enc (constructCtrPreload lay message pn 0)
  let message := write message (p + size) 8
    (xorBlock out (padded message (u32 (hdrlen + plen)) 8))
  { pframe
    message
    res := (List.range 8).all fun i =>
      pframe (u32 (hdrlen + plen) + i) = message (u32 (hdrlen + plen) + i) }

def micOf (enc : Block → Block) (lay : Layout) (hdrlen : ℕ) (m : Mem) (plen : ℕ) : Block :=
  cbcMac enc
    (constructMicHeader1 lay hdrlen m :: constructMicHeader2 lay m ::
      paddedBlocks (bytesAt m (hdrlen + 8) (plen - 8)))
    (enc (constructMicIv lay m (plen - 8) (pnVector m hdrlen)))

def sentMic (enc : Block → Block) (lay : Layout) (hdrlen : ℕ) (m : Mem) (plen i : ℕ) : UInt8 :=
  enc (constructCtrPreload lay m (pnVector m hdrlen) 0) (Fin.ofNat 16 i) ^^^ m (hdrlen + plen + i)

def MicOk (enc : Block → Block) (lay : Layout) (hdrlen : ℕ) (m : Mem) (plen : ℕ) : Prop :=
  ∀ i < 8, sentMic enc lay hdrlen m plen i = micOf enc lay hdrlen m plen (Fin.ofNat 16 i)

variable {m m' : Mem} {hdrlen : ℕ}

/-! ## Frames with the same header -/

theorem priorityByte_congr (h : ∀ k < 32, m' k = m k) (lay : Layout) :
    priorityByte lay m' = priorityByte lay m := by
  simp only [priorityByte]
  rw [h _ (by split <;> omega)]

theorem constructCtrPreload_congr (h : ∀ k < 32, m' k = m k) (lay : Layout) (pn : List UInt8)
    (c : ℕ) : constructCtrPreload lay m' pn c = constructCtrPreload lay m pn c := by
  funext i
  have hi := i.isLt
  simp only [constructCtrPreload, priorityByte_congr h, h (i + 8) (by omega)]

theorem constructMicIv_congr (h : ∀ k < 32, m' k = m k) (lay : Layout) (n : ℕ)
    (pn : List UInt8) : constructMicIv lay m' n pn = constructMicIv lay m n pn := by
  funext i
  have hi := i.isLt
  simp only [constructMicIv, priorityByte_congr h, h (i + 8) (by omega)]

theorem constructMicHeader1_congr (h : ∀ k < 32, m' k = m k) (lay : Layout) (n : ℕ) :
    constructMicHeader1 lay n m' = constructMicHeader1 lay n m := by
  funext i
  have hi := i.isLt
  simp only [constructMicHeader1, h 0 (by omega), h 1 (by omega), h i (by omega)]

theorem constructMicHeader2_congr (h : ∀ k < 32, m' k = m k) (lay : Layout) :
    constructMicHeader2 lay m' = constructMicHeader2 lay m := by
  funext i
  have hi := i.isLt
  simp only [constructMicHeader2, h (16 + i) (by omega), h 24 (by omega), h 30 (by omega)]

theorem pnVector_congr (h : ∀ k < hdrlen + 8, m' k = m k) :
    pnVector m' hdrlen = pnVector m hdrlen := by
  apply List.map_congr_left
  intro k hk
  apply h
  simp only [List.mem_cons, List.not_mem_nil, or_false] at hk
  omega

theorem MicOk.congr {enc : Block → Block} {lay : Layout} {plen : ℕ} (hhdrlen : 24 ≤ hdrlen)
    (hplen : 8 ≤ plen) (h : ∀ k < hdrlen + plen + 8, m' k = m k)
    (hok : MicOk enc lay hdrlen m plen) : MicOk enc lay hdrlen m' plen := by
  have hheader : ∀ k < 32, m' k = m k := fun k hk => h k (by omega)
  have hpn : pnVector m' hdrlen = pnVector m hdrlen := pnVector_congr fun k hk => h k (by omega)
  have hbytes : bytesAt m' (hdrlen + 8) (plen - 8) = bytesAt m (hdrlen + 8) (plen - 8) :=
    bytesAt_congr fun k _ hk => h k (by omega)
  have hmac : micOf enc lay hdrlen m' plen = micOf enc lay hdrlen m plen := by
    simp only [micOf, hpn, hbytes, constructMicIv_congr hheader,
      constructMicHeader1_congr hheader, constructMicHeader2_congr hheader]
  intro i hi
  rw [hmac, ← hok i hi]
  simp only [sentMic, hpn, constructCtrPreload_congr hheader, h (hdrlen + plen + i) (by omega)]

theorem preload_readsBelow (enc : Block → Block) (lay : Layout) (pn : List UInt8) {p : ℕ}
    (hp : 32 ≤ p) : ReadsBelow (fun m c => enc (constructCtrPreload lay m pn c)) p := by
  intro m m' h c
  have hbelow : ∀ k < 32, m' k = m k := fun k hk => h k (by omega)
  simp only [constructCtrPreload_congr hbelow]

/-! ## The check -/

/-- The frame has a MIC, fits into `message`, and its header has the length that its
type asks for. -/
structure Fits (hdrlen : ℕ) (pframe : Mem) (plen : ℕ) : Prop where
  header : 24 ≤ hdrlen
  mic : 8 ≤ plen
  size : hdrlen + plen + 8 ≤ maxMsgSize
  qos : (layoutOf pframe hdrlen).qcExists = true →
    hdrlen = wlanHdrA3QosLen ∨ hdrlen = wlanHdrA4QosLen

/-- The header has the length that its type asks for, whatever comes behind it. -/
structure Shaped (hdrlen : ℕ) (pframe : Mem) : Prop where
  header : 24 ≤ hdrlen
  qos : (layoutOf pframe hdrlen).qcExists = true →
    hdrlen = wlanHdrA3QosLen ∨ hdrlen = wlanHdrA4QosLen

variable {enc : Block → Block} {message pframe : Mem} {plen : ℕ}

theorem Fits.shaped (h : Fits hdrlen pframe plen) : Shaped hdrlen pframe := ⟨h.header, h.qos⟩

theorem Shaped.hdrlen_eq (h : Shaped hdrlen pframe) :
    (if (layoutOf pframe hdrlen).qcExists = true ∧ hdrlen ≠ wlanHdrA3QosLen ∧
      hdrlen ≠ wlanHdrA4QosLen then hdrlen + 2 else hdrlen) = hdrlen := by
  rw [if_neg]
  rintro ⟨hqos, hthree, hfour⟩
  exact (h.qos hqos).elim hthree hfour

theorem Fits.u32_eq (h : Fits hdrlen pframe plen) :
    u32 (plen - 8) = plen - 8 ∧ u32 (hdrlen + plen) = hdrlen + plen ∧
      u32 (hdrlen + plen + 8) = hdrlen + plen + 8 := by
  have hsize := h.size
  have hmic := h.mic
  simp only [maxMsgSize] at hsize
  simp only [u32]
  omega

def plainFrame (enc : Block → Block) (hdrlen : ℕ) (pframe : Mem) (plen : ℕ) : Mem :=
  crypt (fun m c => enc (constructCtrPreload (layoutOf pframe hdrlen) m
    (pnVector pframe hdrlen) c)) pframe (hdrlen + 8) (plen - 8)

theorem aesDecipher_pframe (h : Shaped hdrlen pframe) (hmic : 8 ≤ plen) (hsize : plen < 2 ^ 32) :
    (aesDecipher enc message hdrlen pframe plen).pframe = plainFrame enc hdrlen pframe plen := by
  have hu : u32 (plen - 8) = plen - 8 := by
    rw [u32]
    omega
  simp only [aesDecipher, h.hdrlen_eq, hu]
  rfl

theorem Fits.pframe_eq (h : Fits hdrlen pframe plen) :
    (aesDecipher enc message hdrlen pframe plen).pframe = plainFrame enc hdrlen pframe plen := by
  have hsize := h.size
  rw [maxMsgSize] at hsize
  exact aesDecipher_pframe h.shaped h.mic (by omega)

theorem plainFrame_of_out (hthree : 24 ≤ hdrlen) (hmic : 8 ≤ plen) {k : ℕ}
    (hk : k < hdrlen + 8 ∨ hdrlen + plen ≤ k) : plainFrame enc hdrlen pframe plen k = pframe k := by
  apply crypt_of_out (preload_readsBelow enc _ _ (by omega))
  omega

theorem message_mic (hthree : 24 ≤ hdrlen) (hmic : 8 ≤ plen) (lay : Layout) (pn : List UInt8) (m : Mem)
    (mic : Block) {i : ℕ} (hi : i < 8) :
    let ks := fun m c => enc (constructCtrPreload lay m pn c)
    let m₁ := write m (hdrlen + plen) 8 mic
    let m₂ := crypt ks m₁ (hdrlen + 8) (plen - 8)
    write m₂ (hdrlen + plen) 8 (xorBlock (ks m₂ 0) (padded m₂ (hdrlen + plen) 8))
        (hdrlen + plen + i) = ks m 0 (Fin.ofNat 16 i) ^^^ mic (Fin.ofNat 16 i) := by
  intro ks m₁ m₂
  have hreads : ReadsBelow ks (hdrlen + 8) := preload_readsBelow enc lay pn (by omega)
  have hout : ∀ k, ¬ (hdrlen + 8 ≤ k ∧ k < hdrlen + 8 + (plen - 8)) → m₂ k = m₁ k :=
    fun k hk => crypt_of_out hreads hk
  have hbelow : ∀ k < hdrlen + 8, m₂ k = m k := by
    intro k hk
    rw [hout k (by omega)]
    exact write_of_out mic (by omega)
  have hfield : m₂ (hdrlen + plen + i) = mic (Fin.ofNat 16 i) := by
    rw [hout _ (by omega)]
    simp only [m₁, write]
    rw [if_pos (by omega), Nat.add_sub_cancel_left]
  rw [write, if_pos (by omega), Nat.add_sub_cancel_left, xorBlock, padded, ofNat_val (by omega),
    if_pos hi, hfield, hreads m m₂ hbelow]

theorem aesDecipher_message (h : Fits hdrlen pframe plen) {i : ℕ} (hi : i < 8) :
    (aesDecipher enc message hdrlen pframe plen).message (hdrlen + plen + i) =
      enc (constructCtrPreload (layoutOf pframe hdrlen) (plainFrame enc hdrlen pframe plen)
          (pnVector (plainFrame enc hdrlen pframe plen) hdrlen) 0) (Fin.ofNat 16 i) ^^^
        micOf enc (layoutOf pframe hdrlen) hdrlen (plainFrame enc hdrlen pframe plen) plen
          (Fin.ofNat 16 i) := by
  have hthree := h.header
  have hmic := h.mic
  have hend : hdrlen + 8 + (plen - 8) = hdrlen + plen := by omega
  have hsize : u32 (hdrlen + plen + 8) ≤ maxMsgSize := h.u32_eq.2.2 ▸ h.size
  simp only [aesDecipher, h.shaped.hdrlen_eq, h.u32_eq.1, h.u32_eq.2.1, hsize, true_and, hend]
  rw [← plainFrame]
  generalize plainFrame enc hdrlen pframe plen = m
  generalize layoutOf pframe hdrlen = lay
  -- the copy of the frame has its header and its plaintext
  generalize hdef : (fun k => if k < hdrlen + plen + 8 then m k else message k) = copy
  have hcopy : ∀ k < hdrlen + plen + 8, copy k = m k := by
    intro k hk
    rw [← hdef]
    exact if_pos hk
  have hheader : ∀ k < 32, copy k = m k := fun k hk => hcopy k (by omega)
  have hbytes : bytesAt copy (hdrlen + 8) (plen - 8) = bytesAt m (hdrlen + 8) (plen - 8) :=
    bytesAt_congr fun k _ hk => hcopy k (by omega)
  have hmac : chain enc copy (hdrlen + 8) (plen - 8)
      (enc (xorBlock (enc (xorBlock (enc (constructMicIv lay copy (plen - 8)
        (pnVector m hdrlen))) (constructMicHeader1 lay hdrlen copy)))
        (constructMicHeader2 lay copy))) = micOf enc lay hdrlen m plen := by
    rw [chain_eq, hbytes, constructMicIv_congr hheader, constructMicHeader1_congr hheader,
      constructMicHeader2_congr hheader]
    rfl
  rw [hmac]
  refine (message_mic hthree hmic lay (pnVector m hdrlen) copy _ hi).trans ?_
  simp only [constructCtrPreload_congr hheader]

/-- A frame that fits is accepted if and only if its MIC is right. -/
theorem aesDecipher_res (h : Fits hdrlen pframe plen) :
    (aesDecipher enc message hdrlen pframe plen).res = true ↔
      MicOk enc (layoutOf pframe hdrlen) hdrlen (plainFrame enc hdrlen pframe plen) plen := by
  have hres : (aesDecipher enc message hdrlen pframe plen).res = (List.range 8).all fun i =>
      (aesDecipher enc message hdrlen pframe plen).pframe (u32 (hdrlen + plen) + i) =
        (aesDecipher enc message hdrlen pframe plen).message (u32 (hdrlen + plen) + i) := by
    simp only [aesDecipher, h.shaped.hdrlen_eq]
  rw [hres, List.all_eq_true, h.pframe_eq, h.u32_eq.2.1]
  apply forall_congr'
  intro i
  simp only [List.mem_range, decide_eq_true_eq]
  apply forall_congr'
  intro hi
  rw [aesDecipher_message h hi, sentMic]
  constructor
  · intro hfield
    rw [hfield, ← UInt8.xor_assoc, UInt8.xor_self, UInt8.zero_xor]
  · intro hmac
    rw [← hmac, ← UInt8.xor_assoc, UInt8.xor_self, UInt8.zero_xor]

end Rtl8189.AesDecipher
