import Rtl8189.AesDecipher

/-!
# Software encryption of CCMP

`aes_cipher` chains the MIC behind the payload and encrypts both in place, for payloads
of any length. `aes_decipher` undoes it where the frame fits into the buffer `message`.
-/
namespace Rtl8189.AesCipher

open AesDecipher BlockModes

/-- `enc` is `aes128k128d` with the key, `plen` the payload without its MIC. -/
def aesCipher (enc : Block → Block) (hdrlen : ℕ) (pframe : Mem) (plen : ℕ) : Mem :=
  let lay := layoutOf pframe hdrlen
  let hdrlen :=
    if lay.qcExists ∧ hdrlen ≠ wlanHdrA3QosLen ∧ hdrlen ≠ wlanHdrA4QosLen then hdrlen + 2
    else hdrlen
  let pn := pnVector pframe hdrlen
  let out := enc (constructMicIv lay pframe plen pn)
  let out := enc (xorBlock out (constructMicHeader1 lay hdrlen pframe))
  let out := enc (xorBlock out (constructMicHeader2 lay pframe))
  let p := hdrlen + 8
  let mic := chain enc pframe p plen out
  let pframe := write pframe (p + plen) 8 mic
  let pframe := crypt (fun m c => enc (constructCtrPreload lay m pn c)) pframe p plen
  -- the MIC is encrypted with counter 0
  let out := enc (constructCtrPreload lay pframe pn 0)
  write pframe (p + plen) 8 (xorBlock out (padded pframe (hdrlen + 8 + plen) 8))

variable {enc : Block → Block} {message pframe : Mem} {hdrlen plen : ℕ}

def frameKs (enc : Block → Block) (pframe : Mem) (hdrlen : ℕ) : Mem → ℕ → Block := fun m c =>
  enc (constructCtrPreload (layoutOf pframe hdrlen) m (pnVector pframe hdrlen) c)

theorem frameKs_readsBelow (enc : Block → Block) (h : Shaped hdrlen pframe) :
    ReadsBelow (frameKs enc pframe hdrlen) (hdrlen + 8) := by
  have hthree := h.header
  exact preload_readsBelow enc _ _ (by omega)

theorem aesCipher_apply (h : Shaped hdrlen pframe) {k : ℕ}
    (hk : ¬ (hdrlen + 8 + plen ≤ k ∧ k < hdrlen + 8 + plen + 8)) :
    aesCipher enc hdrlen pframe plen k =
      crypt (frameKs enc pframe hdrlen) pframe (hdrlen + 8) plen k := by
  have hreads := frameKs_readsBelow enc h
  simp only [aesCipher, h.hdrlen_eq]
  rw [write_of_out _ hk]
  change crypt (frameKs enc pframe hdrlen) _ _ _ k = _
  by_cases hin : k < hdrlen + 8 + plen
  · exact crypt_congr hreads (fun j hj => write_of_out _ (by omega)) hin
  · rw [crypt_of_out hreads (by omega), crypt_of_out hreads (by omega), write_of_out _ hk]

theorem aesCipher_mic (h : Shaped hdrlen pframe) {i : ℕ} (hi : i < 8) :
    aesCipher enc hdrlen pframe plen (hdrlen + (plen + 8) + i) =
      frameKs enc pframe hdrlen pframe 0 (Fin.ofNat 16 i) ^^^
        micOf enc (layoutOf pframe hdrlen) hdrlen pframe (plen + 8) (Fin.ofNat 16 i) := by
  have hend : hdrlen + 8 + plen = hdrlen + (plen + 8) := by omega
  have hmac : chain enc pframe (hdrlen + 8) plen
      (enc (xorBlock (enc (xorBlock (enc (constructMicIv (layoutOf pframe hdrlen) pframe plen
        (pnVector pframe hdrlen))) (constructMicHeader1 (layoutOf pframe hdrlen) hdrlen pframe)))
        (constructMicHeader2 (layoutOf pframe hdrlen) pframe))) =
      micOf enc (layoutOf pframe hdrlen) hdrlen pframe (plen + 8) := by
    rw [chain_eq]
    rfl
  simp only [aesCipher, h.hdrlen_eq, hend, hmac]
  exact message_mic h.header (by omega) (layoutOf pframe hdrlen) (pnVector pframe hdrlen) pframe _ hi

theorem aesCipher_header (enc : Block → Block) (plen : ℕ)
    (h : Shaped hdrlen pframe) :
    (∀ k < hdrlen + 8, aesCipher enc hdrlen pframe plen k = pframe k) ∧
      layoutOf (aesCipher enc hdrlen pframe plen) hdrlen = layoutOf pframe hdrlen ∧
      pnVector (aesCipher enc hdrlen pframe plen) hdrlen = pnVector pframe hdrlen := by
  have hhdr : ∀ k < hdrlen + 8, aesCipher enc hdrlen pframe plen k = pframe k := by
    intro k hk
    rw [aesCipher_apply h (by omega)]
    exact crypt_of_out (frameKs_readsBelow enc h) (by omega)
  refine ⟨hhdr, ?_, pnVector_congr hhdr⟩
  simp only [layoutOf, hhdr 0 (by omega)]

theorem fits_aesCipher (enc : Block → Block) (h : Fits hdrlen pframe (plen + 8)) :
    Fits hdrlen (aesCipher enc hdrlen pframe plen) (plen + 8) :=
  ⟨h.header, h.mic, h.size, by rw [(aesCipher_header enc plen h.shaped).2.1]; exact h.qos⟩

theorem plainFrame_aesCipher (h : Shaped hdrlen pframe) {k : ℕ}
    (hk : k < hdrlen + 8 + plen) :
    plainFrame enc hdrlen (aesCipher enc hdrlen pframe plen) (plen + 8) k = pframe k := by
  obtain ⟨-, hlay, hpn⟩ := aesCipher_header enc plen h
  have hreads := frameKs_readsBelow enc h
  rw [plainFrame, hlay, hpn, Nat.add_sub_cancel]
  change crypt (frameKs enc pframe hdrlen) _ _ _ k = _
  rw [crypt_congr hreads (fun j hj => aesCipher_apply h (by omega)) hk, crypt_crypt hreads]

theorem aesCipher_micOk (h : Shaped hdrlen pframe) :
    MicOk enc (layoutOf (aesCipher enc hdrlen pframe plen) hdrlen) hdrlen
      (plainFrame enc hdrlen (aesCipher enc hdrlen pframe plen) (plen + 8)) (plen + 8) := by
  have hthree := h.header
  have hplain : ∀ k < hdrlen + 8 + plen,
      plainFrame enc hdrlen (aesCipher enc hdrlen pframe plen) (plen + 8) k = pframe k :=
    fun k hk => plainFrame_aesCipher h hk
  have hheader : ∀ k < 32,
      plainFrame enc hdrlen (aesCipher enc hdrlen pframe plen) (plen + 8) k = pframe k :=
    fun k hk => hplain k (by omega)
  have hpn : pnVector (plainFrame enc hdrlen (aesCipher enc hdrlen pframe plen) (plen + 8))
      hdrlen = pnVector pframe hdrlen := pnVector_congr fun k hk => hplain k (by omega)
  have hbytes : bytesAt (plainFrame enc hdrlen (aesCipher enc hdrlen pframe plen) (plen + 8))
      (hdrlen + 8) (plen + 8 - 8) = bytesAt pframe (hdrlen + 8) (plen + 8 - 8) :=
    bytesAt_congr fun k _ hk => hplain k (by omega)
  intro i hi
  rw [(aesCipher_header enc plen h).2.1, sentMic, micOf, hbytes, hpn, constructMicIv_congr hheader,
    constructMicHeader1_congr hheader, constructMicHeader2_congr hheader,
    constructCtrPreload_congr hheader, plainFrame_of_out h.header (by omega) (.inr (by omega)), aesCipher_mic h hi,
    frameKs, ← UInt8.xor_assoc, UInt8.xor_self, UInt8.zero_xor]
  rfl

/-- Where the frame with its IV and MIC fits into `message`: what `aes_cipher` made is accepted
and decrypted to the plaintext, and of the frames received those with the right MIC are
accepted. -/
theorem aesDecipher_aesCipher (enc : Block → Block) (message : Mem) (hdrlen : ℕ) :
    (∀ pframe plen, Fits hdrlen pframe (plen + 8) →
      let d := aesDecipher enc message hdrlen (aesCipher enc hdrlen pframe plen) (plen + 8)
      d.res = true ∧ ∀ k < hdrlen + 8 + plen, d.pframe k = pframe k) ∧
    ∀ pframe plen, Fits hdrlen pframe plen →
      ((aesDecipher enc message hdrlen pframe plen).res = true ↔
        MicOk enc (layoutOf pframe hdrlen) hdrlen
          (aesDecipher enc message hdrlen pframe plen).pframe plen) := by
  constructor
  · intro pframe plen h d
    have hc := fits_aesCipher enc h
    refine ⟨(aesDecipher_res hc).mpr (aesCipher_micOk h.shaped), ?_⟩
    intro k hk
    rw [hc.pframe_eq, plainFrame_aesCipher h.shaped hk]
  · intro pframe plen h
    rw [h.pframe_eq]
    exact aesDecipher_res h

def wdsFrame : Mem := fun k => if k = 0 then 0x88 else if k = 1 then 3 else UInt8.ofNat k

def firstByte (b : Block) : Block := fun _ => b 0

theorem aesDecipher_aesCipher_wds :
    let c := aesCipher firstByte 32 wdsFrame 100
    let d := aesDecipher firstByte (fun _ => 0) 32 c 108
    (d.res = true ∧ ∀ k < 140, d.pframe k = wdsFrame k) ∧
      (d.res = true ↔ MicOk firstByte (layoutOf c 32) 32 d.pframe 108) := by
  have h : Fits 32 wdsFrame 108 := ⟨by decide, by decide, by decide, fun _ => .inr rfl⟩
  exact ⟨(aesDecipher_aesCipher firstByte (fun _ => 0) 32).1 wdsFrame 100 h,
    (aesDecipher_aesCipher firstByte (fun _ => 0) 32).2 _ 108 (fits_aesCipher firstByte h)⟩

def nullFrame : Mem := fun k => if k = 0 then 0x08 else if k = 16 then 1 else 0

/-- With its IV the frame takes 2048 bytes, and with its MIC 2056, so that it is not copied to
`message`: it is rejected although the MIC is right. -/
theorem long_frame_rejected :
    24 + 2016 + 8 ≤ maxMsgSize ∧ (layoutOf nullFrame 24).qcExists = false ∧
      (aesDecipher firstByte (fun _ => 0) 24 (aesCipher firstByte 24 nullFrame 2016) 2024).res =
        false ∧
      MicOk firstByte (layoutOf (aesCipher firstByte 24 nullFrame 2016) 24) 24
        (aesDecipher firstByte (fun _ => 0) 24 (aesCipher firstByte 24 nullFrame 2016) 2024).pframe
        2024 := by
  have hshape : Shaped 24 nullFrame := ⟨by decide, by decide⟩
  have hcipher : Shaped 24 (aesCipher firstByte 24 nullFrame 2016) :=
    ⟨by decide, by rw [(aesCipher_header firstByte 2016 hshape).2.1]; decide⟩
  refine ⟨by decide, by decide, by decide +kernel, ?_⟩
  rw [aesDecipher_pframe hcipher (by decide) (by decide)]
  exact aesCipher_micOk hshape

end Rtl8189.AesCipher
