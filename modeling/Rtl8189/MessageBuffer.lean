import Rtl8189.RecvBounds

/-!
# The buffer of the MIC check

`aes_decipher` computes the MIC once more over a copy of the frame in the buffer `message`.
The copy is left out when the frame is too long for the buffer, and the loops behind it run
all the same.
-/
namespace Rtl8189.MessageBuffer

open AccessTrace BlockModes Decryptor RecvBounds RecvFrame RecvPool

open AesDecipher (Layout u32 u32_natCast maxMsgSize layoutOf)

/-- The bytes of the frame that are copied to `message`, the bytes that the MIC is computed
from, and what comes behind that. -/
structure MessageUse where
  copied : ℕ
  mic : List Op
  rest : List Op

def constructMicHeader2 (lay : Layout) : List Op :=
  .bytes 16 6 ::
    if lay.a4Exists then .bytes 24 6 :: if lay.qcExists then [.bytes 30 1] else []
    else if lay.qcExists then [.bytes 24 1] else []

def blocks (pre : List Op) (p size : ℕ) : List Op :=
  ((List.range (size / 16)).flatMap fun i => pre ++ [Op.bytes (u32 (p + 16 * i : ℕ)) 16]) ++
    if 0 < size % 16 then pre ++ [Op.bytes (u32 (p + 16 * (size / 16) : ℕ)) (size % 16)] else []

/-- What the MIC is computed from. The first block reads what the counter block does. -/
def micReads (lay : Layout) (h size : ℕ) : List Op :=
  constructCtrPreload lay ++ [Op.bytes 0 2, Op.bytes 4 12] ++ constructMicHeader2 lay ++
    blocks [] (h + 8) size

/-- `aes_decipher` from the copy on. -/
def aesDecipher (lay : Layout) (hdrlen : ℕ) (plen : ℤ) : MessageUse :=
  let size := u32 (plen - 8)
  let h := decipherHdrlen lay hdrlen
  { copied := if u32 (h + plen + 8) ≤ maxMsgSize then u32 (h + plen + 8) else 0
    mic := micReads lay h size
    rest := .bytes (u32 (h + 8 + size : ℕ)) 8 :: blocks (constructCtrPreload lay) (h + 8) size ++
      constructCtrPreload lay ++ [.bytes (u32 (h + plen)) 8, .bytes (u32 (h + 8 + size : ℕ)) 8] }

/-- All accesses lie in the buffer, and the MIC is computed from bytes of the frame. -/
def MessageUse.Safe (len : ℕ) (u : MessageUse) : Prop :=
  Within maxMsgSize (.bytes 0 u.copied :: (u.mic ++ u.rest)) ∧ Within (min u.copied len) u.mic

instance (len : ℕ) (u : MessageUse) : Decidable (u.Safe len) :=
  inferInstanceAs (Decidable (_ ∧ _))

/-! ## The loops -/

theorem blocks_within {pre : List Op} {p size len : ℕ} (hpre : Within len pre)
    (h : p + size ≤ len) (hlt : len < 2 ^ 32) : Within len (blocks pre p size) := by
  have hstretch (i n : ℕ) (hn : 16 * i + n ≤ size) :
      (Op.bytes (u32 (p + 16 * i : ℕ)) n).Within len := by
    rw [u32_natCast (by omega)]
    exact bytes_within _ (by omega)
  rw [blocks, within_append, within_loop]
  constructor
  · intro i hi
    rw [within_append, within_cons]
    exact ⟨hpre, hstretch i 16 (by omega), within_nil⟩
  · split
    · rw [within_append, within_cons]
      exact ⟨hpre, hstretch _ _ (by omega), within_nil⟩
    · exact within_nil

theorem blocks_long {pre : List Op} {p size : ℕ} (hp : p < 2 ^ 16) (hsize : 2 ^ 16 ≤ size) :
    ¬ Within maxMsgSize (blocks pre p size) := by
  intro h
  rw [blocks, within_append, within_loop] at h
  have hround := h.1 128 (by omega)
  rw [within_append, within_cons, u32_natCast (by omega), bytes_within_iff _ (by decide),
    maxMsgSize] at hround
  omega

theorem constructMicHeader2_within {lay : Layout} {hdrlen len : ℕ} (hlay : Layout.Fits lay hdrlen)
    (h : hdrlen + 8 ≤ len) : Within len (constructMicHeader2 lay) := by
  obtain ⟨hhdr, ha4⟩ := hlay
  rw [constructMicHeader2, within_cons]
  refine ⟨bytes_within 16 (by omega), ?_⟩
  cases ha : lay.a4Exists with
  | true =>
    rw [if_pos rfl, within_cons]
    refine ⟨bytes_within 24 (by omega), ?_⟩
    cases hq : lay.qcExists with
    | true =>
      have hlong := ha4 hq ha
      rw [if_pos rfl, within_cons]
      exact ⟨bytes_within 30 (by omega), within_nil⟩
    | false => exact within_nil
  | false =>
    rw [if_neg Bool.false_ne_true]
    cases lay.qcExists with
    | true =>
      rw [if_pos rfl, within_cons]
      exact ⟨bytes_within 24 (by omega), within_nil⟩
    | false => exact within_nil

theorem aesDecipher_safe {lay : Layout} {hdrlen len : ℕ} {plen : ℤ}
    (hlay : Layout.Fits lay hdrlen) (hshort : hdrlen ≤ 36) (hlen : (len : ℤ) = hdrlen + 8 + plen)
    (hlt : len < 2 ^ 14) :
    (aesDecipher lay hdrlen plen).Safe len ↔
      8 ≤ plen ∧ decipherHdrlen lay hdrlen + plen + 8 ≤ maxMsgSize := by
  have hge := decipherHdrlen_ge lay hdrlen
  have hle : decipherHdrlen lay hdrlen ≤ hdrlen + 2 := by
    unfold decipherHdrlen
    split <;> omega
  have hhdr := hlay.1
  simp only [MessageUse.Safe, aesDecipher, micReads, within_cons, within_append]
  generalize decipherHdrlen lay hdrlen = h at hge hle ⊢
  constructor
  · rintro ⟨⟨-, ⟨-, hloop⟩, ⟨⟨hinsert, -⟩, -⟩, -⟩, -⟩
    have hplen : 8 ≤ plen := by
      by_contra hneg
      exact blocks_long (by omega) (by rw [u32]; omega) hloop
    have hsize : (u32 (plen - 8) : ℤ) = plen - 8 := u32_eq (by omega) (by omega)
    rw [u32_natCast (by omega), bytes_within_iff _ (by decide)] at hinsert
    exact ⟨hplen, by omega⟩
  · rintro ⟨hplen, hfits⟩
    rw [maxMsgSize] at hfits
    have hsize : (u32 (plen - 8) : ℤ) = plen - 8 := u32_eq (by omega) (by omega)
    have hcopy : (u32 (h + plen + 8) : ℤ) = h + plen + 8 := u32_eq (by omega) (by omega)
    have hmic : (u32 (h + plen) : ℤ) = h + plen := u32_eq (by omega) (by omega)
    have hinsert : u32 (h + 8 + u32 (plen - 8) : ℕ) = h + 8 + u32 (plen - 8) :=
      u32_natCast (by omega)
    rw [if_pos (by rw [maxMsgSize]; omega), hinsert]
    -- whatever lies before the MIC lies in the frame and in the buffer
    have hbefore (n : ℕ) (hn : hdrlen + 8 ≤ n) (hend : h + 8 + u32 (plen - 8) ≤ n)
        (hn32 : n < 2 ^ 32) :
        ((Within n (constructCtrPreload lay) ∧ (Op.bytes 0 2).Within n ∧
          (Op.bytes 4 12).Within n ∧ Within n []) ∧ Within n (constructMicHeader2 lay)) ∧
        Within n (blocks [] (h + 8) (u32 (plen - 8))) :=
      ⟨⟨⟨constructCtrPreload_within hlay hn, bytes_within 0 (by omega), bytes_within 4 (by omega),
        within_nil⟩, constructMicHeader2_within hlay hn⟩, blocks_within within_nil hend hn32⟩
    have hpre : Within maxMsgSize (constructCtrPreload lay) :=
      constructCtrPreload_within hlay (by rw [maxMsgSize]; omega)
    refine ⟨⟨bytes_within 0 ?_, hbefore _ ?_ ?_ (by decide), ⟨⟨bytes_within _ ?_, ?_⟩, hpre⟩,
      bytes_within _ ?_, bytes_within _ ?_, within_nil⟩, hbefore _ ?_ ?_ ?_⟩
    all_goals try rw [maxMsgSize]
    · omega
    · omega
    · omega
    · omega
    · exact blocks_within hpre (by omega) (by decide)
    · omega
    · omega
    · omega
    · omega
    · omega

/-! ## What the MIC depends on -/

/-- The MIC that `aes_decipher` computes, with the header length it has then. -/
def recomputedMic (enc : Block → Block) (lay : Layout) (h size : ℕ) (pn : List UInt8) (m : Mem) :
    Block :=
  let out := enc (AesDecipher.constructMicIv lay m size pn)
  let out := enc (xorBlock out (AesDecipher.constructMicHeader1 lay h m))
  let out := enc (xorBlock out (AesDecipher.constructMicHeader2 lay m))
  chain enc m (h + 8) size out

theorem blocks_covers {p size k : ℕ} (hlt : p + size < 2 ^ 32) (hp : p ≤ k) (hk : k < p + size) :
    Covers (blocks [] p size) k := by
  have hsize := Nat.div_add_mod size 16
  by_cases hlast : p + 16 * (size / 16) ≤ k
  · refine covers_bytes (p + 16 * (size / 16)) (size % 16) ?_ hlast (by omega)
    rw [blocks, if_pos (by omega), u32_natCast (n := p + 16 * (size / 16)) (by omega)]
    exact List.mem_append_right _ List.mem_cons_self
  · have hround : (k - p) / 16 < size / 16 := by omega
    refine covers_bytes (p + 16 * ((k - p) / 16)) 16 ?_ (by omega) (by omega)
    rw [blocks]
    refine List.mem_append_left _ (List.mem_flatMap.mpr ⟨_, List.mem_range.mpr hround, ?_⟩)
    rw [u32_natCast (by omega)]
    exact List.mem_cons_self

theorem recomputedMic_congr (enc : Block → Block) {lay : Layout} {h size : ℕ} (pn : List UInt8)
    {m m' : Mem} (hlt : h + 8 + size < 2 ^ 32)
    (hm : ∀ k, Covers (micReads lay h size) k → m' k = m k) :
    recomputedMic enc lay h size pn m' = recomputedMic enc lay h size pn m := by
  have hpart (start n : ℕ) {k : ℕ} (hmem : Op.bytes start n ∈ micReads lay h size)
      (hstart : start ≤ k) (hend : k < start + n) : m' k = m k :=
    hm k (covers_bytes start n hmem hstart hend)
  have hfirst {k : ℕ} (hk : k < 2) : m' k = m k :=
    hpart 0 2 (by simp [micReads]) (by omega) (by omega)
  have haddr {k : ℕ} (hstart : 4 ≤ k) (hend : k < 16) : m' k = m k :=
    hpart 4 12 (by simp [micReads]) hstart (by omega)
  have hthird {k : ℕ} (hstart : 16 ≤ k) (hend : k < 22) : m' k = m k :=
    hpart 16 6 (by simp [micReads, constructMicHeader2]) hstart (by omega)
  have hfourth (ha : lay.a4Exists = true) {k : ℕ} (hstart : 24 ≤ k) (hend : k < 30) :
      m' k = m k :=
    hpart 24 6 (by simp [micReads, constructMicHeader2, ha]) hstart (by omega)
  have hqos (hq : lay.qcExists = true) :
      m' (if lay.a4Exists then 30 else 24) = m (if lay.a4Exists then 30 else 24) :=
    hpart _ 1 (by simp [micReads, constructCtrPreload, hq]) (Nat.le_refl _) (Nat.lt_succ_self _)
  have hprio : AesDecipher.priorityByte lay m' = AesDecipher.priorityByte lay m := by
    unfold AesDecipher.priorityByte
    cases hq : lay.qcExists with
    | true => rw [hqos hq]
    | false => rfl
  have hiv : AesDecipher.constructMicIv lay m' size pn =
      AesDecipher.constructMicIv lay m size pn := by
    funext i
    simp only [AesDecipher.constructMicIv, hprio]
    split_ifs
    · rfl
    · rfl
    · exact haddr (by omega) (by omega)
    · rfl
    · rfl
    · rfl
  have hhdr1 : AesDecipher.constructMicHeader1 lay h m' =
      AesDecipher.constructMicHeader1 lay h m := by
    funext i
    simp only [AesDecipher.constructMicHeader1, hfirst (k := 0) (by decide),
      hfirst (k := 1) (by decide)]
    split_ifs
    · rfl
    · rfl
    · rfl
    · rfl
    · rfl
    · exact haddr (by omega) i.isLt
  have hhdr2 : AesDecipher.constructMicHeader2 lay m' = AesDecipher.constructMicHeader2 lay m := by
    funext i
    unfold AesDecipher.constructMicHeader2
    cases ha : lay.a4Exists with
    | true =>
      rw [ha, if_pos rfl] at hqos
      rw [if_pos rfl, if_pos rfl]
      split_ifs with h6 h8 h14 hq
      · exact hthird (by omega) (by omega)
      · rfl
      · exact hfourth ha (by omega) (by omega)
      · rw [hqos hq.2]
      · rfl
    | false =>
      rw [ha, if_neg Bool.false_ne_true] at hqos
      rw [if_neg Bool.false_ne_true, if_neg Bool.false_ne_true]
      split_ifs with h6 h8 hq
      · exact hthird (by omega) (by omega)
      · rfl
      · rw [hqos hq.2]
      · rfl
  have hpayload : bytesAt m' (h + 8) size = bytesAt m (h + 8) size :=
    bytesAt_congr fun k hstart hend =>
      hm k ((blocks_covers hlt hstart hend).mono (List.subset_append_right _ _))
  simp only [recomputedMic, hiv, hhdr1, hhdr2, chain_eq, hpayload]

/-- In the buffer the MIC is that of the frame, whatever was left there before. -/
theorem recomputedMic_own (enc : Block → Block) {lay : Layout} {hdrlen len : ℕ} {plen : ℤ}
    (pn : List UInt8) (hsafe : (aesDecipher lay hdrlen plen).Safe len) (message pframe : Mem)
    (hlt : decipherHdrlen lay hdrlen + 8 + u32 (plen - 8) < 2 ^ 32) :
    recomputedMic enc lay (decipherHdrlen lay hdrlen) (u32 (plen - 8)) pn
        (fun k => if k < (aesDecipher lay hdrlen plen).copied then pframe k else message k) =
      recomputedMic enc lay (decipherHdrlen lay hdrlen) (u32 (plen - 8)) pn pframe :=
  recomputedMic_congr enc pn hlt fun _ hk =>
    if_pos (Nat.lt_of_lt_of_le (hk.lt hsafe.2) (Nat.min_le_left _ _))

/-! ## Every frame -/

def aesFrame (e : RxEnv) (c : Call) : Option RecvFrame :=
  Option.filter (fun g => (aesKey e.sec g).isSome) <|
    match c with
    | .validateMgmtProtect r =>
      if OfType r.f .mgt ∧ e.bipKeyInstalled ∧ getPrivacy r.f ∧
          e.zmalloc (u32 (r.f.len - 24 - 8 - 8)) then
        some (mgmtToDecrypt r.f)
      else none
    | .decryptor r =>
      if OfType r.f .data then
        (validateRecvDataFrame e r.f).filter fun g =>
          g.attrib.bdecrypted = false ∧ g.attrib.encrypt = .aes
      else none
    | .recvframeChkmic _ => none

def messageUse (e : RxEnv) (c : Call) : MessageUse :=
  match aesFrame e c with
  | none => ⟨0, [], []⟩
  | some g =>
    aesDecipher (layoutOf (frameMem g) g.attrib.hdrlen) g.attrib.hdrlen (payloadLength g)

/-- There is a MIC, and the frame fits into the buffer; one with HT control needs two bytes
more. -/
def Fits (g : RecvFrame) : Prop :=
  HasField g ∧ g.len + (if HtControl g then 2 else 0) ≤ maxMsgSize

instance (g : RecvFrame) : Decidable (Fits g) := inferInstanceAs (Decidable (_ ∧ _))

theorem aesFrame_formed {e : RxEnv} {c : Call} {g : RecvFrame} (hg : aesFrame e c = some g) :
    Formed g ∧ g.attrib.encrypt = .aes ∧ g.attrib.hdrlen ≤ 36 ∧ g.len = c.frame.len ∧
      g.len < 2 ^ 14 := by
  have hpick := (Option.filter_eq_some_iff.mp hg).1
  cases c with
  | validateMgmtProtect r =>
    simp only at hpick
    split_ifs at hpick with hmgt
    obtain rfl := Option.some.inj hpick
    exact ⟨mgmtToDecrypt_formed hmgt.1.mgt, rfl, (by decide : 24 ≤ 36), rfl, r.len_lt⟩
  | decryptor r =>
    simp only at hpick
    split_ifs at hpick with hdata
    obtain ⟨hval, haes⟩ := Option.filter_eq_some_iff.mp hpick
    obtain ⟨-, hlen, hhdr, ha4, -⟩ := validateRecvDataFrame_some hval
    refine ⟨validated_formed hval, (of_decide_eq_true haes).2, ?_, hlen, hlen ▸ r.len_lt⟩
    rw [hhdr, TkipRoundTrip.hdrlen, ha4]
    split <;> split <;> decide
  | recvframeChkmic f => cases hpick

theorem aesDecipher_fits {g : RecvFrame} (hf : Formed g) (henc : g.attrib.encrypt = .aes)
    (hhdr : g.attrib.hdrlen ≤ 36) (hlt : g.len < 2 ^ 14) :
    (aesDecipher (layoutOf (frameMem g) g.attrib.hdrlen) g.attrib.hdrlen
      (payloadLength g)).Safe g.len ↔ Fits g := by
  have hiv : g.attrib.ivLen = 8 ∧ g.attrib.icvLen = 8 := by
    rw [hf.ivLen, hf.icvLen, henc]
    exact ⟨rfl, rfl⟩
  have hlen : (g.len : ℤ) = g.attrib.hdrlen + 8 + payloadLength g := by
    rw [payloadLength, hiv.1]
    omega
  have hsame := hf.same
  rw [aesDecipher_safe hf.layout hhdr hlen hlt, Fits, HasField, hiv.1, hiv.2]
  by_cases hht : HtControl g
  · rw [if_pos hht]
    have hplus : decipherHdrlen (layoutOf (frameMem g) g.attrib.hdrlen) g.attrib.hdrlen =
        g.attrib.hdrlen + 2 := by
      have hne : ¬ decipherHdrlen (layoutOf (frameMem g) g.attrib.hdrlen) g.attrib.hdrlen =
          g.attrib.hdrlen := fun h => hsame.1 h hht
      unfold decipherHdrlen at hne ⊢
      split at hne
      · next h => exact if_pos h
      · exact absurd rfl hne
    omega
  · rw [if_neg hht]
    have heq := hsame.2 hht
    omega

theorem fits_of_safe {e : RxEnv} {c : Call} (h : (messageUse e c).Safe c.frame.len) :
    ∀ g ∈ aesFrame e c, Fits g := by
  intro g hg
  obtain ⟨hf, henc, hhdr, hlen, hlt⟩ := aesFrame_formed hg
  rw [messageUse, hg, ← hlen] at h
  exact (aesDecipher_fits hf henc hhdr hlt).1 h

theorem safe_of_fits {e : RxEnv} {c : Call} (h : ∀ g ∈ aesFrame e c, Fits g) :
    (messageUse e c).Safe c.frame.len := by
  unfold messageUse
  cases hg : aesFrame e c with
  | none => exact ⟨by decide, within_nil⟩
  | some g =>
    obtain ⟨hf, henc, hhdr, hlen, hlt⟩ := aesFrame_formed hg
    rw [← hlen]
    exact (aesDecipher_fits hf henc hhdr hlt).2 (h g hg)

/-- The check stays in its buffer and works on the frame just when that fits. -/
theorem message_inside (e : RxEnv) (c : Call) :
    (messageUse e c).Safe c.frame.len ↔ ∀ g ∈ aesFrame e c, Fits g :=
  ⟨fits_of_safe, safe_of_fits⟩

theorem padded_pos (fc0 fc1 : UInt8) (n : ℕ) :
    0 < len { rxData := header fc0 fc1 ++ List.replicate n 0 } := by
  simp [len, header]

theorem padded_lt (fc0 fc1 : UInt8) (n : ℕ) (hn : n < 4096) :
    len { rxData := header fc0 fc1 ++ List.replicate n 0 } < 2 ^ 14 := by
  simp only [len, header, List.length_append, List.length_cons, List.length_nil,
    List.length_replicate]
  omega

def ccmpFrame (fc0 fc1 : UInt8) (n : ℕ) (hn : n < 4096) : RxFrame where
  f := { rxData := header fc0 fc1 ++ List.replicate n 0 }
  len_pos := padded_pos fc0 fc1 n
  len_lt := padded_lt fc0 fc1 n hn

/-- Of 2049 bytes, of 2047 bytes with HT control, and one that ends with its packet
number. -/
def badFrames : List RxFrame :=
  [ccmpFrame 0x08 0x41 2025 (by decide), ccmpFrame 0x88 0xc1 2023 (by decide),
    ccmpFrame 0x08 0x41 8 (by decide)]

theorem message_overrun :
    badFrames.map (fun r => r.f.len) = [2049, 2047, 32] ∧
      ∀ r ∈ badFrames, ¬ (messageUse rsn (.decryptor r)).Safe r.f.len := by
  have hbad : ∀ r ∈ badFrames, ¬ ∀ g ∈ aesFrame rsn (.decryptor r), Fits g := by decide +kernel
  exact ⟨by decide +kernel, fun r hr h => hbad r hr (fits_of_safe h)⟩

end Rtl8189.MessageBuffer
