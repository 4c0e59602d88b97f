import Rtl8189.ByteBus

/-!
# Register access over SDIO

A register is reached by single bytes while the chip sleeps and in its first page, and by
whole transfers otherwise. An access that does not start on a word goes through a buffer
that begins at the word. The callers see the registers as plain memory.
-/
namespace Rtl8189.SdioAccess
open BlockModes ByteBus ByteBus.Bus

def sdioLocalDeviceId : ℕ := 0
def wlanTxHiqDeviceId : ℕ := 4
def wlanTxMiqDeviceId : ℕ := 5
def wlanTxLoqDeviceId : ℕ := 6
def wlanRx0ffDeviceId : ℕ := 7
def wlanIoregDeviceId : ℕ := 8

def sdioErrVal32 : ℕ := 0xFFFFFFFF
def sdIoTryCnt : ℕ := 8
def maxContinualIoErr : ℕ := sdIoTryCnt

def getDeviceid (addr : UInt32) : ℕ :=
  match addr.toNat / 2 ^ 16 with
  | 0x1025 => sdioLocalDeviceId
  | 0x1026 => wlanIoregDeviceId
  | 0x1031 => wlanTxHiqDeviceId
  | 0x1032 => wlanTxMiqDeviceId
  | 0x1033 => wlanTxLoqDeviceId
  | 0x1034 => wlanRx0ffDeviceId
  | _ => wlanIoregDeviceId

structure Ftaddr where
  deviceId : ℕ
  offset : ℕ
  ftaddr : ℕ

def offsetMask (deviceId : ℕ) : ℕ :=
  if deviceId = sdioLocalDeviceId then 0x0FFF
  else if deviceId = wlanTxHiqDeviceId ∨ deviceId = wlanTxMiqDeviceId ∨
    deviceId = wlanTxLoqDeviceId then 0x1FFF
  else if deviceId = wlanRx0ffDeviceId then 0x0003
  else 0x7FFF

def cvrt2ftaddr (addr : UInt32) : Ftaddr :=
  let deviceId := getDeviceid addr
  let offset := addr.toNat &&& offsetMask deviceId
  { deviceId := deviceId, offset := offset, ftaddr := deviceId <<< 13 ||| offset }

structure Power where
  bMacPwrCtrlOn : Bool
  bFwCurrentInPSMode : Bool

/-- Whether a buffer can be had, what it holds at first, and the errors counted so far. -/
structure Host where
  malloc : Bool
  fresh : Mem
  continualIoError : ℕ

def Direct (pw : Power) (p : Ftaddr) : Prop :=
  p.deviceId = wlanIoregDeviceId ∧ p.offset < 0x100 ∨ pw.bMacPwrCtrlOn = false ∨
    pw.bFwCurrentInPSMode = true

instance (pw : Power) (p : Ftaddr) : Decidable (Direct pw p) :=
  inferInstanceAs (Decidable (_ ∨ _))

def le : List UInt8 → ℕ
  | [] => 0
  | v :: l => v.toNat + 2 ^ 8 * le l

def bytesOf : ℕ → ℕ → List UInt8
  | 0, _ => []
  | n + 1, v => UInt8.ofNat v :: bytesOf n (v / 2 ^ 8)

/-! ## Transfers -/

/-- One or two bytes are read singly. -/
def sdRead (b : Bus) (addr cnt : ℕ) (pdata : List UInt8) : Bool × List UInt8 × Bus :=
  if cnt = 1 ∨ cnt = 2 then
    let r := readEach b addr (pdata.take cnt)
    (r.1, r.2.1 ++ pdata.drop cnt, r.2.2)
  else
    let r := b.memcpyFromio addr cnt pdata
    (r.2.failed, r.1, r.2)

def sdWrite (b : Bus) (addr : ℕ) (pdata : List UInt8) : Bool × Bus :=
  if pdata.length = 1 ∨ pdata.length = 2 then writeEach b addr pdata else
    let b := b.memcpyToio addr pdata
    (b.failed, b)

def sdRead32 (b : Bus) (addr : ℕ) : ℕ × Bus :=
  let r := b.memcpyFromio addr 4 []
  (if r.2.failed then sdioErrVal32 else le r.1, r.2)

/-- The tries after a failed one, until the error counter passes its bound. -/
def sdRewrite32 (b : Bus) (errors addr : ℕ) (v : List UInt8) : ℕ → Bool × Bus × ℕ
  | 0 => (b.failed, b, errors)
  | i + 1 =>
    let b := b.memcpyToio addr v
    if b.failed then
      if maxContinualIoErr < errors + 1 then (true, b, errors + 1)
      else sdRewrite32 b (errors + 1) addr v i
    else (false, b, 0)

def sdWrite32 (b : Bus) (errors addr : ℕ) (v : List UInt8) : Bool × Bus × ℕ :=
  let b := b.memcpyToio addr v
  if b.failed then sdRewrite32 b errors addr v sdIoTryCnt else (false, b, errors)

/-! ## Registers -/

/-- The buffers taken, each with the bytes that are read into it. -/
abbrev Tmp := List (ℕ × ℕ)

structure ValueOut where
  val : ℕ
  tmp : Tmp
  bus : Bus

structure ReadOut where
  err : Bool
  pbuf : List UInt8
  tmp : Tmp
  bus : Bus

structure WriteOut where
  err : Bool
  tmp : Tmp
  bus : Bus
  continualIoError : ℕ

def sdioRead8 (b : Bus) (addr : UInt32) : ValueOut :=
  let r := b.readb (cvrt2ftaddr addr).ftaddr
  { val := r.1.toNat, tmp := [], bus := r.2 }

def sdioRead16 (h : Host) (b : Bus) (addr : UInt32) : ValueOut :=
  let r := readEach b (cvrt2ftaddr addr).ftaddr (bytesAt h.fresh 0 2)
  { val := le r.2.1, tmp := [], bus := r.2.2 }

def sdioRead32 (pw : Power) (h : Host) (b : Bus) (addr : UInt32) : ValueOut :=
  let p := cvrt2ftaddr addr
  let shift := p.ftaddr % 4
  if Direct pw p then
    let r := readEach b p.ftaddr (bytesAt h.fresh 0 4)
    { val := le r.2.1, tmp := [], bus := r.2.2 }
  else if shift = 0 then
    let r := sdRead32 b p.ftaddr
    { val := r.1, tmp := [], bus := r.2 }
  else if h.malloc then
    let r := sdRead b (p.ftaddr - shift) 8 (bytesAt h.fresh 0 8)
    { val := le ((r.2.1.drop shift).take 4), tmp := [(8, 8)], bus := r.2.2 }
  else { val := sdioErrVal32, tmp := [], bus := b }

def sdioReadN (pw : Power) (h : Host) (b : Bus) (addr : UInt32) (pbuf : List UInt8) : ReadOut :=
  let p := cvrt2ftaddr addr
  let shift := p.ftaddr % 4
  if Direct pw p then
    let r := readEach b p.ftaddr pbuf
    { err := r.1, pbuf := r.2.1, tmp := [], bus := r.2.2 }
  else if shift = 0 then
    let r := sdRead b p.ftaddr pbuf.length pbuf
    { err := r.1, pbuf := r.2.1, tmp := [], bus := r.2.2 }
  else if h.malloc then
    let n := pbuf.length + shift
    let r := sdRead b (p.ftaddr - shift) n (bytesAt h.fresh 0 n)
    { err := r.1, pbuf := if r.1 then pbuf else (r.2.1.drop shift).take pbuf.length,
      tmp := [(n, n)], bus := r.2.2 }
  else { err := true, pbuf := pbuf, tmp := [], bus := b }

def sdioWrite8 (h : Host) (b : Bus) (addr : UInt32) (val : UInt8) : WriteOut :=
  let b := b.writeb val (cvrt2ftaddr addr).ftaddr
  { err := b.failed, tmp := [], bus := b, continualIoError := h.continualIoError }

def sdioWrite16 (h : Host) (b : Bus) (addr : UInt32) (val : UInt16) : WriteOut :=
  let w := writeEach b (cvrt2ftaddr addr).ftaddr (bytesOf 2 val.toNat)
  { err := w.1, tmp := [], bus := w.2, continualIoError := h.continualIoError }

def sdioWrite32 (pw : Power) (h : Host) (b : Bus) (addr val : UInt32) : WriteOut :=
  let p := cvrt2ftaddr addr
  let v := bytesOf 4 val.toNat
  if Direct pw p then
    let w := writeEach b p.ftaddr v
    { err := w.1, tmp := [], bus := w.2, continualIoError := h.continualIoError }
  else if p.ftaddr % 4 = 0 then
    let w := sdWrite32 b h.continualIoError p.ftaddr v
    { err := w.1, tmp := [], bus := w.2.1, continualIoError := w.2.2 }
  else
    let w := writeEach b p.ftaddr v
    { err := w.1, tmp := [], bus := w.2, continualIoError := h.continualIoError }

def sdioWriteN (pw : Power) (h : Host) (b : Bus) (addr : UInt32) (pbuf : List UInt8) :
    WriteOut :=
  let p := cvrt2ftaddr addr
  let shift := p.ftaddr % 4
  if Direct pw p then
    let w := writeEach b p.ftaddr pbuf
    { err := w.1, tmp := [], bus := w.2, continualIoError := h.continualIoError }
  else if shift = 0 then
    let w := sdWrite b p.ftaddr pbuf
    { err := w.1, tmp := [], bus := w.2, continualIoError := h.continualIoError }
  else if h.malloc then
    let n := pbuf.length + shift
    -- one word is read, whatever the size of the buffer
    let r := sdRead b (p.ftaddr - shift) 4 (bytesAt h.fresh 0 n)
    if r.1 then
      { err := true, tmp := [(n, 4)], bus := r.2.2, continualIoError := h.continualIoError }
    else
      let ptmpbuf := r.2.1.take shift ++ pbuf ++ r.2.1.drop (shift + pbuf.length)
      let w := sdWrite r.2.2 (p.ftaddr - shift) (ptmpbuf.take n)
      { err := w.1, tmp := [(n, 4)], bus := w.2, continualIoError := h.continualIoError }
  else { err := true, tmp := [], bus := b, continualIoError := h.continualIoError }

/-! ## Registers as memory -/

/-- The first of `cnt` bytes of the register space. -/
structure IoReg (cnt : ℕ) where
  addr : UInt32
  ioreg : getDeviceid addr = wlanIoregDeviceId
  pos : 1 ≤ cnt
  within : (cvrt2ftaddr addr).offset + cnt ≤ 2 ^ 15

def IoReg.base {cnt : ℕ} (r : IoReg cnt) : ℕ := 2 ^ 16 + r.addr.toNat % 2 ^ 15

def Room (tmp : Tmp) : Prop := ∀ t ∈ tmp, t.2 ≤ t.1

structure ValueExact (h : Host) (b : Bus) (a n : ℕ) (o : ValueOut) : Prop where
  exact : b.Sound → h.malloc = true → o.val = le (bytesAt b.mem a n)
  frame : o.bus.mem = b.mem
  room : Room o.tmp

structure ReadExact (h : Host) (b : Bus) (a : ℕ) (pbuf : List UInt8) (o : ReadOut) : Prop where
  exact : o.err = false → o.pbuf = bytesAt b.mem a pbuf.length
  done : b.Sound → h.malloc = true → o.err = false
  reported : o.bus.failed = true → o.err = true
  kept : o.err = true → o.pbuf = pbuf
  frame : o.bus.mem = b.mem
  room : Room o.tmp

structure WriteExact (h : Host) (b : Bus) (a : ℕ) (l : List UInt8) (o : WriteOut) : Prop where
  exact : o.err = false → o.bus.mem = store b.mem a l
  done : b.Sound → h.malloc = true → o.err = false
  reported : o.bus.failed = true → o.err = true
  frame : ∀ x, ¬ (a ≤ x ∧ x < a + l.length) → o.bus.mem x = b.mem x
  room : Room o.tmp

theorem length_bytesOf (n v : ℕ) : (bytesOf n v).length = n := by
  induction n generalizing v with
  | zero => rfl
  | succ n ih => rw [bytesOf, List.length_cons, ih]

variable {cnt : ℕ}

theorem IoReg.ftaddr_eq (r : IoReg cnt) : (cvrt2ftaddr r.addr).ftaddr = r.base := by
  have hmask : r.addr.toNat &&& 0x7FFF = r.addr.toNat % 2 ^ 15 :=
    Nat.and_two_pow_sub_one_eq_mod r.addr.toNat 15
  simp only [cvrt2ftaddr, r.ioreg, IoReg.base]
  rw [show offsetMask wlanIoregDeviceId = 0x7FFF from rfl, hmask,
    show wlanIoregDeviceId <<< 13 = 2 ^ 16 * 1 from rfl]
  exact (Nat.two_pow_add_eq_or_of_lt (by omega) 1).symm

theorem bytesAt_add (m : Mem) (a s n : ℕ) :
    bytesAt m a (s + n) = bytesAt m a s ++ bytesAt m (a + s) n := by
  induction s generalizing a with
  | zero => simp [bytesAt]
  | succ s ih =>
    rw [Nat.succ_add, bytesAt_succ, ih, bytesAt_succ, List.cons_append, Nat.add_assoc a 1 s,
      Nat.add_comm 1 s]

theorem bytesAt_within (m : Mem) {a s n t : ℕ} (hs : s ≤ a) (ht : s + n ≤ t) :
    ((bytesAt m (a - s) t).drop s).take n = bytesAt m a n := by
  have hlen := length_bytesAt m (a - s) s
  have hmid := length_bytesAt m a n
  rw [show t = s + (n + (t - s - n)) by omega, bytesAt_add, List.drop_left' hlen,
    show a - s + s = a by omega, bytesAt_add, List.take_left' hmid]

theorem bytesAt_take (m : Mem) (a : ℕ) {s n : ℕ} (hs : s ≤ n) :
    (bytesAt m a n).take s = bytesAt m a s := by
  have hlen := length_bytesAt m a s
  rw [show n = s + (n - s) by omega, bytesAt_add, List.take_left' hlen]

/-! ## What the transfers do -/

variable {b : Bus} {a n : ℕ} {l dst : List UInt8}

theorem readEach_spec (b : Bus) (a : ℕ) (hdst : 1 ≤ dst.length) :
    Fetched b a dst.length (readEach b a dst).1 (readEach b a dst).2.1 (readEach b a dst).2.2 := by
  cases dst with
  | nil => cases hdst
  | cons v dst => exact readEach_fetched b a v dst

theorem writeEach_spec (b : Bus) (a : ℕ) (hl : 1 ≤ l.length) :
    Stored b a l (writeEach b a l).1 (writeEach b a l).2 := by
  cases l with
  | nil => cases hl
  | cons v l => exact writeEach_stored b a v l

theorem sdRead_spec (b : Bus) (ha : a % 4 = 0) (hdst : 1 ≤ dst.length) :
    Fetched b a dst.length (sdRead b a dst.length dst).1 (sdRead b a dst.length dst).2.1
      (sdRead b a dst.length dst).2.2 := by
  unfold sdRead
  split_ifs with hshort
  · have h := readEach_spec b a hdst
    simpa [List.take_length, List.drop_length] using h
  · have h := memcpyFromio_fetched b dst ha (n := dst.length)
    refine ⟨h.fault, h.mem, h.last, fun hok => ?_, h.sound⟩
    rw [memcpyFromio_bytes b dst ha hok, List.drop_length, List.append_nil]

theorem sdWrite_spec (b : Bus) (ha : a % 4 = 0) (hl : 1 ≤ l.length) :
    Stored b a l (sdWrite b a l).1 (sdWrite b a l).2 := by
  unfold sdWrite
  split_ifs with hshort
  · exact writeEach_spec b a hl
  · exact memcpyToio_stored b l ha

theorem sdRewrite32_spec (ha : a % 4 = 0) (errors i : ℕ) {b₁ : Bus}
    (h : Stored b a l true b₁) :
    Stored b a l (sdRewrite32 b₁ errors a l i).1 (sdRewrite32 b₁ errors a l i).2.1 := by
  induction i generalizing errors b₁ with
  | zero =>
    rw [sdRewrite32, h.last]
    exact h
  | succ i ih =>
    have hagain := h.again (memcpyToio_stored b₁ l ha)
    rw [sdRewrite32]
    cases hf : (b₁.memcpyToio a l).failed with
    | true =>
      rw [hf] at hagain
      simp only [if_true]
      split_ifs
      · exact hagain
      · exact ih (errors + 1) hagain
    | false =>
      rw [hf] at hagain
      exact hagain

theorem sdWrite32_spec (b : Bus) (errors : ℕ) (l : List UInt8) (ha : a % 4 = 0) :
    Stored b a l (sdWrite32 b errors a l).1 (sdWrite32 b errors a l).2.1 := by
  have h := memcpyToio_stored b l ha
  rw [sdWrite32]
  cases hf : (b.memcpyToio a l).failed with
  | true =>
    rw [hf] at h
    exact sdRewrite32_spec ha errors sdIoTryCnt h
  | false =>
    rw [hf] at h
    exact h

theorem sdRead_word (b : Bus) (dst : List UInt8) (ha : a % 4 = 0) :
    Fetched b a 4 (sdRead b a 4 dst).1 ((sdRead b a 4 dst).2.1.take 4) (sdRead b a 4 dst).2.2 :=
  memcpyFromio_fetched b dst ha

theorem sdRead32_spec (b : Bus) (ha : a % 4 = 0) :
    ∃ err dst, Fetched b a 4 err dst (sdRead32 b a).2 ∧
      (err = false → (sdRead32 b a).1 = le dst) := by
  have h := memcpyFromio_fetched b [] ha (n := 4)
  refine ⟨_, _, h, fun hok => ?_⟩
  rw [h.bytes hok]
  simp only [sdRead32, hok]
  rw [memcpyFromio_bytes b [] ha hok, List.drop_nil, List.append_nil]
  rfl

variable {pw : Power} {h : Host} {err : Bool} {b' : Bus} {tmp : Tmp}

theorem fetched_within {s t : ℕ} {buf : List UInt8} (hs : s ≤ a) (ht : s + n ≤ t)
    (hf : Fetched b (a - s) t err buf b') :
    Fetched b a n err (if err then l else (buf.drop s).take n) b' := by
  refine ⟨hf.fault, hf.mem, hf.last, fun he => ?_, hf.sound⟩
  rw [hf.bytes he, he]
  exact bytesAt_within b.mem hs ht

theorem fetched_valueExact (hf : Fetched b a n err dst b') (hroom : Room tmp) :
    ValueExact h b a n { val := le dst, tmp := tmp, bus := b' } :=
  ⟨fun hs _ => congrArg le (hf.bytes (hf.sound hs)), hf.mem, hroom⟩

theorem fetched_readExact (hf : Fetched b a l.length err dst b') (hroom : Room tmp)
    (hkept : err = true → dst = l) :
    ReadExact h b a l { err := err, pbuf := dst, tmp := tmp, bus := b' } :=
  ⟨hf.bytes, fun hs _ => hf.sound hs, fun hl => hf.last.symm.trans hl, hkept, hf.mem, hroom⟩

theorem stored_writeExact {errors : ℕ} (hst : Stored b a l err b') (hroom : Room tmp) :
    WriteExact h b a l { err := err, tmp := tmp, bus := b', continualIoError := errors } :=
  ⟨hst.all, fun hs _ => hst.sound hs, fun hl => hst.last.symm.trans hl,
    fun _ hx => hst.outside hx, hroom⟩

theorem stored_within {s : ℕ} {b₁ : Bus} (hs : s ≤ a)
    (hf : Fetched b (a - s) 4 false dst b₁)
    (hst : Stored b₁ (a - s) (bytesAt b.mem (a - s) s ++ l) err b') : Stored b a l err b' := by
  have hsame : ∀ k, store b₁.mem (a - s) ((bytesAt b.mem (a - s) s ++ l).take k) =
      store b.mem a (l.take (k - s)) := by
    intro k
    rw [hf.mem, store_same, show a - s + s = a by omega]
  obtain ⟨k, hk⟩ := hst.part
  refine ⟨hst.fault.trans hf.fault, ⟨k - s, hk.trans (hsame k)⟩, hst.last, fun he => ?_,
    fun hb => hst.sound (Sound.congr hb hf.fault)⟩
  have hall := hsame (s + l.length)
  rw [show s + l.length - s = l.length by omega, List.take_length, List.take_of_length_le] at hall
  · rw [hst.all he, hall]
  · exact Nat.le_of_eq (by rw [List.length_append, length_bytesAt])

theorem room_nil : Room [] := fun _ ht => nomatch ht

theorem room_one {s t : ℕ} : Room [(s, t)] ↔ t ≤ s := by simp [Room]

/-! ## The eight operations -/

theorem read8_exact (h : Host) (b : Bus) (r : IoReg 1) :
    ValueExact h b r.base 1 (sdioRead8 b r.addr) := by
  have hv := fetched_valueExact (h := h) (readb_fetched b r.base) room_nil
  rw [sdioRead8, r.ftaddr_eq]
  simpa only [le, Nat.mul_zero, Nat.add_zero] using hv

theorem read16_exact (h : Host) (b : Bus) (r : IoReg 2) :
    ValueExact h b r.base 2 (sdioRead16 h b r.addr) := by
  rw [sdioRead16, r.ftaddr_eq]
  have hlen := length_bytesAt h.fresh 0 2
  have hf := @readEach_spec (bytesAt h.fresh 0 2) b r.base (by omega)
  rw [hlen] at hf
  exact fetched_valueExact hf room_nil

theorem read32_exact (pw : Power) (h : Host) (b : Bus) (r : IoReg 4) :
    ValueExact h b r.base 4 (sdioRead32 pw h b r.addr) := by
  simp only [sdioRead32, r.ftaddr_eq]
  split_ifs with hdirect hshift hmalloc
  · have hlen := length_bytesAt h.fresh 0 4
    have hf := @readEach_spec (bytesAt h.fresh 0 4) b r.base (by omega)
    rw [hlen] at hf
    exact fetched_valueExact hf room_nil
  · obtain ⟨err, dst, hf, hval⟩ := sdRead32_spec b hshift
    refine ⟨fun hs _ => ?_, hf.mem, room_nil⟩
    rw [hval (hf.sound hs), hf.bytes (hf.sound hs)]
  · have hlen := length_bytesAt h.fresh 0 8
    have hf := @sdRead_spec (r.base - r.base % 4) (bytesAt h.fresh 0 8) b (by omega) (by omega)
    rw [hlen] at hf
    have hw := fetched_within (l := []) (n := 4) (by omega) (by omega) hf
    refine ⟨fun hs _ => ?_, hf.mem, room_one.mpr (Nat.le_refl 8)⟩
    rw [← hw.bytes (hf.sound hs), hf.sound hs]
    rfl
  · exact ⟨fun _ hm => absurd hm hmalloc, rfl, room_nil⟩

theorem write8_exact (h : Host) (b : Bus) (r : IoReg 1) (v : UInt8) :
    WriteExact h b r.base [v] (sdioWrite8 h b r.addr v) := by
  rw [sdioWrite8, r.ftaddr_eq]
  exact stored_writeExact (writeb_stored b v r.base) room_nil

theorem write16_exact (h : Host) (b : Bus) (r : IoReg 2) (v : UInt16) :
    WriteExact h b r.base (bytesOf 2 v.toNat) (sdioWrite16 h b r.addr v) := by
  rw [sdioWrite16, r.ftaddr_eq]
  exact stored_writeExact (writeEach_spec b r.base (by rw [length_bytesOf]; omega)) room_nil

theorem write32_exact (pw : Power) (h : Host) (b : Bus) (r : IoReg 4) (v : UInt32) :
    WriteExact h b r.base (bytesOf 4 v.toNat) (sdioWrite32 pw h b r.addr v) := by
  have heach := writeEach_spec b r.base (l := bytesOf 4 v.toNat) (by rw [length_bytesOf]; omega)
  simp only [sdioWrite32, r.ftaddr_eq]
  split_ifs with hdirect hshift
  · exact stored_writeExact heach room_nil
  · exact stored_writeExact (sdWrite32_spec b h.continualIoError _ hshift) room_nil
  · exact stored_writeExact heach room_nil

theorem readN_exact {pbuf : List UInt8} (pw : Power) (h : Host) (b : Bus)
    (r : IoReg pbuf.length) (hdirect : ¬ Direct pw (cvrt2ftaddr r.addr))
    (hshift : r.base % 4 ≠ 0) :
    ReadExact h b r.base pbuf (sdioReadN pw h b r.addr pbuf) := by
  have hpos := r.pos
  simp only [sdioReadN, r.ftaddr_eq, if_neg hdirect, if_neg hshift]
  by_cases hmalloc : h.malloc = true
  · have hlen := length_bytesAt h.fresh 0 (pbuf.length + r.base % 4)
    have hf := @sdRead_spec (r.base - r.base % 4)
      (bytesAt h.fresh 0 (pbuf.length + r.base % 4)) b (by omega) (by omega)
    rw [hlen] at hf
    have hw := fetched_within (l := pbuf) (n := pbuf.length) (by omega) (by omega) hf
    rw [if_pos hmalloc]
    exact fetched_readExact hw (room_one.mpr (Nat.le_refl _)) fun he => if_pos he
  · rw [if_neg hmalloc]
    exact ⟨fun he => (nomatch he), fun _ hm => absurd hm hmalloc, fun _ => rfl, fun _ => rfl, rfl,
      room_nil⟩

theorem merged_eq {r pbuf : List UInt8} {s : ℕ} {d : Bus} (hs : s ≤ 3)
    (hr : r.take 4 = bytesAt d.mem a 4) (rest : List UInt8) :
    (r.take s ++ pbuf ++ rest).take (pbuf.length + s) = bytesAt d.mem a s ++ pbuf := by
  have hword : r.take s = bytesAt d.mem a s := by
    have htake := congrArg (List.take s) hr
    rwa [List.take_take, Nat.min_eq_left (by omega), bytesAt_take _ _ (by omega)] at htake
  rw [hword]
  apply List.take_left'
  rw [List.length_append, length_bytesAt, Nat.add_comm]

theorem writeN_exact {pbuf : List UInt8} (pw : Power) (h : Host) (b : Bus)
    (r : IoReg pbuf.length)
    (hroom : Direct pw (cvrt2ftaddr r.addr) ∨ r.base % 4 = 0 ∨ 4 ≤ pbuf.length + r.base % 4) :
    WriteExact h b r.base pbuf (sdioWriteN pw h b r.addr pbuf) := by
  have hpos := r.pos
  have hword := sdRead_word b (a := r.base - r.base % 4)
    (bytesAt h.fresh 0 (pbuf.length + r.base % 4)) (by omega)
  simp only [sdioWriteN, r.ftaddr_eq]
  split_ifs with hdirect hshift hmalloc herr
  · exact stored_writeExact (writeEach_spec b r.base hpos) room_nil
  · exact stored_writeExact (sdWrite_spec b hshift hpos) room_nil
  · refine ⟨fun he => (nomatch he), fun hs _ => ?_, fun _ => rfl, fun x _ => ?_,
      room_one.mpr (by tauto)⟩
    · rw [hword.sound hs] at herr
      cases herr
    · exact congrFun hword.mem x
  · have hok := Bool.eq_false_iff.mpr herr
    rw [hok] at hword
    rw [merged_eq (by omega) (hword.bytes rfl)]
    refine stored_writeExact (stored_within (by omega) hword (sdWrite_spec _ (by omega) ?_))
      (room_one.mpr (by tauto))
    rw [List.length_append]
    omega
  · exact ⟨fun he => (nomatch he), fun _ hm => absurd hm hmalloc, fun _ => rfl, fun _ _ => rfl,
      room_nil⟩

/-! ## Where the callers see memory -/

inductive Op where
  | read8
  | read16
  | read32
  | readN (cnt : ℕ)
  | write8
  | write16
  | write32
  | writeN (cnt : ℕ)

def Op.count : Op → ℕ
  | read8 => 1
  | read16 => 2
  | read32 => 4
  | readN cnt => cnt
  | write8 => 1
  | write16 => 2
  | write32 => 4
  | writeN cnt => cnt

/-- The registers are memory for one operation, whatever the bus does. -/
def Op.Exact (pw : Power) : (op : Op) → IoReg op.count → Prop
  | read8, r => ∀ h b, ValueExact h b r.base 1 (sdioRead8 b r.addr)
  | read16, r => ∀ h b, ValueExact h b r.base 2 (sdioRead16 h b r.addr)
  | read32, r => ∀ h b, ValueExact h b r.base 4 (sdioRead32 pw h b r.addr)
  | readN cnt, r => ∀ h b (pbuf : List UInt8), pbuf.length = cnt →
      ReadExact h b r.base pbuf (sdioReadN pw h b r.addr pbuf)
  | write8, r => ∀ h b v, WriteExact h b r.base [v] (sdioWrite8 h b r.addr v)
  | write16, r => ∀ h b (v : UInt16),
      WriteExact h b r.base (bytesOf 2 v.toNat) (sdioWrite16 h b r.addr v)
  | write32, r => ∀ h b (v : UInt32),
      WriteExact h b r.base (bytesOf 4 v.toNat) (sdioWrite32 pw h b r.addr v)
  | writeN cnt, r => ∀ h b (pbuf : List UInt8), pbuf.length = cnt →
      WriteExact h b r.base pbuf (sdioWriteN pw h b r.addr pbuf)

/-- A read of many bytes is kept from its caller until it is whole, and one word fits the buffer
of a write. -/
def Op.Buffered (pw : Power) : (op : Op) → IoReg op.count → Prop
  | readN _, r => ¬ Direct pw (cvrt2ftaddr r.addr) ∧ r.base % 4 ≠ 0
  | writeN cnt, r =>
    Direct pw (cvrt2ftaddr r.addr) ∨ r.base % 4 = 0 ∨ 4 ≤ cnt + r.base % 4
  | _, _ => True

def faulty : Bus where
  mem _ := 0xff
  fault _ := some 1
  done := 0
  failed := false

theorem readEach_faulty (v : UInt8) (dst : List UInt8) :
    (readEach faulty a (v :: dst)).1 = true ∧
      (readEach faulty a (v :: dst)).2.1 = 0xff :: dst := ⟨rfl, rfl⟩

theorem sdRead_faulty (v : UInt8) (dst : List UInt8) (ha : a % 4 = 0) :
    (sdRead faulty a (dst.length + 1) (v :: dst)).1 = true ∧
      (sdRead faulty a (dst.length + 1) (v :: dst)).2.1 = 0xff :: dst := by
  unfold sdRead
  split_ifs with hshort
  · rw [← List.length_cons (a := v), List.take_length, List.drop_length]
    exact ⟨rfl, List.append_nil (0xff :: dst)⟩
  · simp only [memcpyFromio, extended_eq faulty _ ha]
    refine ⟨rfl, ?_⟩
    have hone : (faulty.command (dst.length + 1)).1 = 1 := Nat.min_eq_left (by omega)
    rw [hone]
    rfl

theorem readN_faulty {pw : Power} (r : IoReg cnt) (h : Host)
    (hown : Direct pw (cvrt2ftaddr r.addr) ∨ r.base % 4 = 0) :
    ¬ ReadExact h faulty r.base (List.replicate cnt 0)
      (sdioReadN pw h faulty r.addr (List.replicate cnt 0)) := by
  have hpos := r.pos
  obtain ⟨n, rfl⟩ : ∃ n, cnt = n + 1 := ⟨cnt - 1, by omega⟩
  have hff : ∀ o : ReadOut, o.err = true ∧ o.pbuf = 0xff :: List.replicate n 0 →
      ¬ ReadExact h faulty r.base (List.replicate (n + 1) 0) o := by
    rintro o ⟨herr, hbuf⟩ ho
    have hkept := hbuf.symm.trans (ho.kept herr)
    rw [List.replicate_succ] at hkept
    exact absurd (List.cons.inj hkept).1 (by decide)
  apply hff
  simp only [sdioReadN, r.ftaddr_eq, List.replicate_succ, List.length_cons,
    List.length_replicate]
  by_cases hdirect : Direct pw (cvrt2ftaddr r.addr)
  · rw [if_pos hdirect]
    exact readEach_faulty 0 (List.replicate n 0)
  · have hshift := hown.resolve_left hdirect
    rw [if_neg hdirect, if_pos hshift]
    have hread := sdRead_faulty 0 (List.replicate n 0) hshift
    rwa [List.length_replicate] at hread

theorem writeN_room {pbuf : List UInt8} {pw : Power} (h : Host) (b : Bus)
    (r : IoReg pbuf.length) (hmalloc : h.malloc = true)
    (hdirect : ¬ Direct pw (cvrt2ftaddr r.addr)) (hshift : r.base % 4 ≠ 0)
    (hroom : Room (sdioWriteN pw h b r.addr pbuf).tmp) : 4 ≤ pbuf.length + r.base % 4 := by
  simp only [sdioWriteN, r.ftaddr_eq, if_neg hdirect, if_neg hshift, if_pos hmalloc] at hroom
  split_ifs at hroom
  · exact room_one.mp hroom
  · exact room_one.mp hroom

def lender : Host where
  malloc := true
  fresh _ := 0
  continualIoError := 0

theorem access_exact_iff (pw : Power) (op : Op) (r : IoReg op.count) :
    op.Exact pw r ↔ op.Buffered pw r := by
  cases op with
  | read8 => exact iff_of_true (fun h b => read8_exact h b r) trivial
  | read16 => exact iff_of_true (fun h b => read16_exact h b r) trivial
  | read32 => exact iff_of_true (fun h b => read32_exact pw h b r) trivial
  | write8 => exact iff_of_true (fun h b v => write8_exact h b r v) trivial
  | write16 => exact iff_of_true (fun h b v => write16_exact h b r v) trivial
  | write32 => exact iff_of_true (fun h b v => write32_exact pw h b r v) trivial
  | readN cnt =>
    refine ⟨fun hexact => ?_, ?_⟩
    · by_contra hown
      refine readN_faulty r lender ?_ (hexact lender faulty _ List.length_replicate)
      simp only [Op.Buffered] at hown
      tauto
    · rintro ⟨hdirect, hshift⟩ h b pbuf rfl
      exact readN_exact pw h b r hdirect hshift
  | writeN cnt =>
    refine ⟨fun hexact => ?_, ?_⟩
    · by_contra hshort
      simp only [Op.Buffered, not_or] at hshort
      obtain ⟨hdirect, hshift, hlt⟩ := hshort
      obtain ⟨pbuf, rfl⟩ : ∃ pbuf : List UInt8, pbuf.length = cnt :=
        ⟨List.replicate cnt 0, List.length_replicate⟩
      have hw := hexact lender faulty pbuf rfl
      exact hlt (writeN_room lender faulty r rfl hdirect hshift hw.room)
    · rintro hroom h b pbuf rfl
      exact writeN_exact pw h b r hroom

def shortReg : IoReg 1 where
  addr := 0x1001
  ioreg := by decide
  pos := Nat.le_refl 1
  within := by decide

/-- Four bytes are read into a buffer of two. -/
theorem write_past_buffer :
    ¬ (Op.writeN 1).Exact { bMacPwrCtrlOn := true, bFwCurrentInPSMode := false } shortReg := by
  intro hexact
  have hw := hexact lender { faulty with fault := fun _ => none } [0x5a] rfl
  have htmp : (sdioWriteN { bMacPwrCtrlOn := true, bFwCurrentInPSMode := false } lender
    { faulty with fault := fun _ => none } shortReg.addr [0x5a]).tmp = [(2, 4)] := rfl
  exact absurd (hw.room (2, 4) (by rw [htmp]; exact List.mem_singleton_self _)) (by decide)

end Rtl8189.SdioAccess
