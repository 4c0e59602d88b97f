import Mathlib.Data.List.Basic
import Rtl8189.FieldWidths

/-!
# Receive frames

The receive attributes and the buffer of a `recv_frame`. The bytes between
`rx_data` and `rx_tail` are a list, and so are the bytes between `rx_tail` and
`rx_end`; the room before `rx_data` is counted. The buffer moves refuse what the
pointer comparisons of the driver refuse. Sequence and fragment numbers are the
12-bit and 4-bit fields of the sequence control word.
-/
namespace Rtl8189

abbrev MacAddr := Vector UInt8 6

instance macAddrLawfulBEq : LawfulBEq MacAddr := inferInstance

def macOf (a b c d e f : UInt8) : MacAddr := #v[a, b, c, d, e, f]

def byteAt (b : List UInt8) (i : ℕ) : ℕ := (b.getD i 0).toNat

def le16 (b : List UInt8) (i : ℕ) : ℕ := byteAt b i + 256 * byteAt b (i + 1)

def be16 (b : List UInt8) (i : ℕ) : ℕ := 256 * byteAt b i + byteAt b (i + 1)

def le32 (b : List UInt8) (i : ℕ) : ℕ := le16 b i + 2 ^ 16 * le16 b (i + 2)

def le64 (b : List UInt8) (i : ℕ) : ℕ :=
  le16 b i + 2 ^ 16 * le16 b (i + 2) + 2 ^ 32 * le16 b (i + 4) + 2 ^ 48 * le16 b (i + 6)

def be16Bytes (n : ℕ) : List UInt8 := [UInt8.ofNat (n / 256), UInt8.ofNat n]

def putBytes (b : List UInt8) (i : ℕ) (bytes : List UInt8) : List UInt8 :=
  b.take i ++ bytes ++ b.drop (i + bytes.length)

def isMcast (a : MacAddr) : Bool := (getElem a 0 zero_lt_six).toNat % 2 = 1

theorem byteAt_lt (b : List UInt8) (i : ℕ) : byteAt b i < 256 := (b.getD i 0).toNat_lt

theorem byteAt_drop (b : List UInt8) (n i : ℕ) : byteAt (b.drop n) i = byteAt b (n + i) := by
  simp only [byteAt, List.getD_eq_getElem?_getD, List.getElem?_drop]

theorem byteAt_append_right (a b : List UInt8) (i : ℕ) :
    byteAt (a ++ b) (a.length + i) = byteAt b i := by
  simp only [byteAt, List.getD_eq_getElem?_getD,
    List.getElem?_append_right (Nat.le_add_right a.length i), Nat.add_sub_cancel_left]

theorem byteAt_append_left {a : List UInt8} {i : ℕ} (h : i < a.length) (b : List UInt8) :
    byteAt (a ++ b) i = byteAt a i := by
  simp only [byteAt, List.getD_eq_getElem?_getD, List.getElem?_append_left h]

theorem putBytes_append (p q r : List UInt8) {bytes : List UInt8} (h : bytes.length = q.length) :
    putBytes (p ++ q ++ r) p.length bytes = p ++ bytes ++ r := by
  have htake : (p ++ q ++ r).take p.length = p := by
    rw [List.append_assoc, List.take_left]
  rw [putBytes, htake, h, ← List.length_append, List.drop_left]

theorem le32_append_left {a : List UInt8} {i : ℕ} (h : i + 3 < a.length) (b : List UInt8) :
    le32 (a ++ b) i = le32 a i := by
  simp only [le32, le16]
  rw [byteAt_append_left (by omega), byteAt_append_left (by omega),
    byteAt_append_left (by omega), byteAt_append_left (by omega)]

theorem be16_lt (b : List UInt8) (i : ℕ) : be16 b i < 65536 := by
  have hhi := byteAt_lt b i
  have hlo := byteAt_lt b (i + 1)
  rw [be16]
  omega

theorem be16_drop (b : List UInt8) (n i : ℕ) : be16 (b.drop n) i = be16 b (n + i) := by
  simp only [be16, byteAt_drop, Nat.add_assoc]

theorem be16_append_right (a b : List UInt8) (i : ℕ) :
    be16 (a ++ b) (a.length + i) = be16 b i := by
  simp only [be16, Nat.add_assoc, byteAt_append_right]

theorem be16Bytes_mod (n : ℕ) : be16Bytes (n % 65536) = be16Bytes n := by
  have hhi : UInt8.ofNat (n % 65536 / 256) = UInt8.ofNat (n / 256) := by
    apply UInt8.toNat.inj
    simp only [UInt8.toNat_ofNat']
    omega
  have hlo : UInt8.ofNat (n % 65536) = UInt8.ofNat n := by
    apply UInt8.toNat.inj
    simp only [UInt8.toNat_ofNat']
    omega
  rw [be16Bytes, be16Bytes, hhi, hlo]

inductive Encrypt where
  | noPrivacy
  | wep40
  | tkip
  | tkipWtmic
  | aes
  | wep104
  | sms4
  | wepWpaMixed
  | bip
  deriving DecidableEq, Repr, Inhabited

/-- IV and ICV length of `SET_ICE_IV_LEN`. -/
def Encrypt.ivLen : Encrypt → ℕ
  | .wep40 | .wep104 => 4
  | .tkip | .aes => 8
  | .sms4 => 18
  | _ => 0

def Encrypt.icvLen : Encrypt → ℕ
  | .wep40 | .wep104 | .tkip => 4
  | .aes => 8
  | .sms4 => 16
  | _ => 0

inductive FrameType where
  | mgt
  | ctrl
  | data
  | reserved
  deriving DecidableEq, Repr

structure RxPktAttrib where
  hdrlen : ℕ := 24
  toFrDs : ℕ := 0
  amsdu : Bool := false
  qos : Bool := false
  priority : ℕ := 0
  seqNum : Fin 4096 := 0
  fragNum : Fin 16 := 0
  mfrag : Bool := false
  privacy : Bool := false
  bdecrypted : Bool := false
  encrypt : Encrypt := .noPrivacy
  ivLen : ℕ := 0
  icvLen : ℕ := 0
  ethType : ℕ := 0
  dst : MacAddr := Vector.replicate 6 0
  src : MacAddr := Vector.replicate 6 0
  ta : MacAddr := Vector.replicate 6 0
  ra : MacAddr := Vector.replicate 6 0
  deriving DecidableEq, Repr

/-- One of the `NR_RECVFRAME` frames, named by `id`, with its buffer. -/
structure RecvFrame where
  id : ℕ := 0
  attrib : RxPktAttrib := {}
  headroom : ℕ := 0
  rxData : List UInt8 := []
  slack : List UInt8 := []
  deriving DecidableEq, Repr

namespace RecvFrame

def len (f : RecvFrame) : ℕ := f.rxData.length

def view (f : RecvFrame) : List UInt8 := f.rxData ++ f.slack

def recvframePull (f : RecvFrame) (sz : ℕ) : Option RecvFrame :=
  if sz ≤ f.len then
    some { f with headroom := f.headroom + sz, rxData := f.rxData.drop sz }
  else none

def recvframePullTail (f : RecvFrame) (sz : ℕ) : Option RecvFrame :=
  if sz ≤ f.len then
    some { f with rxData := f.rxData.take (f.len - sz)
                  slack := f.rxData.drop (f.len - sz) ++ f.slack }
  else none

/-- A copy to `rx_tail` followed by `recvframe_put`. When the put is refused the
copy has overwritten the slack (and, in the driver, what lies behind it). -/
def copyAndPut (f : RecvFrame) (bytes : List UInt8) : RecvFrame :=
  if bytes.length ≤ f.slack.length then
    { f with rxData := f.rxData ++ bytes, slack := f.slack.drop bytes.length }
  else { f with slack := bytes.take f.slack.length }

/-- Bytes written from `rx_data` on; the length does not change. -/
def overwrite (f : RecvFrame) (bytes : List UInt8) : RecvFrame :=
  let all := bytes ++ f.view.drop bytes.length
  { f with rxData := all.take f.len, slack := all.drop f.len }

theorem recvframePull_view {f g : RecvFrame} {sz : ℕ} (h : f.recvframePull sz = some g) :
    g.view = f.view.drop sz := by
  simp only [recvframePull] at h
  split_ifs at h with hsz
  obtain rfl := Option.some.inj h
  simp only [view, List.drop_append_of_le_length hsz]

theorem recvframePullTail_view {f g : RecvFrame} {sz : ℕ} (h : f.recvframePullTail sz = some g) :
    g.view = f.view := by
  simp only [recvframePullTail] at h
  split_ifs at h
  obtain rfl := Option.some.inj h
  simp only [view, ← List.append_assoc, List.take_append_drop]

theorem overwrite_view (f : RecvFrame) (bytes : List UInt8) :
    (f.overwrite bytes).view = bytes ++ f.view.drop bytes.length := by
  simp only [overwrite, view, List.take_append_drop]

theorem overwrite_len (f : RecvFrame) (bytes : List UInt8) : (f.overwrite bytes).len = f.len := by
  simp only [overwrite, len, view, List.length_take, List.length_append, List.length_drop]
  omega

/-- `GetFrameType` of the frame control word at `rx_data`. -/
def getFrameType (f : RecvFrame) : FrameType :=
  match (f.rxData.headD 0).toNat / 4 % 4 with
  | 0 => .mgt
  | 1 => .ctrl
  | 2 => .data
  | _ => .reserved

def getFrameSubType (f : RecvFrame) : ℕ := byteAt f.view 0 / 4 * 4

def addr2 (f : RecvFrame) : MacAddr := Vector.ofFn fun i : Fin 6 => f.view.getD (10 + i) 0

end RecvFrame

end Rtl8189
