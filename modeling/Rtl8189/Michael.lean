import Rtl8189.RecvFrame

/-!
# The Michael code

The message integrity code of TKIP. Bytes are gathered into words, and every full
word is mixed into the two halves of the state. The sender appends its message in
pieces; the receiver has `rtw_seccalctkipmic`.
-/
namespace Rtl8189.Michael

structure MicData where
  k0 : UInt32
  k1 : UInt32
  l : UInt32
  r : UInt32
  m : UInt32 := 0
  nBytesInM : ℕ := 0

def rol32 (a n : UInt32) : UInt32 := (a <<< n) ||| ((a >>> (32 - n)) &&& ((1 <<< n) - 1))

def ror32 (a n : UInt32) : UInt32 := rol32 a (32 - n)

def secmicgetuint32 (p : List UInt8) : UInt32 :=
  (List.range 4).foldl
    (fun res i => res ||| ((p.getD i 0).toUInt32 <<< (8 * UInt32.ofNat i))) 0

def secmicputuint32 (val : UInt32) : List UInt8 :=
  (List.range 4).map fun i => (val >>> (8 * UInt32.ofNat i)).toUInt8

def secmicclear (d : MicData) : MicData := { d with l := d.k0, r := d.k1, nBytesInM := 0, m := 0 }

def rtwSecmicsetkey (key : List UInt8) : MicData :=
  let k0 := secmicgetuint32 key
  let k1 := secmicgetuint32 (key.drop 4)
  { k0, k1, l := k0, r := k1 }

/-- A full word goes into `L` and `R`. -/
def secmicWord (l r m : UInt32) : UInt32 × UInt32 :=
  let l := l ^^^ m
  let r := r ^^^ rol32 l 17
  let l := l + r
  let r := r ^^^ (((l &&& 0xff00ff00) >>> 8) ||| ((l &&& 0x00ff00ff) <<< 8))
  let l := l + r
  let r := r ^^^ rol32 l 3
  let l := l + r
  let r := r ^^^ ror32 l 2
  (l + r, r)

def rtwSecmicappendbyte (d : MicData) (b : UInt8) : MicData :=
  let m := d.m ||| (b.toUInt32 <<< (8 * UInt32.ofNat d.nBytesInM))
  if 4 ≤ d.nBytesInM + 1 then
    let (l, r) := secmicWord d.l d.r m
    { d with l, r, m := 0, nBytesInM := 0 }
  else { d with m, nBytesInM := d.nBytesInM + 1 }

def rtwSecmicappend (d : MicData) (src : List UInt8) : MicData :=
  src.foldl rtwSecmicappendbyte d

def secmicPad (d : MicData) : MicData :=
  if d.nBytesInM = 0 then d else secmicPad (rtwSecmicappendbyte d 0)
termination_by if d.nBytesInM = 0 then 0 else 4 - d.nBytesInM + 1
decreasing_by
  simp only [rtwSecmicappendbyte]
  split_ifs
  all_goals simp_all
  all_goals omega

def rtwSecgetmic (d : MicData) : List UInt8 × MicData :=
  let d := secmicPad (rtwSecmicappend d [0x5a, 0, 0, 0, 0])
  (secmicputuint32 d.l ++ secmicputuint32 d.r, secmicclear d)

/-- `n` bytes from `&p[i]` on. -/
def bytesAt (p : List UInt8) (i n : ℕ) : List UInt8 := (p.drop i).take n

/-- Over the pseudo header (DA, SA, priority, three zeroes) and the data. -/
def rtwSeccalctkipmic (key header data : List UInt8) (pri : UInt8) : List UInt8 :=
  let micdata := rtwSecmicsetkey key
  let micdata :=
    if byteAt header 1 % 2 = 1 then
      let micdata := rtwSecmicappend micdata (bytesAt header 16 6)
      if byteAt header 1 / 2 % 2 = 1 then rtwSecmicappend micdata (bytesAt header 24 6)
      else rtwSecmicappend micdata (bytesAt header 10 6)
    else
      let micdata := rtwSecmicappend micdata (bytesAt header 4 6)
      if byteAt header 1 / 2 % 2 = 1 then rtwSecmicappend micdata (bytesAt header 16 6)
      else rtwSecmicappend micdata (bytesAt header 10 6)
  let micdata := rtwSecmicappend micdata [pri, 0, 0, 0]
  (rtwSecgetmic (rtwSecmicappend micdata data)).1

/-- The code of the empty message under the null key. -/
example : (rtwSecgetmic (rtwSecmicsetkey (List.replicate 8 0))).1 =
    [0x82, 0x92, 0x5c, 0x1c, 0xa1, 0xd1, 0x30, 0xb8] := by decide +kernel

theorem bytesAt_append {p : List UInt8} {i n : ℕ} (h : i + n ≤ p.length) (q : List UInt8) :
    bytesAt (p ++ q) i n = bytesAt p i n := by
  have hn : n ≤ (p.drop i).length := by
    rw [List.length_drop]
    omega
  rw [bytesAt, List.drop_append_of_le_length (by omega), List.take_append_of_le_length hn, bytesAt]

/-- The pseudo header is within the first 30 bytes, whatever the address fields. -/
theorem rtwSeccalctkipmic_append {p : List UInt8} (h : 30 ≤ p.length) (key q data : List UInt8)
    (pri : UInt8) : rtwSeccalctkipmic key (p ++ q) data pri = rtwSeccalctkipmic key p data pri := by
  rw [rtwSeccalctkipmic, byteAt_append_left (by omega), bytesAt_append (by omega),
    bytesAt_append (by omega), bytesAt_append (by omega), bytesAt_append (by omega),
    rtwSeccalctkipmic]

end Rtl8189.Michael
