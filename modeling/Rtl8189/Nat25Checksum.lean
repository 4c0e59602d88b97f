import Mathlib.Data.Nat.ModEq
import Rtl8189.InternetChecksum
import Rtl8189.Nat25Bounds

/-!
# Checksums of the frames that are rewritten

The bridge puts its own address in a message of neighbour discovery and has the checksum worked
out anew. In a DHCP request it sets the broadcast flag and adds it to the checksum.
-/
namespace Rtl8189.Nat25Checksum

open InternetChecksum Nat25Bounds Nat25Pppoe
open Nat25Db (ethPIp ethPIpv6)

/-! ## Neighbour discovery -/

def pseudo (saddr daddr : List UInt8) (len proto : ℕ) : List UInt8 :=
  saddr ++ (daddr ++ (be16Bytes (len / 65536) ++ (be16Bytes len ++
    (be16Bytes 0 ++ be16Bytes proto))))

/-- The checksums of the kernel. A checksum is given as the frame has it. -/
structure KernelCsum where
  csumPartial : List UInt8 → ℕ → ℕ
  csumIpv6Magic : List UInt8 → List UInt8 → ℕ → ℕ → ℕ → ℕ
  magic : ∀ (saddr daddr bytes : List UInt8) (len proto : ℕ), saddr.length = 16 →
    daddr.length = 16 → len < 2 ^ 32 → proto < 256 →
      csumIpv6Magic saddr daddr len proto (csumPartial bytes 0) =
        complement (wordSum true (pseudo saddr daddr len proto) + wordSum true bytes)

/-- The option at `c` of the message gets a new address. -/
structure Rewrites (f : List UInt8) (c : ℕ) : Prop where
  protocol : be16 f 12 = ethPIpv6
  long : 58 < f.length
  saddr : ¬ zeros f 22 16
  nexthdr : byteAt f 20 = 58
  option : ∃ start tag, ndOptions (byteAt f 54) = some (start, tag) ∧ start ≤ icmpLen f ∧
    OptionAt f start tag c ∧ Hit f tag c

def saddr (f : List UInt8) : List UInt8 := (f.drop 22).take 16

def daddr (f : List UInt8) : List UInt8 := (f.drop 38).take 16

def cleared (mac f : List UInt8) (c : ℕ) : List UInt8 :=
  putBytes (putBytes f (56 + c) mac) 56 (be16Bytes 0)

def memory (behind : ℕ → UInt8) (g : List UInt8) (start size : ℕ) : List UInt8 :=
  (List.range size).map fun i => g.getD (54 + (start + i)) (behind (54 + (start + i)))

/-- `update_nd_link_layer_addr`, and the checksum over `payload_len` as the processor reads it. -/
def updateNd (k : KernelCsum) (o : ByteOrder) (mac : List UInt8) (behind : ℕ → UInt8)
    (f : List UInt8) (c : ℕ) : List UInt8 :=
  let g := cleared mac f c
  let len := o.word (be16 f 18)
  putBytes g 56 (be16Bytes (k.csumIpv6Magic (saddr g) (daddr g) len 58
    (k.csumPartial (memory behind g 0 len) 0)))

/-- The checksum over the pseudo header and as many bytes as the header says. -/
def NdCorrect (f : List UInt8) : Prop :=
  be16 f 56 = complement (wordSum true (pseudo (saddr f) (daddr f) (be16 f 18) 58) +
    wordSum true (((putBytes f 56 (be16Bytes 0)).drop 54).take (be16 f 18)))

/-- The two lengths, and the bytes between them, cancel out. -/
def NdBalanced (o : ByteOrder) (mac : List UInt8) (behind : ℕ → UInt8) (f : List UInt8) (c : ℕ) :
    Prop :=
  let lo := min (be16 f 18) (o.word (be16 f 18))
  let gap := max (be16 f 18) (o.word (be16 f 18)) - lo
  (gap + wordSum (half true lo) (memory behind (cleared mac f c) lo gap)) % 65535 = 0

/-! ## DHCP requests -/

def udp (f : List UInt8) : ℕ := 14 + 4 * ihl f

def check (f : List UInt8) : ℕ := be16 f (udp f + 6)

def flags (f : List UInt8) : ℕ := be16 f (udp f + 18)

def broadcastFlag : ℕ := 0x8000

def IsRequest (f : List UInt8) : Prop :=
  be16 f 12 = ethPIp ∧ byteAt f 23 = 17 ∧ be16 f (udp f) = 68 ∧ be16 f (udp f + 2) = 67 ∧
    (f.drop (udp f + 244)).take 4 = [0x63, 0x82, 0x53, 0x63]

instance (f : List UInt8) : Decidable (IsRequest f) :=
  inferInstanceAs (Decidable (_ ∧ _ ∧ _ ∧ _ ∧ _))

def setBroadcast (o : ByteOrder) (f : List UInt8) : List UInt8 :=
  let flags := flags f ||| broadcastFlag
  let sum := 65535 - o.word (check f) + o.word flags
  putBytes (putBytes f (udp f + 18) (be16Bytes flags)) (udp f + 6)
    (be16Bytes (o.word (65535 - foldLoop sum)))

def dhcpFlagBcast (disabled : Bool) (o : ByteOrder) (f : List UInt8) : List UInt8 :=
  if disabled = false ∧ IsRequest f ∧ flags f < broadcastFlag then setBroadcast o f else f

structure Datagram (f : List UInt8) : Prop where
  ihl : 5 ≤ ihl f
  long : 248 ≤ be16 f (udp f + 4)
  fits : udp f + be16 f (udp f + 4) ≤ f.length

def datagramSum (f : List UInt8) : ℕ :=
  wordSum true ((f.drop 26).take 8) + (17 + be16 f (udp f + 4)) +
    wordSum true ((f.drop (udp f)).take (be16 f (udp f + 4)))

def Valid (f : List UInt8) : Prop := check f ≠ 0 ∧ foldLoop (datagramSum f) = 65535

def DhcpKept (f g : List UInt8) : Prop :=
  (check f = 0 → check g = 0) ∧ (check f ≠ 0 → (Valid g ↔ Valid f))

/-- The update leaves out the old flags, and takes any value for a checksum. -/
structure DhcpBalanced (f : List UInt8) : Prop where
  absent : check f = 0 → flags f = 0x7fff
  valid : Valid f → flags f = 0 ∧ check f ≠ broadcastFlag
  invalid : check f ≠ 0 → ¬ Valid f →
    (datagramSum f - flags f) % 65535 ≠ 0 ∨ check f = flags f + broadcastFlag

/-! ## Sums of words -/

variable {a b f mac : List UInt8} {n i : ℕ}

theorem wordSum_be16 (n : ℕ) (bs : List UInt8) :
    wordSum true (be16Bytes n ++ bs) = n % 65536 + wordSum true bs := by
  have hhi : (UInt8.ofNat (n / 256)).toNat = n / 256 % 256 := UInt8.toNat_ofNat'
  have hlo : (UInt8.ofNat n).toNat = n % 256 := UInt8.toNat_ofNat'
  simp only [be16Bytes, List.cons_append, List.nil_append, wordSum, hhi, hlo]
  omega

theorem wordSum_pseudo (ha : a.length = 16) (hb : b.length = 16) (hn : n < 65536) :
    wordSum true (pseudo a b n 58) = wordSum true a + wordSum true b + n + 58 := by
  have hproto : wordSum true (be16Bytes 58) = 58 := by decide
  have ha' : a.length % 2 = 0 := by omega
  have hb' : b.length % 2 = 0 := by omega
  have hzero : n / 65536 % 65536 = 0 := by omega
  rw [pseudo, wordSum_append_even ha', wordSum_append_even hb', wordSum_be16, wordSum_be16,
    wordSum_be16, hproto, hzero, Nat.mod_eq_of_lt hn]
  omega

theorem be16_append_left (h : i + 1 < a.length) (b : List UInt8) :
    be16 (a ++ b) i = be16 a i := by
  rw [be16, be16, byteAt_append_left (by omega), byteAt_append_left h]

theorem word_lt (o : ByteOrder) (n : ℕ) : o.word n < 65536 := by
  cases o <;> simp only [ByteOrder.word] <;> omega

/-! ## The checksum of a message -/

section Message

variable {c : ℕ}

theorem memory_append (f : List UInt8) (behind : ℕ → UInt8) (start size size' : ℕ) :
    memory behind f start (size + size') =
      memory behind f start size ++ memory behind f (start + size) size' := by
  unfold memory
  rw [List.range_add, List.map_append, List.map_map]
  congr 1
  refine List.map_congr_left fun i _ => ?_
  rw [Function.comp_apply, Nat.add_assoc start]

theorem memory_length (f : List UInt8) (behind : ℕ → UInt8) (start size : ℕ) :
    (memory behind f start size).length = size := by
  rw [memory, List.length_map, List.length_range]

theorem memory_eq (h : 54 + n ≤ f.length) (behind : ℕ → UInt8) :
    memory behind f 0 n = (f.drop 54).take n := by
  refine List.ext_getElem ?_ fun i hi hi' => ?_
  · rw [memory_length, List.length_take, List.length_drop]
    omega
  · rw [memory_length] at hi
    have hf : 54 + i < f.length := by omega
    simp only [memory, List.getElem_map, List.getElem_range, List.getElem_take, List.getElem_drop,
      Nat.zero_add]
    exact List.getD_eq_getElem _ _ hf

theorem ndSum_iff (m n base : ℕ) (f : List UInt8) (behind : ℕ → UInt8) :
    (base + n + wordSum true (memory behind f 0 n)) % 65535 =
        (base + m + wordSum true (memory behind f 0 m)) % 65535 ↔
      (max m n - min m n + wordSum (half true (min m n))
        (memory behind f (min m n) (max m n - min m n))) % 65535 = 0 := by
  have key : ∀ lo gap : ℕ, wordSum true (memory behind f 0 (lo + gap)) =
      wordSum true (memory behind f 0 lo) +
        wordSum (half true lo) (memory behind f lo gap) := by
    intro lo gap
    rw [memory_append, wordSum_append, memory_length, Nat.zero_add]
  rcases Nat.le_total m n with h | h
  · obtain ⟨gap, rfl⟩ := Nat.exists_eq_add_of_le h
    rw [min_eq_left h, max_eq_right h, Nat.add_sub_cancel_left, key]
    omega
  · obtain ⟨gap, rfl⟩ := Nat.exists_eq_add_of_le h
    rw [min_eq_right h, max_eq_left h, Nat.add_sub_cancel_left, key]
    omega

theorem cleared_eq (hlen : 58 ≤ f.length) (hmac : 56 + c + mac.length ≤ f.length) :
    ∃ r : List UInt8, cleared mac f c = f.take 56 ++ (be16Bytes 0 ++ r) ∧
      (cleared mac f c).length = f.length := by
  have hlen' : (putBytes f (56 + c) mac).length = f.length := by
    simp only [putBytes, List.length_append, List.length_take, List.length_drop]
    omega
  have hfits : 56 + 2 ≤ (putBytes f (56 + c) mac).length := by omega
  obtain ⟨a, b, r, hf, ha, hb⟩ := exists_pieces hfits
  have hpre : a = f.take 56 := by
    have htake := congrArg (List.take 56) hf
    rw [List.take_left' ha] at htake
    rw [← htake, putBytes, List.append_assoc, List.take_append_of_le_length, List.take_take]
    · congr 1
      omega
    · rw [List.length_take]
      omega
  have hput : cleared mac f c = f.take 56 ++ (be16Bytes 0 ++ r) := by
    rw [cleared, hf, hpre, putBytes_eq (hpre ▸ ha)]
    exact hb.symm
  refine ⟨r, hput, ?_⟩
  rw [hput, ← hpre, ← hlen', hf]
  simp only [List.length_append, be16Bytes_length, hb]

theorem header_eq (hlen : 56 ≤ f.length) (rest : List UInt8) :
    be16 (f.take 56 ++ rest) 18 = be16 f 18 ∧ saddr (f.take 56 ++ rest) = saddr f ∧
      daddr (f.take 56 ++ rest) = daddr f := by
  have hhd : (f.take 56).length = 56 := by
    rw [List.length_take]
    omega
  have haddr : ∀ n, n + 16 ≤ 56 →
      ((f.take 56 ++ rest).drop n).take 16 = (f.drop n).take 16 := by
    intro n hn
    have hdrop : 16 ≤ ((f.take 56).drop n).length := by
      rw [List.length_drop]
      omega
    rw [List.drop_append_of_le_length (by omega), List.take_append_of_le_length hdrop,
      List.drop_take, List.take_take, Nat.min_eq_left (by omega)]
  refine ⟨?_, haddr 22 (by omega), haddr 38 (by omega)⟩
  have hread := be16_append_left (i := 18) (by omega) (b := f.drop 56) (a := f.take 56)
  rw [List.take_append_drop] at hread
  rw [be16_append_left (by omega), ← hread]

theorem csum_eq (k : KernelCsum) {g : List UInt8} (bytes : List UInt8) (hs : (saddr g).length = 16)
    (hd : (daddr g).length = 16) (hn : n < 65536) :
    k.csumIpv6Magic (saddr g) (daddr g) n 58 (k.csumPartial bytes 0) =
      complement (wordSum true (saddr g) + wordSum true (daddr g) + 58 + n +
        wordSum true bytes) := by
  rw [k.magic _ _ _ _ _ hs hd (by omega) (by decide), wordSum_pseudo hs hd hn]
  congr 2
  omega

theorem nd_iff (k : KernelCsum) (o : ByteOrder) (behind : ℕ → UInt8) (hmac : mac.length = 6)
    (hre : Rewrites f c) (hfits : 54 + be16 f 18 ≤ f.length) :
    NdCorrect (updateNd k o mac behind f c) ↔ NdBalanced o mac behind f c := by
  obtain ⟨-, hlong, -, -, start, tag, -, -, -, -, -, hhit⟩ := hre
  have hroom : 56 + c + mac.length ≤ f.length := by
    unfold icmpLen at hhit
    omega
  obtain ⟨r, hg, hglen⟩ := cleared_eq hlong.le hroom
  have hhd : (f.take 56).length = 56 := by
    rw [List.length_take]
    omega
  have hL := be16_lt f 18
  have hs : (saddr f).length = 16 := by
    rw [saddr, List.length_take, List.length_drop]
    omega
  have hd : (daddr f).length = 16 := by
    rw [daddr, List.length_take, List.length_drop]
    omega
  have hheader := header_eq (hlong.le.trans' (by decide))
  obtain ⟨-, hgs, hgd⟩ := hheader (be16Bytes 0 ++ r)
  rw [← hg] at hgs hgd
  have hbody : ((cleared mac f c).drop 54).take (be16 f 18) =
      memory behind (cleared mac f c) 0 (be16 f 18) := (memory_eq (by omega) behind).symm
  have hcode := csum_eq k (memory behind (cleared mac f c) 0 (o.word (be16 f 18)))
    (hgs.symm ▸ hs) (hgd.symm ▸ hd) (word_lt o (be16 f 18))
  rw [hgs, hgd] at hcode
  have hcorrect : ∀ sum : ℕ, NdCorrect (putBytes (cleared mac f c) 56 (be16Bytes sum)) ↔
      sum % 65536 = complement (wordSum true (saddr f) + wordSum true (daddr f) + 58 +
        be16 f 18 + wordSum true (memory behind (cleared mac f c) 0 (be16 f 18))) := by
    intro sum
    have hput : putBytes (cleared mac f c) 56 (be16Bytes sum) =
        f.take 56 ++ (be16Bytes sum ++ r) := by
      rw [hg, putBytes_be16 hhd]
    obtain ⟨hlen, hsaddr, hdaddr⟩ := hheader (be16Bytes sum ++ r)
    rw [NdCorrect, hput, hlen, hsaddr, hdaddr, putBytes_be16 hhd, ← hg, hbody, be16_at hhd,
      be16_bytes, wordSum_pseudo hs hd hL]
    congr! 2
    omega
  rw [updateNd, hgs, hgd, hcode, hcorrect, Nat.mod_eq_of_lt (complement_lt _),
    complement_inj (by omega) (by omega), ndSum_iff]
  rfl

end Message

/-! ## The update of a request -/

section Request

variable {pre x y rest : List UInt8} {c m : ℕ}

theorem word_modEq (o : ByteOrder) :
    ∃ s, s * s ≡ 1 [MOD 65535] ∧ ∀ n < 65536, o.word n ≡ s * n [MOD 65535] := by
  cases o with
  | little =>
    refine ⟨256, rfl, fun n hn => ?_⟩
    have hval : 256 * n = ByteOrder.little.word n + 65535 * (n / 256) := by
      simp only [ByteOrder.word]
      omega
    unfold Nat.ModEq
    omega
  | big => exact ⟨1, rfl, fun n hn => by rw [ByteOrder.word, Nat.mod_eq_of_lt hn, Nat.one_mul]⟩

theorem update_sum (o : ByteOrder) (hc : c < 65536) (hm : m < 65536) :
    o.word (65535 - foldLoop (65535 - o.word c + o.word m)) + m ≡ c [MOD 65535] := by
  obtain ⟨s, hs, hword⟩ := word_modEq o
  have hle := foldLoop_le (65535 - o.word c + o.word m)
  have hmod := foldLoop_mod (65535 - o.word c + o.word m)
  have hlt := word_lt o c
  have hsum : 65535 - foldLoop (65535 - o.word c + o.word m) + o.word m ≡ o.word c
      [MOD 65535] := by
    unfold Nat.ModEq
    omega
  generalize hd : 65535 - foldLoop (65535 - o.word c + o.word m) = d at hsum ⊢
  have hback : ∀ n < 65536, s * o.word n ≡ n [MOD 65535] := by
    intro n hn
    have hinv : s * s * n ≡ 1 * n [MOD 65535] := hs.mul_right n
    rw [Nat.mul_assoc, Nat.one_mul] at hinv
    exact ((hword n hn).mul_left s).trans hinv
  calc o.word d + m
      ≡ s * d + s * o.word m [MOD 65535] := (hword d (by omega)).add (hback m hm).symm
    _ = s * (d + o.word m) := (Nat.mul_add _ _ _).symm
    _ ≡ s * o.word c [MOD 65535] := hsum.mul_left s
    _ ≡ c [MOD 65535] := hback c hc

theorem update_zero (o : ByteOrder) (hc : c < 65536) (hm : m < 65536) (hpos : 0 < m) :
    o.word (65535 - foldLoop (65535 - o.word c + o.word m)) = 0 ↔ m ≡ c [MOD 65535] := by
  have hsum := update_sum o hc hm
  have hlt := word_lt o (65535 - foldLoop (65535 - o.word c + o.word m))
  constructor
  · intro hzero
    rwa [hzero, Nat.zero_add] at hsum
  · intro heq
    -- the flags are not zero, and so the sum folds to no zero
    have hword : 0 < o.word m := by
      cases o <;> simp only [ByteOrder.word] <;> omega
    have htop : o.word (65535 - foldLoop (65535 - o.word c + o.word m)) ≠ 65535 := by
      have hfold : 0 < foldLoop (65535 - o.word c + o.word m) := by
        rw [foldLoop_eq, if_neg (by omega)]
        exact Nat.succ_pos _
      generalize foldLoop (65535 - o.word c + o.word m) = t at hfold
      cases o <;> simp only [ByteOrder.word] <;> omega
    generalize o.word (65535 - foldLoop (65535 - o.word c + o.word m)) = d at hsum hlt htop
    unfold Nat.ModEq at hsum heq
    omega

theorem be16Bytes_be16 (h : x.length = 2) : be16Bytes (be16 x 0) = x := by
  obtain ⟨hi, lo, rfl⟩ := List.length_eq_two.mp h
  have hread : be16 [hi, lo] 0 = 256 * hi.toNat + lo.toNat := rfl
  have hlt := lo.toNat_lt
  have hdiv : (256 * hi.toNat + lo.toNat) / 256 = hi.toNat := by omega
  have hlo : UInt8.ofNat (256 * hi.toNat + lo.toNat) = lo := by
    refine UInt8.toNat_inj.mp ?_
    rw [UInt8.toNat_ofNat']
    omega
  rw [hread, be16Bytes, hdiv, hlo, UInt8.ofNat_toNat]

def layout (pre x y rest : List UInt8) (c m : ℕ) : List UInt8 :=
  pre ++ (x ++ (be16Bytes c ++ (y ++ (be16Bytes m ++ rest))))

/-- The headers in front of the datagram, and the parts of the datagram. -/
structure Parts (pre x y : List UInt8) : Prop where
  long : 34 ≤ pre.length
  udp : 14 + 4 * ihl pre = pre.length
  head : x.length = 6
  mid : y.length = 10

theorem split_be16 {l : List UInt8} {i : ℕ} (h : i + 2 ≤ l.length) :
    l = l.take i ++ (be16Bytes (be16 l i) ++ l.drop (i + 2)) := by
  have htwo : ((l.drop i).take 2).length = 2 := by
    rw [List.length_take, List.length_drop]
    omega
  have hread : be16 l i = be16 ((l.drop i).take 2) 0 := by
    rw [← be16_append_left (a := (l.drop i).take 2) (i := 0) (by omega) ((l.drop i).drop 2),
      List.take_append_drop, be16_drop]
    rfl
  rw [hread, be16Bytes_be16 htwo, ← List.drop_drop, List.take_append_drop, List.take_append_drop]

theorem exists_layout (h : Datagram f) : ∃ pre x y rest : List UInt8, Parts pre x y ∧
    f = layout pre x y rest (check f) (flags f) := by
  obtain ⟨hihl, hlong, hfits⟩ := h
  have hudp : 34 ≤ udp f := by
    unfold udp
    omega
  have hpre : (f.take (udp f)).length = udp f := by
    rw [List.length_take]
    omega
  have hsplit := split_be16 (l := f) (i := udp f + 6) (by omega)
  have hsplit' := split_be16 (l := f.drop (udp f + 6 + 2)) (i := 10) (by
    rw [List.length_drop]
    omega)
  rw [be16_drop] at hsplit'
  refine ⟨f.take (udp f), (f.drop (udp f)).take 6, (f.drop (udp f + 6 + 2)).take 10,
    (f.drop (udp f + 6 + 2)).drop (10 + 2), ⟨?_, ?_, ?_, ?_⟩, ?_⟩
  · omega
  · have hread : byteAt (f.take (udp f)) 14 = byteAt f 14 := by
      rw [← byteAt_append_left (by omega) (f.drop (udp f)), List.take_append_drop]
    rw [hpre, ihl, hread]
    rfl
  · rw [List.length_take, List.length_drop]
    omega
  · rw [List.length_take, List.length_drop]
    omega
  · rw [layout, ← List.append_assoc, ← List.take_add]
    refine hsplit.trans ?_
    rw [check, flags]
    congr 2

theorem layout_udp (hp : Parts pre x y) : udp (layout pre x y rest c m) = pre.length := by
  have hlong := hp.long
  rw [udp, ihl, layout, byteAt_append_left (by omega)]
  exact hp.udp

theorem layout_check (rest : List UInt8) (c m : ℕ) (hp : Parts pre x y) :
    check (layout pre x y rest c m) = c % 65536 := by
  rw [check, layout_udp hp, layout, be16_append_right, be16_at hp.head, be16_bytes]

theorem layout_flags (hp : Parts pre x y) : flags (layout pre x y rest c m) = m % 65536 := by
  have hfront : (x ++ (be16Bytes c ++ y)).length = 18 := by
    simp only [List.length_append, be16Bytes_length, hp.head, hp.mid]
  have hassoc : x ++ (be16Bytes c ++ (y ++ (be16Bytes m ++ rest))) =
      (x ++ (be16Bytes c ++ y)) ++ (be16Bytes m ++ rest) := by
    simp only [List.append_assoc]
  rw [flags, layout_udp hp, layout, be16_append_right, hassoc, be16_at hfront, be16_bytes]

theorem layout_sum (rest : List UInt8) (hp : Parts pre x y) (hlong : 20 ≤ be16 x 4) :
    ∃ others, 0 < others ∧ ∀ c m,
      datagramSum (layout pre x y rest c m) = others + c % 65536 + m % 65536 := by
  refine ⟨wordSum true ((pre.drop 26).take 8) + (17 + be16 x 4) + wordSum true x +
    wordSum true y + wordSum true (rest.take (be16 x 4 - 20)), by omega, fun c m => ?_⟩
  have hlen : be16 (layout pre x y rest c m) (pre.length + 4) = be16 x 4 := by
    have hhead := hp.head
    rw [layout, be16_append_right, be16_append_left (by omega)]
  have haddr : ((layout pre x y rest c m).drop 26).take 8 = (pre.drop 26).take 8 := by
    have hpre := hp.long
    have hdrop : 8 ≤ (pre.drop 26).length := by
      rw [List.length_drop]
      omega
    rw [layout, List.drop_append_of_le_length (by omega), List.take_append_of_le_length hdrop]
  have hdata : ((layout pre x y rest c m).drop pre.length).take (be16 x 4) =
      x ++ (be16Bytes c ++ (y ++ (be16Bytes m ++ rest.take (be16 x 4 - 20)))) := by
    rw [layout, List.drop_left]
    have hassoc : ∀ r, x ++ (be16Bytes c ++ (y ++ (be16Bytes m ++ r))) =
        (x ++ (be16Bytes c ++ (y ++ be16Bytes m))) ++ r := by
      intro r
      simp only [List.append_assoc]
    have hfront : (x ++ (be16Bytes c ++ (y ++ be16Bytes m))).length = 20 := by
      simp only [List.length_append, be16Bytes_length, hp.head, hp.mid]
    rw [hassoc, hassoc, List.take_append, hfront, List.take_of_length_le (by omega)]
  have hx : x.length % 2 = 0 := by rw [hp.head]
  have hy : y.length % 2 = 0 := by rw [hp.mid]
  rw [datagramSum, layout_udp hp, hlen, haddr, hdata, wordSum_append_even hx, wordSum_be16,
    wordSum_append_even hy, wordSum_be16]
  omega

theorem setBroadcast_layout (o : ByteOrder) (rest : List UInt8) (hp : Parts pre x y)
    (hc : c < 65536) (hm : m < broadcastFlag) :
    setBroadcast o (layout pre x y rest c m) = layout pre x y rest
      (o.word (65535 - foldLoop (65535 - o.word c + o.word (m + broadcastFlag))))
      (m + broadcastFlag) := by
  have hor : m ||| broadcastFlag = m + broadcastFlag := by
    have h := Nat.two_pow_add_eq_or_of_lt (i := 15) hm 1
    rw [Nat.or_comm, Nat.add_comm]
    exact h.symm
  have hm' : m < 65536 := by
    unfold broadcastFlag at hm
    omega
  have hfront : (pre ++ (x ++ (be16Bytes c ++ y))).length = pre.length + 18 := by
    simp only [List.length_append, be16Bytes_length, hp.head, hp.mid]
  have hhead : (pre ++ x).length = pre.length + 6 := by
    rw [List.length_append, hp.head]
  have hassoc : ∀ r, layout pre x y r c m =
      (pre ++ (x ++ (be16Bytes c ++ y))) ++ (be16Bytes m ++ r) := by
    intro r
    simp only [layout, List.append_assoc]
  rw [setBroadcast, layout_check _ _ _ hp, layout_flags hp, layout_udp hp, Nat.mod_eq_of_lt hc,
    Nat.mod_eq_of_lt hm', hor, hassoc, putBytes_be16 hfront]
  simp only [List.append_assoc]
  rw [← List.append_assoc pre x, putBytes_be16 hhead, layout, List.append_assoc]

theorem layout_valid {others : ℕ} (hp : Parts pre x y) (hpos : 0 < others)
    (hsum : datagramSum (layout pre x y rest c m) = others + c % 65536 + m % 65536)
    (hc : c < 65536) (hm : m < 65536) :
    Valid (layout pre x y rest c m) ↔ c ≠ 0 ∧ (others + c + m) % 65535 = 0 := by
  rw [Valid, layout_check _ _ _ hp, hsum, Nat.mod_eq_of_lt hc, Nat.mod_eq_of_lt hm,
    foldLoop_eq_top (by omega)]

theorem balanced_iff {t c c' m : ℕ} (hc : c < 65536) (hc' : c' < 65536) (hm : m < 0x8000)
    (hsum : c' + (m + 0x8000) ≡ c [MOD 65535]) (hzero : c' = 0 ↔ m + 0x8000 ≡ c [MOD 65535]) :
    (c = 0 → c' = 0) ∧ (c ≠ 0 → (c' ≠ 0 ∧ (t + c' + (m + 0x8000)) % 65535 = 0 ↔
        c ≠ 0 ∧ (t + c + m) % 65535 = 0)) ↔
      (c = 0 → m = 0x7fff) ∧ (c ≠ 0 ∧ (t + c + m) % 65535 = 0 → m = 0 ∧ c ≠ 0x8000) ∧
        (c ≠ 0 → ¬ (c ≠ 0 ∧ (t + c + m) % 65535 = 0) →
          (t + c) % 65535 ≠ 0 ∨ c = m + 0x8000) := by
  have hnew : (t + c' + (m + 0x8000)) % 65535 = (t + c) % 65535 := by
    rw [Nat.add_assoc]
    exact hsum.add_left t
  have hgone : c' = 0 ↔ c = m + 0x8000 ∨ (c = 0 ∧ m = 0x7fff) := by
    rw [hzero, Nat.ModEq]
    omega
  have hflags : (t + c) % 65535 = 0 → ((t + c + m) % 65535 = 0 ↔ m = 0) := by omega
  rw [hnew, Ne, hgone]
  by_cases hcz : c = 0
  · subst hcz
    omega
  · -- the sum without the flags, then the sum with them
    by_cases hrest : (t + c) % 65535 = 0
    · rw [hflags hrest]
      omega
    · by_cases hvalid : (t + c + m) % 65535 = 0
      · omega
      · omega

theorem dhcp_iff (o : ByteOrder) (disabled : Bool) (h : Datagram f)
    (hchange : dhcpFlagBcast disabled o f ≠ f) :
    DhcpKept f (dhcpFlagBcast disabled o f) ↔ DhcpBalanced f := by
  have hguard : disabled = false ∧ IsRequest f ∧ flags f < broadcastFlag := by
    by_contra hguard
    exact hchange (if_neg hguard)
  have hm := hguard.2.2
  obtain ⟨pre, x, y, rest, hp, hf⟩ := exists_layout h
  have hc : check f < 65536 := be16_lt _ _
  have hlong : 20 ≤ be16 x 4 := by
    have hread : be16 f (udp f + 4) = be16 x 4 := by
      have hhead := hp.head
      rw [hf, layout_udp hp, layout, be16_append_right, be16_append_left (by omega)]
    have := h.long
    omega
  obtain ⟨others, hpos, hsum⟩ := layout_sum rest hp hlong
  rw [dhcpFlagBcast, if_pos hguard]
  generalize hck : check f = c at hf hc
  generalize hfl : flags f = m at hf hm
  have hnew := setBroadcast_layout o rest hp hc hm
  rw [← hf] at hnew
  unfold broadcastFlag at hm hnew
  have hm' : m + 0x8000 < 65536 := by omega
  have hword := word_lt o (65535 - foldLoop (65535 - o.word c + o.word (m + 0x8000)))
  have hcsum := update_sum o hc hm'
  have hczero := update_zero o hc hm' (Nat.succ_pos _)
  generalize o.word (65535 - foldLoop (65535 - o.word c + o.word (m + 0x8000))) = c'
    at hnew hword hcsum hczero
  have hvalid := layout_valid hp hpos (hsum c m) hc (by omega)
  have hvalid' := layout_valid hp hpos (hsum c' (m + 0x8000)) hword hm'
  have hcheck := layout_check rest c' (m + 0x8000) hp
  have hall := hsum c m
  rw [← hf] at hvalid hall
  rw [← hnew] at hvalid' hcheck
  have hkept : DhcpKept f (setBroadcast o f) ↔
      (c = 0 → c' = 0) ∧ (c ≠ 0 → (c' ≠ 0 ∧ (others + c' + (m + 0x8000)) % 65535 = 0 ↔
        c ≠ 0 ∧ (others + c + m) % 65535 = 0)) := by
    rw [DhcpKept, hvalid, hvalid', hck, hcheck, Nat.mod_eq_of_lt hword]
  have hbalanced : DhcpBalanced f ↔ (c = 0 → m = 0x7fff) ∧
      (c ≠ 0 ∧ (others + c + m) % 65535 = 0 → m = 0 ∧ c ≠ 0x8000) ∧
      (c ≠ 0 → ¬ (c ≠ 0 ∧ (others + c + m) % 65535 = 0) →
        (others + c) % 65535 ≠ 0 ∨ c = m + 0x8000) := by
    have hrest : datagramSum f - flags f = others + c := by
      rw [hall, hfl]
      omega
    constructor
    · rintro ⟨habsent, hv, hi⟩
      rw [hck, hfl] at habsent
      rw [hvalid, hck, hfl] at hv
      rw [hvalid, hck, hrest, hfl] at hi
      exact ⟨habsent, hv, hi⟩
    · rintro ⟨habsent, hv, hi⟩
      refine ⟨?_, ?_, ?_⟩
      · rwa [hck, hfl]
      · rwa [hvalid, hck, hfl]
      · rwa [hvalid, hck, hrest, hfl]
  rw [hkept, hbalanced]
  exact balanced_iff hc hword hm hcsum hczero

end Request

theorem setBroadcast_ne {o : ByteOrder} (h : Datagram f)
    (hguard : IsRequest f ∧ flags f < broadcastFlag) : dhcpFlagBcast false o f ≠ f := by
  obtain ⟨pre, x, y, rest, hp, hf⟩ := exists_layout h
  have hc : check f < 65536 := be16_lt _ _
  have hnew := setBroadcast_layout o rest hp hc hguard.2
  rw [← hf] at hnew
  rw [dhcpFlagBcast, if_pos ⟨rfl, hguard⟩, hnew]
  intro heq
  have hflags := congrArg flags heq
  have hm := hguard.2
  rw [layout_flags hp] at hflags
  unfold broadcastFlag at hflags hm
  omega

/-- The code keeps the checksums where the lengths cancel out, and where no flag was set. -/
theorem checksums_iff (k : KernelCsum) (o : ByteOrder) :
    (∀ mac behind f c, mac.length = 6 → Rewrites f c → 54 + be16 f 18 ≤ f.length →
        (NdCorrect (updateNd k o mac behind f c) ↔ NdBalanced o mac behind f c)) ∧
      ∀ disabled f, Datagram f → dhcpFlagBcast disabled o f ≠ f →
        (DhcpKept f (dhcpFlagBcast disabled o f) ↔ DhcpBalanced f) :=
  ⟨fun _ behind _ _ hmac hre hfits => nd_iff k o behind hmac hre hfits,
    fun disabled _ h hchange => dhcp_iff o disabled h hchange⟩

def kernel : KernelCsum where
  csumPartial bytes sum := sum + wordSum true bytes
  csumIpv6Magic saddr daddr len proto sum :=
    complement (wordSum true (pseudo saddr daddr len proto) + sum)
  magic saddr daddr bytes len proto _ _ _ _ := by rw [Nat.zero_add]

def request (check flags : List UInt8) : List UInt8 :=
  List.replicate 12 2 ++ ([8, 0, 0x45] ++ (List.replicate 8 0 ++ (17 :: (List.replicate 10 0 ++
    ([0, 68, 0, 67, 0, 248] ++ (check ++ (List.replicate 10 0 ++ (flags ++
      (List.replicate 224 0 ++ [0x63, 0x82, 0x53, 0x63])))))))))

theorem request_datagram : Datagram (request [0, 0] [0, 0]) ∧ Datagram (request [1, 2] [0, 0]) :=
  ⟨⟨by decide +kernel, by decide +kernel, by decide +kernel⟩,
    ⟨by decide +kernel, by decide +kernel, by decide +kernel⟩⟩

def solicited : List UInt8 := (solicitation 1).set 78 1

theorem solicited_rewrites : Rewrites solicited 24 :=
  ⟨by decide +kernel, by decide +kernel, by decide +kernel, by decide +kernel,
    24, 1, by decide +kernel, by decide +kernel, .first, by decide +kernel⟩

theorem wordSum_zeros (upper : Bool) (n : ℕ) : wordSum upper (List.replicate n 0) = 0 := by
  induction n generalizing upper with
  | zero => cases upper <;> rfl
  | succ n ih => cases upper <;> exact (Nat.zero_add _).trans (ih _)

theorem memory_zeros {g : List UInt8} {start : ℕ} (h : g.length ≤ 54 + start) (n : ℕ) :
    memory (fun _ => 0) g start n = List.replicate n 0 := by
  refine List.eq_replicate_iff.mpr ⟨memory_length _ _ _ _, fun b hb => ?_⟩
  obtain ⟨i, -, rfl⟩ := List.mem_map.mp hb
  exact List.getD_eq_default _ _ (by omega)

/-- On a little-endian processor a sum over 32 bytes becomes one over 8192; and a request without a
checksum gets one. -/
theorem checksums_lost :
    (Rewrites solicited 24 ∧ 54 + be16 solicited 18 ≤ solicited.length ∧
      ¬ NdCorrect (updateNd kernel .little (List.replicate 6 2) (fun _ => 0) solicited 24)) ∧
    (Datagram (request [0, 0] [0, 0]) ∧
      dhcpFlagBcast false .little (request [0, 0] [0, 0]) ≠ request [0, 0] [0, 0] ∧
      ¬ DhcpKept (request [0, 0] [0, 0])
        (dhcpFlagBcast false .little (request [0, 0] [0, 0]))) := by
  have hfits : 54 + be16 solicited 18 ≤ solicited.length := by decide +kernel
  have hrequest := request_datagram.1
  have hchange : dhcpFlagBcast false .little (request [0, 0] [0, 0]) ≠ request [0, 0] [0, 0] :=
    setBroadcast_ne hrequest (by decide +kernel)
  refine ⟨⟨solicited_rewrites, hfits, ?_⟩, hrequest, hchange, ?_⟩
  · have hlen : (cleared (List.replicate 6 2) solicited 24).length ≤ 54 + 32 := by decide +kernel
    have hlo : min (be16 solicited 18) (ByteOrder.little.word (be16 solicited 18)) = 32 := by
      decide +kernel
    have hhi : max (be16 solicited 18) (ByteOrder.little.word (be16 solicited 18)) = 8192 := by
      decide +kernel
    rw [nd_iff kernel .little _ rfl solicited_rewrites hfits, NdBalanced, hlo, hhi,
      memory_zeros hlen, wordSum_zeros]
    decide
  · rw [dhcp_iff .little false hrequest hchange]
    intro h
    exact absurd (h.absent (by decide +kernel)) (by decide +kernel)

theorem checksums_kept :
    NdCorrect (updateNd kernel .big (List.replicate 6 2) (fun _ => 0) solicited 24) ∧
      DhcpKept (request [1, 2] [0, 0]) (dhcpFlagBcast false .big (request [1, 2] [0, 0])) := by
  have hrequest := request_datagram.2
  have hflags : flags (request [1, 2] [0, 0]) = 0 := by decide +kernel
  have hcheck : check (request [1, 2] [0, 0]) = 258 := by decide +kernel
  obtain ⟨hnd, hdhcp⟩ := checksums_iff kernel .big
  refine ⟨(hnd _ _ _ _ rfl solicited_rewrites (by decide +kernel)).mpr ?_,
    (hdhcp false _ hrequest (setBroadcast_ne hrequest (by decide +kernel))).mpr
      ⟨fun h => ?_, fun _ => ⟨hflags, ?_⟩, fun hne hinvalid => .inl ?_⟩⟩
  · rw [NdBalanced]
    decide +kernel
  · rw [hcheck] at h
    exact absurd h (by decide)
  · rw [hcheck]
    decide
  · rw [hflags, Nat.sub_zero]
    intro hsum
    refine hinvalid ⟨hne, (foldLoop_eq_top ?_).mpr hsum⟩
    unfold datagramSum
    omega

end Rtl8189.Nat25Checksum
