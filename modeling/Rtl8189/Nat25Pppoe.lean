import Mathlib.Data.List.GetD
import Rtl8189.ElemList
import Rtl8189.Nat25Db

/-!
# The relay tag of PPPoE discovery

With `addPPPoETag` the bridge puts the client's address in a relay tag of the frames that it
sends, and takes it out of the answers. An old relay tag is wrapped into the new one.
-/
namespace Rtl8189.Nat25Pppoe

open ElemList Nat25Db

/-! ## Tags -/

structure Tag where
  type : Fin 65536
  value : List UInt8
  fits : value.length < 65536
deriving DecidableEq

def Tag.bytes (t : Tag) : List UInt8 :=
  be16Bytes t.type ++ (be16Bytes t.value.length ++ t.value)

def encode (ts : List Tag) : List UInt8 := ts.flatMap Tag.bytes

/-- `PTT_RELAY_SID` -/
def relaySid : Fin 65536 := 0x0110

def magicCode : ℕ := 0x8186

/-- A frame of the discovery phase, as it should be. -/
structure Discovery where
  da : MacAddr
  sa : MacAddr
  verType : UInt8 := 0x11
  code : UInt8
  sid : ℕ := 0
  tags : List Tag
  pad : List UInt8 := []
  fits : (encode tags).length < 65536

def Discovery.head (f : Discovery) : List UInt8 :=
  f.da.toList ++ (f.sa.toList ++ ([0x88, 0x63, f.verType, f.code] ++ be16Bytes f.sid))

def Discovery.bytes (f : Discovery) : List UInt8 :=
  f.head ++ (be16Bytes (encode f.tags).length ++ (encode f.tags ++ f.pad))

/-! ## The code -/

/-- The bytes of the frame and those between its tail and the end of the buffer. -/
structure SkBuff where
  data : List UInt8
  room : List UInt8
deriving DecidableEq

inductive ByteOrder where
  | little
  | big
deriving DecidableEq

/-- What the processor reads where `n` is in network order. -/
def ByteOrder.word : ByteOrder → ℕ → ℕ
  | .big, n => n % 65536
  | .little, n => 256 * (n % 256) + n / 256 % 256

/-- The tags start at 20; a tag is found at its offset behind that. -/
def findFrom (data : List UInt8) (type length : ℕ) : ℕ → ℕ → Option ℕ
  | 0, _ => none
  | fuel + 1, cur =>
    if cur < length then
      if be16 data (20 + cur) = type then some cur
      else findFrom data type length fuel (cur + 4 + be16 data (20 + cur + 2))
    else none

def nat25FindPppoeTag (data : List UInt8) (type : ℕ) : Option ℕ :=
  findFrom data type (be16 data 18) (be16 data 18) 0

/-- `behind` is what the stack has behind the tag. -/
def nat25AddPppoeTag (o : ByteOrder) (behind : ℕ → UInt8) (skb : SkBuff) (tag : List UInt8) :
    Option SkBuff :=
  let dataLen := o.word (be16 tag 2) + 4
  if skb.room.length < dataLen then none
  else
    let length := be16 skb.data 18
    let data := skb.data ++ skb.room.take dataLen
    let data := moveBytes data (20 + dataLen) 20 length
    let data := putBytes data 18 (be16Bytes (length + dataLen))
    let src := (List.range dataLen).map fun i => tag.getD i (behind i)
    some ⟨putBytes data 20 src, skb.room.drop dataLen⟩

def skbPullAndMerge (skb : SkBuff) (src len : ℕ) : Option SkBuff :=
  if skb.data.length < src + len then none
  else
    let data := moveBytes skb.data src (src + len) (skb.data.length - (src + len))
    some ⟨data.take (skb.data.length - len), data.drop (skb.data.length - len) ++ skb.room⟩

def SkBuff.put (skb : SkBuff) (i : ℕ) (bytes : List UInt8) : SkBuff :=
  { skb with data := putBytes skb.data i bytes }

def relayValue (mac old : List UInt8) : List UInt8 := be16Bytes magicCode ++ (mac ++ old)

def relayBytes (mac old : List UInt8) : List UInt8 :=
  be16Bytes relaySid ++ (be16Bytes (8 + old.length) ++ relayValue mac old)

def addRelay (o : ByteOrder) (behind : ℕ → UInt8) (skb : SkBuff) (old : List UInt8) :
    ℤ × SkBuff :=
  match nat25AddPppoeTag o behind skb (relayBytes ((skb.data.drop 6).take 6) old) with
  | none => (-1, skb)
  | some skb => (0, skb)

/-- The buffer of the tag has 40 bytes. -/
def insertRelay (o : ByteOrder) (behind : ℕ → UInt8) (skb : SkBuff) : ℤ × SkBuff :=
  match nat25FindPppoeTag skb.data relaySid with
  | none => addRelay o behind skb []
  | some p =>
    let oldLen := be16 skb.data (20 + p + 2)
    if 40 < oldLen + 4 + 2 + 6 then (-1, skb)
    else
      let old := (skb.data.drop (20 + p + 4)).take oldLen
      match skbPullAndMerge skb (20 + p) (4 + oldLen) with
      | none => (-1, skb)
      | some skb =>
        addRelay o behind (skb.put 18 (be16Bytes (be16 skb.data 18 + 65536 - 4 - oldLen))) old

/-- The tag at `p` loses what the insert has put there: all of it, or its front. -/
def dropFront (skb : SkBuff) (p tagLen : ℕ) : ℤ × SkBuff :=
  let offset := if 2 + 6 < tagLen then 4 else 0
  match skbPullAndMerge skb (20 + p + offset) (4 + 2 + 6 - offset) with
  | none => (-1, skb)
  | some skb =>
    let skb := skb.put 18 (be16Bytes (be16 skb.data 18 + 65536 - (4 + 2 + 6 - offset)))
    if 0 < offset then (0, skb.put (20 + p + 2) (be16Bytes (tagLen - 2 - 6))) else (0, skb)

def lookupRelay (skb : SkBuff) : ℤ × SkBuff :=
  match nat25FindPppoeTag skb.data relaySid with
  | none => (-1, skb)
  | some p =>
    let tagLen := be16 skb.data (20 + p + 2)
    if be16 skb.data (20 + p) ≠ relaySid ∨ tagLen < 2 + 6 then (-1, skb)
    else if be16 skb.data (20 + p + 4) ≠ magicCode then (-1, skb)
    else dropFront (skb.put 0 ((skb.data.drop (20 + p + 4 + 2)).take 6)) p tagLen

def padi : UInt8 := 0x09
def pado : UInt8 := 0x07
def padr : UInt8 := 0x19
def pads : UInt8 := 0x65

/-- `nat25_db_handle` on a frame of the discovery phase, with `addPPPoETag`. -/
def handleDiscovery (o : ByteOrder) (behind : ℕ → UInt8) (skb : SkBuff) :
    Nat25Method → ℤ × SkBuff
  | .check => (0, skb)
  | .insert =>
    if byteAt skb.data 15 = padi.toNat ∨ byteAt skb.data 15 = padr.toNat then
      insertRelay o behind skb
    else (-1, skb)
  | .lookup =>
    if byteAt skb.data 15 = pado.toNat ∨ byteAt skb.data 15 = pads.toNat then lookupRelay skb
    else (-1, skb)
  | .parse => (-1, skb)

/-- Whatever frame brings the tags of the insert back, the client gets it with its own tags. -/
def RoundTrip (o : ByteOrder) (behind : ℕ → UInt8) (f : Discovery) (room : List UInt8) : Prop :=
  ∃ (g : Discovery) (room' : List UInt8),
    handleDiscovery o behind ⟨f.bytes, room⟩ .insert = (0, ⟨g.bytes, room'⟩) ∧
      ∀ (e : Discovery) (back : List UInt8), e.code = pado ∨ e.code = pads → e.tags = g.tags →
        ∃ (e' : Discovery) (back' : List UInt8),
          handleDiscovery o behind ⟨e.bytes, back⟩ .lookup = (0, ⟨e'.bytes, back'⟩) ∧
            e'.da = f.sa ∧ e'.tags.Perm f.tags

def oldRelay (f : Discovery) : Option Tag := f.tags.find? fun t => t.type = relaySid

def Accepted (f : Discovery) : Prop := ∀ t ∈ oldRelay f, t.value.length ≤ 28

def added (f : Discovery) : ℕ := if (oldRelay f).isSome then 8 else 12

structure Meets (o : ByteOrder) (f : Discovery) (room : List UInt8) : Prop where
  order : o = .big
  filled : ∀ t ∈ oldRelay f, t.value ≠ []
  tailroom : added f ≤ room.length
  length : (encode f.tags).length + added f < 65536

/-! ## Bytes at a place -/

variable {pre old rest bytes : List UInt8} {i n : ℕ}

theorem be16_at (hi : pre.length = i) (rest : List UInt8) : be16 (pre ++ rest) i = be16 rest 0 := by
  subst hi
  exact be16_append_right pre rest 0

theorem be16_bytes (n : ℕ) (rest : List UInt8) : be16 (be16Bytes n ++ rest) 0 = n % 65536 := by
  have hhi : byteAt (be16Bytes n ++ rest) 0 = n / 256 % 256 := rfl
  have hlo : byteAt (be16Bytes n ++ rest) 1 = n % 256 := rfl
  simp only [be16, hhi, hlo]
  omega

@[simp] theorem be16Bytes_length (n : ℕ) : (be16Bytes n).length = 2 := rfl

theorem putBytes_eq (hi : pre.length = i) (h : bytes.length = old.length) (rest : List UInt8) :
    putBytes (pre ++ (old ++ rest)) i bytes = pre ++ (bytes ++ rest) := by
  subst hi
  exact putBytes_at rest h

theorem putBytes_be16 (hi : pre.length = i) (j k : ℕ) (rest : List UInt8) :
    putBytes (pre ++ (be16Bytes j ++ rest)) i (be16Bytes k) = pre ++ (be16Bytes k ++ rest) := by
  have hsize : (be16Bytes k).length = (be16Bytes j).length := rfl
  exact putBytes_eq hi hsize rest

theorem take_at (hi : pre.length = i) (h : bytes.length = n) (rest : List UInt8) :
    ((pre ++ (bytes ++ rest)).drop i).take n = bytes := by
  subst hi h
  rw [List.drop_left, List.take_left]

theorem be16Bytes_inj {m n : ℕ} (hm : m < 65536) (hn : n < 65536)
    (h : be16Bytes m ++ old = be16Bytes n ++ rest) : m = n ∧ old = rest := by
  have hread := congrArg (be16 · 0) h
  simp only [be16_bytes, Nat.mod_eq_of_lt hm, Nat.mod_eq_of_lt hn] at hread
  subst hread
  exact ⟨rfl, List.append_cancel_left h⟩

/-! ## Tags are read back -/

theorem Tag.bytes_length (t : Tag) : t.bytes.length = 4 + t.value.length := by
  simp only [Tag.bytes, List.length_append, be16Bytes_length]
  omega

theorem Tag.read_type (t : Tag) (rest : List UInt8) : be16 (t.bytes ++ rest) 0 = t.type := by
  rw [Tag.bytes, List.append_assoc, be16_bytes, Nat.mod_eq_of_lt t.type.isLt]

theorem Tag.read_length (t : Tag) (rest : List UInt8) :
    be16 (t.bytes ++ rest) 2 = t.value.length := by
  rw [Tag.bytes, List.append_assoc, List.append_assoc, be16_at (be16Bytes_length _), be16_bytes,
    Nat.mod_eq_of_lt t.fits]

theorem Tag.bytes_inj {t u : Tag} (h : t.bytes ++ old = u.bytes ++ rest) : t = u ∧ old = rest := by
  obtain ⟨type, value, fits⟩ := t
  obtain ⟨type', value', fits'⟩ := u
  simp only [Tag.bytes, List.append_assoc] at h
  obtain ⟨htype, h⟩ := be16Bytes_inj type.isLt type'.isLt h
  obtain ⟨hlen, h⟩ := be16Bytes_inj fits fits' h
  obtain ⟨rfl, rfl⟩ := List.append_inj h hlen
  obtain rfl := Fin.ext htype
  exact ⟨rfl, rfl⟩

@[simp] theorem encode_cons (t : Tag) (ts : List Tag) : encode (t :: ts) = t.bytes ++ encode ts :=
  rfl

theorem encode_append (ts us : List Tag) : encode (ts ++ us) = encode ts ++ encode us :=
  List.flatMap_append

theorem encode_perm {ts us : List Tag} (h : ts.Perm us) :
    (encode ts).length = (encode us).length := by
  rw [encode, encode, List.length_flatMap, List.length_flatMap]
  exact (h.map _).sum_eq

theorem length_le_encode (ts : List Tag) : 4 * ts.length ≤ (encode ts).length := by
  induction ts with
  | nil => exact Nat.le_refl 0
  | cons t ts ih =>
    rw [encode_cons, List.length_append, t.bytes_length, List.length_cons]
    omega

/-! ## The walk over the tags -/

section Find

variable {m : List UInt8} {type : Fin 65536} {length fuel : ℕ}

theorem findFrom_cons (hpre : pre.length = 20) {t : Tag} (ht : t.type ≠ type)
    (hcur : m.length < length) :
    findFrom (pre ++ (m ++ (t.bytes ++ rest))) type length (fuel + 1) m.length =
      findFrom (pre ++ ((m ++ t.bytes) ++ rest)) type length fuel (m ++ t.bytes).length := by
  have hat : (pre ++ m).length = 20 + m.length := by rw [List.length_append, hpre]
  have hread : be16 (pre ++ (m ++ (t.bytes ++ rest))) (20 + m.length) = t.type := by
    rw [← List.append_assoc, be16_at hat, t.read_type]
  have hlen : be16 (pre ++ (m ++ (t.bytes ++ rest))) (20 + m.length + 2) = t.value.length := by
    rw [← List.append_assoc, ← hat, be16_append_right, t.read_length]
  rw [findFrom, if_pos hcur, hread, if_neg fun h => ht (Fin.ext h), hlen, List.length_append,
    t.bytes_length, List.append_assoc m]
  congr 1
  omega

theorem findFrom_none (hpre : pre.length = 20) {ts : List Tag} (hts : ∀ t ∈ ts, t.type ≠ type)
    (hlength : length = (m ++ encode ts).length) :
    findFrom (pre ++ (m ++ (encode ts ++ rest))) type length fuel m.length = none := by
  induction ts generalizing m fuel with
  | nil =>
    cases fuel with
    | zero => rfl
    | succ fuel =>
      rw [findFrom, if_neg]
      rw [hlength, encode, List.flatMap_nil, List.append_nil]
      exact Nat.lt_irrefl _
  | cons t ts ih =>
    cases fuel with
    | zero => rfl
    | succ fuel =>
      have hcur : m.length < length := by
        rw [hlength, encode_cons, List.length_append, List.length_append, t.bytes_length]
        omega
      rw [encode_cons, List.append_assoc, findFrom_cons hpre (hts t List.mem_cons_self) hcur]
      refine ih (fun u hu => hts u (List.mem_cons_of_mem _ hu)) ?_
      rw [hlength, encode_cons, List.append_assoc]

theorem findFrom_some (hpre : pre.length = 20) {ts : List Tag} (hts : ∀ t ∈ ts, t.type ≠ type)
    {t : Tag} (ht : t.type = type) (hlength : (m ++ encode ts).length < length)
    (hfuel : ts.length < fuel) :
    findFrom (pre ++ (m ++ (encode ts ++ (t.bytes ++ rest)))) type length fuel m.length =
      some (m ++ encode ts).length := by
  induction ts generalizing m fuel with
  | nil =>
    obtain ⟨fuel, rfl⟩ := Nat.exists_eq_succ_of_ne_zero (Nat.ne_of_gt hfuel)
    have hat : (pre ++ m).length = 20 + m.length := by rw [List.length_append, hpre]
    simp only [encode, List.flatMap_nil, List.append_nil, List.nil_append] at hlength ⊢
    rw [findFrom, if_pos hlength, ← List.append_assoc, be16_at hat, t.read_type, if_pos]
    rw [ht]
  | cons u ts ih =>
    obtain ⟨fuel, rfl⟩ := Nat.exists_eq_succ_of_ne_zero (Nat.ne_of_gt (Nat.zero_lt_of_lt hfuel))
    have hcur : m.length < length := by
      rw [List.length_append] at hlength
      omega
    have hmid : m ++ encode (u :: ts) = (m ++ u.bytes) ++ encode ts := by
      rw [encode_cons, List.append_assoc]
    rw [hmid] at hlength ⊢
    rw [encode_cons, List.append_assoc, findFrom_cons hpre (hts u List.mem_cons_self) hcur]
    exact ih (fun v hv => hts v (List.mem_cons_of_mem _ hv)) hlength (Nat.lt_of_succ_lt_succ hfuel)

end Find

/-! ## The two ways to change the frame -/

theorem pull_eq {gone kept room : List UInt8} (hi : pre.length = i) (hn : gone.length = n) :
    ∃ left : List UInt8, left.length = n ∧
      skbPullAndMerge ⟨pre ++ (gone ++ kept), room⟩ i n = some ⟨pre ++ kept, left ++ room⟩ := by
  subst hi hn
  refine ⟨(gone ++ kept).drop kept.length, ?_, ?_⟩
  · rw [List.length_drop, List.length_append]
    omega
  · have hlen : (pre ++ (gone ++ kept)).length = pre.length + gone.length + kept.length := by
      rw [List.length_append, List.length_append]
      omega
    have hmove := moveBytes_down pre gone kept []
    simp only [List.append_nil] at hmove
    have hcut : pre.length + gone.length + kept.length - gone.length = (pre ++ kept).length := by
      rw [List.length_append]
      omega
    unfold skbPullAndMerge
    simp only [hlen]
    rw [if_neg (by omega), Nat.add_sub_cancel_left, hmove, hcut, ← List.append_assoc,
      List.take_left, List.drop_left]

def tagSource (behind : ℕ → UInt8) (tag : List UInt8) (n : ℕ) : List UInt8 :=
  (List.range n).map fun i => tag.getD i (behind i)

theorem tagSource_length (behind : ℕ → UInt8) (tag : List UInt8) (n : ℕ) :
    (tagSource behind tag n).length = n := by
  rw [tagSource, List.length_map, List.length_range]

theorem tagSource_append (behind : ℕ → UInt8) (tag : List UInt8) (k : ℕ) :
    ∃ tail : List UInt8, tagSource behind tag (tag.length + k) = tag ++ tail := by
  refine ⟨(List.range k).map fun i => behind (tag.length + i), ?_⟩
  rw [tagSource, List.range_add, List.map_append, List.map_map]
  congr 1
  · refine List.ext_getElem (by rw [List.length_map, List.length_range]) fun i hi _ => ?_
    have hlt : i < tag.length := by rwa [List.length_map, List.length_range] at hi
    rw [List.getElem_map, List.getElem_range, List.getD_eq_getElem _ _ hlt]
  · refine List.map_congr_left fun i _ => ?_
    exact List.getD_eq_default _ _ (Nat.le_add_right _ _)

theorem tagSource_self (behind : ℕ → UInt8) (tag : List UInt8) :
    tagSource behind tag tag.length = tag := by
  obtain ⟨tail, htail⟩ := tagSource_append behind tag 0
  have hlen := congrArg List.length htail
  rw [tagSource_length, List.length_append] at hlen
  obtain rfl := List.eq_nil_of_length_eq_zero (by omega : tail.length = 0)
  rw [Nat.add_zero, List.append_nil] at htail
  exact htail

theorem exists_pieces {x : List UInt8} {m n : ℕ} (h : m + n ≤ x.length) :
    ∃ a b c : List UInt8, x = a ++ (b ++ c) ∧ a.length = m ∧ b.length = n := by
  refine ⟨x.take m, (x.drop m).take n, (x.drop m).drop n, ?_, ?_, ?_⟩
  · rw [List.take_append_drop, List.take_append_drop]
  · rw [List.length_take]
    omega
  · rw [List.length_take, List.length_drop]
    omega

theorem add_eq {o : ByteOrder} {behind : ℕ → UInt8} {hd body pad room tag : List UInt8}
    (hhd : hd.length = 18) (hbody : body.length < 65536)
    (hn : o.word (be16 tag 2) + 4 = n) (hroom : n ≤ room.length) :
    ∃ pad' : List UInt8,
      nat25AddPppoeTag o behind ⟨hd ++ (be16Bytes body.length ++ (body ++ pad)), room⟩ tag =
        some ⟨hd ++ (be16Bytes (body.length + n) ++ (tagSource behind tag n ++ (body ++ pad'))),
          room.drop n⟩ := by
  have hlen : be16 (hd ++ (be16Bytes body.length ++ (body ++ pad))) 18 = body.length := by
    rw [be16_at hhd, be16_bytes, Nat.mod_eq_of_lt hbody]
  have htotal : n + body.length ≤ (body ++ (pad ++ room.take n)).length := by
    simp only [List.length_append, List.length_take, Nat.min_eq_left hroom]
    omega
  obtain ⟨a, b, c, hx, ha, hb⟩ := exists_pieces htotal
  have hpre : (hd ++ be16Bytes body.length).length = 20 := by
    rw [List.length_append, hhd, be16Bytes_length]
  have hput : hd ++ (be16Bytes body.length ++ (body ++ pad)) ++ room.take n =
      (hd ++ be16Bytes body.length) ++ (body ++ (pad ++ room.take n)) := by
    simp only [List.append_assoc]
  -- the old body is behind the room for the tag
  have hmove : moveBytes ((hd ++ be16Bytes body.length) ++ (body ++ (pad ++ room.take n)))
      (20 + n) 20 body.length = hd ++ (be16Bytes body.length ++ (a ++ (body ++ c))) := by
    have hpre' : (hd ++ be16Bytes body.length ++ a).length = 20 + n := by
      rw [List.length_append, hpre, ha]
    rw [moveBytes, take_at hpre rfl, hx, ← List.append_assoc (hd ++ _), putBytes_eq hpre' hb.symm]
    simp only [List.append_assoc]
  have hpre' : (hd ++ be16Bytes (body.length + n)).length = 20 := by
    rw [List.length_append, hhd, be16Bytes_length]
  have hsource : (tagSource behind tag n).length = a.length := by rw [tagSource_length, ha]
  refine ⟨c, ?_⟩
  unfold nat25AddPppoeTag
  simp only [hn, hlen]
  rw [if_neg (Nat.not_lt.mpr hroom), hput, hmove, putBytes_be16 hhd, ← List.append_assoc hd,
    ← tagSource, putBytes_eq hpre' hsource, List.append_assoc]

theorem add_none {o : ByteOrder} {behind : ℕ → UInt8} {skb : SkBuff} {tag : List UInt8}
    (h : skb.room.length < o.word (be16 tag 2) + 4) :
    nat25AddPppoeTag o behind skb tag = none := if_pos h

/-! ## What the insert does -/

section Insert

variable {o : ByteOrder} {behind : ℕ → UInt8} {f : Discovery} {room : List UInt8}

theorem head_length (f : Discovery) : f.head.length = 18 := by
  simp [Discovery.head]

theorem read_length (f : Discovery) : be16 f.bytes 18 = (encode f.tags).length := by
  rw [Discovery.bytes, be16_at (head_length f), be16_bytes, Nat.mod_eq_of_lt f.fits]

theorem read_code (f : Discovery) : byteAt f.bytes 15 = f.code.toNat := by
  have hbytes : f.bytes = (f.da.toList ++ (f.sa.toList ++ [0x88, 0x63, f.verType])) ++
      (f.code :: (be16Bytes f.sid ++
        (be16Bytes (encode f.tags).length ++ (encode f.tags ++ f.pad)))) := by
    simp [Discovery.bytes, Discovery.head]
  have hpre : (f.da.toList ++ (f.sa.toList ++ [0x88, 0x63, f.verType])).length = 15 := by simp
  rw [hbytes]
  have hat := byteAt_append_right (f.da.toList ++ (f.sa.toList ++ [0x88, 0x63, f.verType]))
    (f.code :: (be16Bytes f.sid ++
        (be16Bytes (encode f.tags).length ++ (encode f.tags ++ f.pad)))) 0
  rw [hpre] at hat
  exact hat

theorem read_sa (f : Discovery) (tail : List UInt8) :
    ((f.head ++ tail).drop 6).take 6 = f.sa.toList := by
  rw [Discovery.head, List.append_assoc, List.append_assoc,
    take_at (by simp : f.da.toList.length = 6) (by simp)]

theorem find_none (h : ∀ t ∈ f.tags, t.type ≠ relaySid) :
    nat25FindPppoeTag f.bytes relaySid = none := by
  have hpre : (f.head ++ be16Bytes (encode f.tags).length).length = 20 := by
    rw [List.length_append, head_length, be16Bytes_length]
  rw [nat25FindPppoeTag, read_length, Discovery.bytes, ← List.append_assoc]
  exact findFrom_none (m := []) hpre h rfl

theorem find_some {A B : List Tag} {t : Tag} (htags : f.tags = A ++ t :: B)
    (hA : ∀ u ∈ A, u.type ≠ relaySid) (ht : t.type = relaySid) :
    nat25FindPppoeTag f.bytes relaySid = some (encode A).length := by
  have hpre : (f.head ++ be16Bytes (encode f.tags).length).length = 20 := by
    rw [List.length_append, head_length, be16Bytes_length]
  have hlen :
      (encode f.tags).length = (encode A).length + (t.bytes.length + (encode B).length) := by
    rw [htags, encode_append, encode_cons, List.length_append, List.length_append]
  have htag := t.bytes_length
  have hcount := length_le_encode A
  have hsplit : f.head ++ (be16Bytes (encode f.tags).length ++ (encode f.tags ++ f.pad)) =
      (f.head ++ be16Bytes (encode f.tags).length) ++
        ([] ++ (encode A ++ (t.bytes ++ (encode B ++ f.pad)))) := by
    rw [htags, encode_append, encode_cons]
    simp only [List.append_assoc, List.nil_append]
  rw [nat25FindPppoeTag, read_length, Discovery.bytes, hsplit]
  refine findFrom_some (m := []) hpre hA ht ?_ ?_
  · rw [List.nil_append]
    omega
  · omega

/-- The old relay tag, the other tags, and the room for a new tag. -/
inductive Stripped (f : Discovery) (room : List UInt8) :
    List UInt8 → List Tag → List UInt8 → Prop
  | absent (h : oldRelay f = none) : Stripped f room [] f.tags room
  | wrapped {A B : List Tag} {t : Tag} {left : List UInt8} (hold : oldRelay f = some t)
      (htags : f.tags = A ++ t :: B) (ht : t.type = relaySid)
      (hleft : left.length = 4 + t.value.length) :
      Stripped f room t.value (A ++ B) (left ++ room)

theorem insertRelay_stripped (haccept : Accepted f) :
    ∃ (old : List UInt8) (ts : List Tag) (room' : List UInt8), Stripped f room old ts room' ∧
      insertRelay o behind ⟨f.bytes, room⟩ =
        addRelay o behind
          ⟨f.head ++ (be16Bytes (encode ts).length ++ (encode ts ++ f.pad)), room'⟩ old := by
  cases hold : oldRelay f with
  | none =>
    have hall : ∀ t ∈ f.tags, t.type ≠ relaySid := by
      simpa [oldRelay, List.find?_eq_none] using hold
    refine ⟨[], f.tags, room, .absent hold, ?_⟩
    rw [insertRelay, find_none hall]
    rfl
  | some t =>
    obtain ⟨ht, A, B, htags, hA⟩ := List.find?_eq_some_iff_append.mp hold
    have ht' : t.type = relaySid := of_decide_eq_true ht
    have hA' : ∀ u ∈ A, u.type ≠ relaySid := by simpa using hA
    have hshort := haccept t hold
    have henc : encode f.tags = encode A ++ (t.bytes ++ encode B) := by
      rw [htags, encode_append, encode_cons]
    have hlen : (encode f.tags).length = (encode (A ++ B)).length + (4 + t.value.length) := by
      rw [henc, encode_append, List.length_append, List.length_append, List.length_append,
        t.bytes_length]
      omega
    have hpre : (f.head ++ (be16Bytes (encode f.tags).length ++ encode A)).length =
        20 + (encode A).length := by
      rw [List.length_append, List.length_append, head_length, be16Bytes_length]
      omega
    have hbytes : f.bytes = (f.head ++ (be16Bytes (encode f.tags).length ++ encode A)) ++
        (t.bytes ++ (encode B ++ f.pad)) := by
      simp only [Discovery.bytes, henc, List.append_assoc]
    have holdLen : be16 f.bytes (20 + (encode A).length + 2) = t.value.length := by
      rw [hbytes, ← hpre, be16_append_right, t.read_length]
    have hvalue : (f.bytes.drop (20 + (encode A).length + 4)).take t.value.length = t.value := by
      have hat : ((f.head ++ (be16Bytes (encode f.tags).length ++ encode A)) ++
          (be16Bytes t.type ++ be16Bytes t.value.length)).length = 20 + (encode A).length + 4 := by
        rw [List.length_append, hpre]
        rfl
      have hsplit : f.bytes = ((f.head ++ (be16Bytes (encode f.tags).length ++ encode A)) ++
          (be16Bytes t.type ++ be16Bytes t.value.length)) ++
            (t.value ++ (encode B ++ f.pad)) := by
        rw [hbytes, Tag.bytes]
        simp only [List.append_assoc]
      rw [hsplit, take_at hat rfl]
    obtain ⟨left, hleft, hpull⟩ : ∃ left : List UInt8, left.length = 4 + t.value.length ∧
        skbPullAndMerge ⟨(f.head ++ (be16Bytes (encode f.tags).length ++ encode A)) ++
            (t.bytes ++ (encode B ++ f.pad)), room⟩ (20 + (encode A).length)
            (4 + t.value.length) =
          some ⟨(f.head ++ (be16Bytes (encode f.tags).length ++ encode A)) ++
            (encode B ++ f.pad), left ++ room⟩ := pull_eq hpre t.bytes_length
    refine ⟨t.value, A ++ B, left ++ room, .wrapped hold htags ht' hleft, ?_⟩
    have hlength : be16Bytes ((encode f.tags).length + 65536 - 4 - t.value.length) =
        be16Bytes (encode (A ++ B)).length := by
      rw [← be16Bytes_mod, hlen, ← be16Bytes_mod (encode (A ++ B)).length]
      congr 1
      omega
    have hread : be16 ((f.head ++ (be16Bytes (encode f.tags).length ++ encode A)) ++
        (encode B ++ f.pad)) 18 = (encode f.tags).length := by
      rw [List.append_assoc, be16_at (head_length f), List.append_assoc, be16_bytes,
        Nat.mod_eq_of_lt f.fits]
    rw [insertRelay, find_some htags hA' ht']
    simp only [holdLen, hvalue]
    rw [if_neg (by omega), hbytes, hpull]
    simp only [SkBuff.put, hread, hlength]
    rw [List.append_assoc, List.append_assoc, putBytes_be16 (head_length f), encode_append,
      List.append_assoc]

/-- The relay tag with the client `mac` in front of an old value. -/
def relayTag (mac : MacAddr) (old : List UInt8) (h : old.length ≤ 28) : Tag where
  type := relaySid
  value := relayValue mac.toList old
  fits := by
    simp only [relayValue, List.length_append, be16Bytes_length, Vector.length_toList]
    omega

variable {mac : MacAddr} {old : List UInt8}

theorem relayTag_value_length (h : old.length ≤ 28) :
    (relayTag mac old h).value.length = 8 + old.length := by
  simp only [relayTag, relayValue, List.length_append, be16Bytes_length, Vector.length_toList]
  omega

theorem relayTag_bytes (h : old.length ≤ 28) :
    (relayTag mac old h).bytes = relayBytes mac.toList old := by
  rw [Tag.bytes, relayTag_value_length, relayBytes]
  rfl

theorem relayTag_bytes_length (h : old.length ≤ 28) :
    (relayBytes mac.toList old).length = 12 + old.length := by
  rw [← relayTag_bytes h, Tag.bytes_length, relayTag_value_length]
  omega

def copyLen (o : ByteOrder) (old : List UInt8) : ℕ := o.word (8 + old.length) + 4

theorem copyLen_big (h : old.length ≤ 28) : copyLen .big old = 12 + old.length := by
  simp only [copyLen, ByteOrder.word]
  omega

theorem copyLen_little (h : old.length ≤ 28) :
    copyLen .little old = 256 * (8 + old.length) + 4 := by
  simp only [copyLen, ByteOrder.word]
  omega

theorem copyLen_ge (h : old.length ≤ 28) : 12 + old.length ≤ copyLen o old := by
  cases o with
  | big => rw [copyLen_big h]
  | little =>
    rw [copyLen_little h]
    omega

theorem addRelay_eq {ts : List Tag} {pad room' : List UInt8} (h : old.length ≤ 28)
    (hts : (encode ts).length < 65536) (hroom : copyLen o old ≤ room'.length) :
    ∃ pad' : List UInt8, addRelay o behind
        ⟨f.head ++ (be16Bytes (encode ts).length ++ (encode ts ++ pad)), room'⟩ old =
      (0, ⟨f.head ++ (be16Bytes ((encode ts).length + copyLen o old) ++
        (tagSource behind (relayBytes f.sa.toList old) (copyLen o old) ++
          (encode ts ++ pad'))), room'.drop (copyLen o old)⟩) := by
  have hword : o.word (be16 (relayBytes f.sa.toList old) 2) + 4 = copyLen o old := by
    have hread := (relayTag f.sa old h).read_length []
    rw [List.append_nil, relayTag_bytes, relayTag_value_length] at hread
    rw [hread, copyLen]
  obtain ⟨pad', hadd⟩ : ∃ pad' : List UInt8, nat25AddPppoeTag o behind
      ⟨f.head ++ (be16Bytes (encode ts).length ++ (encode ts ++ pad)), room'⟩
      (relayBytes f.sa.toList old) = some ⟨f.head ++ (be16Bytes ((encode ts).length +
        copyLen o old) ++ (tagSource behind (relayBytes f.sa.toList old) (copyLen o old) ++
          (encode ts ++ pad'))), room'.drop (copyLen o old)⟩ :=
    add_eq (head_length f) hts hword hroom
  refine ⟨pad', ?_⟩
  simp only [addRelay, read_sa, hadd]

theorem addRelay_none {tail room' : List UInt8} (h : old.length ≤ 28)
    (hroom : room'.length < copyLen o old) :
    addRelay o behind ⟨f.head ++ tail, room'⟩ old = (-1, ⟨f.head ++ tail, room'⟩) := by
  have hword : o.word (be16 (relayBytes f.sa.toList old) 2) + 4 = copyLen o old := by
    have hread := (relayTag f.sa old h).read_length []
    rw [List.append_nil, relayTag_bytes, relayTag_value_length] at hread
    rw [hread, copyLen]
  have hnone : nat25AddPppoeTag o behind ⟨f.head ++ tail, room'⟩
      (relayBytes f.sa.toList old) = none := by
    refine add_none ?_
    rw [hword]
    exact hroom
  simp only [addRelay, read_sa, hnone]

end Insert

/-! ## What the lookup does -/

def unwrap (old : List UInt8) (h : old.length ≤ 28) (ts : List Tag) : List Tag :=
  if old = [] then ts else ⟨relaySid, old, by omega⟩ :: ts

theorem put_da (e : Discovery) (mac : MacAddr) (back : List UInt8) :
    (⟨e.bytes, back⟩ : SkBuff).put 0 mac.toList = ⟨{ e with da := mac }.bytes, back⟩ := by
  have hda : mac.toList.length = e.da.toList.length := by simp
  simp only [SkBuff.put, Discovery.bytes, Discovery.head, List.append_assoc]
  rw [← List.nil_append (e.da.toList ++ _), putBytes_eq List.length_nil hda, List.nil_append]

theorem be16Bytes_sub {k l : ℕ} (h : k = l + n) (hn : n < 65536) :
    be16Bytes (k + 65536 - n) = be16Bytes l := by
  rw [← be16Bytes_mod, ← be16Bytes_mod l]
  congr 1
  omega

section Lookup

variable {e : Discovery} {mac : MacAddr} {old : List UInt8} {ts : List Tag}

theorem relay_bytes (h : old.length ≤ 28) (htags : e.tags = relayTag mac old h :: ts) :
    e.bytes = e.head ++ (be16Bytes (encode e.tags).length ++ (be16Bytes relaySid ++
      (be16Bytes (8 + old.length) ++ (be16Bytes magicCode ++ (mac.toList ++
        (old ++ (encode ts ++ e.pad))))))) := by
  have henc : encode e.tags = be16Bytes relaySid ++ (be16Bytes (8 + old.length) ++
      (be16Bytes magicCode ++ (mac.toList ++ (old ++ encode ts)))) := by
    rw [htags, encode_cons, relayTag_bytes, relayBytes, relayValue]
    simp only [List.append_assoc]
  rw [Discovery.bytes]
  simp only [henc, List.append_assoc]

theorem relay_length (h : old.length ≤ 28) (htags : e.tags = relayTag mac old h :: ts) :
    (encode e.tags).length = (encode ts).length + (12 + old.length) := by
  rw [htags, encode_cons, List.length_append, Tag.bytes_length, relayTag_value_length]
  omega

theorem dropFront_all (htags : e.tags = relayTag mac [] (by decide) :: ts) (back : List UInt8) :
    ∃ (e' : Discovery) (back' : List UInt8),
      dropFront ⟨e.bytes, back⟩ 0 8 = (0, ⟨e'.bytes, back'⟩) ∧ e'.da = e.da ∧ e'.tags = ts := by
  have hbytes := relay_bytes _ htags
  have hlen := relay_length _ htags
  have hfits := e.fits
  have hhead := head_length e
  have hpre : (e.head ++ be16Bytes (encode e.tags).length).length = 20 := by
    rw [List.length_append, hhead, be16Bytes_length]
  have hgone : (be16Bytes relaySid ++ (be16Bytes 8 ++ (be16Bytes magicCode ++
      mac.toList))).length = 12 := by simp
  have hsplit : e.bytes = (e.head ++ be16Bytes (encode e.tags).length) ++
      ((be16Bytes relaySid ++ (be16Bytes 8 ++ (be16Bytes magicCode ++ mac.toList))) ++
        (encode ts ++ e.pad)) := by
    rw [hbytes]
    simp only [List.append_assoc, List.nil_append, List.length_nil, Nat.add_zero]
  obtain ⟨left, -, hpull⟩ : ∃ left : List UInt8, left.length = 12 ∧
      skbPullAndMerge ⟨e.bytes, back⟩ 20 12 =
        some ⟨(e.head ++ be16Bytes (encode e.tags).length) ++ (encode ts ++ e.pad),
          left ++ back⟩ := by
    rw [hsplit]
    exact pull_eq hpre hgone
  have hread : be16 (e.head ++ (be16Bytes (encode e.tags).length ++ (encode ts ++ e.pad))) 18 =
      (encode e.tags).length := by
    rw [be16_at hhead, be16_bytes, Nat.mod_eq_of_lt hfits]
  simp only [List.length_nil, Nat.add_zero] at hlen
  refine ⟨{ e with tags := ts, fits := by omega }, left ++ back, ?_, rfl, rfl⟩
  simp only [dropFront, Nat.reduceAdd, Nat.lt_irrefl, if_false, Nat.sub_zero, hpull, SkBuff.put,
    List.append_assoc, hread]
  rw [putBytes_be16 hhead, be16Bytes_sub hlen (by decide)]
  rfl

theorem dropFront_front (h : old.length ≤ 28) (hold : old ≠ [])
    (htags : e.tags = relayTag mac old h :: ts) (back : List UInt8) :
    ∃ (e' : Discovery) (back' : List UInt8),
      dropFront ⟨e.bytes, back⟩ 0 (8 + old.length) = (0, ⟨e'.bytes, back'⟩) ∧ e'.da = e.da ∧
        e'.tags = ⟨relaySid, old, by omega⟩ :: ts := by
  have hbytes := relay_bytes h htags
  have hlen := relay_length h htags
  have hfits := e.fits
  have hhead := head_length e
  have hpos : 0 < old.length := List.length_pos_iff.mpr hold
  have hpre : (e.head ++ (be16Bytes (encode e.tags).length ++ (be16Bytes relaySid ++
      be16Bytes (8 + old.length)))).length = 24 := by
    rw [List.length_append, hhead]
    rfl
  have hgone : (be16Bytes magicCode ++ mac.toList).length = 8 := by simp
  have hsplit : e.bytes = (e.head ++ (be16Bytes (encode e.tags).length ++ (be16Bytes relaySid ++
      be16Bytes (8 + old.length)))) ++
      ((be16Bytes magicCode ++ mac.toList) ++ (old ++ (encode ts ++ e.pad))) := by
    rw [hbytes]
    simp only [List.append_assoc]
  obtain ⟨left, -, hpull⟩ : ∃ left : List UInt8, left.length = 8 ∧
      skbPullAndMerge ⟨e.bytes, back⟩ 24 8 =
        some ⟨(e.head ++ (be16Bytes (encode e.tags).length ++ (be16Bytes relaySid ++
          be16Bytes (8 + old.length)))) ++ (old ++ (encode ts ++ e.pad)), left ++ back⟩ := by
    rw [hsplit]
    exact pull_eq hpre hgone
  have hread : be16 (e.head ++ (be16Bytes (encode e.tags).length ++ (be16Bytes relaySid ++
      (be16Bytes (8 + old.length) ++ (old ++ (encode ts ++ e.pad)))))) 18 =
        (encode e.tags).length := by
    rw [be16_at hhead, be16_bytes, Nat.mod_eq_of_lt hfits]
  have hnew : (encode (⟨relaySid, old, by omega⟩ :: ts)).length =
      4 + old.length + (encode ts).length := by
    rw [encode_cons, List.length_append, Tag.bytes_length]
  have hleft : (encode e.tags).length = (encode (⟨relaySid, old, by omega⟩ :: ts)).length + 8 := by
    omega
  refine ⟨{ e with tags := ⟨relaySid, old, by omega⟩ :: ts, fits := by omega }, left ++ back,
    ?_, rfl, rfl⟩
  have hfront : 8 < 8 + old.length := by omega
  simp only [dropFront, Nat.reduceAdd, if_pos hfront, Nat.reduceSub, hpull, SkBuff.put,
    List.append_assoc, hread, Nat.zero_lt_succ, if_true]
  have hat : (e.head ++ (be16Bytes (encode (⟨relaySid, old, by omega⟩ :: ts)).length ++
      be16Bytes relaySid)).length = 22 := by
    rw [List.length_append, hhead]
    rfl
  have hold' : 8 + old.length - 2 - 6 = old.length := by omega
  have hpieces : ∀ tail : List UInt8,
      e.head ++ (be16Bytes (encode (⟨relaySid, old, by omega⟩ :: ts)).length ++
        (be16Bytes relaySid ++ tail)) =
      (e.head ++ (be16Bytes (encode (⟨relaySid, old, by omega⟩ :: ts)).length ++
        be16Bytes relaySid)) ++ tail := by
    intro tail
    simp only [List.append_assoc]
  rw [putBytes_be16 hhead, be16Bytes_sub hleft (by decide), hpieces, putBytes_be16 hat, hold',
    ← hpieces]
  simp only [Discovery.bytes, encode_cons, Tag.bytes, List.append_assoc]
  rfl

theorem lookupRelay_eq (h : old.length ≤ 28) (htags : e.tags = relayTag mac old h :: ts)
    (back : List UInt8) :
    ∃ (e' : Discovery) (back' : List UInt8),
      lookupRelay ⟨e.bytes, back⟩ = (0, ⟨e'.bytes, back'⟩) ∧ e'.da = mac ∧
        e'.tags = unwrap old h ts := by
  have hfind : nat25FindPppoeTag e.bytes relaySid = some 0 := find_some (A := []) htags nofun rfl
  have hbytes := relay_bytes h htags
  have hlen := relay_length h htags
  have hfits := e.fits
  have hhead := head_length e
  have htype : be16 e.bytes 20 = relaySid := by
    rw [hbytes, ← List.append_assoc, be16_at (by rw [List.length_append, hhead]; rfl), be16_bytes]
    rfl
  have htagLen : be16 e.bytes 22 = 8 + old.length := by
    rw [hbytes, ← List.append_assoc, ← List.append_assoc,
      be16_at (by rw [List.length_append, List.length_append, hhead]; rfl), be16_bytes]
    omega
  have hmagic : be16 e.bytes 24 = magicCode := by
    rw [hbytes, ← List.append_assoc, ← List.append_assoc, ← List.append_assoc,
      be16_at (by rw [List.length_append, List.length_append, List.length_append, hhead]; rfl),
      be16_bytes]
    rfl
  have hmac : (e.bytes.drop 26).take 6 = mac.toList := by
    rw [hbytes, ← List.append_assoc, ← List.append_assoc, ← List.append_assoc,
      ← List.append_assoc, take_at (by
        rw [List.length_append, List.length_append, List.length_append, List.length_append, hhead]
        rfl) (by simp)]
  rw [lookupRelay, hfind]
  simp only [Nat.add_zero, Nat.reduceAdd, htype, htagLen, hmagic, hmac, put_da e mac back]
  rw [if_neg (by simp), if_neg (by simp)]
  by_cases hold : old = []
  · subst hold
    obtain ⟨e', back', hdrop, hda, htags'⟩ := @dropFront_all { e with da := mac } mac ts htags back
    refine ⟨e', back', hdrop, hda, ?_⟩
    rw [htags', unwrap, if_pos rfl]
  · obtain ⟨e', back', hdrop, hda, htags'⟩ :=
      @dropFront_front { e with da := mac } mac old ts h hold htags back
    refine ⟨e', back', hdrop, hda, ?_⟩
    rw [htags', unwrap, if_neg hold]

end Lookup

/-! ## There and back -/

section RoundTrip

variable {o : ByteOrder} {behind : ℕ → UInt8} {f : Discovery} {room room' old : List UInt8}
  {ts : List Tag}

theorem handle_insert (hcode : f.code = padi ∨ f.code = padr) :
    handleDiscovery o behind ⟨f.bytes, room⟩ .insert = insertRelay o behind ⟨f.bytes, room⟩ := by
  have hread : byteAt f.bytes 15 = padi.toNat ∨ byteAt f.bytes 15 = padr.toNat := by
    rw [read_code]
    exact hcode.imp (congrArg _) (congrArg _)
  exact if_pos hread

theorem handle_lookup (hcode : f.code = pado ∨ f.code = pads) :
    handleDiscovery o behind ⟨f.bytes, room⟩ .lookup = lookupRelay ⟨f.bytes, room⟩ := by
  have hread : byteAt f.bytes 15 = pado.toNat ∨ byteAt f.bytes 15 = pads.toNat := by
    rw [read_code]
    exact hcode.imp (congrArg _) (congrArg _)
  exact if_pos hread

theorem lookupRelay_none (h : ∀ t ∈ f.tags, t.type ≠ relaySid) :
    (lookupRelay ⟨f.bytes, room⟩).1 = -1 := by
  rw [lookupRelay, find_none h]

theorem Stripped.short (haccept : Accepted f) (h : Stripped f room old ts room') :
    old.length ≤ 28 := by
  cases h with
  | absent => exact Nat.zero_le _
  | wrapped hold => exact haccept _ hold

theorem Stripped.perm (haccept : Accepted f) (h : Stripped f room old ts room')
    (hfilled : ∀ t ∈ oldRelay f, t.value ≠ []) :
    (unwrap old (h.short haccept) ts).Perm f.tags := by
  cases h with
  | absent =>
    rw [unwrap, if_pos rfl]
  | @wrapped A B t left hold htags ht hleft =>
    rw [unwrap, if_neg (hfilled t hold), htags]
    obtain ⟨type, value, fits⟩ := t
    obtain rfl : type = relaySid := ht
    exact List.perm_middle.symm

theorem Stripped.length (h : Stripped f room old ts room') :
    (oldRelay f = none ∧ old = [] ∧ (encode f.tags).length = (encode ts).length ∧
        room'.length = room.length ∧ added f = 12) ∨
      (∃ t, oldRelay f = some t ∧ old = t.value ∧
        (encode f.tags).length = (encode ts).length + (4 + old.length) ∧
        room'.length = room.length + (4 + old.length) ∧ added f = 8) := by
  cases h with
  | absent hnone => exact .inl ⟨hnone, rfl, rfl, rfl, by rw [added, hnone]; rfl⟩
  | @wrapped A B t left hold htags ht hleft =>
    refine .inr ⟨t, hold, rfl, ?_, ?_, by rw [added, hold]; rfl⟩
    · rw [htags, encode_append, encode_append, encode_cons, List.length_append,
        List.length_append, List.length_append, t.bytes_length]
      omega
    · rw [List.length_append, hleft]
      omega

theorem roundTrip_of_meets (hcode : f.code = padi ∨ f.code = padr) (haccept : Accepted f)
    (hmeets : Meets o f room) : RoundTrip o behind f room := by
  obtain ⟨old, ts, room', hstrip, hinsert⟩ :=
    @insertRelay_stripped o behind f room haccept
  have hshort := hstrip.short haccept
  have hperm := hstrip.perm haccept hmeets.filled
  have hroom := hmeets.tailroom
  have hlength := hmeets.length
  obtain rfl := hmeets.order
  have hcopy := copyLen_big hshort
  have hbounds : (encode ts).length + (12 + old.length) < 65536 ∧
      12 + old.length ≤ room'.length := by
    rcases hstrip.length with ⟨-, rfl, hsize, hr, hadd⟩ | ⟨t, -, -, hsize, hr, hadd⟩
    · rw [List.length_nil]
      omega
    · omega
  obtain ⟨pad', hadd⟩ := @addRelay_eq .big behind f old ts f.pad room' hshort
    (Nat.lt_of_le_of_lt (Nat.le_add_right _ _) hbounds.1) (by rw [hcopy]; exact hbounds.2)
  have hsize : (encode (relayTag f.sa old hshort :: ts)).length =
      (encode ts).length + (12 + old.length) := by
    rw [encode_cons, List.length_append, Tag.bytes_length, relayTag_value_length]
    omega
  have hfits : (encode (relayTag f.sa old hshort :: ts)).length < 65536 := by
    rw [hsize]
    exact hbounds.1
  refine ⟨{ f with tags := relayTag f.sa old hshort :: ts, pad := pad', fits := hfits },
    room'.drop (copyLen .big old), ?_, ?_⟩
  · rw [handle_insert hcode, hinsert, hadd, hcopy, ← hsize]
    have hself := tagSource_self behind (relayBytes f.sa.toList old)
    rw [relayTag_bytes_length hshort] at hself
    simp only [hself, Discovery.bytes, encode_cons, relayTag_bytes, List.append_assoc]
    rfl
  · intro e back hecode hetags
    obtain ⟨e', back', hlookup, hda, htags⟩ := lookupRelay_eq hshort hetags back
    refine ⟨e', back', ?_, hda, ?_⟩
    · rw [handle_lookup hecode, hlookup]
    · rw [htags]
      exact hperm

theorem tags_of_insert {g : Discovery} {tail : List UInt8} {k : ℕ} (h : old.length ≤ 28)
    (hbytes : g.bytes = f.head ++ (be16Bytes k ++ (relayBytes f.sa.toList old ++ tail))) :
    (encode g.tags).length = k % 65536 ∧
      (g.tags = [] ∨ ∃ us, g.tags = relayTag f.sa old h :: us) := by
  rw [Discovery.bytes] at hbytes
  obtain ⟨-, hrest⟩ := List.append_inj hbytes (by rw [head_length, head_length])
  rw [← be16Bytes_mod k] at hrest
  obtain ⟨hlen, htags⟩ := be16Bytes_inj g.fits (Nat.mod_lt _ (by decide)) hrest
  refine ⟨hlen, ?_⟩
  cases hg : g.tags with
  | nil => exact .inl rfl
  | cons t us =>
    rw [hg, encode_cons, List.append_assoc, ← relayTag_bytes h] at htags
    obtain ⟨rfl, -⟩ := Tag.bytes_inj htags
    exact .inr ⟨us, rfl⟩

theorem unwrap_length (h : old.length ≤ 28) : (encode (unwrap old h ts)).length =
    (encode ts).length + if old.length = 0 then 0 else 4 + old.length := by
  unfold unwrap
  split_ifs with hold hlen hlen
  · rfl
  · exact absurd (by rw [hold]; rfl) hlen
  · exact absurd (List.eq_nil_of_length_eq_zero hlen) hold
  · rw [encode_cons, List.length_append, Tag.bytes_length, Nat.add_comm]

theorem sizes_of_roundTrip (hcode : f.code = padi ∨ f.code = padr) (haccept : Accepted f)
    (h : RoundTrip o behind f room) :
    ∃ (old : List UInt8) (ts us : List Tag) (room' : List UInt8), Stripped f room old ts room' ∧
      copyLen o old ≤ room'.length ∧
      (encode us).length + (12 + old.length) = ((encode ts).length + copyLen o old) % 65536 ∧
      (encode f.tags).length =
        (encode us).length + if old.length = 0 then 0 else 4 + old.length := by
  obtain ⟨g, groom, hinsert, hback⟩ := h
  obtain ⟨old, ts, room', hstrip, hrelay⟩ := @insertRelay_stripped o behind f room haccept
  have hshort := hstrip.short haccept
  have hts : (encode ts).length < 65536 := by
    have hfits := f.fits
    rcases hstrip.length with ⟨-, -, hsize, -⟩ | ⟨t, -, -, hsize, -⟩ <;> omega
  rw [handle_insert hcode, hrelay] at hinsert
  rcases Nat.lt_or_ge room'.length (copyLen o old) with hroom | hroom
  · rw [addRelay_none hshort hroom] at hinsert
    cases hinsert
  · obtain ⟨pad', hadd⟩ := @addRelay_eq o behind f old ts f.pad room' hshort hts hroom
    obtain ⟨tail, htail⟩ := tagSource_append behind (relayBytes f.sa.toList old)
      (copyLen o old - (12 + old.length))
    rw [relayTag_bytes_length hshort, Nat.add_sub_cancel' (copyLen_ge hshort)] at htail
    rw [hadd, htail, List.append_assoc] at hinsert
    simp only [Prod.mk.injEq, SkBuff.mk.injEq, true_and] at hinsert
    obtain ⟨hlen, htags⟩ := tags_of_insert hshort hinsert.1.symm
    -- the tags come back in a PADO frame
    obtain ⟨e', back', hlookup, -, hperm⟩ := hback { g with code := pado } [] (.inl rfl) rfl
    rw [handle_lookup (.inl rfl)] at hlookup
    rcases htags with hnil | ⟨us, hus⟩
    · have hnone := @lookupRelay_none { g with code := pado } [] (by rw [hnil]; exact nofun)
      rw [hlookup] at hnone
      cases hnone
    · obtain ⟨e'', back'', hlookup', -, htags'⟩ :=
        @lookupRelay_eq { g with code := pado } f.sa old us hshort hus []
      rw [hlookup'] at hlookup
      simp only [Prod.mk.injEq, SkBuff.mk.injEq, true_and] at hlookup
      have hsame : (encode e'.tags).length = (encode e''.tags).length := by
        rw [← read_length, ← read_length, hlookup.1]
      refine ⟨old, ts, us, room', hstrip, hroom, ?_, ?_⟩
      · rw [← hlen, hus, encode_cons, List.length_append, Tag.bytes_length,
          relayTag_value_length]
        omega
      · rw [← encode_perm hperm, hsame, htags', unwrap_length]

theorem roundTrip_iff (hcode : f.code = padi ∨ f.code = padr) (haccept : Accepted f) :
    RoundTrip o behind f room ↔ Meets o f room := by
  refine ⟨fun h => ?_, roundTrip_of_meets hcode haccept⟩
  obtain ⟨old, ts, us, room', hstrip, hroom, hlen, hback⟩ := sizes_of_roundTrip hcode haccept h
  have hshort := hstrip.short haccept
  have horder : o = .big := by
    cases o with
    | big => rfl
    | little =>
      rw [copyLen_little hshort] at hlen
      rcases hstrip.length with ⟨-, rfl, hsize, -⟩ | ⟨t, -, -, hsize, -⟩
      · rw [if_pos List.length_nil] at hback
        rw [List.length_nil] at hlen
        omega
      · split_ifs at hback <;> omega
  subst horder
  rw [copyLen_big hshort] at hlen hroom
  rcases hstrip.length with ⟨hnone, rfl, hsize, hr, hadd⟩ | ⟨t, hold, rfl, hsize, hr, hadd⟩
  · rw [if_pos List.length_nil] at hback
    rw [List.length_nil] at hlen hroom
    refine ⟨rfl, by rw [hnone]; exact nofun, by omega, by omega⟩
  · have hfilled : t.value ≠ [] := by
      intro hempty
      rw [hempty, List.length_nil] at hlen hback hsize
      simp only [if_true] at hback
      omega
    have hpos : t.value.length ≠ 0 := fun hzero => hfilled (List.eq_nil_of_length_eq_zero hzero)
    rw [if_neg hpos] at hback
    refine ⟨rfl, ?_, by omega, by omega⟩
    intro u hu
    rw [hold] at hu
    obtain rfl := Option.some.inj hu
    exact hfilled

end RoundTrip

def padiFrame : Discovery where
  da := Vector.replicate 6 0xff
  sa := #v[0x02, 0, 0, 0, 0, 0x17]
  code := padi
  tags := [⟨0x0101, [], by decide⟩]
  fits := by decide

/-- There is room for more than a frame, and no tag is added. -/
theorem padi_not_roundTrip : ¬ RoundTrip .little (fun _ => 0) padiFrame (List.replicate 2051 0) ∧
    handleDiscovery .little (fun _ => 0) ⟨padiFrame.bytes, List.replicate 2051 0⟩ .insert =
      (-1, ⟨padiFrame.bytes, List.replicate 2051 0⟩) := by
  have hinsert : handleDiscovery .little (fun _ => 0)
      ⟨padiFrame.bytes, List.replicate 2051 0⟩ .insert =
        (-1, ⟨padiFrame.bytes, List.replicate 2051 0⟩) := by decide +kernel
  refine ⟨?_, hinsert⟩
  rintro ⟨g, room', h, -⟩
  rw [hinsert] at h
  cases h

def relayedFrame : Discovery where
  da := Vector.replicate 6 0xff
  sa := #v[0x02, 0, 0, 0, 0, 0x17]
  code := padr
  tags := [⟨0x0101, [], by decide⟩, ⟨relaySid, [1, 2, 3], by decide⟩, ⟨0x0103, [4], by decide⟩]
  fits := by decide

theorem roundTrip_relayed :
    RoundTrip .big (fun _ => 0) relayedFrame (List.replicate 8 0) := by
  refine (roundTrip_iff (.inr rfl) (by unfold Accepted; decide +kernel)).mpr ?_
  exact ⟨rfl, by decide +kernel, by decide +kernel, by decide +kernel⟩

end Rtl8189.Nat25Pppoe
