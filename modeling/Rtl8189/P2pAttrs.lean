import Rtl8189.IeRemove

/-!
# Deleting P2P attributes

`rtw_bss_ex_del_p2p_attr` goes over the P2P elements of a network. `rtw_del_p2p_attr` deletes the
attributes of an id from one, and the elements behind it move up to what is left.
-/
namespace Rtl8189.P2pAttrs

open ElemList IeLookup IeRemove

def p2pOui : List UInt8 := [0x50, 0x6f, 0x9a, 0x09]

def maxIeSz : ℕ := 768

def getP2pIeFrom (mem : List UInt8) (inIe inLen : ℕ) : ℕ → ℕ → Option (ℕ × ℕ)
  | 0, _ => none
  | n + 1, cnt =>
    if cnt + 1 + 4 < inLen then
      if maxIeSz ≤ cnt + 1 + 4 then none
      else if MatchesAt mem 221 p2pOui (inIe + cnt) then
        some (inIe + cnt, byteAt mem (inIe + cnt + 1) + 2)
      else getP2pIeFrom mem inIe inLen n (u32 (cnt + (byteAt mem (inIe + cnt + 1) + 2)))
    else none

/-- `rtw_get_p2p_ie`: where the element is, and its length with the header. The length is taken
for an `int`. -/
def rtwGetP2pIe (mem : List UInt8) (inIe inLen : ℕ) : Option (ℕ × ℕ) :=
  if inLen = 0 ∨ 2 ^ 31 ≤ inLen then none else getP2pIeFrom mem inIe inLen inLen 0

def u16 (n : ℕ) : ℕ := n % 65536

def getP2pAttrFrom (mem : List UInt8) (p2pIe p2pIelen : ℕ) (targetAttrId : UInt8) :
    ℕ → ℕ → Option (ℕ × ℕ)
  | 0, _ => none
  | n + 1, off =>
    if off + 3 ≤ p2pIelen then
      let attrLen := u16 (le16 mem (p2pIe + off + 1) + 3)
      if p2pIelen < off + attrLen then none
      else if byteAt mem (p2pIe + off) = targetAttrId.toNat then some (p2pIe + off, attrLen)
      else getP2pAttrFrom mem p2pIe p2pIelen targetAttrId n (off + attrLen)
    else none

/-- `rtw_get_p2p_attr`: where the attribute is, and its length with the header. -/
def rtwGetP2pAttr (mem : List UInt8) (p2pIe p2pIelen : ℕ) (targetAttrId : UInt8) :
    Option (ℕ × ℕ) :=
  if p2pIelen ≤ 6 ∨ ¬ MatchesAt mem 221 p2pOui p2pIe then none
  else getP2pAttrFrom mem p2pIe p2pIelen targetAttrId p2pIelen 6

/-- The rounds of `rtw_del_p2p_attr`, with the memory and `ielen`. -/
def delP2pAttrFrom (ie : ℕ) (attrId : UInt8) : ℕ → List UInt8 × ℕ → List UInt8 × ℕ
  | 0, s => s
  | n + 1, s =>
    match rtwGetP2pAttr s.1 ie s.2 attrId with
    | none => s
    | some (targetAttr, targetAttrLen) =>
      if targetAttrLen = 0 then s
      else
        let nextAttr := targetAttr + targetAttrLen
        let remainLen := usub s.2 (nextAttr - ie)
        let mem := putBytes (moveBytes s.1 targetAttr nextAttr remainLen) (targetAttr + remainLen)
          (List.replicate targetAttrLen 0)
        delP2pAttrFrom ie attrId n
          (putBytes mem (ie + 1) [UInt8.ofNat (usub (byteAt mem (ie + 1)) targetAttrLen)],
            usub s.2 targetAttrLen)

/-- `rtw_del_p2p_attr`: the memory, and the length of the element that it returns. -/
def rtwDelP2pAttr (mem : List UInt8) (ie ielenOri : ℕ) (attrId : UInt8) : List UInt8 × ℕ :=
  delP2pAttrFrom ie attrId ielenOri (mem, ielenOri)

/-- The bytes from `IEs` on, `IELength` and `Reserved[0]`. -/
structure BssEx where
  ies : List UInt8
  ielength : ℕ
  reserved : UInt8

def bssTypeProbReq : UInt8 := 2

def fixedIeOffset (reserved : UInt8) : ℕ := if reserved = bssTypeProbReq then 0 else 12

/-- What is left of a network, where the elements behind start, and their length. -/
structure Remaining where
  bss : BssEx
  ies : ℕ
  iesLen : ℕ

def delRound (attrId : UInt8) (s : BssEx) (ie ieLenOri : ℕ) : Remaining :=
  let nextIeOri := ie + ieLenOri
  let remainLen := usub s.ielength nextIeOri
  let del := rtwDelP2pAttr s.ies ie ieLenOri attrId
  if del.2 ≠ ieLenOri then
    let nextIe := ie + del.2
    let gone := usub ieLenOri del.2
    { bss :=
        { s with
          ies := putBytes (moveBytes del.1 nextIe nextIeOri remainLen) (nextIe + remainLen)
            (List.replicate gone 0)
          ielength := usub s.ielength gone }
      ies := nextIe
      iesLen := remainLen }
  else { bss := { s with ies := del.1 }, ies := nextIeOri, iesLen := remainLen }

def bssExDelP2pAttrFrom (attrId : UInt8) : ℕ → Remaining → BssEx
  | 0, r => r.bss
  | n + 1, r =>
    match rtwGetP2pIe r.bss.ies r.ies r.iesLen with
    | none => r.bss
    | some (ie, ieLenOri) => bssExDelP2pAttrFrom attrId n (delRound attrId r.bss ie ieLenOri)

def rtwBssExDelP2pAttr (bss : BssEx) (attrId : UInt8) : BssEx :=
  bssExDelP2pAttrFrom attrId bss.ielength
    { bss
      ies := fixedIeOffset bss.reserved
      iesLen := usub bss.ielength (fixedIeOffset bss.reserved) }

/-! ## Attributes -/

structure Attr where
  id : UInt8
  data : List UInt8
  fits : data.length < 65533

def Attr.bytes (a : Attr) : List UInt8 :=
  a.id :: UInt8.ofNat a.data.length :: UInt8.ofNat (a.data.length / 256) :: a.data

def encodeAttrs (l : List Attr) : List UInt8 := l.flatMap Attr.bytes

theorem Attr.bytes_length (a : Attr) : a.bytes.length = a.data.length + 3 := rfl

theorem encodeAttrs_cons (a : Attr) (l : List Attr) :
    encodeAttrs (a :: l) = a.bytes ++ encodeAttrs l := List.flatMap_cons

theorem encodeAttrs_append (l m : List Attr) :
    encodeAttrs (l ++ m) = encodeAttrs l ++ encodeAttrs m := List.flatMap_append

theorem attr_len {mem pre rest : List UInt8} {a : Attr} (hmem : mem = pre ++ (a.bytes ++ rest)) :
    byteAt mem pre.length = a.id.toNat ∧ le16 mem (pre.length + 1) = a.data.length := by
  have hfits := a.fits
  have hid : byteAt mem pre.length = a.id.toNat := by
    rw [hmem]
    exact byteAt_append_right pre (a.bytes ++ rest) 0
  have hlow : byteAt mem (pre.length + 1) = a.data.length % 256 := by
    rw [hmem, byteAt_append_right]
    exact UInt8.toNat_ofNat' ..
  have hhigh : byteAt mem (pre.length + 1 + 1) = a.data.length / 256 % 256 := by
    rw [hmem, Nat.add_assoc, byteAt_append_right]
    exact UInt8.toNat_ofNat' ..
  refine ⟨hid, ?_⟩
  rw [le16, hlow, hhigh]
  omega

def locateAttr (id : UInt8) : List Attr → ℕ → Option (ℕ × ℕ)
  | [], _ => none
  | a :: l, start =>
    if a.id = id then some (start, a.data.length + 3)
    else locateAttr id l (start + (a.data.length + 3))

theorem locateAttr_none {id : UInt8} {l : List Attr} (start : ℕ) (h : ∀ a ∈ l, a.id ≠ id) :
    locateAttr id l start = none := by
  induction l generalizing start with
  | nil => rfl
  | cons a l ih =>
    obtain ⟨ha, hl⟩ := List.forall_mem_cons.mp h
    rw [locateAttr, if_neg ha, ih _ hl]

theorem locateAttr_first {id : UInt8} {l m : List Attr} {a : Attr} (start : ℕ)
    (h : ∀ b ∈ l, b.id ≠ id) (ha : a.id = id) :
    locateAttr id (l ++ a :: m) start =
      some (start + (encodeAttrs l).length, a.data.length + 3) := by
  induction l generalizing start with
  | nil => exact if_pos ha
  | cons b l ih =>
    obtain ⟨hb, hl⟩ := List.forall_mem_cons.mp h
    rw [List.cons_append, locateAttr, if_neg hb, ih _ hl, encodeAttrs_cons, List.length_append,
      b.bytes_length, Nat.add_assoc]

theorem getP2pAttrFrom_list {mem pre rest : List UInt8} {ie ielen n off : ℕ} (id : UInt8)
    {l : List Attr} (hmem : mem = pre ++ (encodeAttrs l ++ rest)) (hpre : pre.length = ie + off)
    (hlen : ielen = off + (encodeAttrs l).length) (hn : (encodeAttrs l).length ≤ n) :
    getP2pAttrFrom mem ie ielen id n off = locateAttr id l pre.length := by
  induction l generalizing pre n off with
  | nil =>
    have hnil : (encodeAttrs []).length = 0 := rfl
    rw [locateAttr]
    cases n with
    | zero => rfl
    | succ n => exact if_neg (by omega)
  | cons a l ih =>
    have hfits := a.fits
    rw [encodeAttrs_cons, List.append_assoc] at hmem
    rw [encodeAttrs_cons, List.length_append, a.bytes_length] at hlen hn
    obtain ⟨hid, hlen16⟩ := attr_len hmem
    rw [hpre] at hid hlen16
    have hattr : u16 (a.data.length + 3) = a.data.length + 3 := Nat.mod_eq_of_lt (by omega)
    cases n with
    | zero => omega
    | succ n =>
      rw [getP2pAttrFrom, if_pos (by omega), hlen16]
      dsimp only
      rw [hattr, if_neg (by omega), hid, locateAttr, hpre]
      by_cases hwanted : a.id = id
      · rw [if_pos hwanted, if_pos (congrArg UInt8.toNat hwanted)]
      · rw [if_neg hwanted, if_neg fun h => hwanted (UInt8.toNat_inj.mp h)]
        have hnext : (pre ++ a.bytes).length = ie + off + (a.data.length + 3) := by
          rw [List.length_append, a.bytes_length, hpre]
        rw [← hnext]
        refine ih ?_ (by rw [hnext, Nat.add_assoc]) (by omega) (by omega)
        rw [hmem, List.append_assoc]

/-! ## One element -/

theorem squeeze (pre gone kept rest : List UInt8) :
    putBytes (moveBytes (pre ++ (gone ++ (kept ++ rest))) pre.length (pre.length + gone.length)
        kept.length) (pre.length + kept.length) (List.replicate gone.length 0) =
      pre ++ (kept ++ (List.replicate gone.length 0 ++ rest)) := by
  have hold : (List.replicate gone.length (0 : UInt8)).length =
      ((gone ++ kept).drop kept.length).length := by
    rw [List.length_replicate, List.length_drop, List.length_append, Nat.add_sub_cancel]
  rw [moveBytes_down, ← List.append_assoc, ← List.length_append, putBytes_at rest hold,
    List.append_assoc]

theorem putLength (pre rest : List UInt8) (id old new : UInt8) :
    putBytes (pre ++ (id :: old :: rest)) (pre.length + 1) [new] = pre ++ (id :: new :: rest) := by
  have hput := @putBytes_at (pre ++ [id]) [old] rest [new] rfl
  rw [List.length_append, List.append_assoc, List.append_assoc] at hput
  exact hput

def p2pBytes (l : List Attr) : List UInt8 :=
  221 :: UInt8.ofNat (4 + (encodeAttrs l).length) :: (p2pOui ++ encodeAttrs l)

theorem p2pBytes_length (l : List Attr) : (p2pBytes l).length = 6 + (encodeAttrs l).length := by
  rw [p2pBytes, List.length_cons, List.length_cons, List.length_append]
  change 4 + (encodeAttrs l).length + 1 + 1 = _
  omega

/-- An element with the attributes `l`, and a number of zeros left by those deleted. -/
structure Holding (pre tail : List UInt8) (l : List Attr) (zeros : ℕ) (s : List UInt8 × ℕ) :
    Prop where
  mem : s.1 = pre ++ (p2pBytes l ++ (List.replicate zeros 0 ++ tail))
  len : s.2 = 6 + (encodeAttrs l).length
  fits : 4 + (encodeAttrs l).length < 256

section Delete

variable {pre tail : List UInt8} {l : List Attr} {zeros : ℕ} {s : List UInt8 × ℕ} (id : UInt8)

theorem Holding.find (h : Holding pre tail l zeros s) :
    rtwGetP2pAttr s.1 pre.length s.2 id = locateAttr id l (pre.length + 6) := by
  have hmem : s.1 = (pre ++ (221 :: UInt8.ofNat (4 + (encodeAttrs l).length) :: p2pOui)) ++
      (encodeAttrs l ++ (List.replicate zeros 0 ++ tail)) := by
    rw [h.mem, p2pBytes]
    simp only [List.append_assoc, List.cons_append]
  have hpre : (pre ++ (221 :: UInt8.ofNat (4 + (encodeAttrs l).length) :: p2pOui)).length =
      pre.length + 6 := by rw [List.length_append]; rfl
  have hmatch : MatchesAt s.1 221 p2pOui pre.length := by
    rw [h.mem, p2pBytes]
    refine ⟨byteAt_append_right pre _ 0, ?_⟩
    rw [← List.drop_drop, List.drop_left]
    exact ⟨_, (List.append_assoc ..).symm⟩
  have hlen := h.len
  rw [rtwGetP2pAttr]
  by_cases hempty : l = []
  · subst hempty
    exact if_pos (.inl (Nat.le_of_eq hlen))
  · have hpos : 0 < (encodeAttrs l).length := by
      obtain ⟨a, m, rfl⟩ := List.exists_cons_of_ne_nil hempty
      rw [encodeAttrs_cons, List.length_append, a.bytes_length]
      omega
    rw [if_neg (not_or.mpr ⟨by omega, not_not.mpr hmatch⟩), ← hpre]
    exact getP2pAttrFrom_list id hmem hpre hlen (by omega)

theorem Holding.delete {X Y : List Attr} {a : Attr} (h : Holding pre tail (X ++ a :: Y) zeros s) :
    let target := pre.length + 6 + (encodeAttrs X).length
    let size := a.data.length + 3
    let remain := usub s.2 (target + size - pre.length)
    let mem := putBytes (moveBytes s.1 target (target + size) remain) (target + remain)
      (List.replicate size 0)
    Holding pre tail (X ++ Y) (size + zeros)
      (putBytes mem (pre.length + 1) [UInt8.ofNat (usub (byteAt mem (pre.length + 1)) size)],
        usub s.2 size) := by
  intro target size remain mem
  have hfits := h.fits
  have hlen := h.len
  have hbytes : encodeAttrs (X ++ a :: Y) = encodeAttrs X ++ (a.bytes ++ encodeAttrs Y) := by
    rw [encodeAttrs_append, encodeAttrs_cons]
  have hsize : a.bytes.length = size := a.bytes_length
  have hold : (encodeAttrs (X ++ a :: Y)).length =
      (encodeAttrs X).length + (size + (encodeAttrs Y).length) := by
    rw [hbytes, List.length_append, List.length_append, hsize]
  have hnew : (encodeAttrs (X ++ Y)).length = (encodeAttrs X).length + (encodeAttrs Y).length := by
    rw [encodeAttrs_append, List.length_append]
  have hremain : remain = (encodeAttrs Y).length := by
    change usub s.2 (pre.length + 6 + (encodeAttrs X).length + size - pre.length) = _
    rw [usub, u32]
    omega
  -- the header with the old length, and what is left behind it
  let lenByte := UInt8.ofNat (4 + (encodeAttrs (X ++ a :: Y)).length)
  have hmem : mem = pre ++ (221 :: lenByte :: (p2pOui ++ (encodeAttrs (X ++ Y) ++
      (List.replicate (size + zeros) 0 ++ tail)))) := by
    have hfront : (pre ++ (221 :: lenByte :: (p2pOui ++ encodeAttrs X))).length = target := by
      simp only [List.length_append, List.length_cons]
      change pre.length + (4 + (encodeAttrs X).length + 1 + 1) = _
      omega
    have hsqueeze := squeeze (pre ++ (221 :: lenByte :: (p2pOui ++ encodeAttrs X))) a.bytes
      (encodeAttrs Y) (List.replicate zeros 0 ++ tail)
    rw [hfront, hsize] at hsqueeze
    have hs : s.1 = (pre ++ (221 :: lenByte :: (p2pOui ++ encodeAttrs X))) ++
        (a.bytes ++ (encodeAttrs Y ++ (List.replicate zeros 0 ++ tail))) := by
      have helem : p2pBytes (X ++ a :: Y) =
          221 :: lenByte :: (p2pOui ++ (encodeAttrs X ++ (a.bytes ++ encodeAttrs Y))) := by
        rw [← hbytes]
        rfl
      rw [h.mem, helem]
      simp only [List.append_assoc, List.cons_append]
    have hzeros : List.replicate size (0 : UInt8) ++ (List.replicate zeros 0 ++ tail) =
        List.replicate (size + zeros) 0 ++ tail := by
      rw [← List.append_assoc, List.replicate_append_replicate]
    change putBytes (moveBytes s.1 target (target + size) remain) (target + remain) _ = _
    rw [hs, hremain, hsqueeze, encodeAttrs_append, hzeros]
    simp only [List.append_assoc, List.cons_append]
  have hbyte : byteAt mem (pre.length + 1) = 4 + (encodeAttrs (X ++ a :: Y)).length := by
    rw [hmem, byteAt_append_right]
    change lenByte.toNat = _
    rw [UInt8.toNat_ofNat', Nat.mod_eq_of_lt hfits]
  have hshort : usub (4 + (encodeAttrs (X ++ a :: Y)).length) size =
      4 + (encodeAttrs (X ++ Y)).length := by
    rw [usub, u32]
    omega
  refine ⟨?_, ?_, by omega⟩
  · dsimp only
    rw [hbyte, hshort, hmem, putLength, p2pBytes]
    simp only [List.append_assoc, List.cons_append]
  · change usub s.2 size = _
    rw [usub, u32]
    omega

theorem Holding.stop {n : ℕ} (h : Holding pre tail l zeros s) (hnone : ∀ a ∈ l, a.id ≠ id) :
    delP2pAttrFrom pre.length id n s = s := by
  cases n with
  | zero => rfl
  | succ n => rw [delP2pAttrFrom, h.find id, locateAttr_none _ hnone]

theorem exists_first_attr (l : List Attr) : (∀ a ∈ l, a.id ≠ id) ∨
    ∃ X a Y, l = X ++ a :: Y ∧ (∀ b ∈ X, b.id ≠ id) ∧ a.id = id := by
  induction l with
  | nil => exact .inl nofun
  | cons a l ih =>
    by_cases ha : a.id = id
    · exact .inr ⟨[], a, l, rfl, nofun, ha⟩
    · rcases ih with hnone | ⟨X, b, Y, rfl, hX, hb⟩
      · exact .inl (List.forall_mem_cons.mpr ⟨ha, hnone⟩)
      · exact .inr ⟨a :: X, b, Y, rfl, List.forall_mem_cons.mpr ⟨ha, hX⟩, hb⟩

def keepAttrs (l : List Attr) : List Attr := l.filter fun a => a.id ≠ id

theorem keepAttrs_self (h : ∀ a ∈ l, a.id ≠ id) : keepAttrs id l = l :=
  List.filter_eq_self.mpr fun a ha => decide_eq_true (h a ha)

theorem keepAttrs_delete {X Y : List Attr} {a : Attr} (ha : a.id = id) :
    keepAttrs id (X ++ a :: Y) = keepAttrs id (X ++ Y) := by
  rw [keepAttrs, List.filter_append, List.filter_cons_of_neg (by simpa using ha), keepAttrs,
    List.filter_append]

theorem delP2pAttrFrom_filter {n : ℕ} (h : Holding pre tail l zeros s) (hn : l.length ≤ n) :
    ∃ more, Holding pre tail (keepAttrs id l) (more + zeros) (delP2pAttrFrom pre.length id n s) ∧
      (encodeAttrs l).length = (encodeAttrs (keepAttrs id l)).length + more := by
  induction n generalizing l zeros s with
  | zero =>
    have hnil : l = [] := List.eq_nil_of_length_eq_zero (Nat.le_zero.mp hn)
    subst hnil
    exact ⟨0, by rw [Nat.zero_add]; exact h, rfl⟩
  | succ n ih =>
    rcases exists_first_attr id l with hnone | ⟨X, a, Y, rfl, hX, ha⟩
    · rw [h.stop id hnone, keepAttrs_self id hnone]
      exact ⟨0, by rw [Nat.zero_add]; exact h, rfl⟩
    · have hless : (X ++ Y).length ≤ n := by
        rw [List.length_append] at hn ⊢
        rw [List.length_cons] at hn
        omega
      obtain ⟨more, hout, hlen⟩ := ih h.delete hless
      rw [delP2pAttrFrom, h.find id, locateAttr_first _ hX ha, keepAttrs_delete id ha]
      dsimp only
      rw [if_neg (Nat.succ_ne_zero _)]
      refine ⟨more + (a.data.length + 3), ?_, ?_⟩
      · rw [Nat.add_assoc]
        exact hout
      · rw [encodeAttrs_append, List.length_append] at hlen ⊢
        rw [encodeAttrs_cons, List.length_append, a.bytes_length]
        omega

end Delete

/-! ## The search for P2P elements -/

/-- What the search finds in a list and behind it. Less than six bytes are not looked at. -/
def searchP2p (tail : List UInt8) : List Elem → ℕ → Option (ℕ × ℕ)
  | [], _ => none
  | e :: l, start =>
    if (encode (e :: l)).length < 6 then none
    else if Taken 221 p2pOui e (encode l ++ tail) then some (start, e.data.length + 2)
    else searchP2p tail l (start + (e.data.length + 2))

theorem getP2pIeFrom_list {pre tail : List UInt8} {l : List Elem} {inIe inLen n cnt : ℕ}
    (hlen : inLen = cnt + (encode l).length) (hpre : pre.length = inIe + cnt)
    (hn : (encode l).length ≤ n) (hfits : inLen ≤ maxIeSz) :
    getP2pIeFrom (pre ++ (encode l ++ tail)) inIe inLen n cnt = searchP2p tail l pre.length := by
  induction l generalizing pre n cnt with
  | nil =>
    have hnil : (encode []).length = 0 := rfl
    cases n with
    | zero => rfl
    | succ n => exact if_neg (by omega)
  | cons e l ih =>
    have hmax : maxIeSz = 768 := rfl
    have hat := at_append pre e (encode l ++ tail)
    have hsplit : encode (e :: l) ++ tail = e.bytes ++ (encode l ++ tail) := by
      rw [encode_cons, List.append_assoc]
    have htotal := encode_length_cons e l
    rw [hsplit, searchP2p]
    cases n with
    | zero => omega
    | succ n =>
      rw [getP2pIeFrom, ← hpre, hat.len]
      by_cases hshort : (encode (e :: l)).length < 6
      · rw [if_pos hshort, if_neg (by omega)]
      · rw [if_neg hshort, if_pos (by omega), if_neg (by omega)]
        by_cases htaken : Taken 221 p2pOui e (encode l ++ tail)
        · rw [if_pos htaken, if_pos ((matchesAt_iff hat).mpr htaken)]
        · have hnext : u32 (cnt + (e.data.length + 2)) = cnt + (e.data.length + 2) :=
            Nat.mod_eq_of_lt (by omega)
          have hstart : (pre ++ e.bytes).length = pre.length + (e.data.length + 2) := by
            rw [List.length_append, e.bytes_length]
          rw [if_neg htaken, if_neg fun h => htaken ((matchesAt_iff hat).mp h), hnext, ← hstart,
            ← List.append_assoc]
          exact ih (by omega) (by omega) (by omega)

theorem rtwGetP2pIe_list (pre tail : List UInt8) {l : List Elem}
    (hfits : (encode l).length ≤ maxIeSz) :
    rtwGetP2pIe (pre ++ (encode l ++ tail)) pre.length (encode l).length =
      searchP2p tail l pre.length := by
  have hmax : maxIeSz = 768 := rfl
  rw [rtwGetP2pIe]
  by_cases hnil : l = []
  · subst hnil
    rfl
  · have hpos := encode_length_pos hnil
    rw [if_neg (by omega)]
    exact getP2pIeFrom_list (Nat.zero_add _).symm rfl (Nat.le_refl _) hfits

/-! ## The elements of a network -/

/-- An element that is no P2P element, or one with its attributes. -/
inductive Ie where
  | other (e : Elem) (h : ¬ Wanted 221 p2pOui e)
  | p2p (attrs : List Attr) (fits : 4 + (encodeAttrs attrs).length < 256)

def Ie.elem : Ie → Elem
  | other e _ => e
  | p2p attrs fits => ⟨221, p2pOui ++ encodeAttrs attrs, by rw [List.length_append]; exact fits⟩

def encodeIes (l : List Ie) : List UInt8 := encode (l.map Ie.elem)

theorem encodeIes_cons (e : Ie) (l : List Ie) :
    encodeIes (e :: l) = e.elem.bytes ++ encodeIes l := encode_cons _ _

theorem p2p_bytes (attrs : List Attr) (fits : 4 + (encodeAttrs attrs).length < 256) :
    (Ie.p2p attrs fits).elem.bytes = p2pBytes attrs := by
  change 221 :: UInt8.ofNat (p2pOui ++ encodeAttrs attrs).length :: (p2pOui ++ encodeAttrs attrs) =
    p2pBytes attrs
  rw [List.length_append]
  rfl

theorem keepAttrs_length_le (id : UInt8) (l : List Attr) :
    (encodeAttrs (keepAttrs id l)).length ≤ (encodeAttrs l).length := by
  induction l with
  | nil => exact Nat.le_refl _
  | cons a l ih =>
    rw [keepAttrs, List.filter_cons]
    rw [keepAttrs] at ih
    split_ifs
    · rw [encodeAttrs_cons, encodeAttrs_cons, List.length_append, List.length_append]
      omega
    · rw [encodeAttrs_cons, List.length_append]
      omega

def Ie.delAttr (id : UInt8) : Ie → Ie
  | other e h => other e h
  | p2p attrs fits => p2p (keepAttrs id attrs)
      (Nat.lt_of_le_of_lt (Nat.add_le_add_left (keepAttrs_length_le id attrs) 4) fits)

theorem delAttr_short (id : UInt8) {l : List Ie} (h : (encodeIes l).length < 6) :
    l.map (Ie.delAttr id) = l := by
  induction l with
  | nil => rfl
  | cons e l ih =>
    rw [encodeIes_cons, List.length_append] at h
    rw [List.map_cons, ih (by omega)]
    cases e with
    | other e he => rfl
    | p2p attrs fits =>
      rw [p2p_bytes, p2pBytes_length] at h
      omega

theorem short_of_taken {e : Elem} {behind : List UInt8} (htaken : Taken 221 p2pOui e behind)
    (hother : ¬ Wanted 221 p2pOui e) : e.data.length < 4 := by
  by_contra hlong
  refine hother ⟨htaken.1, ?_⟩
  exact List.prefix_of_prefix_length_le htaken.2 (List.prefix_append _ _) (Nat.le_of_not_lt hlong)

theorem p2p_taken (attrs : List Attr) (fits : 4 + (encodeAttrs attrs).length < 256)
    (behind : List UInt8) : Taken 221 p2pOui (Ie.p2p attrs fits).elem behind :=
  Wanted.taken ⟨rfl, List.prefix_append _ _⟩ behind

section Network

variable {pre tail : List UInt8} {e : Ie} {l : List Ie} {s : BssEx} (id : UInt8)

/-- The elements `l` stand behind `pre`, up to `IELength`. -/
structure Listed (pre tail : List UInt8) (l : List Ie) (s : BssEx) : Prop where
  mem : s.ies = pre ++ (encodeIes l ++ tail)
  len : s.ielength = pre.length + (encodeIes l).length
  fits : s.ielength ≤ maxIeSz

def Deleted (pre tail : List UInt8) (l : List Ie) (s out : BssEx) : Prop :=
  ∃ zeros, Listed pre (List.replicate zeros 0 ++ tail) (l.map (Ie.delAttr id)) out ∧
    s.ielength = out.ielength + zeros

theorem Listed.find (h : Listed pre tail l s) :
    rtwGetP2pIe s.ies pre.length (encodeIes l).length =
      searchP2p tail (l.map Ie.elem) pre.length := by
  have hlen := h.len
  have hfits := h.fits
  rw [h.mem]
  exact rtwGetP2pIe_list pre tail (by change (encodeIes l).length ≤ _; omega)

theorem bssExDelP2pAttrFrom_none {n ies iesLen : ℕ} (hnone : rtwGetP2pIe s.ies ies iesLen = none) :
    bssExDelP2pAttrFrom id n ⟨s, ies, iesLen⟩ = s := by
  cases n with
  | zero => rw [bssExDelP2pAttrFrom]
  | succ n => rw [bssExDelP2pAttrFrom, hnone]

theorem Listed.same (h : Listed pre tail l s) (hsame : l.map (Ie.delAttr id) = l) :
    Deleted id pre tail l s s := by
  refine ⟨0, ?_, rfl⟩
  rw [hsame]
  exact h

theorem Listed.skip (h : Listed pre tail (e :: l) s) : Listed (pre ++ e.elem.bytes) tail l s where
  mem := by rw [h.mem, encodeIes_cons, List.append_assoc, List.append_assoc]
  len := by
    rw [h.len, encodeIes_cons, List.length_append, List.length_append, Nat.add_assoc]
  fits := h.fits

theorem Deleted.cons {e' : Ie} {out : BssEx} (he : Ie.delAttr id e = e')
    (h : Deleted id (pre ++ e'.elem.bytes) tail l s out) : Deleted id pre tail (e :: l) s out := by
  obtain ⟨zeros, ⟨hmem, hlen, hfits⟩, hout⟩ := h
  refine ⟨zeros, ⟨?_, ?_, hfits⟩, hout⟩
  · rw [hmem, List.map_cons, he, encodeIes_cons, List.append_assoc, List.append_assoc]
  · rw [hlen, List.map_cons, he, encodeIes_cons, List.length_append, List.length_append,
      Nat.add_assoc]

theorem rtwDelP2pAttr_short (mem : List UInt8) (ie : ℕ) {ielen : ℕ} (h : ielen ≤ 6) :
    rtwDelP2pAttr mem ie ielen id = (mem, ielen) := by
  rw [rtwDelP2pAttr]
  cases ielen with
  | zero => rfl
  | succ n => rw [delP2pAttrFrom, rtwGetP2pAttr, if_pos (.inl h)]

theorem rtwDelP2pAttr_elem (pre behind : List UInt8) (attrs : List Attr)
    (fits : 4 + (encodeAttrs attrs).length < 256) :
    ∃ zeros, rtwDelP2pAttr (pre ++ (p2pBytes attrs ++ behind)) pre.length (p2pBytes attrs).length id =
        (pre ++ (p2pBytes (keepAttrs id attrs) ++ (List.replicate zeros 0 ++ behind)),
          (p2pBytes (keepAttrs id attrs)).length) ∧
      (p2pBytes attrs).length = (p2pBytes (keepAttrs id attrs)).length + zeros := by
  have hlen := p2pBytes_length attrs
  have hholding : Holding pre behind attrs 0
      (pre ++ (p2pBytes attrs ++ behind), (p2pBytes attrs).length) := ⟨rfl, hlen, fits⟩
  have hcount : attrs.length ≤ (encodeAttrs attrs).length := by
    clear fits hlen hholding
    induction attrs with
    | nil => exact Nat.le_refl 0
    | cons a attrs ih =>
      rw [encodeAttrs_cons, List.length_append, a.bytes_length, List.length_cons]
      omega
  obtain ⟨zeros, hout, htotal⟩ := delP2pAttrFrom_filter id hholding
    (n := (p2pBytes attrs).length) (by omega)
  have hkept := p2pBytes_length (keepAttrs id attrs)
  refine ⟨zeros, ?_, by omega⟩
  exact Prod.ext hout.mem (hout.len.trans hkept.symm)

theorem delRound_p2p {attrs : List Attr} {fits : 4 + (encodeAttrs attrs).length < 256}
    (h : Listed pre tail (.p2p attrs fits :: l) s) :
    ∃ zeros out, delRound id s pre.length (p2pBytes attrs).length =
        ⟨out, (pre ++ (p2pBytes (keepAttrs id attrs))).length, (encodeIes l).length⟩ ∧
      Listed (pre ++ p2pBytes (keepAttrs id attrs)) (List.replicate zeros 0 ++ tail) l out ∧
      s.ielength = out.ielength + zeros := by
  have hlen := h.len
  have hfits := h.fits
  have hmax : maxIeSz = 768 := rfl
  have hmem := h.mem
  rw [encodeIes_cons, p2p_bytes, List.append_assoc] at hmem
  rw [encodeIes_cons, p2p_bytes, List.length_append] at hlen
  obtain ⟨zeros, hdel, hzeros⟩ := rtwDelP2pAttr_elem id pre (encodeIes l ++ tail) attrs fits
  rw [← hmem] at hdel
  have hremain : usub s.ielength (pre.length + (p2pBytes attrs).length) = (encodeIes l).length := by
    rw [usub, u32]
    omega
  have hgone : usub (p2pBytes attrs).length (p2pBytes (keepAttrs id attrs)).length = zeros := by
    rw [usub, u32]
    omega
  have hleft : usub s.ielength zeros + zeros = s.ielength := by
    rw [usub, u32]
    omega
  rw [delRound, hdel]
  dsimp only
  rw [hremain, hgone, hzeros]
  by_cases hnone : zeros = 0
  · subst hnone
    rw [Nat.add_zero, if_neg (not_not.mpr rfl), List.replicate_zero, List.nil_append,
      List.length_append]
    refine ⟨0, _, rfl, ⟨?_, ?_, hfits⟩, rfl⟩
    · exact (List.append_assoc ..).symm
    · rw [List.length_append]
      change s.ielength = _
      omega
  · rw [if_pos (by omega), ← Nat.add_assoc, ← List.length_append]
    refine ⟨zeros, _, rfl, ⟨?_, ?_, ?_⟩, hleft.symm⟩
    · have hsqueeze := squeeze (pre ++ p2pBytes (keepAttrs id attrs)) (List.replicate zeros 0)
        (encodeIes l) tail
      rw [List.length_replicate] at hsqueeze
      rw [← List.append_assoc]
      exact hsqueeze
    · change usub s.ielength zeros = _
      rw [List.length_append]
      omega
    · change usub s.ielength zeros ≤ _
      omega

theorem Deleted.join {zeros : ℕ} {out out' : BssEx}
    (h : Deleted id pre (List.replicate zeros 0 ++ tail) l out out')
    (hs : s.ielength = out.ielength + zeros) : Deleted id pre tail l s out' := by
  obtain ⟨more, hlisted, hout⟩ := h
  rw [← List.append_assoc, List.replicate_append_replicate] at hlisted
  exact ⟨more + zeros, hlisted, by omega⟩

theorem bssExDelP2pAttrFrom_deleted {n : ℕ} (h : Listed pre tail l s) (hn : l.length ≤ n) :
    Deleted id pre tail l s
      (bssExDelP2pAttrFrom id n ⟨s, pre.length, (encodeIes l).length⟩) := by
  induction l generalizing pre tail s n with
  | nil =>
    rw [bssExDelP2pAttrFrom_none id h.find]
    exact h.same id rfl
  | cons e l ih =>
    have hfind : rtwGetP2pIe s.ies pre.length (encodeIes (e :: l)).length =
        if (encodeIes (e :: l)).length < 6 then none
        else if Taken 221 p2pOui e.elem (encodeIes l ++ tail) then
          some (pre.length, e.elem.data.length + 2)
        else searchP2p tail (l.map Ie.elem) (pre.length + (e.elem.data.length + 2)) := h.find
    by_cases hshort : (encodeIes (e :: l)).length < 6
    · rw [if_pos hshort] at hfind
      rw [bssExDelP2pAttrFrom_none id hfind]
      exact h.same id (delAttr_short id hshort)
    · rw [if_neg hshort] at hfind
      by_cases htaken : Taken 221 p2pOui e.elem (encodeIes l ++ tail)
      · rw [if_pos htaken] at hfind
        obtain ⟨m, rfl⟩ : ∃ m, n = m + 1 := ⟨n - 1, by rw [List.length_cons] at hn; omega⟩
        rw [bssExDelP2pAttrFrom, hfind]
        have hm := Nat.le_of_succ_le_succ hn
        cases e with
        | other e he =>
          have hlong : e.data.length < 4 := short_of_taken htaken he
          have hskip := h.skip
          have hround : delRound id s pre.length (e.data.length + 2) =
              ⟨s, (pre ++ e.bytes).length, (encodeIes l).length⟩ := by
            have hremain : usub s.ielength (pre.length + (e.data.length + 2)) =
                (encodeIes l).length := by
              have hlen := hskip.len
              have hfits := h.fits
              have hmax : maxIeSz = 768 := rfl
              rw [List.length_append] at hlen
              change _ = pre.length + e.bytes.length + _ at hlen
              rw [e.bytes_length] at hlen
              rw [usub, u32]
              omega
            rw [delRound, rtwDelP2pAttr_short id _ _ (by omega), hremain, List.length_append,
              e.bytes_length]
            exact if_neg (not_not.mpr rfl)
          refine Deleted.cons id rfl ?_
          change Deleted id _ tail l s (bssExDelP2pAttrFrom id m (delRound id s pre.length
            (e.data.length + 2)))
          rw [hround]
          exact ih hskip hm
        | p2p attrs fits =>
          obtain ⟨zeros, out, hround, hlisted, hout⟩ := delRound_p2p id h
          have hsize : (Ie.p2p attrs fits).elem.data.length + 2 = (p2pBytes attrs).length := by
            rw [← p2p_bytes attrs fits, Elem.bytes_length]
          dsimp only
          rw [hsize, hround]
          refine Deleted.cons id rfl ?_
          change Deleted id (pre ++ (Ie.p2p (keepAttrs id attrs) _).elem.bytes) tail l s _
          rw [p2p_bytes]
          exact Deleted.join id (ih hlisted hm) hout
      · -- not taken: the search is the one from the next element on
        rw [if_neg htaken] at hfind
        cases e with
        | p2p attrs fits => exact absurd (p2p_taken attrs fits _) htaken
        | other e he =>
          have hskip := h.skip
          have hstart : (pre ++ e.bytes).length = pre.length + (e.data.length + 2) := by
            rw [List.length_append, e.bytes_length]
          have hsame : bssExDelP2pAttrFrom id n
              ⟨s, pre.length, (encodeIes (.other e he :: l)).length⟩ = bssExDelP2pAttrFrom id n
                ⟨s, (pre ++ e.bytes).length, (encodeIes l).length⟩ := by
            have hnext := hskip.find
            change rtwGetP2pIe s.ies (pre ++ e.bytes).length _ =
              searchP2p tail (l.map Ie.elem) (pre ++ e.bytes).length at hnext
            cases n with
            | zero => rw [bssExDelP2pAttrFrom, bssExDelP2pAttrFrom]
            | succ n =>
              rw [bssExDelP2pAttrFrom, bssExDelP2pAttrFrom, hfind, hnext, hstart]
              rfl
          rw [hsame]
          refine Deleted.cons id rfl ?_
          exact ih hskip (Nat.le_of_succ_le hn)

end Network

/-- A network with its fixed fields, its elements, and what stands behind `IELength`. -/
structure Bss where
  fixed : List UInt8
  elems : List Ie
  behind : List UInt8
  reserved : UInt8
  fixed_length : fixed.length = fixedIeOffset reserved
  size : fixed.length + (encodeIes elems).length ≤ maxIeSz

def Bss.bssEx (b : Bss) : BssEx where
  ies := b.fixed ++ (encodeIes b.elems ++ b.behind)
  ielength := b.fixed.length + (encodeIes b.elems).length
  reserved := b.reserved

structure P2pElem where
  attrs : List Attr
  fits : 4 + (encodeAttrs attrs).length < 256

/-- Exactly the attributes of the id go, from one element and from all of a network, and the lengths
are those of what is left. -/
theorem p2p_attrs_deleted (b : Bss) (e : P2pElem) (pre behind : List UInt8) (attrId : UInt8) :
    (∃ zeros, rtwDelP2pAttr (pre ++ (p2pBytes e.attrs ++ behind)) pre.length
        (p2pBytes e.attrs).length attrId =
      (pre ++ (p2pBytes (e.attrs.filter fun a => a.id ≠ attrId) ++
          (List.replicate zeros 0 ++ behind)),
        (p2pBytes (e.attrs.filter fun a => a.id ≠ attrId)).length)) ∧
    (∃ zeros, (rtwBssExDelP2pAttr b.bssEx attrId).ies =
      b.fixed ++ (encodeIes (b.elems.map (Ie.delAttr attrId)) ++
        (List.replicate zeros 0 ++ b.behind))) ∧
    (rtwBssExDelP2pAttr b.bssEx attrId).ielength =
      b.fixed.length + (encodeIes (b.elems.map (Ie.delAttr attrId))).length := by
  obtain ⟨zeros, hdel, -⟩ := rtwDelP2pAttr_elem attrId pre behind e.attrs e.fits
  have hsize := b.size
  have hmax : maxIeSz = 768 := rfl
  have hlisted : Listed b.fixed b.behind b.elems b.bssEx := ⟨rfl, rfl, hsize⟩
  have hcount : b.elems.length ≤ (encodeIes b.elems).length := by
    have hle := length_le_encode (b.elems.map Ie.elem)
    rw [List.length_map] at hle
    change 2 * b.elems.length ≤ (encodeIes b.elems).length at hle
    omega
  have hlen : usub b.bssEx.ielength b.fixed.length = (encodeIes b.elems).length := by
    change usub (b.fixed.length + (encodeIes b.elems).length) b.fixed.length = _
    rw [usub, u32]
    omega
  obtain ⟨zeros', hout, -⟩ := bssExDelP2pAttrFrom_deleted attrId hlisted
    (n := b.bssEx.ielength) (Nat.le_trans hcount (Nat.le_add_left _ _))
  have heq : rtwBssExDelP2pAttr b.bssEx attrId = bssExDelP2pAttrFrom attrId b.bssEx.ielength
      ⟨b.bssEx, b.fixed.length, (encodeIes b.elems).length⟩ := by
    rw [rtwBssExDelP2pAttr, ← hlen, b.fixed_length]
    rfl
  rw [heq]
  exact ⟨⟨zeros, hdel⟩, ⟨zeros', hout.mem⟩, hout.len⟩

end Rtl8189.P2pAttrs
