import Rtl8189.AccessTrace
import Rtl8189.RecvFrame

/-!
# The RSN element

`rtw_rsne_info_parse` goes over the parts of an RSN element, of which any number of the last may
be missing. A part is a field of a fixed size, or a count and as many items.
-/
namespace Rtl8189.RsnInfo

open AccessTrace

/-- `struct rsne_info`; a pointer is its distance from the start of the element. -/
structure RsneInfo where
  gcs : Option ℕ := none
  pcsCnt : ℕ := 0
  pcsList : Option ℕ := none
  akmCnt : ℕ := 0
  akmList : Option ℕ := none
  cap : Option ℕ := none
  pmkidCnt : ℕ := 0
  pmkidList : Option ℕ := none
  gmcs : Option ℕ := none
  err : Bool := false
  deriving DecidableEq

structure Part where
  counted : Bool
  size : ℕ
  note : (cnt pos : ℕ) → RsneInfo → RsneInfo
  size_pos : 0 < size := by decide
  note_err : ∀ cnt pos info, (note cnt pos info).err = info.err := by intros; rfl

def groupCs : Part where
  counted := false
  size := 4
  note _ pos info := { info with gcs := some pos }

def pairwiseCs : Part where
  counted := true
  size := 4
  note cnt pos info := { info with pcsCnt := cnt, pcsList := some pos }

def akm : Part where
  counted := true
  size := 4
  note cnt pos info := { info with akmCnt := cnt, akmList := some pos }

def rsnCap : Part where
  counted := false
  size := 2
  note _ pos info := { info with cap := some pos }

def pmkid : Part where
  counted := true
  size := 16
  note cnt pos info := { info with pmkidCnt := cnt, pmkidList := some pos }

def groupMgmtCs : Part where
  counted := false
  size := 4
  note _ pos info := { info with gmcs := some pos }

/-- The state of the parser: where it is, what it found and read, and `_SUCCESS` or `_FAIL`. -/
structure Rsne where
  pos : ℕ := 0
  info : RsneInfo := {}
  ops : List Op := []
  ret : Bool := true

/-- `goto err` -/
def Rsne.fail (s : Rsne) : Rsne := { s with info.err := true, ret := false }

/-- Not all of a part is there: this is no error where the element ends before it. -/
def Rsne.stop (ie : List UInt8) (s : Rsne) : Rsne := if ie.length ≠ s.pos then s.fail else s

def parsePart (ie : List UInt8) (part : Part) (s : Rsne) : Except Rsne Rsne :=
  if part.counted then
    if ie.length < s.pos + 2 then .error s
    else
      let cnt := le16 ie s.pos
      let s := { s with pos := s.pos + 2, ops := s.ops ++ [Op.bytes s.pos 2] }
      if ie.length < s.pos + part.size * cnt then .error s
      else .ok { s with pos := s.pos + part.size * cnt, info := part.note cnt s.pos s.info }
  else if ie.length < s.pos + part.size then .error s
  else .ok { s with pos := s.pos + part.size, info := part.note 1 s.pos s.info }

def parseParts (ie : List UInt8) : List Part → Rsne → Rsne
  | [], s => s
  | part :: parts, s =>
    match parsePart ie part s with
    | .ok s => parseParts ie parts s
    | .error s => s.stop ie

def rsnParts : List Part := [groupCs, pairwiseCs, akm, rsnCap, pmkid, groupMgmtCs]

def rtwRsneInfoParse (ie : List UInt8) : Rsne :=
  if ie.length < 4 then Rsne.fail {}
  else if byteAt ie 0 ≠ 48 then Rsne.fail { ops := [.bytes 0 1] }
  else if byteAt ie 1 ≠ ie.length - 2 then Rsne.fail { ops := [.bytes 0 2] }
  else parseParts ie rsnParts { pos := 4, ops := [.bytes 0 2] }

/-! ## Errors and reads -/

/-- The fields of a part from `pos` on: where each starts, and its size. -/
def Part.fields (ie : List UInt8) (part : Part) (pos : ℕ) : List (ℕ × ℕ) :=
  if part.counted then [(pos, 2), (pos + 2, part.size * le16 ie pos)] else [(pos, part.size)]

def Part.next (ie : List UInt8) (part : Part) (pos : ℕ) : ℕ :=
  if part.counted then pos + 2 + part.size * le16 ie pos else pos + part.size

def fieldsFrom (ie : List UInt8) : List Part → ℕ → List (ℕ × ℕ)
  | [], _ => []
  | part :: parts, pos => part.fields ie pos ++ fieldsFrom ie parts (part.next ie pos)

def CutField (ie : List UInt8) (f : ℕ × ℕ) : Prop := f.1 < ie.length ∧ ie.length < f.1 + f.2

structure Header (ie : List UInt8) : Prop where
  long : 4 ≤ ie.length
  id : byteAt ie 0 = 48
  length : byteAt ie 1 = ie.length - 2

section Run

variable {ie : List UInt8}

theorem Part.next_ge (part : Part) (pos : ℕ) : pos ≤ part.next ie pos := by
  rw [Part.next]
  split_ifs <;> omega

theorem fieldsFrom_ge (parts : List Part) {pos : ℕ} {f : ℕ × ℕ}
    (hf : f ∈ fieldsFrom ie parts pos) : pos ≤ f.1 := by
  induction parts generalizing pos with
  | nil => exact nomatch hf
  | cons part parts ih =>
    rcases List.mem_append.mp hf with hpart | hrest
    · rw [Part.fields] at hpart
      split_ifs at hpart
      · rcases List.mem_cons.mp hpart with rfl | hpart
        · exact Nat.le_refl _
        · rw [List.mem_singleton.mp hpart]
          exact Nat.le_add_right _ _
      · rw [List.mem_singleton.mp hpart]
    · exact Nat.le_trans (part.next_ge pos) (ih hrest)

theorem not_cut_of_end (parts : List Part) {pos : ℕ} (hpos : ie.length ≤ pos) :
    ¬ ∃ f ∈ fieldsFrom ie parts pos, CutField ie f := by
  rintro ⟨f, hf, hlt, -⟩
  have hge := fieldsFrom_ge parts hf
  omega

/-- What the parser keeps: it did not fail, stands inside, and read only inside. -/
structure Inside (ie : List UInt8) (s : Rsne) : Prop where
  ret : s.ret = true
  err : s.info.err = false
  pos : s.pos ≤ ie.length
  ops : Within ie.length s.ops

theorem parsePart_cases (part : Part) {s : Rsne} (h : Inside ie s) :
    (∃ t, parsePart ie part s = .ok t ∧ Inside ie t ∧ t.pos = part.next ie s.pos ∧
      ¬ ∃ f ∈ part.fields ie s.pos, CutField ie f) ∨
    ∃ t, parsePart ie part s = .error t ∧ Inside ie t ∧ ie.length ≤ part.next ie s.pos ∧
      (ie.length ≠ t.pos ↔ ∃ f ∈ part.fields ie s.pos, CutField ie f) := by
  obtain ⟨hret, herr, hpos, hops⟩ := h
  rw [parsePart, Part.next, Part.fields]
  by_cases hcounted : part.counted = true
  · rw [if_pos hcounted, if_pos hcounted, if_pos hcounted]
    by_cases hcnt : ie.length < s.pos + 2
    · refine .inr ⟨s, if_pos hcnt, ⟨hret, herr, hpos, hops⟩, by omega, ?_⟩
      simp [CutField]
      omega
    · have hread : Within ie.length (s.ops ++ [Op.bytes s.pos 2]) :=
        (within_append _ _).mpr ⟨hops, by simpa using bytes_within s.pos (by omega)⟩
      rw [if_neg hcnt]
      dsimp only
      split_ifs with hlist
      · refine .inr ⟨_, rfl, ⟨hret, herr, Nat.le_of_not_lt hcnt, hread⟩, Nat.le_of_lt hlist, ?_⟩
        simp [CutField]
        omega
      · refine .inl ⟨_, rfl, ⟨hret, (part.note_err _ _ _).trans herr, Nat.le_of_not_lt hlist, hread⟩, rfl, ?_⟩
        simp [CutField]
        omega
  · rw [if_neg hcounted, if_neg hcounted, if_neg hcounted]
    by_cases hfield : ie.length < s.pos + part.size
    · refine .inr ⟨s, if_pos hfield, ⟨hret, herr, hpos, hops⟩, Nat.le_of_lt hfield, ?_⟩
      simp [CutField]
      omega
    · refine .inl ⟨_, if_neg hfield, ⟨hret, (part.note_err _ _ _).trans herr,
        Nat.le_of_not_lt hfield, hops⟩, rfl, ?_⟩
      simp [CutField]
      omega

/-- The parser fails exactly at a field of which some is there and not all, and reads inside. -/
theorem parseParts_run (parts : List Part) {s : Rsne} (h : Inside ie s) :
    Within ie.length (parseParts ie parts s).ops ∧
      (parseParts ie parts s).info.err = !(parseParts ie parts s).ret ∧
      ((parseParts ie parts s).ret = false ↔ ∃ f ∈ fieldsFrom ie parts s.pos, CutField ie f) := by
  induction parts generalizing s with
  | nil =>
    rw [parseParts, h.ret]
    exact ⟨h.ops, h.err, iff_of_false Bool.noConfusion nofun⟩
  | cons part parts ih =>
    have hsplit : (∃ f ∈ fieldsFrom ie (part :: parts) s.pos, CutField ie f) ↔
        (∃ f ∈ part.fields ie s.pos, CutField ie f) ∨
          ∃ f ∈ fieldsFrom ie parts (part.next ie s.pos), CutField ie f := by
      rw [fieldsFrom]
      simp only [List.mem_append, or_and_right, exists_or]
    rw [parseParts, hsplit]
    rcases parsePart_cases part h with ⟨t, ht, hin, hnext, huncut⟩ | ⟨t, ht, hin, hend, hcut⟩
    · rw [ht, or_iff_right huncut, ← hnext]
      exact ih hin
    · rw [ht, or_iff_left (not_cut_of_end parts hend), ← hcut]
      dsimp only
      rw [Rsne.stop]
      split_ifs with hstop
      · exact ⟨hin.ops, rfl, iff_of_true rfl hstop⟩
      · rw [hin.ret]
        exact ⟨hin.ops, hin.err, iff_of_false Bool.noConfusion hstop⟩

variable (ie) in
theorem rsne_errors : Within ie.length (rtwRsneInfoParse ie).ops ∧
    (rtwRsneInfoParse ie).info.err = !(rtwRsneInfoParse ie).ret ∧
    ((rtwRsneInfoParse ie).ret = false ↔
      ¬ Header ie ∨ ∃ f ∈ fieldsFrom ie rsnParts 4, CutField ie f) := by
  rw [rtwRsneInfoParse]
  split_ifs with hshort hid hlen
  · exact ⟨within_nil, rfl, iff_of_true rfl (.inl fun h => absurd h.long (by omega))⟩
  · refine ⟨?_, rfl, iff_of_true rfl (.inl fun h => hid h.id)⟩
    exact (within_cons _ _).mpr ⟨bytes_within 0 (by omega), within_nil⟩
  · refine ⟨?_, rfl, iff_of_true rfl (.inl fun h => hlen h.length)⟩
    exact (within_cons _ _).mpr ⟨bytes_within 0 (by omega), within_nil⟩
  · have hheader : Header ie := ⟨by omega, not_not.mp hid, not_not.mp hlen⟩
    rw [or_iff_right (not_not.mpr hheader)]
    refine parseParts_run rsnParts ⟨rfl, rfl, hheader.long, ?_⟩
    exact (within_cons _ _).mpr ⟨bytes_within 0 (by omega), within_nil⟩

end Run

/-! ## Encodings -/

def le16Bytes (n : ℕ) : List UInt8 := [UInt8.ofNat n, UInt8.ofNat (n / 256)]

def Part.encode (part : Part) (items : List (List UInt8)) : List UInt8 :=
  (if part.counted then le16Bytes items.length else []) ++ items.flatten

structure Part.Holds (part : Part) (items : List (List UInt8)) : Prop where
  size : ∀ item ∈ items, item.length = part.size
  count : if part.counted then items.length < 65536 else items.length = 1

inductive Values : List Part → List (List (List UInt8)) → Prop where
  | nil {parts} : Values parts []
  | cons {part parts items vals} : part.Holds items → Values parts vals →
      Values (part :: parts) (items :: vals)

def encodeParts : List Part → List (List (List UInt8)) → List UInt8
  | part :: parts, items :: vals => part.encode items ++ encodeParts parts vals
  | _, _ => []

/-- Where the items of the parts start, and how many there are. -/
def placesFrom : List Part → List (List (List UInt8)) → ℕ → List (ℕ × ℕ)
  | part :: parts, items :: vals, pos =>
    (items.length, pos + if part.counted then 2 else 0) ::
      placesFrom parts vals (pos + (part.encode items).length)
  | _, _, _ => []

def noteAll : List Part → List (ℕ × ℕ) → RsneInfo → RsneInfo
  | part :: parts, place :: places, info => noteAll parts places (part.note place.1 place.2 info)
  | _, _, info => info

def itemsAt (ie : List UInt8) (size cnt pos : ℕ) : List (List UInt8) :=
  (List.range cnt).map fun i => (ie.drop (pos + size * i)).take size

theorem flatten_length {size : ℕ} {items : List (List UInt8)}
    (h : ∀ item ∈ items, item.length = size) : items.flatten.length = size * items.length := by
  induction items with
  | nil => rfl
  | cons item items ih =>
    obtain ⟨hitem, hitems⟩ := List.forall_mem_cons.mp h
    rw [List.flatten_cons, List.length_append, hitem, ih hitems, List.length_cons, Nat.mul_succ,
      Nat.add_comm]

theorem itemsAt_flatten {size : ℕ} {items : List (List UInt8)}
    (h : ∀ item ∈ items, item.length = size) (pre rest : List UInt8) :
    itemsAt (pre ++ (items.flatten ++ rest)) size items.length pre.length = items := by
  induction items generalizing pre with
  | nil => rfl
  | cons item items ih =>
    obtain ⟨hitem, hitems⟩ := List.forall_mem_cons.mp h
    rw [itemsAt, List.length_cons, List.range_succ_eq_map, List.map_cons, List.map_map]
    congr 1
    · rw [Nat.mul_zero, Nat.add_zero, List.drop_left, List.flatten_cons, List.append_assoc, ← hitem,
        List.take_left]
    · have htail := ih hitems (pre ++ item)
      rw [itemsAt, List.length_append, hitem] at htail
      conv_rhs => rw [← htail]
      refine List.map_congr_left fun i _ => ?_
      rw [Function.comp_apply, Nat.mul_succ, List.flatten_cons]
      simp only [List.append_assoc]
      congr 2
      omega

section Parse

variable {pre : List UInt8} {part : Part} {items : List (List UInt8)}

theorem le16_bytes {n : ℕ} (h : n < 65536) (pre rest : List UInt8) :
    le16 (pre ++ (le16Bytes n ++ rest)) pre.length = n := by
  rw [le16, byteAt_append_right]
  have hlow : byteAt (pre ++ (le16Bytes n ++ rest)) pre.length = n % 256 :=
    (byteAt_append_right pre _ 0).trans (UInt8.toNat_ofNat' ..)
  have hhigh : byteAt (le16Bytes n ++ rest) 1 = n / 256 % 256 := UInt8.toNat_ofNat' ..
  rw [hlow, hhigh]
  omega

theorem encode_length (h : part.Holds items) : (part.encode items).length =
    (if part.counted then 2 else 0) + part.size * items.length := by
  rw [Part.encode, List.length_append, flatten_length h.size]
  split_ifs <;> rfl

theorem parsePart_present (rest : List UInt8) (h : part.Holds items) (s : Rsne)
    (hpos : s.pos = pre.length) :
    ∃ ops, parsePart (pre ++ (part.encode items ++ rest)) part s =
      .ok { pos := pre.length + (part.encode items).length
            info := part.note items.length (pre.length + if part.counted then 2 else 0) s.info
            ops, ret := s.ret } := by
  have htotal : (pre ++ (part.encode items ++ rest)).length =
      pre.length + ((part.encode items).length + rest.length) := by
    rw [List.length_append, List.length_append]
  have hlen := encode_length h
  have hcount := h.count
  rw [parsePart, hpos]
  by_cases hcounted : part.counted = true
  · rw [if_pos hcounted] at hlen hcount
    rw [if_pos hcounted, if_pos hcounted, if_neg (by omega)]
    have hread : le16 (pre ++ (part.encode items ++ rest)) pre.length = items.length := by
      rw [Part.encode, if_pos hcounted, List.append_assoc]
      exact le16_bytes hcount pre _
    dsimp only
    rw [hread, if_neg (by omega), hlen, ← Nat.add_assoc]
    exact ⟨_, rfl⟩
  · rw [if_neg hcounted] at hlen hcount
    rw [hcount, Nat.mul_one, Nat.zero_add] at hlen
    rw [if_neg hcounted, if_neg hcounted, if_neg (by omega), hlen, hcount]
    exact ⟨_, rfl⟩

theorem parseParts_end (parts : List Part) {s : Rsne} (hpos : s.pos = pre.length) :
    parseParts pre parts s = s := by
  cases parts with
  | nil => rfl
  | cons part parts =>
    have hsize := part.size_pos
    have hend : parsePart pre part s = .error s := by
      rw [parsePart]
      by_cases hcounted : part.counted = true
      · rw [if_pos hcounted, if_pos (by omega)]
      · rw [if_neg hcounted, if_pos (by omega)]
    rw [parseParts, hend]
    exact if_neg (not_not.mpr hpos.symm)

theorem parseParts_encode {parts : List Part} {vals : List (List (List UInt8))}
    (h : Values parts vals) (pre : List UInt8) (s : Rsne) (hpos : s.pos = pre.length) :
    (parseParts (pre ++ encodeParts parts vals) parts s).info =
        noteAll parts (placesFrom parts vals pre.length) s.info ∧
      (parseParts (pre ++ encodeParts parts vals) parts s).ret = s.ret := by
  induction h generalizing pre s with
  | nil =>
    rw [encodeParts, List.append_nil, parseParts_end _ hpos]
    · refine ⟨?_, rfl⟩
      rw [placesFrom, noteAll]
      · exact nofun
      · exact nofun
    · exact nofun
  | @cons part parts items vals hpart _ ih =>
    obtain ⟨ops, hparse⟩ := parsePart_present (encodeParts parts vals) hpart s hpos
    rw [encodeParts, parseParts, hparse, placesFrom, noteAll]
    have hrest := ih (pre ++ part.encode items)
      { pos := pre.length + (part.encode items).length
        info := part.note items.length (pre.length + if part.counted then 2 else 0) s.info
        ops, ret := s.ret } List.length_append.symm
    rw [List.append_assoc, List.length_append] at hrest
    exact hrest

theorem places_items {parts : List Part} {vals : List (List (List UInt8))}
    (h : Values parts vals) (pre : List UInt8) :
    List.zipWith (fun part place => itemsAt (pre ++ encodeParts parts vals) part.size place.1
      place.2) parts (placesFrom parts vals pre.length) = vals := by
  induction h generalizing pre with
  | @nil parts =>
    cases parts <;> rfl
  | @cons part parts items vals hpart _ ih =>
    rw [placesFrom, List.zipWith_cons_cons, encodeParts]
    have hhead : itemsAt (pre ++ (part.encode items ++ encodeParts parts vals)) part.size
        items.length (pre.length + if part.counted then 2 else 0) = items := by
      have hflat := itemsAt_flatten hpart.size
        (pre ++ if part.counted then le16Bytes items.length else []) (encodeParts parts vals)
      have hstart : (pre ++ if part.counted then le16Bytes items.length else []).length =
          pre.length + if part.counted then 2 else 0 := by
        rw [List.length_append]
        split_ifs <;> rfl
      rw [hstart, List.append_assoc, ← List.append_assoc _ items.flatten] at hflat
      exact hflat
    have hrest := ih (pre ++ part.encode items)
    rw [List.append_assoc, List.length_append] at hrest
    rw [hhead, hrest]

end Parse

/-- What an RSN element says: its parts, of which the last may be missing. -/
structure RsnValue where
  vals : List (List (List UInt8))
  values : Values rsnParts vals
  fits : 2 + (encodeParts rsnParts vals).length < 256

def RsnValue.encode (v : RsnValue) : List UInt8 :=
  48 :: UInt8.ofNat (2 + (encodeParts rsnParts v.vals).length) :: 1 :: 0 ::
    encodeParts rsnParts v.vals

structure Reads (ie : List UInt8) (info : RsneInfo) (vals : List (List (List UInt8))) : Prop where
  gcs : info.gcs.map (itemsAt ie 4 1) = vals[0]?
  pcs : info.pcsList.map (itemsAt ie 4 info.pcsCnt) = vals[1]?
  akm : info.akmList.map (itemsAt ie 4 info.akmCnt) = vals[2]?
  cap : info.cap.map (itemsAt ie 2 1) = vals[3]?
  pmkid : info.pmkidList.map (itemsAt ie 16 info.pmkidCnt) = vals[4]?
  gmcs : info.gmcs.map (itemsAt ie 4 1) = vals[5]?
  counts : info.pcsCnt = (vals.getD 1 []).length ∧ info.akmCnt = (vals.getD 2 []).length ∧
    info.pmkidCnt = (vals.getD 4 []).length

theorem placesFrom_length_le {parts : List Part} {vals : List (List (List UInt8))}
    (h : Values parts vals) (pos : ℕ) : (placesFrom parts vals pos).length ≤ parts.length := by
  induction h generalizing pos with
  | @nil parts => cases parts <;> exact Nat.zero_le _
  | cons _ _ ih => exact Nat.succ_le_succ (ih _)

theorem placesFrom_single {parts : List Part} {vals : List (List (List UInt8))}
    (h : Values parts vals) {pos i : ℕ} {part : Part} (hpart : parts[i]? = some part)
    (hsingle : part.counted = false) : ∀ place ∈ (placesFrom parts vals pos)[i]?, place.1 = 1 := by
  induction h generalizing pos i with
  | @nil parts => cases parts <;> exact nofun
  | cons hitems _ ih =>
    cases i with
    | zero =>
      cases hpart
      have hcount := hitems.count
      rw [hsingle] at hcount
      rintro place hplace
      cases hplace
      exact hcount
    | succ i => exact ih hpart

theorem reads_places (ie : List UInt8) {places : List (ℕ × ℕ)} (hle : places.length ≤ 6)
    (hgcs : ∀ place ∈ places[0]?, place.1 = 1) (hcap : ∀ place ∈ places[3]?, place.1 = 1)
    (hgmcs : ∀ place ∈ places[5]?, place.1 = 1) :
    Reads ie (noteAll rsnParts places {})
      (List.zipWith (fun part place => itemsAt ie part.size place.1 place.2) rsnParts places) := by
  have hcnt : ∀ size cnt pos, (itemsAt ie size cnt pos).length = cnt := by
    intro size cnt pos
    rw [itemsAt, List.length_map, List.length_range]
  match places with
  | [] => exact ⟨rfl, rfl, rfl, rfl, rfl, rfl, rfl, rfl, rfl⟩
  | [(c0, p0)] =>
    obtain rfl : c0 = 1 := hgcs _ rfl
    exact ⟨rfl, rfl, rfl, rfl, rfl, rfl, rfl, rfl, rfl⟩
  | [(c0, p0), (c1, p1)] =>
    obtain rfl : c0 = 1 := hgcs _ rfl
    exact ⟨rfl, rfl, rfl, rfl, rfl, rfl, (hcnt _ c1 p1).symm, rfl, rfl⟩
  | [(c0, p0), (c1, p1), (c2, p2)] =>
    obtain rfl : c0 = 1 := hgcs _ rfl
    exact ⟨rfl, rfl, rfl, rfl, rfl, rfl, (hcnt _ c1 p1).symm, (hcnt _ c2 p2).symm, rfl⟩
  | [(c0, p0), (c1, p1), (c2, p2), (c3, p3)] =>
    obtain rfl : c0 = 1 := hgcs _ rfl
    obtain rfl : c3 = 1 := hcap _ rfl
    exact ⟨rfl, rfl, rfl, rfl, rfl, rfl, (hcnt _ c1 p1).symm, (hcnt _ c2 p2).symm, rfl⟩
  | [(c0, p0), (c1, p1), (c2, p2), (c3, p3), (c4, p4)] =>
    obtain rfl : c0 = 1 := hgcs _ rfl
    obtain rfl : c3 = 1 := hcap _ rfl
    exact ⟨rfl, rfl, rfl, rfl, rfl, rfl, (hcnt _ c1 p1).symm, (hcnt _ c2 p2).symm,
      (hcnt _ c4 p4).symm⟩
  | [(c0, p0), (c1, p1), (c2, p2), (c3, p3), (c4, p4), (c5, p5)] =>
    obtain rfl : c0 = 1 := hgcs _ rfl
    obtain rfl : c3 = 1 := hcap _ rfl
    obtain rfl : c5 = 1 := hgmcs _ rfl
    exact ⟨rfl, rfl, rfl, rfl, rfl, rfl, (hcnt _ c1 p1).symm, (hcnt _ c2 p2).symm,
      (hcnt _ c4 p4).symm⟩
  | _ :: _ :: _ :: _ :: _ :: _ :: _ :: _ =>
    simp only [List.length_cons] at hle
    omega

theorem parse_places (v : RsnValue) (a b : UInt8) :
    (rtwRsneInfoParse (48 :: UInt8.ofNat (2 + (encodeParts rsnParts v.vals).length) :: a :: b ::
        encodeParts rsnParts v.vals)).ret = true ∧
      (rtwRsneInfoParse (48 :: UInt8.ofNat (2 + (encodeParts rsnParts v.vals).length) :: a :: b ::
        encodeParts rsnParts v.vals)).info = noteAll rsnParts (placesFrom rsnParts v.vals 4) {} := by
  have hfits := v.fits
  obtain ⟨hinfo, hret⟩ := parseParts_encode v.values
    [48, UInt8.ofNat (2 + (encodeParts rsnParts v.vals).length), a, b]
    { pos := 4, ops := [Op.bytes 0 2] } rfl
  generalize hie : 48 :: UInt8.ofNat (2 + (encodeParts rsnParts v.vals).length) :: a :: b ::
    encodeParts rsnParts v.vals = ie
  have hid : byteAt ie 0 = 48 := by rw [← hie]; rfl
  have hlen : ie.length = 4 + (encodeParts rsnParts v.vals).length := by
    rw [← hie]
    simp only [List.length_cons]
    omega
  have hbyte : byteAt ie 1 = ie.length - 2 := by
    rw [hlen, ← hie]
    change (UInt8.ofNat (2 + (encodeParts rsnParts v.vals).length)).toNat = _
    rw [UInt8.toNat_ofNat', Nat.mod_eq_of_lt (by omega)]
    omega
  have hparse : rtwRsneInfoParse ie = parseParts ie rsnParts { pos := 4, ops := [Op.bytes 0 2] } := by
    rw [rtwRsneInfoParse, if_neg (by omega), if_neg (not_not.mpr hid), if_neg (not_not.mpr hbyte)]
  rw [hparse, ← hie]
  exact ⟨hret, hinfo⟩

theorem parse_value (v : RsnValue) : (rtwRsneInfoParse v.encode).ret = true ∧
    Reads v.encode (rtwRsneInfoParse v.encode).info v.vals := by
  obtain ⟨hret, hinfo⟩ := parse_places v 1 0
  have hitems := places_items v.values
    [48, UInt8.ofNat (2 + (encodeParts rsnParts v.vals).length), 1, 0]
  have hreads := reads_places v.encode (placesFrom_length_le v.values 4)
    (placesFrom_single v.values (i := 0) rfl rfl) (placesFrom_single v.values (i := 3) rfl rfl)
    (placesFrom_single v.values (i := 5) rfl rfl)
  have hvals : List.zipWith (fun part place => itemsAt v.encode part.size place.1 place.2) rsnParts
      (placesFrom rsnParts v.vals 4) = v.vals := hitems
  rw [hvals] at hreads
  refine ⟨hret, ?_⟩
  rw [RsnValue.encode, hinfo]
  exact hreads

/-- The parser reads inside, reports an error for what is no RSN element and for a field that is
cut off, and finds the parts of every value again. -/
theorem rsne_parsed (ie : List UInt8) (v : RsnValue) :
    (Within ie.length (rtwRsneInfoParse ie).ops ∧
      (rtwRsneInfoParse ie).info.err = !(rtwRsneInfoParse ie).ret ∧
      ((rtwRsneInfoParse ie).ret = false ↔
        ¬ Header ie ∨ ∃ f ∈ fieldsFrom ie rsnParts 4, CutField ie f)) ∧
    (rtwRsneInfoParse v.encode).ret = true ∧
      Reads v.encode (rtwRsneInfoParse v.encode).info v.vals :=
  ⟨rsne_errors ie, parse_value v⟩

/-- Another element is an error, though nothing of it is cut off. -/
theorem other_element_fails :
    ¬ ((rtwRsneInfoParse [49, 2, 1, 0]).ret = false ↔
      ∃ f ∈ (0, 4) :: fieldsFrom [49, 2, 1, 0] rsnParts 4, CutField [49, 2, 1, 0] f) := by
  intro h
  obtain ⟨f, hf, hlt, hcut⟩ := h.mp rfl
  rcases List.mem_cons.mp hf with rfl | hf
  · exact absurd hcut (by decide)
  · exact not_cut_of_end rsnParts (Nat.le_refl 4) ⟨f, hf, hlt, hcut⟩

end Rtl8189.RsnInfo
