import Rtl8189.Nat25Pppoe
import Rtl8189.RsnInfo

/-!
# The PMKID of an association request

`rtw_rsn_sync_pmkid` puts the cached PMKID in the RSN element of the supplicant, or takes out what
the supplicant had there. Behind the list the suite for group management is moved.
-/
namespace Rtl8189.RsnSync

open Nat25Pppoe RsnInfo

abbrev Pmkid := Vector UInt8 16

structure PmkidEntry where
  used : Bool
  bssid : MacAddr
  pmkid : Pmkid

def secIsInPmkidList (list : List PmkidEntry) (bssid : MacAddr) : Option Pmkid :=
  (list.find? fun e => e.used && e.bssid = bssid).map PmkidEntry.pmkid

structure RsnElement where
  version : Fin 65536
  value : RsnValue

/-- What `ie[1]` counts. -/
def body (vals : List (List (List UInt8))) : ℕ := 2 + (encodeParts rsnParts vals).length

def bytes (len : ℕ) (version : Fin 65536) (rest : List UInt8) : List UInt8 :=
  48 :: UInt8.ofNat len :: UInt8.ofNat version :: UInt8.ofNat (version / 256) :: rest

def RsnElement.bytes (e : RsnElement) : List UInt8 :=
  RsnSync.bytes (body e.value.vals) e.version (encodeParts rsnParts e.value.vals)

def items (p : Option Pmkid) : List (List UInt8) := (p.map Vector.toList).toList

def pmkidCnt (p : Option Pmkid) : ℕ := if p.isSome then 1 else 0

def putIf (mem : List UInt8) (i : ℕ) : Option (List UInt8) → List UInt8
  | none => mem
  | some bytes => putBytes mem i bytes

/-- Behind the early exits. There is no result where it writes through a null pointer. -/
def rewrite (mem : List UInt8) (info : RsneInfo) (p : Option Pmkid) : Option (ℕ × List UInt8) :=
  match info.pmkidList with
  | none => none
  | some list =>
    let gmCs := info.gmcs.map fun g => (mem.drop g).take 4
    let pmkidCnt := pmkidCnt p
    let mem := putIf mem list (p.map Vector.toList)
    let mem := putBytes mem (list - 2) (le16Bytes pmkidCnt)
    let mem := putIf mem (list + 16 * pmkidCnt) gmCs
    let ieLen := 1 + 1 + 2 + 4 + 2 + 4 * info.pcsCnt + 2 + 4 * info.akmCnt + 2 +
      2 + 16 * pmkidCnt + if info.gmcs.isSome then 4 else 0
    some (ieLen, putBytes mem 1 [UInt8.ofNat (ieLen - 2)])

def Carried (mem : List UInt8) (info : RsneInfo) (p : Option Pmkid) : Prop :=
  p.isSome ∧ info.pmkidCnt = 1 ∧
    info.pmkidList.map (fun list => (mem.drop list).take 16) = p.map Vector.toList

instance (mem : List UInt8) (info : RsneInfo) (p : Option Pmkid) : Decidable (Carried mem info p) :=
  inferInstanceAs (Decidable (_ ∧ _ ∧ _))

def rtwRsnSyncPmkid (mem : List UInt8) (ieLen : ℕ) (p : Option Pmkid) : Option (ℕ × List UInt8) :=
  let info := (rtwRsneInfoParse (mem.take ieLen)).info
  if info.err then some (0, mem)
  else if p = none ∧ info.pmkidCnt = 0 then some (ieLen, mem)
  else if Carried mem info p then some (ieLen, mem)
  else rewrite mem info p

/-- The buffer starts with an element of the length returned, and only its PMKIDs are others. -/
def Synced (e : RsnElement) (p : Option Pmkid) (r : Option (ℕ × List UInt8)) : Prop :=
  ∃ (e' : RsnElement) (rest : List UInt8), r = some (e'.bytes.length, e'.bytes ++ rest) ∧
    e'.version = e.version ∧ (∀ i, i ≠ 4 → e'.value.vals[i]? = e.value.vals[i]?) ∧
      e'.value.vals.getD 4 [] = items p

/-- There is a list for the PMKID, and the length of the element still fits in its byte. -/
def Accommodates (e : RsnElement) (p : Option Pmkid) : Prop :=
  p.isSome → 5 ≤ e.value.vals.length ∧
    (e.value.vals.getD 4 [] = [] → body e.value.vals + 16 < 256)

/-! ## What the parser finds -/

variable {e : RsnElement} {p : Option Pmkid} {pre x room tail : List UInt8}

def infoOf (vals : List (List (List UInt8))) : RsneInfo :=
  noteAll rsnParts (placesFrom rsnParts vals 4) {}

theorem parse_element (e : RsnElement) (room : List UInt8) :
    (rtwRsneInfoParse ((e.bytes ++ room).take e.bytes.length)).info =
      infoOf e.value.vals := by
  rw [List.take_left]
  exact (parse_places e.value _ _).2

theorem parse_err (e : RsnElement) (room : List UInt8) :
    (rtwRsneInfoParse ((e.bytes ++ room).take e.bytes.length)).info.err = false := by
  rw [List.take_left, (rsne_errors e.bytes).2.1]
  exact congrArg not (parse_places e.value _ _).1

theorem sync_eq (e : RsnElement) (room : List UInt8) (p : Option Pmkid) :
    rtwRsnSyncPmkid (e.bytes ++ room) e.bytes.length p =
      if p = none ∧ (infoOf e.value.vals).pmkidCnt = 0 then some (e.bytes.length, e.bytes ++ room)
      else if Carried (e.bytes ++ room) (infoOf e.value.vals) p then
        some (e.bytes.length, e.bytes ++ room)
      else rewrite (e.bytes ++ room) (infoOf e.value.vals) p := by
  rw [rtwRsnSyncPmkid, if_neg (ne_true_of_eq_false (parse_err e room)), parse_element]

theorem bytes_length (len : ℕ) (version : Fin 65536) (rest : List UInt8) :
    (bytes len version rest).length = 4 + rest.length := by
  simp only [bytes, List.length_cons]
  omega

theorem uncons {part : Part} {parts : List Part} {vals : List (List (List UInt8))}
    (h : Values (part :: parts) vals) (hlen : 0 < vals.length) :
    ∃ its vals', vals = its :: vals' ∧ part.Holds its ∧ Values parts vals' := by
  cases h with
  | nil => exact absurd hlen (Nat.lt_irrefl 0)
  | cons hpart hrest => exact ⟨_, _, rfl, hpart, hrest⟩

theorem RsnElement.length (e : RsnElement) : e.bytes.length = body e.value.vals + 2 := by
  rw [RsnElement.bytes, bytes_length, body]
  omega

/-- The parts of an element with a list for PMKIDs, which may be empty. -/
structure Listed (vals : List (List (List UInt8))) (g pc ak cp pm : List (List UInt8))
    (rest : List (List (List UInt8))) : Prop where
  eq : vals = g :: pc :: ak :: cp :: pm :: rest
  gcs : groupCs.Holds g
  pcs : pairwiseCs.Holds pc
  akm : akm.Holds ak
  cap : rsnCap.Holds cp
  pmkid : pmkid.Holds pm
  gmcs : Values [groupMgmtCs] rest

theorem exists_listed {vals : List (List (List UInt8))} (h : Values rsnParts vals)
    (hlen : 5 ≤ vals.length) : ∃ g pc ak cp pm rest, Listed vals g pc ak cp pm rest := by
  obtain ⟨g, vals, rfl, hg, h⟩ := uncons h (by omega)
  simp only [List.length_cons] at hlen
  obtain ⟨pc, vals, rfl, hpc, h⟩ := uncons h (by omega)
  simp only [List.length_cons] at hlen
  obtain ⟨ak, vals, rfl, hak, h⟩ := uncons h (by omega)
  simp only [List.length_cons] at hlen
  obtain ⟨cp, vals, rfl, hcp, h⟩ := uncons h (by omega)
  simp only [List.length_cons] at hlen
  obtain ⟨pm, rest, rfl, hpm, h⟩ := uncons h (by omega)
  exact ⟨g, pc, ak, cp, pm, rest, rfl, hg, hpc, hak, hcp, hpm, h⟩

section Parts

variable {vals rest : List (List (List UInt8))} {g pc ak cp pm : List (List UInt8)}

def front (g pc ak cp : List (List UInt8)) : List UInt8 :=
  groupCs.encode g ++ (pairwiseCs.encode pc ++ (akm.encode ak ++ rsnCap.encode cp))

theorem front_length (h : Listed vals g pc ak cp pm rest) :
    (front g pc ak cp).length = 10 + 4 * pc.length + 4 * ak.length := by
  have hg : (groupCs.encode g).length = 0 + 4 * g.length := encode_length h.gcs
  have hpc : (pairwiseCs.encode pc).length = 2 + 4 * pc.length := encode_length h.pcs
  have hak : (RsnInfo.akm.encode ak).length = 2 + 4 * ak.length := encode_length h.akm
  have hcp : (rsnCap.encode cp).length = 0 + 2 * cp.length := encode_length h.cap
  have hgone : g.length = 1 := h.gcs.count
  have hcpone : cp.length = 1 := h.cap.count
  simp only [front, List.length_append, hg, hpc, hak, hcp]
  omega

theorem encode_listed (h : Listed vals g pc ak cp pm rest) :
    encodeParts rsnParts vals = front g pc ak cp ++ (le16Bytes pm.length ++
      (pm.flatten ++ encodeParts [groupMgmtCs] rest)) := by
  rw [h.eq]
  simp only [rsnParts, encodeParts, front, List.append_assoc]
  rfl

theorem tail_cases (h : Values [groupMgmtCs] rest) :
    (rest = [] ∧ encodeParts [groupMgmtCs] rest = []) ∨
      ∃ gm, rest = [gm] ∧ (encodeParts [groupMgmtCs] rest).length = 4 := by
  cases h with
  | nil => exact .inl ⟨rfl, rfl⟩
  | @cons _ _ gm vals hgm h =>
    cases h
    have hlen : (groupMgmtCs.encode gm).length = 0 + 4 * gm.length := encode_length hgm
    have hone : gm.length = 1 := hgm.count
    refine .inr ⟨gm, rfl, ?_⟩
    change (groupMgmtCs.encode gm ++ []).length = 4
    rw [List.append_nil, hlen, hone]

theorem info_listed (h : Listed vals g pc ak cp pm rest) :
    (infoOf vals).pcsCnt = pc.length ∧ (infoOf vals).akmCnt = ak.length ∧
      (infoOf vals).pmkidCnt = pm.length ∧
      (infoOf vals).pmkidList = some (4 + (front g pc ak cp).length + 2) ∧
      (infoOf vals).gmcs = if encodeParts [groupMgmtCs] rest = [] then none
        else some (4 + (front g pc ak cp).length + 2 + 16 * pm.length) := by
  have hpm : (pmkid.encode pm).length = 2 + 16 * pm.length := encode_length h.pmkid
  have hfront : (groupCs.encode g).length + (pairwiseCs.encode pc).length +
      (RsnInfo.akm.encode ak).length + (rsnCap.encode cp).length = (front g pc ak cp).length := by
    simp only [front, List.length_append]
    omega
  have hlist : some (4 + (groupCs.encode g).length + (pairwiseCs.encode pc).length +
      (RsnInfo.akm.encode ak).length + (rsnCap.encode cp).length + 2) =
        some (4 + (front g pc ak cp).length + 2) := by
    congr 1
    omega
  rw [h.eq]
  obtain ⟨rfl, htail⟩ | ⟨gm, rfl, hfour⟩ := tail_cases h.gmcs
  · exact ⟨rfl, rfl, rfl, hlist, (if_pos htail).symm⟩
  · have hne : encodeParts [groupMgmtCs] [gm] ≠ [] := by
      intro hnil
      rw [hnil] at hfour
      exact absurd hfour (by decide)
    have hgmcs : some (4 + (groupCs.encode g).length + (pairwiseCs.encode pc).length +
        (RsnInfo.akm.encode ak).length + (rsnCap.encode cp).length + (pmkid.encode pm).length + 0) =
          some (4 + (front g pc ak cp).length + 2 + 16 * pm.length) := by
      congr 1
      omega
    exact ⟨rfl, rfl, rfl, hlist, hgmcs.trans (if_neg hne).symm⟩

end Parts

/-! ## The list is rewritten -/

theorem items_flatten (p : Option Pmkid) : (items p).flatten = (p.map Vector.toList).getD [] := by
  cases p with
  | none => rfl
  | some pmkid => exact List.append_nil _

theorem items_length (p : Option Pmkid) : (items p).flatten.length = 16 * pmkidCnt p := by
  cases p with
  | none => rfl
  | some pmkid =>
    rw [items_flatten]
    exact Vector.length_toList

theorem putIf_eq {old : List UInt8} {i : ℕ} {o : Option (List UInt8)} (hi : pre.length = i)
    (h : old.length = (o.getD []).length) (rest : List UInt8) :
    putIf (pre ++ (old ++ rest)) i o = pre ++ (o.getD [] ++ rest) := by
  cases o with
  | none =>
    obtain rfl := List.length_eq_zero_iff.mp h
    rfl
  | some bytes => exact putBytes_eq hi h.symm rest

/-- Whatever the list had, the new one and the suite behind it go in its place. -/
theorem rewrite_eq {hd tail room : List UInt8} {k : ℕ} {pm : List (List UInt8)} {info : RsneInfo}
    (hpm : pm.flatten.length = 16 * k) (hroom : 16 ≤ room.length)
    (htail : tail = [] ∨ tail.length = 4) (hlist : info.pmkidList = some (hd.length + 2))
    (hgmcs : info.gmcs = if tail = [] then none else some (hd.length + 2 + 16 * k))
    (p : Option Pmkid) :
    ∃ r, rewrite (hd ++ (le16Bytes k ++ (pm.flatten ++ (tail ++ room)))) info p =
      some (14 + 4 * info.pcsCnt + 4 * info.akmCnt + 2 + 16 * pmkidCnt p + tail.length,
        putBytes (hd ++ (le16Bytes (pmkidCnt p) ++ ((items p).flatten ++ (tail ++ r)))) 1
          [UInt8.ofNat (14 + 4 * info.pcsCnt + 4 * info.akmCnt + 2 + 16 * pmkidCnt p +
            tail.length - 2)]) := by
  have hitems := items_length p
  have hcnt : pmkidCnt p ≤ 1 := by
    unfold pmkidCnt
    split_ifs <;> decide
  have hlong : (items p).flatten.length + tail.length ≤ (pm.flatten ++ (tail ++ room)).length := by
    simp only [List.length_append]
    omega
  obtain ⟨a, b, r, hx, ha, hb⟩ := exists_pieces hlong
  have hlistAt : ∀ n : ℕ, (hd ++ le16Bytes n).length = hd.length + 2 := fun n => List.length_append
  have hsuite : (info.gmcs.map fun g =>
      ((hd ++ (le16Bytes k ++ (pm.flatten ++ (tail ++ room)))).drop g).take 4).getD [] = tail ∧
      (if info.gmcs.isSome then 4 else 0) = tail.length := by
    rw [hgmcs]
    rcases htail with rfl | hfour
    · exact ⟨rfl, rfl⟩
    · have hne : tail ≠ [] := by
        rintro rfl
        exact absurd hfour (by decide)
      have hpre : (hd ++ (le16Bytes k ++ pm.flatten)).length = hd.length + 2 + 16 * k := by
        simp only [List.length_append, hpm, ← Nat.add_assoc]
        rfl
      have hat := take_at hpre hfour room
      simp only [List.append_assoc] at hat
      rw [if_neg hne]
      exact ⟨hat, hfour.symm⟩
  have hput : putIf (hd ++ (le16Bytes k ++ (pm.flatten ++ (tail ++ room)))) (hd.length + 2)
      (p.map Vector.toList) = hd ++ (le16Bytes k ++ ((items p).flatten ++ (b ++ r))) := by
    rw [hx, ← List.append_assoc hd, putIf_eq (hlistAt k) (by rw [ha, items_flatten]) _,
      List.append_assoc, items_flatten]
  have hcount : putBytes (hd ++ (le16Bytes k ++ ((items p).flatten ++ (b ++ r)))) hd.length
      (le16Bytes (pmkidCnt p)) =
        hd ++ (le16Bytes (pmkidCnt p) ++ ((items p).flatten ++ (b ++ r))) := by
    have hsize : (le16Bytes (pmkidCnt p)).length = (le16Bytes k).length := rfl
    exact putBytes_eq rfl hsize _
  have hpre : (hd ++ (le16Bytes (pmkidCnt p) ++ (items p).flatten)).length =
      hd.length + 2 + 16 * pmkidCnt p := by
    simp only [List.length_append, hitems, ← Nat.add_assoc]
    rfl
  have hlast := putIf_eq hpre (hb.trans (congrArg List.length hsuite.1).symm) r
  refine ⟨r, ?_⟩
  simp only [List.append_assoc, hsuite.1] at hlast
  rw [rewrite, hlist]
  dsimp only
  have hlen : 1 + 1 + 2 + 4 + 2 + 4 * info.pcsCnt + 2 + 4 * info.akmCnt + 2 + 2 +
      16 * pmkidCnt p + tail.length =
        14 + 4 * info.pcsCnt + 4 * info.akmCnt + 2 + 16 * pmkidCnt p + tail.length := by omega
  rw [Nat.add_sub_cancel, hput, hcount, hlast, hsuite.2, hlen]

theorem values_set {vals : List (List (List UInt8))} {g pc ak cp pm : List (List UInt8)}
    {rest : List (List (List UInt8))} (h : Listed vals g pc ak cp pm rest) (p : Option Pmkid) :
    Listed (vals.set 4 (items p)) g pc ak cp (items p) rest := by
  have hp : pmkid.Holds (items p) := by
    cases p with
    | none => exact ⟨nofun, by decide⟩
    | some pmkid =>
      refine ⟨fun item hitem => ?_, (by decide : 1 < 65536)⟩
      rw [List.mem_singleton.mp hitem]
      exact Vector.length_toList
  rw [h.eq]
  exact ⟨rfl, h.gcs, h.pcs, h.akm, h.cap, hp, h.gmcs⟩

theorem Listed.values {vals : List (List (List UInt8))} {g pc ak cp pm : List (List UInt8)}
    {rest : List (List (List UInt8))} (h : Listed vals g pc ak cp pm rest) :
    Values rsnParts vals := by
  rw [h.eq]
  exact .cons h.gcs (.cons h.pcs (.cons h.akm (.cons h.cap (.cons h.pmkid h.gmcs))))

theorem body_listed {vals : List (List (List UInt8))} {g pc ak cp pm : List (List UInt8)}
    {rest : List (List (List UInt8))} (h : Listed vals g pc ak cp pm rest) :
    body vals = 14 + 4 * pc.length + 4 * ak.length + 16 * pm.length +
      (encodeParts [groupMgmtCs] rest).length := by
  have hflat : pm.flatten.length = 16 * pm.length := flatten_length h.pmkid.size
  have hcount : (le16Bytes pm.length).length = 2 := rfl
  rw [body, encode_listed h]
  simp only [List.length_append, front_length h, hflat, hcount]
  omega

theorem bytes_listed {g pc ak cp pm : List (List UInt8)} {rest : List (List (List UInt8))}
    (h : Listed e.value.vals g pc ak cp pm rest) (room : List UInt8) :
    e.bytes ++ room = bytes (body e.value.vals) e.version (front g pc ak cp) ++
      (le16Bytes pm.length ++ (pm.flatten ++ (encodeParts [groupMgmtCs] rest ++ room))) := by
  rw [RsnElement.bytes, encode_listed h]
  simp only [bytes, List.cons_append, List.append_assoc]

theorem carried_items {g pc ak cp pm : List (List UInt8)} {rest : List (List (List UInt8))}
    (h : Listed e.value.vals g pc ak cp pm rest)
    (hcarried : Carried (e.bytes ++ room) (infoOf e.value.vals) p) : pm = items p := by
  obtain ⟨hsome, hone, hsame⟩ := hcarried
  obtain ⟨-, -, hcnt, hlist, -⟩ := info_listed h
  obtain ⟨item, rfl⟩ := List.length_eq_one_iff.mp (hcnt.symm.trans hone)
  obtain ⟨pmkid, rfl⟩ := Option.isSome_iff_exists.mp hsome
  have hitem : item.length = 16 := h.pmkid.size item List.mem_cons_self
  have hpre : (bytes (body e.value.vals) e.version (front g pc ak cp) ++ le16Bytes 1).length =
      4 + (front g pc ak cp).length + 2 := by
    rw [List.length_append, bytes_length]
    rfl
  have hread := take_at hpre hitem (encodeParts [groupMgmtCs] rest ++ room)
  rw [List.append_assoc] at hread
  rw [hlist, bytes_listed h, List.flatten_singleton] at hsame
  exact congrArg (fun x => [x]) (hread.symm.trans (Option.some.inj hsame))

theorem put_length (len len' : ℕ) (version : Fin 65536) (x y : List UInt8) :
    putBytes (bytes len version x ++ y) 1 [UInt8.ofNat len'] = bytes len' version x ++ y := rfl

theorem sync_listed {g pc ak cp pm : List (List UInt8)} {rest : List (List (List UInt8))}
    (h : Listed e.value.vals g pc ak cp pm rest) (hroom : 16 ≤ room.length)
    (hrewrite : ¬ (p = none ∧ pm.length = 0) ∧
      ¬ Carried (e.bytes ++ room) (infoOf e.value.vals) p) :
    ∃ r, rtwRsnSyncPmkid (e.bytes ++ room) e.bytes.length p =
      some (body (e.value.vals.set 4 (items p)) + 2,
        bytes (body (e.value.vals.set 4 (items p))) e.version
          (encodeParts rsnParts (e.value.vals.set 4 (items p))) ++ r) := by
  obtain ⟨hpcs, hakm, hcnt, hlist, hgmcs⟩ := info_listed h
  have hset := values_set h p
  have hone : pmkidCnt p = (items p).length := by
    cases p <;> rfl
  have htail : encodeParts [groupMgmtCs] rest = [] ∨
      (encodeParts [groupMgmtCs] rest).length = 4 :=
    (tail_cases h.gmcs).imp And.right fun ⟨_, _, hfour⟩ => hfour
  generalize hinfo : infoOf e.value.vals = info at *
  have hhd : (bytes (body e.value.vals) e.version (front g pc ak cp)).length + 2 =
      4 + (front g pc ak cp).length + 2 := by rw [bytes_length]
  rw [← hhd] at hlist hgmcs
  obtain ⟨r, hr⟩ := rewrite_eq (flatten_length h.pmkid.size) hroom htail hlist hgmcs p
  refine ⟨r, ?_⟩
  rw [sync_eq, hinfo]
  have hlen : 14 + 4 * pc.length + 4 * ak.length + 2 + 16 * (items p).length +
      (encodeParts [groupMgmtCs] rest).length =
        14 + 4 * pc.length + 4 * ak.length + 16 * (items p).length +
          (encodeParts [groupMgmtCs] rest).length + 2 := by omega
  rw [hcnt, if_neg hrewrite.1, if_neg hrewrite.2, bytes_listed h, hr, hpcs, hakm, hone,
    encode_listed hset, body_listed hset, hlen, Nat.add_sub_cancel, put_length]
  simp only [bytes, List.cons_append, List.append_assoc]

theorem not_listed {vals : List (List (List UInt8))} (hlen : vals.length < 5) :
    (infoOf vals).pmkidCnt = 0 ∧
      (infoOf vals).pmkidList = none := by
  match vals with
  | [] => exact ⟨rfl, rfl⟩
  | [_] => exact ⟨rfl, rfl⟩
  | [_, _] => exact ⟨rfl, rfl⟩
  | [_, _, _] => exact ⟨rfl, rfl⟩
  | [_, _, _, _] => exact ⟨rfl, rfl⟩
  | _ :: _ :: _ :: _ :: _ :: _ =>
    simp only [List.length_cons] at hlen
    omega

theorem synced_self (hlist : e.value.vals.getD 4 [] = items p) :
    Synced e p (some (e.bytes.length, e.bytes ++ room)) :=
  ⟨e, room, rfl, rfl, fun _ _ => rfl, hlist⟩

/-- An element of that length there is only if the length fits. -/
theorem synced_iff {r : List UInt8} {g pc ak cp pm : List (List UInt8)}
    {rest : List (List (List UInt8))} (h : Listed e.value.vals g pc ak cp pm rest) :
    Synced e p (some (body (e.value.vals.set 4 (items p)) + 2,
        bytes (body (e.value.vals.set 4 (items p))) e.version
          (encodeParts rsnParts (e.value.vals.set 4 (items p))) ++ r)) ↔
      body (e.value.vals.set 4 (items p)) < 256 := by
  constructor
  · rintro ⟨e', rest', heq, -⟩
    have hfits : body e'.value.vals < 256 := e'.value.fits
    have hlen := congrArg Prod.fst (Option.some.inj heq)
    rw [e'.length] at hlen
    exact Nat.lt_of_le_of_lt (Nat.le_of_add_le_add_right hlen.le) hfits
  · intro hfits
    have hget : (e.value.vals.set 4 (items p)).getD 4 [] = items p := by
      rw [h.eq]
      rfl
    refine ⟨⟨e.version, ⟨_, (values_set h p).values, hfits⟩⟩, r, ?_, rfl, fun i hi => ?_, hget⟩
    · rw [RsnElement.length]
      rfl
    · exact List.getElem?_set_ne (Ne.symm hi)

theorem sync_iff (e : RsnElement) (p : Option Pmkid) (hroom : 16 ≤ room.length) :
    Synced e p (rtwRsnSyncPmkid (e.bytes ++ room) e.bytes.length p) ↔ Accommodates e p := by
  by_cases hlen : e.value.vals.length < 5
  · obtain ⟨hcnt, hlist⟩ := not_listed hlen
    have hget : e.value.vals.getD 4 [] = [] := List.getD_eq_default _ _ (by omega)
    rw [sync_eq]
    cases p with
    | none =>
      rw [if_pos ⟨rfl, hcnt⟩]
      exact iff_of_true (synced_self hget) nofun
    | some pmkid =>
      have hcarried : ¬ Carried (e.bytes ++ room)
          (infoOf e.value.vals) (some pmkid) := by
        rintro ⟨-, hone, -⟩
        rw [hcnt] at hone
        exact absurd hone (by decide)
      -- there is no list to write to
      rw [if_neg nofun, if_neg hcarried, rewrite, hlist]
      refine iff_of_false ?_ fun h => absurd (h rfl).1 (by omega)
      rintro ⟨_, _, h, -⟩
      exact nomatch h
  · obtain ⟨g, pc, ak, cp, pm, rest, h⟩ := exists_listed e.value.values (by omega)
    obtain ⟨-, -, hcnt, hlist, -⟩ := info_listed h
    have hget : e.value.vals.getD 4 [] = pm := by rw [h.eq]; rfl
    have hfits : body e.value.vals < 256 := e.value.fits
    by_cases hnone : p = none ∧ pm.length = 0
    · obtain ⟨rfl, hpm⟩ := hnone
      rw [sync_eq, hcnt, if_pos ⟨rfl, hpm⟩]
      exact iff_of_true (synced_self (hget.trans (List.length_eq_zero_iff.mp hpm))) nofun
    by_cases hcarried : Carried (e.bytes ++ room)
        (infoOf e.value.vals) p
    · have hpm := carried_items h hcarried
      rw [sync_eq, hcnt, if_neg hnone, if_pos hcarried]
      refine iff_of_true (synced_self (hget.trans hpm)) fun hsome => ⟨by omega, fun hnil => ?_⟩
      obtain ⟨pmkid, rfl⟩ := Option.isSome_iff_exists.mp hsome
      exact nomatch (hnil.symm.trans (hget.trans hpm) : [] = [pmkid.toList])
    · obtain ⟨r, hr⟩ := sync_listed h hroom ⟨hnone, hcarried⟩
      have hbody := body_listed h
      have hset := body_listed (values_set h p)
      rw [hr, synced_iff h, Accommodates, hget, hset, ← List.length_eq_zero_iff]
      cases p with
      | none =>
        refine iff_of_true ?_ nofun
        have hitems : (items none).length = 0 := rfl
        omega
      | some pmkid =>
        have hitems : (items (some pmkid)).length = 1 := rfl
        have hsome : (some pmkid).isSome = true := rfl
        rw [imp_iff_right hsome]
        omega

theorem pmkid_synced_iff (e : RsnElement) (list : List PmkidEntry) (bssid : MacAddr)
    (hroom : 16 ≤ room.length) :
    Synced e (secIsInPmkidList list bssid)
        (rtwRsnSyncPmkid (e.bytes ++ room) e.bytes.length (secIsInPmkidList list bssid)) ↔
      Accommodates e (secIsInPmkidList list bssid) :=
  sync_iff e _ hroom

def ccmp : List UInt8 := [0, 0x0f, 0xac, 4]

def psk : List UInt8 := [0, 0x0f, 0xac, 2]

def supplicant : RsnElement where
  version := 1
  value :=
    { vals := [[ccmp], [ccmp], [psk], [[0, 0]]]
      values := .cons ⟨by decide, by decide⟩ (.cons ⟨by decide, by decide⟩
        (.cons ⟨by decide, by decide⟩ (.cons ⟨by decide, by decide⟩ .nil)))
      fits := by decide }

def cache : List PmkidEntry := [⟨true, .replicate 6 2, .replicate 16 1⟩]

/-- With a PMKID for the network the code writes through a null pointer. -/
theorem supplicant_lost :
    ¬ Synced supplicant (secIsInPmkidList cache (.replicate 6 2))
      (rtwRsnSyncPmkid (supplicant.bytes ++ List.replicate 16 0) supplicant.bytes.length
        (secIsInPmkidList cache (.replicate 6 2))) := by
  rw [sync_iff supplicant _ (by decide)]
  intro h
  exact absurd (h (by decide)).1 (by decide)

def protectedSupplicant : RsnElement where
  version := 1
  value :=
    { vals := [[ccmp], [ccmp], [psk], [[0x80, 0]], [], [[0, 0x0f, 0xac, 6]]]
      values := .cons ⟨by decide, by decide⟩ (.cons ⟨by decide, by decide⟩
        (.cons ⟨by decide, by decide⟩ (.cons ⟨by decide, by decide⟩
          (.cons ⟨by decide, by decide⟩ (.cons ⟨by decide, by decide⟩ .nil)))))
      fits := by decide }

theorem supplicant_kept :
    Synced protectedSupplicant (secIsInPmkidList cache (.replicate 6 2))
      (rtwRsnSyncPmkid (protectedSupplicant.bytes ++ List.replicate 16 0)
        protectedSupplicant.bytes.length (secIsInPmkidList cache (.replicate 6 2))) :=
  (pmkid_synced_iff protectedSupplicant cache (.replicate 6 2) (by decide)).mpr
    fun _ => ⟨by decide, fun _ => by decide⟩

end Rtl8189.RsnSync
