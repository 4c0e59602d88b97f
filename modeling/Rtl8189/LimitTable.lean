import Rtl8189.LimitText
import Mathlib.Data.List.Nodup
import Mathlib.Order.Bounds.Basic
import Mathlib.Algebra.Order.Group.Int

/-!
# The table of power limits

A regulation has one limit for each bandwidth, rate section, channel and number of transmit
chains. A new limit only lowers the one that is there. The value for "worldwide" is resolved
when a limit is looked up, from the limits of all regulations.
-/
namespace Rtl8189.LimitTable
open LimitText

structure Slot where
  bw : ℕ
  tlrs : ℕ
  chIdx : ℕ
  ntxIdx : ℕ
deriving DecidableEq

structure TxpwrLmtEnt where
  regdName : List Char
  lmt2g : Slot → ℤ

abbrev Lmts := List TxpwrLmtEnt

def TxpwrLmtEnt.new (name : List Char) : TxpwrLmtEnt where
  regdName := name
  lmt2g _ := txgiMax

def TxpwrLmtEnt.lower (e : TxpwrLmtEnt) (s : Slot) (lmt : ℤ) : TxpwrLmtEnt :=
  { e with lmt2g := fun t => if t = s then min (e.lmt2g s) lmt else e.lmt2g t }

def addTo (name : List Char) (s : Slot) (lmt : ℤ) : Lmts → Lmts
  | [] => [(TxpwrLmtEnt.new name).lower s lmt]
  | e :: l => if e.regdName = name then e.lower s lmt :: l else e :: addTo name s lmt l

def rtwTxpwrLmtAdd (l : Lmts) (name : List Char) (s : Slot) (lmt : ℤ) : Lmts :=
  if name = [] then l else addTo name s lmt l

def rtwTxpwrLmtGetByName (l : Lmts) (name : List Char) : Option TxpwrLmtEnt :=
  l.find? fun e => e.regdName = name

inductive Band where
  | on24G
  | on5G
deriving DecidableEq

def regdNone : List Char := ['N', 'O', 'N', 'E']
def regdWw : List Char := ['W', 'W']

structure Enable where
  regEnableTxPowerLimit : ℕ
  eepromRegulatory : ℕ

def wwLmt (l : Lmts) (s : Slot) : ℤ :=
  l.foldl (fun lmt e => if e.lmt2g s ≠ phyTxpwrWwLmtValue then min lmt (e.lmt2g s) else lmt)
    txgiMax

/-- The 5 GHz tables are not built in. -/
def phyGetTxpwrLmt (en : Enable) (l : Lmts) (name : List Char) (band : Band)
    (bw tlrs ntxIdx cch : ℕ) : ℤ :=
  let s : Slot := { bw := bw, tlrs := tlrs, chIdx := cch - 1, ntxIdx := ntxIdx }
  if en.regEnableTxPowerLimit = 2 ∧ en.eepromRegulatory ≠ 1 ∨ en.regEnableTxPowerLimit = 0 then
    txgiMax
  else if l.length = 0 ∨ name = regdNone then txgiMax
  else if name = regdWw then
    if band = .on24G ∧ cch ≠ 0 then wwLmt l s else txgiMax
  else
    match rtwTxpwrLmtGetByName l name with
    | none => txgiMax
    | some ent =>
      if band = .on24G ∧ cch ≠ 0 then
        if ent.lmt2g s ≠ phyTxpwrWwLmtValue then ent.lmt2g s else wwLmt l s
      else txgiMax

/-! ## All channels of a transmission -/

structure Transmission where
  mpMode : Bool
  band : Band
  rate : ℕ
  bw : ℕ
  ntxIdx : ℕ
  cch : ℕ
  opch : ℕ

structure Channels where
  cch20 : ℕ
  cch40 : ℕ
  cch80 : ℕ
  rateBmpHtByBw : ℕ → ℕ
  rateBmpVhtByBw : ℕ → ℕ

def rsCck : ℕ := 0
def rsOfdm : ℕ := 1
def rsHt : ℕ := 2
def rsVht : ℕ := 3

def tlrsOfRate (rate : ℕ) : Option ℕ :=
  if rate = 0x02 ∨ rate = 0x04 ∨ rate = 0x0B ∨ rate = 0x16 then some rsCck
  else if 0x0C ≤ rate ∧ rate ≤ 0x6C ∧ rate ≠ 0x16 then some rsOfdm
  else if 0x80 ≤ rate ∧ rate ≤ 0x9F then some rsHt
  else if 0xA0 ≤ rate ∧ rate ≤ 0xC7 then some rsVht
  else none

def chWidthToBwCap (bw : ℕ) : ℕ := [0x04, 0x08, 0x10, 0x20, 0x40, 0x01, 0x02].getD bw 0

def rtwGetScchByCchOffset (cch bw : ℕ) (upper : Bool) : ℕ :=
  if bw = 0 then cch
  else if 3 ≤ cch ∧ cch ≤ 11 ∧ bw = 1 then if upper then cch + 2 else cch - 2
  else if 50 ≤ cch ∧ cch ≤ 163 ∧ bw = 3 then if upper then cch + 8 else cch - 8
  else if 42 ≤ cch ∧ cch ≤ 171 ∧ bw = 2 then if upper then cch + 4 else cch - 4
  else if 38 ≤ cch ∧ cch ≤ 175 ∧ bw = 1 then if upper then cch + 2 else cch - 2
  else 0

def rtwGetScchByCchOpch (cch bw opch : ℕ) : ℕ :=
  if opch = cch then if bw = 0 then cch else 0
  else rtwGetScchByCchOffset cch bw (cch < opch)

def rtwGetTxBwBmpOfRate (rateBmpByBw : ℕ → ℕ) (rateBmp maxBw : ℕ) : ℕ :=
  (List.range (maxBw + 1)).foldl
    (fun bmp bw => if rateBmp ≤ rateBmpByBw bw then bmp ||| chWidthToBwCap bw else bmp) 0

def bwBmpOf (c : Channels) (tx : Transmission) (tlrs : ℕ) : ℕ :=
  if tx.mpMode then chWidthToBwCap tx.bw
  else if tlrs = rsCck ∨ tlrs = rsOfdm then chWidthToBwCap 0
  else if tlrs = rsHt then
    let bmp := rtwGetTxBwBmpOfRate c.rateBmpHtByBw (2 ^ (tx.rate - 0x80)) (min tx.bw 1)
    if bmp = 0 then chWidthToBwCap (min tx.bw 1) else bmp
  else
    let bmp := rtwGetTxBwBmpOfRate c.rateBmpVhtByBw (2 ^ (tx.rate - 0xA0)) (min tx.bw 3)
    if bmp = 0 then chWidthToBwCap (min tx.bw 3) else bmp

def centres (c : Channels) (tx : Transmission) : ℕ × ℕ × ℕ :=
  if tx.opch = 0 then (c.cch20, c.cch40, c.cch80) else
    let cch80 := if tx.bw = 2 then tx.cch else 0
    let cch40 := if cch80 ≠ 0 then rtwGetScchByCchOpch cch80 2 tx.opch
      else if tx.bw = 1 then tx.cch else 0
    let cch20 := if cch40 ≠ 0 then rtwGetScchByCchOpch cch40 1 tx.opch
      else if tx.bw = 0 then tx.cch else 0
    (cch20, cch40, cch80)

def tmpCch (c : Channels) (tx : Transmission) (bw : ℕ) : ℕ :=
  if tx.mpMode then tx.cch
  else if bw = 0 then (centres c tx).1
  else if bw = 1 then (centres c tx).2.1
  else if bw = 2 then (centres c tx).2.2
  else 0

def phyGetTxpwrLmtSubChs (en : Enable) (l : Lmts) (name : List Char) (c : Channels)
    (tx : Transmission) : ℤ :=
  match tlrsOfRate tx.rate with
  | none => txgiMax
  | some tlrs =>
    (List.range (tx.bw + 1)).foldl (fun minLmt bw =>
      if chWidthToBwCap bw &&& bwBmpOf c tx tlrs = 0 then minLmt else
        let lmt := phyGetTxpwrLmt en l name tx.band bw tlrs tx.ntxIdx (tmpCch c tx bw)
        if lmt ≤ minLmt then lmt else minLmt) txgiMax

variable {α : Type*} {cond : α → Prop} [DecidablePred cond] {f : α → ℤ}

def leastOf (cond : α → Prop) [DecidablePred cond] (f : α → ℤ) (m : ℤ) (as : List α) : ℤ :=
  as.foldl (fun m a => if cond a then m else if f a ≤ m then f a else m) m

theorem leastOf_le (m : ℤ) (as : List α) : leastOf cond f m as ≤ m := by
  induction as generalizing m with
  | nil => exact le_refl m
  | cons a as ih =>
    rw [leastOf, List.foldl_cons]
    refine le_trans (ih _) ?_
    split_ifs with hc hle
    · exact le_refl m
    · exact hle
    · exact le_refl m

theorem leastOf_le_of_mem (m : ℤ) {as : List α} {a : α} (ha : a ∈ as) (hc : ¬ cond a) :
    leastOf cond f m as ≤ f a := by
  induction as generalizing m with
  | nil => cases ha
  | cons b as ih =>
    rw [leastOf, List.foldl_cons]
    rcases List.mem_cons.mp ha with rfl | hmem
    · refine le_trans (leastOf_le _ as) ?_
      rw [if_neg hc]
      split_ifs with hle
      · exact le_refl _
      · exact le_of_lt (not_le.mp hle)
    · exact ih _ hmem

theorem subChs_le (en : Enable) (l : Lmts) (name : List Char) (c : Channels)
    (tx : Transmission) {tlrs bw : ℕ} (hrate : tlrsOfRate tx.rate = some tlrs)
    (hbw : bw ≤ tx.bw) (hcap : chWidthToBwCap bw &&& bwBmpOf c tx tlrs ≠ 0) :
    phyGetTxpwrLmtSubChs en l name c tx ≤
      phyGetTxpwrLmt en l name tx.band bw tlrs tx.ntxIdx (tmpCch c tx bw) := by
  have hmem : bw ∈ List.range (tx.bw + 1) := List.mem_range.mpr (by omega)
  simp only [phyGetTxpwrLmtSubChs, hrate]
  exact leastOf_le_of_mem (f := fun bw => phyGetTxpwrLmt en l name tx.band bw tlrs tx.ntxIdx
    (tmpCch c tx bw)) txgiMax hmem hcap

/-! ## What the table holds -/

structure Entry where
  name : List Char
  slot : Slot
  lmt : ℤ

def addAll (l : Lmts) (es : List Entry) : Lmts :=
  es.foldl (fun l e => rtwTxpwrLmtAdd l e.name e.slot e.lmt) l

def valueOf (l : Lmts) (name : List Char) (s : Slot) : ℤ :=
  match rtwTxpwrLmtGetByName l name with
  | none => txgiMax
  | some e => e.lmt2g s

def names (l : Lmts) : List (List Char) := l.map TxpwrLmtEnt.regdName

def given (es : List Entry) (name : List Char) (s : Slot) : Set ℤ :=
  {y | ∃ e ∈ es, e.name = name ∧ e.slot = s ∧ e.lmt = y}

theorem valueOf_nil (name : List Char) (s : Slot) : valueOf [] name s = txgiMax := rfl

theorem valueOf_cons (e : TxpwrLmtEnt) (l : Lmts) (name : List Char) (s : Slot) :
    valueOf (e :: l) name s = if e.regdName = name then e.lmt2g s else valueOf l name s := by
  by_cases hn : e.regdName = name
  · simp [valueOf, rtwTxpwrLmtGetByName, hn]
  · simp [valueOf, rtwTxpwrLmtGetByName, hn]

theorem valueOf_addTo (name : List Char) (s : Slot) (lmt : ℤ) (l : Lmts) (n : List Char)
    (t : Slot) : valueOf (addTo name s lmt l) n t =
      if n = name ∧ t = s then min (valueOf l name s) lmt else valueOf l n t := by
  induction l with
  | nil =>
    rw [addTo, valueOf_cons, valueOf_nil, valueOf_nil]
    by_cases hn : n = name
    · subst hn
      simp [TxpwrLmtEnt.lower, TxpwrLmtEnt.new]
    · simp [TxpwrLmtEnt.lower, TxpwrLmtEnt.new, hn, Ne.symm hn]
  | cons e l ih =>
    rw [addTo]
    by_cases he : e.regdName = name
    · rw [if_pos he, valueOf_cons, valueOf_cons, valueOf_cons]
      by_cases hn : n = name
      · subst hn
        simp [TxpwrLmtEnt.lower, he]
      · have hne : e.regdName ≠ n := fun h => hn (h.symm.trans he)
        simp [TxpwrLmtEnt.lower, hn, hne]
    · rw [if_neg he, valueOf_cons, valueOf_cons, valueOf_cons, if_neg he, ih]
      by_cases hn : n = name
      · subst hn
        simp [he]
      · simp [hn]

theorem names_addTo (name : List Char) (s : Slot) (lmt : ℤ) (l : Lmts) :
    names (addTo name s lmt l) = if name ∈ names l then names l else names l ++ [name] := by
  induction l with
  | nil => rfl
  | cons e l ih =>
    rw [addTo]
    by_cases he : e.regdName = name
    · rw [if_pos he, if_pos (by simp [names, he])]
      rfl
    · have hmem : name ∈ names (e :: l) ↔ name ∈ names l := by simp [names, Ne.symm he]
      have hcons : names (e :: addTo name s lmt l) = e.regdName :: names (addTo name s lmt l) := rfl
      rw [if_neg he, hcons, ih, if_congr hmem rfl rfl]
      split_ifs
      · rfl
      · rfl

theorem valueOf_of_mem {l : Lmts} (hl : (names l).Nodup) {e : TxpwrLmtEnt} (he : e ∈ l)
    (s : Slot) : valueOf l e.regdName s = e.lmt2g s := by
  induction l with
  | nil => cases he
  | cons a l ih =>
    have hnodup := List.nodup_cons.mp hl
    rw [valueOf_cons]
    rcases List.mem_cons.mp he with rfl | hmem
    · rw [if_pos rfl]
    · have hne : a.regdName ≠ e.regdName := by
        intro h
        exact hnodup.1 (h ▸ List.mem_map_of_mem hmem)
      rw [if_neg hne, ih hnodup.2 hmem]

theorem names_addAll {es : List Entry} (hne : ∀ x ∈ es, x.name ≠ []) (l : Lmts)
    (hl : (names l).Nodup) : (names (addAll l es)).Nodup ∧
      ∀ n, n ∈ names (addAll l es) ↔ n ∈ names l ∨ ∃ x ∈ es, x.name = n := by
  induction es generalizing l with
  | nil => exact ⟨hl, fun n => by simp [addAll]⟩
  | cons x es ih =>
    have hx := hne x List.mem_cons_self
    have hadd : rtwTxpwrLmtAdd l x.name x.slot x.lmt = addTo x.name x.slot x.lmt l := if_neg hx
    have hnames := names_addTo x.name x.slot x.lmt l
    have hnodup : (names (addTo x.name x.slot x.lmt l)).Nodup := by
      rw [hnames]
      split_ifs with hmem
      · exact hl
      · exact List.nodup_append.mpr ⟨hl, List.nodup_singleton _, by
          intro a ha b hb hab
          rw [List.mem_singleton.mp hb] at hab
          exact hmem (hab ▸ ha)⟩
    obtain ⟨hall, hmem⟩ := ih (fun y hy => hne y (List.mem_cons_of_mem x hy)) _ hnodup
    rw [addAll, List.foldl_cons, hadd]
    refine ⟨hall, fun n => (hmem n).trans ?_⟩
    rw [hnames]
    split_ifs with hin
    · constructor
      · rintro (h | ⟨y, hy, hyn⟩)
        · exact Or.inl h
        · exact Or.inr ⟨y, List.mem_cons_of_mem x hy, hyn⟩
      · rintro (h | ⟨y, hy, rfl⟩)
        · exact Or.inl h
        · rcases List.mem_cons.mp hy with rfl | hy
          · exact Or.inl hin
          · exact Or.inr ⟨y, hy, rfl⟩
    · simp only [List.mem_append, List.mem_cons, List.not_mem_nil, false_or, exists_eq_or_imp,
        or_assoc, eq_comm (a := n)]

theorem isLeast_insert_min {a b r : ℤ} {S : Set ℤ} (h : IsLeast (insert (min a b) S) r) :
    IsLeast (insert a (insert b S)) r := by
  obtain ⟨hmem, hle⟩ := h
  have hmin := hle (Set.mem_insert _ S)
  refine ⟨?_, ?_⟩
  · rcases hmem with rfl | hS
    · rcases min_choice a b with hab | hab
      · rw [hab]
        exact Set.mem_insert _ _
      · rw [hab]
        exact Set.mem_insert_of_mem _ (Set.mem_insert _ _)
    · exact Set.mem_insert_of_mem _ (Set.mem_insert_of_mem _ hS)
  · rintro y (rfl | rfl | hS)
    · exact le_trans hmin (min_le_left _ _)
    · exact le_trans hmin (min_le_right _ _)
    · exact hle (Set.mem_insert_of_mem _ hS)

theorem valueOf_addAll {es : List Entry} (hne : ∀ x ∈ es, x.name ≠ []) (l : Lmts)
    (n : List Char) (s : Slot) :
    IsLeast (insert (valueOf l n s) (given es n s)) (valueOf (addAll l es) n s) := by
  induction es generalizing l with
  | nil => exact ⟨Set.mem_insert _ _, fun y hy => by
      rcases hy with rfl | ⟨e, he, -⟩
      · exact le_refl _
      · cases he⟩
  | cons x es ih =>
    have hx := hne x List.mem_cons_self
    have hadd : rtwTxpwrLmtAdd l x.name x.slot x.lmt = addTo x.name x.slot x.lmt l := if_neg hx
    have hes := ih (fun y hy => hne y (List.mem_cons_of_mem x hy)) (addTo x.name x.slot x.lmt l)
    rw [valueOf_addTo] at hes
    rw [addAll, List.foldl_cons, hadd]
    split_ifs at hes with hcell
    · obtain ⟨rfl, rfl⟩ := hcell
      have hgiven : given (x :: es) x.name x.slot = insert x.lmt (given es x.name x.slot) := by
        ext y
        simp [given, eq_comm (a := y)]
      rw [hgiven]
      exact isLeast_insert_min hes
    · have hgiven : given (x :: es) n s = given es n s := by
        ext y
        have hno : ¬ (x.name = n ∧ x.slot = s ∧ x.lmt = y) := fun h =>
          hcell ⟨h.1.symm, h.2.1.symm⟩
        simp only [given, Set.mem_ofPred_eq, List.mem_cons, exists_eq_or_imp, hno, false_or]
      rw [hgiven]
      exact hes

/-! ## What is looked up -/

def explicit (es : List Entry) (name : List Char) (s : Slot) : Set ℤ :=
  {y | y ∈ given es name s ∧ y ≠ phyTxpwrWwLmtValue}

/-- The least explicit limit, of all regulations where the slot is worldwide. -/
def IsLimit (es : List Entry) (name : List Char) (s : Slot) (r : ℤ) : Prop :=
  (phyTxpwrWwLmtValue ∈ given es name s →
    IsLeast (insert txgiMax {y | ∃ n, y ∈ explicit es n s}) r) ∧
  (phyTxpwrWwLmtValue ∉ given es name s → IsLeast (insert txgiMax (explicit es name s)) r)

/-- Worldwide is the lowest value, and a slot that is worldwide has no limit of its own. -/
structure Plain (es : List Entry) : Prop where
  named : ∀ x ∈ es, x.name ≠ []
  low : ∀ x ∈ es, phyTxpwrWwLmtValue ≤ x.lmt
  unmixed : ∀ x ∈ es, ∀ y ∈ es, x.name = y.name → x.slot = y.slot →
    x.lmt = phyTxpwrWwLmtValue → y.lmt = phyTxpwrWwLmtValue ∨ y.lmt = txgiMax

def Enable.On (en : Enable) : Prop :=
  ¬ (en.regEnableTxPowerLimit = 2 ∧ en.eepromRegulatory ≠ 1 ∨ en.regEnableTxPowerLimit = 0)

theorem wwLmt_isLeast (l : Lmts) (s : Slot) :
    IsLeast (insert txgiMax {y | ∃ e ∈ l, e.lmt2g s = y ∧ y ≠ phyTxpwrWwLmtValue}) (wwLmt l s) := by
  suffices h : ∀ m, IsLeast (insert m {y | ∃ e ∈ l, e.lmt2g s = y ∧ y ≠ phyTxpwrWwLmtValue})
      (l.foldl (fun lmt e => if e.lmt2g s ≠ phyTxpwrWwLmtValue then min lmt (e.lmt2g s) else lmt)
        m) from h txgiMax
  induction l with
  | nil => exact fun m => ⟨Set.mem_insert _ _, fun y hy => by
      rcases hy with rfl | ⟨e, he, -⟩
      · exact le_refl _
      · cases he⟩
  | cons e l ih =>
    intro m
    have hset : {y | ∃ x ∈ e :: l, x.lmt2g s = y ∧ y ≠ phyTxpwrWwLmtValue} =
        {y | e.lmt2g s = y ∧ y ≠ phyTxpwrWwLmtValue} ∪
          {y | ∃ x ∈ l, x.lmt2g s = y ∧ y ≠ phyTxpwrWwLmtValue} := by
      ext y
      simp only [Set.mem_ofPred_eq, List.mem_cons, exists_eq_or_imp, Set.mem_union]
    rw [List.foldl_cons, hset]
    split_ifs with hww
    · have hone : {y | e.lmt2g s = y ∧ y ≠ phyTxpwrWwLmtValue} = {e.lmt2g s} := by
        ext y
        simp only [Set.mem_ofPred_eq, Set.mem_singleton_iff]
        exact ⟨fun h => h.1.symm, fun h => ⟨h.symm, h ▸ hww⟩⟩
      rw [hone, Set.singleton_union]
      exact isLeast_insert_min (ih _)
    · have hnone : {y | e.lmt2g s = y ∧ y ≠ phyTxpwrWwLmtValue} = ∅ := by
        ext y
        simp only [Set.mem_ofPred_eq, Set.mem_empty_iff_false, iff_false, not_and, not_not]
        rintro rfl
        exact not_not.mp hww
      rw [hnone, Set.empty_union]
      exact ih m

/-- A worldwide slot is looked up as the least explicit limit of all regulations. -/
theorem wwLmt_addAll {es : List Entry} (hes : Plain es) (s : Slot) :
    IsLeast (insert txgiMax {y | ∃ n, y ∈ explicit es n s}) (wwLmt (addAll [] es) s) := by
  obtain ⟨hnodup, hnames⟩ := names_addAll hes.named [] List.nodup_nil
  obtain ⟨hmem, hle⟩ := wwLmt_isLeast (addAll [] es) s
  have hvalue : ∀ e ∈ addAll [] es,
      IsLeast (insert txgiMax (given es e.regdName s)) (e.lmt2g s) := by
    intro e he
    have h := valueOf_addAll hes.named [] e.regdName s
    rwa [valueOf_of_mem hnodup he, valueOf_nil] at h
  refine ⟨?_, ?_⟩
  · rcases hmem with htop | ⟨e, he, hval, hww⟩
    · exact Or.inl htop
    · rcases (hvalue e he).1 with htop | hgiven
      · exact Or.inl (hval.symm.trans htop)
      · exact Or.inr ⟨e.regdName, hval ▸ hgiven, hww⟩
  · rintro y (rfl | ⟨n, ⟨x, hx, rfl, rfl, rfl⟩, hww⟩)
    · exact hle (Set.mem_insert _ _)
    · have hin : x.name ∈ names (addAll [] es) := (hnames x.name).mpr (Or.inr ⟨x, hx, rfl⟩)
      obtain ⟨e, he, hname⟩ := List.mem_map.mp hin
      have hleast := hvalue e he
      rw [hname] at hleast
      have hex : e.lmt2g x.slot ≤ x.lmt :=
        hleast.2 (Set.mem_insert_of_mem _ ⟨x, hx, rfl, rfl, rfl⟩)
      by_cases he_ww : e.lmt2g x.slot = phyTxpwrWwLmtValue
      · rcases hleast.1 with htop | ⟨z, hz, hzn, hzs, hzl⟩
        · exact absurd (htop.symm.trans he_ww) (by decide)
        · rcases hes.unmixed z hz x hx hzn hzs (hzl.trans he_ww) with h | h
          · exact absurd h hww
          · rw [h]
            exact hle (Set.mem_insert _ _)
      · exact le_trans (hle (Set.mem_insert_of_mem _ ⟨e, he, rfl, he_ww⟩)) hex

theorem phyGetTxpwrLmt_eq {en : Enable} (hen : en.On) (l : Lmts) {name : List Char}
    (hnone : name ≠ regdNone) (hww : name ≠ regdWw) {cch : ℕ} (hcch : cch ≠ 0)
    (bw tlrs ntxIdx : ℕ) :
    let s : Slot := { bw := bw, tlrs := tlrs, chIdx := cch - 1, ntxIdx := ntxIdx }
    phyGetTxpwrLmt en l name .on24G bw tlrs ntxIdx cch =
      if valueOf l name s = phyTxpwrWwLmtValue then wwLmt l s else valueOf l name s := by
  intro s
  have htop : txgiMax ≠ phyTxpwrWwLmtValue := by decide
  rw [phyGetTxpwrLmt, if_neg hen, if_neg hww]
  by_cases hl : l.length = 0
  · rw [List.length_eq_zero_iff] at hl
    subst hl
    rw [if_pos (Or.inl List.length_nil), valueOf_nil, if_neg htop]
  · rw [if_neg (by simp only [hl, hnone, or_self, not_false_iff]), valueOf]
    cases rtwTxpwrLmtGetByName l name with
    | none => simp only [if_neg htop]
    | some e =>
      simp only [true_and, if_pos hcch, ne_eq, ite_not, s]

/-- Looking up a slot gives its limit, in whatever order the limits were given. -/
theorem lookup_isLimit {es : List Entry} (hes : Plain es) {en : Enable} (hen : en.On)
    {name : List Char} (hnone : name ≠ regdNone) (hww : name ≠ regdWw) {cch : ℕ}
    (hcch : cch ≠ 0) (bw tlrs ntxIdx : ℕ) :
    IsLimit es name { bw := bw, tlrs := tlrs, chIdx := cch - 1, ntxIdx := ntxIdx }
      (phyGetTxpwrLmt en (addAll [] es) name .on24G bw tlrs ntxIdx cch) := by
  rw [phyGetTxpwrLmt_eq hen _ hnone hww hcch]
  have hvalue := valueOf_addAll hes.named [] name
    { bw := bw, tlrs := tlrs, chIdx := cch - 1, ntxIdx := ntxIdx }
  rw [valueOf_nil] at hvalue
  refine ⟨fun hgiven => ?_, fun hgiven => ?_⟩
  · have hlow := hvalue.2 (Set.mem_insert_of_mem _ hgiven)
    have heq : valueOf (addAll [] es) name
        { bw := bw, tlrs := tlrs, chIdx := cch - 1, ntxIdx := ntxIdx } = phyTxpwrWwLmtValue := by
      refine le_antisymm hlow ?_
      rcases hvalue.1 with htop | ⟨x, hx, -, -, hlmt⟩
      · rw [htop]
        decide
      · exact hlmt ▸ hes.low x hx
    rw [if_pos heq]
    exact wwLmt_addAll hes _
  · have hown : explicit es name { bw := bw, tlrs := tlrs, chIdx := cch - 1, ntxIdx := ntxIdx } =
        given es name { bw := bw, tlrs := tlrs, chIdx := cch - 1, ntxIdx := ntxIdx } := by
      ext y
      exact ⟨fun h => h.1, fun h => ⟨h, fun hy => hgiven (hy ▸ h)⟩⟩
    rw [if_neg, hown]
    · exact hvalue
    · intro heq
      rcases hvalue.1 with htop | hmem
      · exact absurd (htop.symm.trans heq) (by decide)
      · exact hgiven (heq ▸ hmem)

end Rtl8189.LimitTable
