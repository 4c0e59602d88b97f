import Rtl8189.LimitFile

/-!
# Well-formed limit files

A file of 2.4 GHz tables is read as the tables that it spells out, whatever blanks and comments
stand in it. What is looked up afterwards is the least limit that the tables give.
-/
namespace Rtl8189.LimitDoc
open LimitText LimitTable LimitFile

inductive Sign where
  | none
  | plus
  | minus
deriving DecidableEq

def Sign.text : Sign → List Char
  | none => []
  | plus => ['+']
  | minus => ['-']

/-- A decimal number of dBm. Without digits after it the point is left out. -/
structure Dbm where
  sign : Sign
  lead : Char
  int : List Char
  frac : List Char
  int_digits : Digits (lead :: int)
  frac_digits : Digits frac

def Dbm.text (n : Dbm) : List Char :=
  n.sign.text ++ n.lead :: (n.int ++ if n.frac = [] then [] else '.' :: n.frac)

def Dbm.size (n : Dbm) : ℕ :=
  txgiPdbm * decimal (n.lead :: n.int) + txgiPdbm * decimal n.frac / 10 ^ n.frac.length

def Dbm.gain (n : Dbm) : ℤ := if n.sign = .minus then -n.size else n.size

/-- The supported gains lie above the value for worldwide. -/
def clampGain (g : ℤ) : ℤ := max (phyTxpwrWwLmtValue + 1) (min txgiMax g)

inductive Lim where
  | dbm (n : Dbm)
  | na
  | ww

def Lim.text : Lim → List Char
  | dbm n => n.text
  | na => ['N', 'A']
  | ww => ['W', 'W']

def Lim.stored : Lim → ℤ
  | dbm n => clampGain n.gain
  | na => txgiMax
  | ww => phyTxpwrWwLmtValue

structure Row where
  channel : List Char
  limits : List Lim
  channel_digits : Digits channel
  pos : 1 ≤ decimal channel
  le : decimal channel ≤ centerChNum24G

structure LimitTab where
  bw : Fin 2
  tlrs : Fin 4
  ntx : Fin 4
  colNum : List Char
  names : List (List Char)
  rows : List Row
  colNum_digits : Digits colNum
  counted : decimal colNum = names.length
  nonempty : names ≠ []
  named : ∀ n ∈ names, n ≠ [] ∧ ∀ c ∈ n, isBlank c = false
  sized : ∀ r ∈ rows, r.limits.length = names.length

abbrev Doc := List LimitTab

def LimitTab.bwText (t : LimitTab) : List Char := (bandwidths.map Prod.fst).getD t.bw []
def LimitTab.rsText (t : LimitTab) : List Char := (rateSections.map Prod.fst).getD t.tlrs []
def LimitTab.ntxText (t : LimitTab) : List Char := (ntxs.map Prod.fst).getD t.ntx []

def LimitTab.slot (t : LimitTab) (r : Row) : Slot where
  bw := t.bw
  tlrs := t.tlrs
  chIdx := decimal r.channel - 1
  ntxIdx := t.ntx

/-! ## Its text -/

def Blanks (l : List Char) : Prop := ∀ c ∈ l, isBlank c = true

def HeadText (t : LimitTab) (l : List Char) : Prop :=
  ∃ sp tail, Blanks sp ∧ l = hash2 ++ (sp ++ (band24G ++ ',' :: ' ' :: (t.bwText ++
    ',' :: ' ' :: (t.ntxText ++ ',' :: ' ' :: (t.rsText ++ ',' :: tail)))))

def WordText (w l : List Char) : Prop := ∃ sp tail, Blanks sp ∧ l = hash2 ++ (sp ++ (w ++ tail))

def NamesText : List (List Char) → List Char → Prop
  | [], _ => True
  | n :: ns, l => ∃ sp r, Blanks sp ∧ l = sp ++ (n ++ r) ∧ Ends r ∧ NamesText ns r

def ColumnsText (t : LimitTab) (l : List Char) : Prop :=
  ∃ sp r, Blanks sp ∧ l = hash2 ++ (sp ++ '#' :: (t.colNum ++ '#' :: r)) ∧ NamesText t.names r

def LimitsText : List Lim → List Char → Prop
  | [], _ => True
  | v :: vs, l => ∃ sp r, Blanks sp ∧ l = sp ++ (v.text ++ r) ∧ Ends r ∧ LimitsText vs r

def RowText (row : Row) (l : List Char) : Prop :=
  ∃ c h r, (c = 'c' ∨ c = 'C') ∧ (h = 'h' ∨ h = 'H') ∧ l = c :: h :: (row.channel ++ r) ∧
    Ends r ∧ LimitsText row.limits r

def TabText (t : LimitTab) (ls : List Line) : Prop :=
  ∃ head start cols rows last, ls = head :: start :: cols :: (rows ++ [last]) ∧
    HeadText t head.text ∧ WordText ['S', 'T', 'A', 'R', 'T'] start.text ∧
    ColumnsText t cols.text ∧ List.Forall₂ (fun r l => RowText r l.text) t.rows rows ∧
    WordText ['E', 'N', 'D'] last.text

def DocText : Doc → List Line → Prop
  | [], ls => ls = []
  | t :: d, ls => ∃ tab rest, ls = tab ++ rest ∧ TabText t tab ∧ DocText d rest

def ExcText (l : Line) : Prop :=
  ¬ (l.text.head? = some '#' ∨ l.text.tail.head? = some '#') ∧
    ∀ s, ∃ s', parseRegExcConfig s l.text = some s'

def WellFormed (d : Doc) (f : File) : Prop :=
  ∃ pre body, (linesOf 1 f.text).filter (fun l => ! skipped l) = pre ++ body ∧
    (∀ l ∈ pre, ExcText l) ∧ DocText d body

/-! ## What it says -/

def Gives (d : Doc) (name : List Char) (s : Slot) (v : Lim) : Prop :=
  ∃ t ∈ d, ∃ r ∈ t.rows, t.slot r = s ∧ (name, v) ∈ t.names.zip r.limits

def dbmAt (d : Doc) (name : List Char) (s : Slot) : Set ℤ :=
  {y | ∃ n, Gives d name s (.dbm n) ∧ clampGain n.gain = y}

/-- The least limit given for a slot; of all regulations, where the slot is worldwide. -/
def LimitOf (d : Doc) (name : List Char) (s : Slot) (r : ℤ) : Prop :=
  (Gives d name s .ww → IsLeast (insert txgiMax {y | ∃ n, y ∈ dbmAt d n s}) r) ∧
  (¬ Gives d name s .ww → IsLeast (insert txgiMax (dbmAt d name s)) r)

/-- The limits that the bytes of the parser can tell apart from each other. -/
def Dbm.Good (n : Dbm) : Prop := n.frac.length ≤ 2 ∧ n.size ≤ 127 ∧ n.gain ≠ phyTxpwrWwLmtValue

def Lim.Good : Lim → Prop
  | dbm n => n.Good
  | na => True
  | ww => True

structure LimitTab.Good (t : LimitTab) : Prop where
  columns : t.colNum.length ≤ 9
  byte : t.names.length ≤ 255
  channel : ∀ r ∈ t.rows, r.channel.length ≤ 9
  limits : ∀ r ∈ t.rows, ∀ v ∈ r.limits, v.Good

structure Good (d : Doc) : Prop where
  tabs : ∀ t ∈ d, t.Good
  unmixed : ∀ name s n, Gives d name s .ww → ¬ Gives d name s (.dbm n)

/-! ## Reading the text -/

variable {l r t sp : List Char}

theorem toS8_eq {v : ℤ} (hl : -128 ≤ v) (hu : v ≤ 127) : toS8 v = v := by
  rw [toS8, Int.bmod_eq_of_le (by omega) (by omega)]

theorem Dbm.fractionValue (n : Dbm) (hfrac : n.frac.length ≤ 2) (hr : Ends r) :
    getFractionValueFromString
      (n.lead :: (n.int ++ ((if n.frac = [] then [] else '.' :: n.frac) ++ r))) =
      some (decimal (n.lead :: n.int) % 256, decimal n.frac * 10 ^ (2 - n.frac.length), r) := by
  have hlead := n.int_digits.head
  rw [getFractionValueFromString, skipBlanks_cons (digit_not_blank hlead)]
  simp only [if_pos hlead]
  by_cases hf : n.frac = []
  · rw [if_pos hf, List.nil_append, hf]
    exact integerDigits_eq 0 n.int_digits hr
  · have hpoint := integerDigits_point 0 n.int_digits (n.frac ++ r)
    rw [fractionDigits_eq n.frac_digits hf hfrac hr] at hpoint
    rw [if_neg hf]
    exact hpoint

theorem frac_scaled (f : ℕ) {k : ℕ} (hk : k ≤ 2) :
    f * 10 ^ (2 - k) * txgiPdbm / 100 = txgiPdbm * f / 10 ^ k := by
  simp only [txgiPdbm]
  obtain rfl | rfl | rfl : k = 0 ∨ k = 1 ∨ k = 2 := by omega
  · omega
  · omega
  · omega

theorem Dbm.Good.dbmLimit_text {n : Dbm} (hn : n.Good) (hr : Ends r) (negative : Bool) :
    dbmLimit negative (n.lead :: (n.int ++ ((if n.frac = [] then [] else '.' :: n.frac) ++ r))) =
      some (sprintfD (if negative then -(n.size : ℤ) else n.size), r) := by
  obtain ⟨hfrac, hsize, -⟩ := hn
  have hint : txgiPdbm * decimal (n.lead :: n.int) ≤ 127 :=
    le_trans (Nat.le_add_right _ _) hsize
  have hmod : decimal (n.lead :: n.int) % 256 = decimal (n.lead :: n.int) :=
    Nat.mod_eq_of_lt (by simp only [txgiPdbm] at hint; omega)
  have heq : decimal (n.lead :: n.int) % 256 * txgiPdbm +
      decimal n.frac * 10 ^ (2 - n.frac.length) * txgiPdbm / 100 = n.size := by
    rw [hmod, frac_scaled _ hfrac, Dbm.size, Nat.mul_comm txgiPdbm (decimal (n.lead :: n.int))]
  rw [dbmLimit, n.fractionValue hfrac hr]
  simp only [Option.map_some, heq, toS8_eq (show -128 ≤ (n.size : ℤ) by omega)
    (show (n.size : ℤ) ≤ 127 by omega), toS8_eq (show -128 ≤ -(n.size : ℤ) by omega)
    (show -(n.size : ℤ) ≤ 127 by omega)]

theorem clampLimit_gain {g : ℤ} (hne : g ≠ phyTxpwrWwLmtValue) : clampLimit g = clampGain g := by
  have hww : phyTxpwrWwLmtValue = -63 := rfl
  have hmax : txgiMax = 63 := rfl
  rw [clampLimit, clampGain, if_neg hne, hww, hmax]
  split_ifs <;> omega

theorem limitAt_dbm {c : Char} (hw : c ≠ 'W') (hn : c ≠ 'N') (l : List Char) :
    limitAt (c :: l) =
      if c = '+' ∨ c = '-' then dbmLimit (c = '-') l
      else if c.isDigit ∨ c = '.' then dbmLimit false (c :: l)
      else none := by
  rw [limitAt, if_neg (fun h => hw h.1), if_neg (fun h => hn h.1)]

theorem Dbm.Good.limitAt_text {n : Dbm} (hn : n.Good) (hr : Ends r) :
    limitAt (n.text ++ r) = some (sprintfD n.gain, r) := by
  have hlead := n.int_digits.head
  have hdbm := hn.dbmLimit_text hr
  rw [Dbm.text, Dbm.gain]
  cases hs : n.sign with
  | none =>
    have hnot : ∀ c, c.isDigit = false → n.lead ≠ c := by
      rintro c hc rfl
      exact absurd (hlead.symm.trans hc) (by decide)
    simp only [Sign.text, List.nil_append, List.cons_append, List.append_assoc]
    rw [limitAt_dbm (hnot 'W' (by decide)) (hnot 'N' (by decide)),
      if_neg (not_or.mpr ⟨hnot '+' (by decide), hnot '-' (by decide)⟩), if_pos (Or.inl hlead),
      hdbm false]
    rfl
  | plus =>
    simp only [Sign.text, List.cons_append, List.nil_append, List.append_assoc]
    rw [limitAt_dbm (by decide) (by decide), if_pos (Or.inl rfl)]
    exact hdbm false
  | minus =>
    simp only [Sign.text, List.cons_append, List.nil_append, List.append_assoc]
    rw [limitAt_dbm (by decide) (by decide), if_pos (Or.inr rfl)]
    exact hdbm true

theorem Lim.Good.limitAt_text {v : Lim} (hv : v.Good) (hr : Ends r) :
    ∃ x, limitAt (v.text ++ r) = some (sprintfD x, r) ∧ -128 ≤ x ∧ x ≤ 127 ∧
      clampLimit x = v.stored := by
  cases v with
  | dbm n =>
    have hn : n.Good := hv
    have hsize := hn.2.1
    refine ⟨n.gain, hn.limitAt_text hr, ?_, ?_, clampLimit_gain hn.2.2⟩
    · rw [Dbm.gain]
      split_ifs <;> omega
    · rw [Dbm.gain]
      split_ifs <;> omega
  | na => exact ⟨txgiMax, rfl, by decide, by decide, by decide⟩
  | ww => exact ⟨phyTxpwrWwLmtValue, rfl, by decide, by decide, by decide⟩

theorem Lim.text_head (v : Lim) : ∃ c cs, v.text = c :: cs ∧ isBlank c = false := by
  cases v with
  | dbm n =>
    have hlead := digit_not_blank n.int_digits.head
    rw [Lim.text, Dbm.text]
    cases n.sign with
    | none => exact ⟨n.lead, _, rfl, hlead⟩
    | plus => exact ⟨'+', _, rfl, rfl⟩
    | minus => exact ⟨'-', _, rfl, rfl⟩
  | na => exact ⟨'N', _, rfl, rfl⟩
  | ww => exact ⟨'W', _, rfl, rfl⟩

theorem skipBlanks_token (hsp : Blanks sp) {c : Char} (hc : isBlank c = false) (l : List Char) :
    skipBlanks (sp ++ c :: l) = c :: l := by
  rw [skipBlanks_append hsp, skipBlanks_cons hc]

theorem takeWhile_ends {p : Char → Bool} (hl : ∀ c ∈ l, p c = true)
    (hr : ∀ c ∈ r.head?, p c = false) :
    (l ++ r).takeWhile p = l ∧ (l ++ r).dropWhile p = r := by
  rw [List.takeWhile_append_of_pos hl, List.dropWhile_append_of_pos hl]
  cases r with
  | nil => exact ⟨List.append_nil l, rfl⟩
  | cons c r =>
    have hc : ¬ p c = true := by simp [hr c rfl]
    rw [List.takeWhile_cons_of_neg hc, List.dropWhile_cons_of_neg hc]
    exact ⟨List.append_nil l, rfl⟩

structure Labelled (s : St) (t : LimitTab) : Prop where
  band : s.band = band24G
  bandwidth : s.bandwidth = t.bwText
  rateSection : s.rateSection = t.rsText
  ntx : s.ntx = t.ntxText

theorem startOf_rs (t : LimitTab) : startOf rateSections t.rsText = some t.tlrs.val := by
  have h : ∀ i : Fin 4, startOf rateSections ((rateSections.map Prod.fst).getD i []) =
    some i.val := by decide
  exact h t.tlrs

theorem startOf_ntx (t : LimitTab) : startOf ntxs t.ntxText = some t.ntx.val := by
  have h : ∀ i : Fin 4, startOf ntxs ((ntxs.map Prod.fst).getD i []) = some i.val := by decide
  exact h t.ntx

theorem startOf_bw (t : LimitTab) : startOf bandwidths t.bwText = some t.bw.val := by
  have h : ∀ i : Fin 2, startOf bandwidths ((bandwidths.map Prod.fst).getD i []) =
    some i.val := by decide
  exact h t.bw

theorem Labelled.setLimit {s : St} {tab : LimitTab} (hs : Labelled s tab) {row : Row}
    (hlen : row.channel.length ≤ 9) (name : List Char) {x : ℤ} (hl : -128 ≤ x) (hu : x ≤ 127) :
    phySetTxPowerLimit s.lmts name s.band s.bandwidth s.rateSection s.ntx row.channel
      (sprintfD x) = some (rtwTxpwrLmtAdd s.lmts name (tab.slot row) (clampLimit x)) := by
  have hpos := row.pos
  have hle := row.le
  have hmod : decimal row.channel % 256 = decimal row.channel :=
    Nat.mod_eq_of_lt (by simp only [centerChNum24G] at hle; omega)
  have hbw : ¬ maxBandwidthNum24G ≤ tab.bw.val := by
    simp only [maxBandwidthNum24G]
    omega
  rw [setLimit_eq s name row.channel row.channel_digits (by omega) hl hu, hs.rateSection, hs.ntx,
    hs.bandwidth, hs.band, startOf_rs, startOf_ntx, startOf_bw, hmod]
  simp only [show (follow band24G band24G).isSome = true from rfl, if_true]
  rw [if_neg (by omega), if_neg hbw, if_neg (by omega)]
  rfl

def rowEntries (t : LimitTab) (r : Row) : List Entry :=
  (t.names.zip r.limits).map fun p => { name := p.1, slot := t.slot r, lmt := p.2.stored }

theorem addAll_append (l : Lmts) (es es' : List Entry) :
    addAll l (es ++ es') = addAll (addAll l es) es' := List.foldl_append

theorem rowLimits_text {tab : LimitTab} {row : Row} (hlen : row.channel.length ≤ 9)
    (names : List (List Char)) {limits : List Lim} (hgood : ∀ v ∈ limits, v.Good) {s : St}
    (hs : Labelled s tab) (hnum : limits.length = names.length) (hl : LimitsText limits l) :
    rowLimits row.channel s names l = .ok { s with
      lmts := addAll s.lmts ((names.zip limits).map fun p =>
        { name := p.1, slot := tab.slot row, lmt := p.2.stored }) } := by
  induction names generalizing limits s l with
  | nil => rfl
  | cons name names ih =>
    cases limits with
    | nil => cases hnum
    | cons v limits =>
      obtain ⟨sp, r, hsp, rfl, hr, hrest⟩ := hl
      obtain ⟨c, cs, hc, hblank⟩ := v.text_head
      obtain ⟨x, hat, hxl, hxu, hclamp⟩ := (hgood v List.mem_cons_self).limitAt_text hr
      have hskip : skipBlanks (sp ++ (v.text ++ r)) = v.text ++ r := by
        rw [hc]
        exact skipBlanks_token hsp hblank (cs ++ r)
      rw [rowLimits, hskip, hat]
      simp only [hs.setLimit hlen name hxl hxu]
      rw [ih (fun w hw => hgood w (List.mem_cons_of_mem v hw)) (s := { s with
        lmts := rtwTxpwrLmtAdd s.lmts name (tab.slot row) (clampLimit x) })
        ⟨hs.band, hs.bandwidth, hs.rateSection, hs.ntx⟩ (Nat.succ.inj hnum) hrest, hclamp]
      rfl

theorem Ends.no_digit (hr : Ends r) : ∀ c ∈ r.head?, c.isDigit = false := by
  cases r with
  | nil => exact fun c hc => nomatch hc
  | cons d r =>
    rintro c ⟨⟩
    exact (Ends.not_digit hr).1

theorem chRow_text {tab : LimitTab} {row : Row} (hlen : row.channel.length ≤ 9)
    (hgood : ∀ v ∈ row.limits, v.Good) {s : St} (hs : Labelled s tab)
    (hreg : s.regulation = tab.names) (hnum : row.limits.length = tab.names.length) {line : Line}
    (hline : RowText row line.text) :
    chRow s line = .ok { s with lmts := addAll s.lmts (rowEntries tab row) } := by
  obtain ⟨c, h, r, hc, hh, htext, hr, hlimits⟩ := hline
  have hhash : follow hash2 line.text = none := by
    rw [htext, hash2, follow, if_neg]
    rcases hc with rfl | rfl
    · decide
    · decide
  obtain ⟨htake, hdrop⟩ := takeWhile_ends row.channel_digits (Ends.no_digit hr)
  rw [chRow, hhash, htext]
  simp only [hc, hh, and_self, if_true, htake, hdrop]
  have hnames : rowLimits row.channel s s.regulation r = rowLimits row.channel s tab.names r := by
    rw [hreg]
  rw [if_neg (by omega), hnames]
  exact rowLimits_text hlen tab.names hgood hs hnum hlimits

/-! ## Lines of a table -/

theorem word_text {w tail : List Char} (hw : ∃ c cs, w = c :: cs ∧ isBlank c = false)
    (hsp : Blanks sp) (s next : St) (line : Line) :
    word s w (sp ++ (w ++ tail)) line next = .ok next := by
  obtain ⟨c, cs, rfl, hc⟩ := hw
  have hskip : skipBlanks (sp ++ (c :: cs ++ tail)) = c :: cs ++ tail :=
    skipBlanks_token hsp hc (cs ++ tail)
  rw [word]
  simp only [hskip, follow_append, Option.isSome_some, if_true]
  rw [if_neg (by rw [List.length_append]; omega)]

theorem label_text {tok : List Char} (s : St) (hlen : tok.length ≤ 10) (htok : ∀ c ∈ tok, c ≠ ',')
    (r : List Char) : label s (' ' :: (tok ++ ',' :: r)) = .ok (tok, r) := by
  rw [label, parseQualifiedString_append ' ' htok r]
  simp only
  rw [if_neg (by omega)]

theorem bwText_fits (t : LimitTab) : t.bwText.length ≤ 10 ∧ ∀ c ∈ t.bwText, c ≠ ',' := by
  have h : ∀ i : Fin 2, ((bandwidths.map Prod.fst).getD i []).length ≤ 10 ∧
    ((bandwidths.map Prod.fst).getD i []).all (· ≠ ',') := by decide
  obtain ⟨hlen, hall⟩ := h t.bw
  exact ⟨hlen, fun c hc => of_decide_eq_true (List.all_eq_true.1 hall c hc)⟩

theorem rsText_fits (t : LimitTab) : t.rsText.length ≤ 10 ∧ ∀ c ∈ t.rsText, c ≠ ',' := by
  have h : ∀ i : Fin 4, ((rateSections.map Prod.fst).getD i []).length ≤ 10 ∧
    ((rateSections.map Prod.fst).getD i []).all (· ≠ ',') := by decide
  obtain ⟨hlen, hall⟩ := h t.tlrs
  exact ⟨hlen, fun c hc => of_decide_eq_true (List.all_eq_true.1 hall c hc)⟩

theorem ntxText_fits (t : LimitTab) : t.ntxText.length ≤ 10 ∧ ∀ c ∈ t.ntxText, c ≠ ',' := by
  have h : ∀ i : Fin 4, ((ntxs.map Prod.fst).getD i []).length ≤ 10 ∧
    ((ntxs.map Prod.fst).getD i []).all (· ≠ ',') := by decide
  obtain ⟨hlen, hall⟩ := h t.ntx
  exact ⟨hlen, fun c hc => of_decide_eq_true (List.all_eq_true.1 hall c hc)⟩

theorem tabDefine_text {tab : LimitTab} (s : St) {line : Line} (hline : HeadText tab line.text) :
    ∃ s', tabDefine s line = .ok s' ∧ Labelled s' tab ∧ s'.stage = .tabStart ∧
      s'.lmts = s.lmts := by
  obtain ⟨sp, tail, hsp, htext⟩ := hline
  have hskip : ∀ r, skipBlanks (sp ++ (band24G ++ r)) = band24G ++ r := fun r =>
    skipBlanks_token hsp (by decide) _
  have hband : band24G.length ≤ 10 ∧ ∀ c ∈ band24G, c ≠ ',' := by
    refine ⟨by decide, ?_⟩
    simp [band24G]
  obtain ⟨hbwLen, hbw⟩ := bwText_fits tab
  obtain ⟨hrsLen, hrs⟩ := rsText_fits tab
  obtain ⟨hntxLen, hntx⟩ := ntxText_fits tab
  refine ⟨{ s with
    stage := .tabStart
    band := band24G
    bandwidth := tab.bwText
    ntx := tab.ntxText
    rateSection := tab.rsText }, ?_, ⟨rfl, rfl, rfl, rfl⟩, rfl, rfl⟩
  rw [tabDefine, htext, follow_append]
  simp only [hskip, label_text s hband.1 hband.2, label_text s hbwLen hbw, label_text s hrsLen hrs,
    label_text s hntxLen hntx, bind, Except.bind]

theorem columnNames_text {names : List (List Char)}
    (hnames : ∀ n ∈ names, n ≠ [] ∧ ∀ c ∈ n, isBlank c = false) (hl : NamesText names l) :
    columnNames names.length l = names := by
  induction names generalizing l with
  | nil => rfl
  | cons name names ih =>
    obtain ⟨sp, r, hsp, rfl, hr, hrest⟩ := hl
    obtain ⟨hne, hblank⟩ := hnames name List.mem_cons_self
    have hskip : skipBlanks (sp ++ (name ++ r)) = name ++ r := by
      cases name with
      | nil => exact absurd rfl hne
      | cons c cs => exact skipBlanks_token hsp (hblank c List.mem_cons_self) (cs ++ r)
    obtain ⟨htake, hdrop⟩ := @takeWhile_ends name r (fun c => ! isBlank c)
      (fun c hc => by simp [hblank c hc]) (fun c hc => by simp [hr c hc])
    simp only [List.length_cons, columnNames, hskip, htake, hdrop]
    rw [ih (fun n hn => hnames n (List.mem_cons_of_mem name hn)) hrest]

theorem columnDefine_text {tab : LimitTab} (hcols : tab.colNum.length ≤ 9)
    (hbyte : tab.names.length ≤ 255) (s : St) {line : Line} (hline : ColumnsText tab line.text) :
    columnDefine s line = .ok { s with stage := .chRow, regulation := tab.names } := by
  obtain ⟨sp, r, hsp, htext, hnames⟩ := hline
  have hdig : ∀ c ∈ tab.colNum, c ≠ '#' := by
    rintro c hc rfl
    exact absurd (tab.colNum_digits _ hc) (by decide)
  have hpos : tab.names.length ≠ 0 := fun h => tab.nonempty (List.length_eq_zero_iff.mp h)
  have hnum : getU1ByteIntegerFromStringInDecimal tab.colNum = some tab.names.length := by
    rw [getU1Byte_eq tab.colNum_digits, tab.counted, Nat.mod_eq_of_lt (by omega)]
  rw [columnDefine, htext, follow_append]
  simp only [skipBlanks_token hsp (show isBlank '#' = false from rfl),
    parseQualifiedString_append '#' hdig r, hnum]
  rw [if_neg (by omega), if_neg hpos, columnNames_text tab.named hnames]

/-! ## Runs -/

theorem runLines_append (s : St) (ls ls' : List Line) :
    runLines s (ls ++ ls') = runLines s ls >>= fun s' => runLines s' ls' := List.foldlM_append

theorem runLines_step {s s' : St} {line : Line} (h : lineStep s line = .ok s') (ls : List Line) :
    runLines s (line :: ls) = runLines s' ls := by
  rw [runLines_cons, h]
  rfl

theorem runLines_filter (s : St) (ls : List Line) :
    runLines s ls = runLines s (ls.filter fun l => ! skipped l) := by
  induction ls generalizing s with
  | nil => rfl
  | cons line ls ih =>
    cases hskip : skipped line with
    | true =>
      have hstep : lineStep s line = .ok s := by rw [lineStep, if_pos hskip]
      rw [runLines_step hstep, ih, List.filter_cons_of_neg (by simp [hskip])]
    | false =>
      rw [List.filter_cons_of_pos (by simp [hskip]), runLines_cons, runLines_cons]
      congr 1
      funext s'
      exact ih s'

def tabEntries (t : LimitTab) : List Entry := t.rows.flatMap (rowEntries t)

def entries (d : Doc) : List Entry := d.flatMap tabEntries

theorem runRows {tab : LimitTab} {rows : List Row} {ls : List Line}
    (hrows : ∀ r ∈ rows, r.channel.length ≤ 9 ∧ (∀ v ∈ r.limits, v.Good) ∧
      r.limits.length = tab.names.length) (hskip : ∀ l ∈ ls, skipped l = false)
    (htext : List.Forall₂ (fun r l => RowText r l.text) rows ls) {s : St}
    (hs : Labelled s tab) (hstage : s.stage = .chRow) (hreg : s.regulation = tab.names) :
    runLines s ls = .ok { s with lmts := addAll s.lmts (rows.flatMap (rowEntries tab)) } := by
  induction htext generalizing s with
  | nil => rfl
  | @cons row line rows ls hrow _ ih =>
    obtain ⟨hlen, hgood, hnum⟩ := hrows row List.mem_cons_self
    have hstep : lineStep s line = .ok { s with lmts := addAll s.lmts (rowEntries tab row) } := by
      rw [lineStep, if_neg (by simp [hskip line List.mem_cons_self]), hstage]
      simp only
      rw [chRow_text hlen hgood hs hreg hnum hrow, hstage]
    rw [runLines_step hstep, ih (fun r hr => hrows r (List.mem_cons_of_mem row hr))
      (fun l hl => hskip l (List.mem_cons_of_mem line hl)) (s := { s with
        lmts := addAll s.lmts (rowEntries tab row) })
      ⟨hs.band, hs.bandwidth, hs.rateSection, hs.ntx⟩ hstage hreg, List.flatMap_cons,
      addAll_append]

theorem headText_hash {tab : LimitTab} {text : List Char} (h : HeadText tab text) :
    text.head? = some '#' := by
  obtain ⟨sp, tail, -, rfl⟩ := h
  rfl

theorem runTab {tab : LimitTab} {ls : List Line} (hgood : tab.Good)
    (hskip : ∀ l ∈ ls, skipped l = false) (htab : TabText tab ls) {s : St}
    (hstage : s.stage = .excMapping ∨ s.stage = .tabDefine) :
    ∃ s', runLines s ls = .ok s' ∧ s'.stage = .tabDefine ∧
      s'.lmts = addAll s.lmts (tabEntries tab) := by
  obtain ⟨head, start, cols, rows, last, rfl, hhead, ⟨sp, tail, hsp, hstart⟩, hcols, hrows,
    sp', tail', hsp', hlast⟩ := htab
  have hnot : ∀ l ∈ head :: start :: cols :: (rows ++ [last]), ¬ skipped l = true := by
    intro l hl
    simp [hskip l hl]
  obtain ⟨s₁, hdef₁, hlab₁, hst₁, hlm₁⟩ := tabDefine_text { s with stage := .tabDefine } hhead
  have hstep₁ : lineStep s head = .ok s₁ := by
    rw [lineStep, if_neg (hnot head (by simp))]
    rcases hstage with h | h
    · rw [h]
      simp only
      rw [if_pos (Or.inl (headText_hash hhead)), hdef₁]
    · have hs : { s with stage := .tabDefine } = s := by rw [← h]
      rw [h]
      simp only
      rw [← hdef₁, hs]
  have hstep₂ : lineStep s₁ start = .ok { s₁ with stage := .columnDefine } := by
    rw [lineStep, if_neg (hnot start (by simp)), hst₁]
    simp only
    rw [tabStart, hstart, follow_append]
    simp only
    rw [word_text ⟨'S', _, rfl, rfl⟩ hsp]
  have hstep₃ : lineStep { s₁ with stage := .columnDefine } cols =
      .ok { s₁ with stage := .chRow, regulation := tab.names } := by
    rw [lineStep, if_neg (hnot cols (by simp))]
    simp only
    rw [columnDefine_text hgood.columns hgood.byte _ hcols]
  have hrun := @runRows tab tab.rows rows
    (fun r hr => ⟨hgood.channel r hr, hgood.limits r hr, tab.sized r hr⟩)
    (fun l hl => hskip l (by simp [hl])) hrows
    { s₁ with stage := .chRow, regulation := tab.names }
    ⟨hlab₁.band, hlab₁.bandwidth, hlab₁.rateSection, hlab₁.ntx⟩ rfl rfl
  rw [runLines_step hstep₁, runLines_step hstep₂, runLines_step hstep₃, runLines_append, hrun]
  simp only [bind, Except.bind]
  refine ⟨{ s₁ with
    stage := .tabDefine
    regulation := []
    lmts := addAll s₁.lmts (tab.rows.flatMap (rowEntries tab)) }, runLines_step ?_ [], rfl, ?_⟩
  · rw [lineStep, if_neg (hnot last (by simp))]
    simp only
    rw [chRow, hlast, follow_append]
    simp only
    rw [word_text ⟨'E', _, rfl, rfl⟩ hsp']
  · rw [hlm₁]
    rfl

theorem runDoc {d : Doc} {ls : List Line} (hgood : ∀ t ∈ d, t.Good)
    (hskip : ∀ l ∈ ls, skipped l = false) (hdoc : DocText d ls) {s : St}
    (hstage : s.stage = .excMapping ∨ s.stage = .tabDefine) :
    ∃ s', runLines s ls = .ok s' ∧ s'.lmts = addAll s.lmts (entries d) := by
  induction d generalizing ls s with
  | nil =>
    rw [DocText] at hdoc
    exact ⟨s, by rw [hdoc]; rfl, rfl⟩
  | cons tab d ih =>
    obtain ⟨first, rest, rfl, htab, hrest⟩ := hdoc
    obtain ⟨s₁, hrun₁, hst₁, hlm₁⟩ := runTab (hgood tab List.mem_cons_self)
      (fun l hl => hskip l (List.mem_append_left rest hl)) htab hstage
    obtain ⟨s₂, hrun₂, hlm₂⟩ := ih (fun t ht => hgood t (List.mem_cons_of_mem tab ht))
      (fun l hl => hskip l (List.mem_append_right first hl)) hrest (Or.inr hst₁)
    refine ⟨s₂, ?_, ?_⟩
    · rw [runLines_append, hrun₁]
      exact hrun₂
    · rw [hlm₂, hlm₁, ← addAll_append]
      rfl

theorem excRegulation_keeps {s s' : St} {country : List Char} {domain : ℕ}
    (h : excRegulation s country domain l = some s') :
    s'.stage = s.stage ∧ s'.lmts = s.lmts := by
  simp only [excRegulation] at h
  split at h
  · cases h
  · split_ifs at h
    cases h
    exact ⟨rfl, rfl⟩

theorem parseRegExcConfig_keeps {s s' : St} (h : parseRegExcConfig s l = some s') :
    s'.stage = s.stage ∧ s'.lmts = s.lmts := by
  simp only [parseRegExcConfig] at h
  split at h
  · cases h
    exact ⟨rfl, rfl⟩
  · split_ifs at h
    · cases h
      exact ⟨rfl, rfl⟩
    · split at h
      · split_ifs at h
        exact excRegulation_keeps h
      · split_ifs at h
        exact excRegulation_keeps h
      · cases h

theorem runExc {ls : List Line} (hskip : ∀ l ∈ ls, skipped l = false)
    (hexc : ∀ l ∈ ls, ExcText l) {s : St} (hstage : s.stage = .excMapping) :
    ∃ s', runLines s ls = .ok s' ∧ s'.stage = .excMapping ∧ s'.lmts = s.lmts := by
  induction ls generalizing s with
  | nil => exact ⟨s, rfl, hstage, rfl⟩
  | cons line ls ih =>
    obtain ⟨hhash, hparse⟩ := hexc line List.mem_cons_self
    obtain ⟨s₁, hs₁⟩ := hparse s
    obtain ⟨hst, hlm⟩ := parseRegExcConfig_keeps hs₁
    have hstep : lineStep s line = .ok s₁ := by
      rw [lineStep, if_neg (by simp [hskip line List.mem_cons_self]), hstage]
      simp only
      rw [if_neg hhash, hs₁]
    obtain ⟨s₂, hrun, hst₂, hlm₂⟩ := ih (fun l hl => hskip l (List.mem_cons_of_mem line hl))
      (fun l hl => hexc l (List.mem_cons_of_mem line hl)) (hst.trans hstage)
    exact ⟨s₂, (runLines_step hstep ls).trans hrun, hst₂, hlm₂.trans hlm⟩

theorem parse_doc {d : Doc} {f : File} (hf : WellFormed d f) (hgood : ∀ t ∈ d, t.Good)
    {regDecryptCustomFile : ℕ} (hreg : regDecryptCustomFile ≠ 1) :
    ∃ s, phyParsePowerLimitTableFile regDecryptCustomFile f = .ok s ∧
      s.lmts = addAll [] (entries d) := by
  obtain ⟨pre, body, hfilter, hexc, hdoc⟩ := hf
  have hskip : ∀ l ∈ pre ++ body, skipped l = false := by
    intro l hl
    rw [← hfilter] at hl
    simpa using (List.mem_filter.mp hl).2
  obtain ⟨s₁, hrun₁, hst₁, hlm₁⟩ := runExc (fun l hl => hskip l (List.mem_append_left body hl))
    hexc (s := St.init) rfl
  obtain ⟨s₂, hrun₂, hlm₂⟩ := runDoc hgood (fun l hl => hskip l (List.mem_append_right pre hl))
    hdoc (Or.inl hst₁)
  refine ⟨s₂, ?_, ?_⟩
  · rw [phyParsePowerLimitTableFile, if_neg hreg, runLines_filter, hfilter, runLines_append, hrun₁]
    exact hrun₂
  · rw [hlm₂, hlm₁]
    rfl

/-! ## What is looked up -/

theorem mem_entries {d : Doc} {e : Entry} :
    e ∈ entries d ↔ ∃ v, Gives d e.name e.slot v ∧ v.stored = e.lmt := by
  simp only [entries, tabEntries, rowEntries, Gives, List.mem_flatMap, List.mem_map]
  constructor
  · rintro ⟨t, ht, r, hr, p, hp, rfl⟩
    exact ⟨p.2, ⟨t, ht, r, hr, rfl, hp⟩, rfl⟩
  · rintro ⟨v, ⟨t, ht, r, hr, hslot, hp⟩, hv⟩
    refine ⟨t, ht, r, hr, (e.name, v), hp, ?_⟩
    rw [hslot, hv]

theorem given_entries {d : Doc} {name : List Char} {s : Slot} {y : ℤ} :
    y ∈ given (entries d) name s ↔ ∃ v, Gives d name s v ∧ v.stored = y := by
  constructor
  · rintro ⟨e, he, rfl, rfl, rfl⟩
    exact mem_entries.mp he
  · rintro ⟨v, hv, rfl⟩
    exact ⟨{ name := name, slot := s, lmt := v.stored }, mem_entries.mpr ⟨v, hv, rfl⟩, rfl, rfl,
      rfl⟩

theorem clampGain_ne (g : ℤ) : clampGain g ≠ phyTxpwrWwLmtValue := by
  have h := le_max_left (phyTxpwrWwLmtValue + 1) (min txgiMax g)
  rw [clampGain]
  omega

theorem stored_ww {v : Lim} : v.stored = phyTxpwrWwLmtValue ↔ v = .ww := by
  cases v with
  | dbm n => exact iff_of_false (clampGain_ne n.gain) fun h => nomatch h
  | na => exact iff_of_false (by decide) fun h => nomatch h
  | ww => exact iff_of_true rfl rfl

theorem insert_explicit (d : Doc) (name : List Char) (s : Slot) :
    insert txgiMax (explicit (entries d) name s) = insert txgiMax (dbmAt d name s) := by
  ext y
  constructor
  · rintro (rfl | ⟨hy, hww⟩)
    · exact Set.mem_insert _ _
    · obtain ⟨v, hv, rfl⟩ := given_entries.mp hy
      cases v with
      | dbm n => exact Set.mem_insert_of_mem _ ⟨n, hv, rfl⟩
      | na => exact Set.mem_insert _ _
      | ww => exact absurd rfl hww
  · rintro (rfl | ⟨n, hn, rfl⟩)
    · exact Set.mem_insert _ _
    · exact Set.mem_insert_of_mem _ ⟨given_entries.mpr ⟨.dbm n, hn, rfl⟩, clampGain_ne n.gain⟩

theorem entries_plain {d : Doc} (hgood : Good d) : Plain (entries d) := by
  refine ⟨?_, ?_, ?_⟩
  · intro e he
    obtain ⟨v, ⟨t, ht, r, hr, -, hp⟩, -⟩ := mem_entries.mp he
    exact (t.named e.name (List.of_mem_zip hp).1).1
  · intro e he
    obtain ⟨v, -, hv⟩ := mem_entries.mp he
    rw [← hv]
    cases v with
    | dbm n => exact le_trans (by decide) (le_max_left (phyTxpwrWwLmtValue + 1) _)
    | na => decide
    | ww => exact le_refl _
  · intro x hx y hy hname hslot hww
    obtain ⟨v, hv, hvs⟩ := mem_entries.mp hx
    obtain ⟨w, hw, hws⟩ := mem_entries.mp hy
    have hv' := stored_ww.mp (hvs.trans hww)
    rw [← hname, ← hslot] at hw
    rw [hv'] at hv
    rw [← hws]
    cases w with
    | dbm n => exact absurd hw (hgood.unmixed _ _ n hv)
    | na => exact Or.inr rfl
    | ww => exact Or.inl rfl

theorem limitOf_of_isLimit {d : Doc} {name : List Char} {s : Slot} {r : ℤ}
    (h : IsLimit (entries d) name s r) : LimitOf d name s r := by
  have hww : phyTxpwrWwLmtValue ∈ given (entries d) name s ↔ Gives d name s .ww := by
    rw [given_entries]
    constructor
    · rintro ⟨v, hv, hvs⟩
      rwa [stored_ww.mp hvs] at hv
    · exact fun hv => ⟨.ww, hv, rfl⟩
  have hall : insert txgiMax {y | ∃ n, y ∈ explicit (entries d) n s} =
      insert txgiMax {y | ∃ n, y ∈ dbmAt d n s} := by
    ext y
    have hone := fun n => Set.ext_iff.mp (insert_explicit d n s) y
    simp only [Set.mem_insert_iff, Set.mem_ofPred_eq] at hone ⊢
    constructor
    · rintro (hy | ⟨n, hn⟩)
      · exact Or.inl hy
      · exact ((hone n).mp (Or.inr hn)).imp_right fun h => ⟨n, h⟩
    · rintro (hy | ⟨n, hn⟩)
      · exact Or.inl hy
      · exact ((hone n).mpr (Or.inr hn)).imp_right fun h => ⟨n, h⟩
  obtain ⟨hworld, hown⟩ := h
  rw [hww, hall] at hworld
  rw [hww, insert_explicit] at hown
  exact ⟨hworld, hown⟩

/-! ## What the file is promised -/

def LookupsRight (d : Doc) (l : Lmts) : Prop :=
  ∀ en : Enable, en.On → ∀ name, name ≠ regdNone → name ≠ regdWw →
    ∀ (bw : Fin 2) (tlrs : Fin 4) (ch : ℕ), 1 ≤ ch → ch ≤ centerChNum24G →
      LimitOf d name { bw := bw, tlrs := tlrs, chIdx := ch - 1, ntxIdx := 0 }
        (phyGetTxpwrLmt en l name .on24G bw tlrs 0 ch)

def SubChsBelow (l : Lmts) : Prop :=
  ∀ en name c tx tlrs bw, tlrsOfRate tx.rate = some tlrs → bw ≤ tx.bw →
    chWidthToBwCap bw &&& bwBmpOf c tx tlrs ≠ 0 →
      phyGetTxpwrLmtSubChs en l name c tx ≤
        phyGetTxpwrLmt en l name tx.band bw tlrs tx.ntxIdx (tmpCch c tx bw)

structure Meets (regDecryptCustomFile : ℕ) (f : File) : Prop where
  safe : Safe (phyParsePowerLimitTableFile regDecryptCustomFile f)
  right : ∀ d, WellFormed d f → ∃ s, phyParsePowerLimitTableFile regDecryptCustomFile f = .ok s ∧
    LookupsRight d s.lmts ∧ SubChsBelow s.lmts

structure Fit (regDecryptCustomFile : ℕ) (f : File) : Prop where
  plain : regDecryptCustomFile ≠ 1
  lines : FitsAlong St.init (linesOf 1 f.text)
  good : ∀ d, WellFormed d f → Good d

theorem limit_file_meets (regDecryptCustomFile : ℕ) (f : File) :
    (Fit regDecryptCustomFile f → Meets regDecryptCustomFile f) ∧
    (regDecryptCustomFile ≠ 1 → Meets regDecryptCustomFile f →
      FitsAlong St.init (linesOf 1 f.text)) := by
  refine ⟨fun hfit => ⟨(parse_safe hfit.plain f).mpr hfit.lines, fun d hd => ?_⟩, fun hreg hmeets =>
    (parse_safe hreg f).mp hmeets.safe⟩
  have hgood := hfit.good d hd
  obtain ⟨s, hs, hlmts⟩ := parse_doc hd hgood.tabs hfit.plain
  refine ⟨s, hs, ?_, fun en name c tx tlrs bw => subChs_le en s.lmts name c tx⟩
  intro en hen name hnone hww bw tlrs ch hpos _
  rw [hlmts]
  exact limitOf_of_isLimit (lookup_isLimit (entries_plain hgood) hen hnone hww (by omega) bw tlrs 0)

/-- 20 dBm for one regulation on channel 1. -/
def tab20 : LimitTab where
  bw := 0
  tlrs := 0
  ntx := 0
  colNum := ['1']
  names := [['F', 'C', 'C']]
  rows := [{
    channel := ['1']
    limits := [.dbm {
      sign := .none
      lead := '2'
      int := ['0']
      frac := []
      int_digits := digits_of_all (by decide)
      frac_digits := digits_of_all (by decide) }]
    channel_digits := digits_of_all (by decide)
    pos := by decide
    le := by decide }]
  colNum_digits := digits_of_all (by decide)
  counted := by decide
  nonempty := by decide
  named := by simp [isBlank]
  sized := by decide

def file20 : File where
  text := "## 2.4G, 20M, 1T, CCK,\n## START\n## #1# FCC\nCH1 20\n## END".toList
  clean := by decide

example : WellFormed [tab20] file20 := by
  have hsp : Blanks [' '] := List.all_eq_true.1 (by decide)
  refine ⟨[], linesOf 1 file20.text, rfl, fun l hl => (nomatch hl), linesOf 1 file20.text, [],
    (List.append_nil _).symm, ?_, rfl⟩
  refine ⟨_, _, _, [_], _, rfl, ⟨[' '], [], hsp, rfl⟩, ⟨[' '], [], hsp, rfl⟩,
    ⟨[' '], _, hsp, rfl, [' '], [], hsp, rfl, fun c hc => (nomatch hc), trivial⟩,
    .cons ⟨'C', 'H', _, Or.inr rfl, Or.inr rfl, rfl, fun c hc => (by cases hc; rfl), [' '], [], hsp,
      rfl, fun c hc => (nomatch hc), trivial⟩ .nil, ⟨[' '], [], hsp, rfl⟩⟩

def channel15 : File where
  text := "## 2.4G, 20M, 1T, CCK,\n## START\n## #1# FCC\nCH15 20\n## END\n".toList
  clean := by decide

theorem channel15_overrun : ¬ Meets 0 channel15 := by
  intro h
  have hrun : phyParsePowerLimitTableFile 0 channel15 = .error .overrun := rfl
  exact h.safe .overrun hrun rfl

end Rtl8189.LimitDoc
