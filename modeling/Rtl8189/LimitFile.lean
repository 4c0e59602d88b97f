import Rtl8189.LimitTable

/-!
# The power limit file

The file is read line by line: exceptions for countries, then tables, each with a label, a
start, its columns, its rows and an end. Labels and channel numbers go to strings of ten bytes.
The access that no string or array holds ends the run.
-/
namespace Rtl8189.LimitFile
open LimitText LimitTable

def nul : Char := Char.ofNat 0

def isEol (c : Char) : Bool := c = Char.ofNat 13 || c = Char.ofNat 10

/-- A line up to its NUL, and how many bytes of the buffer are after that NUL. -/
structure Line where
  text : List Char
  after : ℕ

/-- The lines that `strsep` cuts off one after the other, where `more` bytes follow the text. -/
def linesOf (more : ℕ) : List Char → List Line
  | [] => [{ text := [], after := 0 }]
  | c :: r =>
    if isEol c then { text := [], after := r.length + more } :: linesOf more r else
      match linesOf more r with
      | [] => []
      | l :: ls => { l with text := c :: l.text } :: ls

/-! ## One limit -/

def rateSections : List (List Char × ℕ) :=
  [(['C', 'C', 'K'], rsCck), (['O', 'F', 'D', 'M'], rsOfdm), (['H', 'T'], rsHt),
    (['V', 'H', 'T'], rsVht)]

def ntxs : List (List Char × ℕ) :=
  [(['1', 'T'], 0), (['2', 'T'], 1), (['3', 'T'], 2), (['4', 'T'], 3)]

def bandwidths : List (List Char × ℕ) :=
  [(['2', '0', 'M'], 0), (['4', '0', 'M'], 1), (['8', '0', 'M'], 2), (['1', '6', '0', 'M'], 3)]

def band24G : List Char := ['2', '.', '4', 'G']

def startOf (table : List (List Char × ℕ)) (str : List Char) : Option ℕ :=
  (table.find? fun n => (follow n.1 str).isSome).map Prod.snd

def printed (str : List Char) (l : Lmts) : Option Lmts := if str.length < 10 then some l else none

def clampLimit (v : ℤ) : ℤ :=
  if v = phyTxpwrWwLmtValue then v
  else if txgiMax < v then txgiMax
  else if v < -txgiMax then phyTxpwrWwLmtValue + 1
  else v

def maxBandwidthNum24G : ℕ := 2
def centerChNum24G : ℕ := 14

/-- The table with the limit, unless a string or the limit array is read or written outside. -/
def phySetTxPowerLimit (l : Lmts)
    (regulation band bandwidth rateSection ntx channel powerLimit : List Char) : Option Lmts :=
  if 10 ≤ channel.length then none else
  match getU1ByteIntegerFromStringInDecimal channel,
    getS1ByteIntegerFromStringInDecimal powerLimit with
  | some ch, some v =>
    match startOf rateSections rateSection, startOf ntxs ntx, startOf bandwidths bandwidth with
    | none, _, _ => printed rateSection l
    | some _, none, _ => printed ntx l
    | some _, some _, none => printed bandwidth l
    | some tlrs, some ntxIdx, some bw =>
      if (follow band24G band).isSome then
        if ch = 0 then some l
        else if maxBandwidthNum24G ≤ bw then printed bandwidth l
        else if regulation ≠ [] ∧ centerChNum24G ≤ ch - 1 then none
        else
          some (rtwTxpwrLmtAdd l regulation
            { bw := bw, tlrs := tlrs, chIdx := ch - 1, ntxIdx := ntxIdx } (clampLimit v))
      else printed band l
  | _, _ => some l

/-! ## Lines -/

inductive Stage where
  | excMapping
  | tabDefine
  | tabStart
  | columnDefine
  | chRow
deriving DecidableEq

structure RegdExc where
  country : List Char
  domain : ℕ
  regdName : List Char

structure St where
  stage : Stage
  band : List Char
  bandwidth : List Char
  ntx : List Char
  rateSection : List Char
  regulation : List (List Char)
  exc : List RegdExc
  lmts : Lmts

def St.init : St where
  stage := .excMapping
  band := []
  bandwidth := []
  ntx := []
  rateSection := []
  regulation := []
  exc := []
  lmts := []

/-- The parser gives up on the file, or reaches outside its memory. -/
inductive Halt where
  | fail (s : St)
  | overrun

def hash2 : List Char := ['#', '#']

def hexDigit (c : Char) : Option ℕ :=
  if c.isDigit then some (c.toNat - 48)
  else if 'a' ≤ c ∧ c ≤ 'f' then some (c.toNat - 87)
  else if 'A' ≤ c ∧ c ≤ 'F' then some (c.toNat - 55)
  else none

def excRegulation (s : St) (country : List Char) (domain : ℕ) (l : List Char) : Option St :=
  let r := l.dropWhile fun c => c ≠ 'R'
  match follow "Regulation=".toList r with
  | none => none
  | some r =>
    let name := r.takeWhile fun c => ! isBlank c
    if name = [] then none
    else
      let e : RegdExc := { country := country, domain := domain, regdName := name }
      some { s with exc := s.exc ++ [e] }

def parseRegExcConfig (s : St) (l : List Char) : Option St :=
  match follow ['@', '@'] l with
  | none => some s
  | some r =>
    if (follow "Ver=".toList r).isSome then some s else
    match follow "DomainCode=0x".toList r, follow "CountryCode=".toList r with
    | some r, _ =>
      let v := r.takeWhile fun c => c ≠ ','
      if r.all (fun c => c ≠ ',') ∨ v = [] ∨ v.any (fun c => (hexDigit c).isNone) then none
      else excRegulation s [] (v.foldl (fun n c => (n * 16 + (hexDigit c).getD 0) % 256) 0)
        (r.dropWhile fun c => c ≠ ',')
    | none, some r =>
      let v := r.takeWhile fun c => c ≠ ','
      if r.all (fun c => c ≠ ',') ∨ v.length ≠ 2 ∨ v.any (fun c => ! c.isAlpha) then none
      else excRegulation s v 0xFF (r.dropWhile fun c => c ≠ ',')
    | none, none => none

def label (s : St) (l : List Char) : Except Halt (List Char × List Char) :=
  match parseQualifiedString l ' ' ',' with
  | none => .error (.fail s)
  | some t => if 10 < t.1.length then .error .overrun else .ok t

def tabDefine (s : St) (l : Line) : Except Halt St :=
  match follow hash2 l.text with
  | none => .ok s
  | some r => do
    let band ← label s (' ' :: skipBlanks r)
    let bandwidth ← label s band.2
    let ntx ← label s bandwidth.2
    let rateSection ← label s ntx.2
    .ok { s with
      stage := .tabStart
      band := band.1
      bandwidth := bandwidth.1
      ntx := ntx.1
      rateSection := rateSection.1 }

/-- The word is compared from its last character on. -/
def word (s : St) (w : List Char) (r : List Char) (l : Line) (next : St) : Except Halt St :=
  let r := skipBlanks r
  if r.length + 1 + l.after < w.length then .error .overrun
  else if (follow w r).isSome then .ok next
  else .error (.fail s)

def tabStart (s : St) (l : Line) : Except Halt St :=
  match follow hash2 l.text with
  | none => .ok s
  | some r => word s ['S', 'T', 'A', 'R', 'T'] r l { s with stage := .columnDefine }

def columnNames : ℕ → List Char → List (List Char)
  | 0, _ => []
  | n + 1, l =>
    let l := skipBlanks l
    (l.takeWhile fun c => ! isBlank c) :: columnNames n (l.dropWhile fun c => ! isBlank c)

/-- The number of columns is read as a string, so it needs its NUL. -/
def columnDefine (s : St) (l : Line) : Except Halt St :=
  match follow hash2 l.text with
  | none => .ok s
  | some r =>
    match parseQualifiedString (skipBlanks r) '#' '#' with
    | none => .error (.fail s)
    | some t =>
      if 9 < t.1.length then .error .overrun else
        match getU1ByteIntegerFromStringInDecimal t.1 with
        | none => .error (.fail s)
        | some colNum =>
          if colNum = 0 then .error (.fail s)
          else .ok { s with stage := .chRow, regulation := columnNames colNum t.2 }

def rowLimits (channel : List Char) (s : St) : List (List Char) → List Char → Except Halt St
  | [], _ => .ok s
  | regulation :: names, l =>
    match limitAt (skipBlanks l) with
    | none => .error (.fail s)
    | some t =>
      match phySetTxPowerLimit s.lmts regulation s.band s.bandwidth s.rateSection s.ntx channel
          t.1 with
      | none => .error .overrun
      | some lmts => rowLimits channel { s with lmts := lmts } names t.2

def chRow (s : St) (l : Line) : Except Halt St :=
  match follow hash2 l.text with
  | some r => word s ['E', 'N', 'D'] r l { s with stage := .tabDefine, regulation := [] }
  | none =>
    match l.text with
    | c :: h :: r =>
      if (c = 'c' ∨ c = 'C') ∧ (h = 'h' ∨ h = 'H') then
        let channel := r.takeWhile Char.isDigit
        if 10 < channel.length then .error .overrun
        else rowLimits channel s s.regulation (r.dropWhile Char.isDigit)
      else .ok s
    | _ => .ok s

def skipped (l : Line) : Bool :=
  l.text.head?.all isBlank || (follow ['/', '/'] l.text).isSome

def lineStep (s : St) (l : Line) : Except Halt St :=
  if skipped l then .ok s else
  match s.stage with
  | .excMapping =>
    if l.text.head? = some '#' ∨ l.text.tail.head? = some '#' then
      tabDefine { s with stage := .tabDefine } l
    else
      match parseRegExcConfig s l.text with
      | none => .error (.fail s)
      | some s => .ok s
  | .tabDefine => tabDefine s l
  | .tabStart => tabStart s l
  | .columnDefine => columnDefine s l
  | .chRow => chRow s l

/-! ## The file -/

/-- A text without NUL; its buffer has one after it. -/
structure File where
  text : List Char
  clean : nul ∉ text

def decryptLine (i : ℕ) : ℕ → List Char → Option (List Char)
  | _, [] => some []
  | j, c :: r =>
    let v := (c.toNat + 256 - (i + j) * 3 % 128) % 256
    if v < 32 ∨ 126 < v then none
    else (decryptLine i (j + 1) r).map (Char.ofNat (126 - (v - 32)) :: ·)

/-- Every line gets a line feed for its NUL, the last one too. -/
def decryptLines (i : ℕ) : List Line → Option (List Char)
  | [] => some []
  | l :: ls => do
    let text ← decryptLine i 0 l.text
    let rest ← decryptLines (if l.text = [] then i else i + 1) ls
    some (text ++ Char.ofNat 10 :: rest)

def phyDecryptBBPgParaFile (f : File) : Option (List Char) := decryptLines 0 (linesOf 1 f.text)

def runLines (s : St) (ls : List Line) : Except Halt St := ls.foldlM lineStep s

/-- A buffer without NUL is left by the search for the end of its last line. -/
def phyParsePowerLimitTableFile (regDecryptCustomFile : ℕ) (f : File) : Except Halt St :=
  if regDecryptCustomFile = 1 then
    match phyDecryptBBPgParaFile f with
    | none => .error .overrun
    | some buffer => do
      let _ ← runLines St.init (linesOf 0 buffer).dropLast
      .error .overrun
  else runLines St.init (linesOf 1 f.text)

/-! ## Accesses -/

def LabelsFit : ℕ → List Char → Prop
  | 0, _ => True
  | n + 1, l => ∀ t ∈ parseQualifiedString l ' ' ',', t.1.length ≤ 10 ∧ LabelsFit n t.2

def WordFits (w r : List Char) (l : Line) : Prop := w.length ≤ (skipBlanks r).length + 1 + l.after

def LimitFits (s : St) (regulation channel : List Char) : Prop :=
  channel.length < 10 ∧
  match startOf rateSections s.rateSection, startOf ntxs s.ntx, startOf bandwidths s.bandwidth with
  | none, _, _ => s.rateSection.length < 10
  | some _, none, _ => s.ntx.length < 10
  | some _, some _, none => s.bandwidth.length < 10
  | some _, some _, some bw =>
    if (follow band24G s.band).isSome then
      decimal channel % 256 = 0 ∨
        if maxBandwidthNum24G ≤ bw then s.bandwidth.length < 10
        else regulation = [] ∨ decimal channel % 256 ≤ centerChNum24G
    else s.band.length < 10

def RowFits (s : St) (channel : List Char) : List (List Char) → List Char → Prop
  | [], _ => True
  | regulation :: names, l =>
    ∀ t ∈ limitAt (skipBlanks l), LimitFits s regulation channel ∧ RowFits s channel names t.2

def TabFits (l : Line) : Prop :=
  ∀ r ∈ follow hash2 l.text, LabelsFit 4 (' ' :: skipBlanks r)

def ColumnsFit (l : Line) : Prop :=
  ∀ r ∈ follow hash2 l.text, ∀ t ∈ parseQualifiedString (skipBlanks r) '#' '#', t.1.length ≤ 9

def ChRowFits (s : St) (l : Line) : Prop :=
  match follow hash2 l.text with
  | some r => WordFits ['E', 'N', 'D'] r l
  | none =>
    match l.text with
    | c :: h :: r =>
      (c = 'c' ∨ c = 'C') ∧ (h = 'h' ∨ h = 'H') →
        (r.takeWhile Char.isDigit).length ≤ 10 ∧
          RowFits s (r.takeWhile Char.isDigit) s.regulation (r.dropWhile Char.isDigit)
    | _ => True

def LineFits (s : St) (l : Line) : Prop :=
  skipped l = true ∨
  match s.stage with
  | .excMapping => l.text.head? = some '#' ∨ l.text.tail.head? = some '#' → TabFits l
  | .tabDefine => TabFits l
  | .tabStart => ∀ r ∈ follow hash2 l.text, WordFits ['S', 'T', 'A', 'R', 'T'] r l
  | .columnDefine => ColumnsFit l
  | .chRow => ChRowFits s l

def FitsAlong : St → List Line → Prop
  | _, [] => True
  | s, l :: ls => LineFits s l ∧ ∀ s', lineStep s l = .ok s' → FitsAlong s' ls

def Safe {α : Type} (r : Except Halt α) : Prop := ∀ h, r = .error h → h ≠ .overrun

theorem safe_ok {α : Type} (a : α) : Safe (.ok a : Except Halt α) := fun _ h => nomatch h

theorem safe_fail {α : Type} (s : St) : Safe (.error (.fail s) : Except Halt α) := by
  rintro _ ⟨⟩ ⟨⟩

theorem not_safe {α : Type} : ¬ Safe (.error .overrun : Except Halt α) := fun h => h _ rfl rfl

theorem safe_bind {α β : Type} (r : Except Halt α) (f : α → Except Halt β) :
    Safe (r >>= f) ↔ Safe r ∧ ∀ a, r = .ok a → Safe (f a) := by
  cases r with
  | ok a => exact ⟨fun h => ⟨safe_ok a, by rintro _ ⟨⟩; exact h⟩, fun h => h.2 a rfl⟩
  | error e =>
    refine ⟨fun h => ⟨fun e' he => h e' ?_, fun a ha => nomatch ha⟩, fun h e' he => h.1 e' ?_⟩
    · cases he
      rfl
    · cases he
      rfl

theorem runLines_cons (s : St) (l : Line) (ls : List Line) :
    runLines s (l :: ls) = lineStep s l >>= fun s' => runLines s' ls := rfl

theorem label_bind_safe {α : Type} (s : St) (l : List Char)
    (f : List Char × List Char → Except Halt α) : Safe (label s l >>= f) ↔
      ∀ t ∈ parseQualifiedString l ' ' ',', t.1.length ≤ 10 ∧ Safe (f t) := by
  rw [label]
  cases parseQualifiedString l ' ' ',' with
  | none => exact iff_of_true (safe_fail s) fun _ h => nomatch h
  | some t =>
    by_cases hlen : 10 < t.1.length
    · simp only [if_pos hlen]
      refine iff_of_false not_safe fun h => ?_
      have := (h t rfl).1
      omega
    · simp only [if_neg hlen]
      refine ⟨fun h t' ht' => ?_, fun h => (h t rfl).2⟩
      cases ht'
      exact ⟨by omega, h⟩

theorem tabDefine_safe (s : St) (l : Line) : Safe (tabDefine s l) ↔ TabFits l := by
  rw [tabDefine, TabFits]
  cases follow hash2 l.text with
  | none => exact iff_of_true (safe_ok s) fun _ h => nomatch h
  | some r =>
    simp only [Option.mem_some_iff, forall_eq', label_bind_safe, LabelsFit]
    simp only [safe_ok]

theorem word_safe (s next : St) (w r : List Char) (l : Line) :
    Safe (word s w r l next) ↔ WordFits w r l := by
  simp only [word, WordFits]
  split_ifs with hroom hfollow
  · exact iff_of_false not_safe (by omega)
  · exact iff_of_true (safe_ok next) (by omega)
  · exact iff_of_true (safe_fail s) (by omega)

theorem tabStart_safe (s : St) (l : Line) : Safe (tabStart s l) ↔
    ∀ r ∈ follow hash2 l.text, WordFits ['S', 'T', 'A', 'R', 'T'] r l := by
  rw [tabStart]
  cases follow hash2 l.text with
  | none => exact iff_of_true (safe_ok s) fun _ h => nomatch h
  | some r => simp only [Option.mem_some_iff, forall_eq', word_safe]

theorem columnDefine_safe (s : St) (l : Line) : Safe (columnDefine s l) ↔ ColumnsFit l := by
  rw [columnDefine, ColumnsFit]
  cases follow hash2 l.text with
  | none => exact iff_of_true (safe_ok s) fun _ h => nomatch h
  | some r =>
    simp only [Option.mem_some_iff, forall_eq']
    cases parseQualifiedString (skipBlanks r) '#' '#' with
    | none => exact iff_of_true (safe_fail s) fun _ h => nomatch h
    | some t =>
      simp only [Option.mem_some_iff, forall_eq']
      split_ifs with hlen
      · exact iff_of_false not_safe (by omega)
      · refine iff_of_true ?_ (by omega)
        cases getU1ByteIntegerFromStringInDecimal t.1 with
        | none => exact safe_fail s
        | some colNum =>
          dsimp only
          split_ifs
          · exact safe_fail s
          · exact safe_ok _

theorem toS8_range (v : ℤ) : -128 ≤ toS8 v ∧ toS8 v ≤ 127 := by
  have hl := @Int.le_bmod v 256 (by decide)
  have hu := @Int.bmod_lt v 256 (by decide)
  rw [toS8]
  omega

theorem limitAt_printed {l : List Char} {t : List Char × List Char} (h : limitAt l = some t) :
    ∃ v, t.1 = sprintfD v ∧ -128 ≤ v ∧ v ≤ 127 := by
  have hdbm : ∀ negative l', dbmLimit negative l' = some t →
      ∃ v, t.1 = sprintfD v ∧ -128 ≤ v ∧ v ≤ 127 := by
    intro negative l' h'
    obtain ⟨v, -, rfl⟩ := Option.map_eq_some_iff.mp h'
    refine ⟨_, rfl, ?_⟩
    split_ifs
    · exact toS8_range _
    · exact toS8_range _
  cases l with
  | nil => cases h
  | cons c r =>
    rw [limitAt] at h
    split_ifs at h
    · cases h
      exact ⟨phyTxpwrWwLmtValue, rfl, by decide, by decide⟩
    · cases h
      exact ⟨txgiMax, rfl, by decide, by decide⟩
    · exact hdbm _ _ h
    · exact hdbm _ _ h

theorem printed_ne (str : List Char) (l : Lmts) : printed str l ≠ none ↔ str.length < 10 := by
  rw [printed]
  split_ifs with h
  · exact iff_of_true (fun h => nomatch h) h
  · exact iff_of_false (fun h => h rfl) h

theorem setLimit_eq (s : St) (regulation channel : List Char) (hch : Digits channel)
    (hlen : channel.length < 10) {v : ℤ} (hl : -128 ≤ v) (hu : v ≤ 127) :
    phySetTxPowerLimit s.lmts regulation s.band s.bandwidth s.rateSection s.ntx channel
      (sprintfD v) =
    match startOf rateSections s.rateSection, startOf ntxs s.ntx,
      startOf bandwidths s.bandwidth with
    | none, _, _ => printed s.rateSection s.lmts
    | some _, none, _ => printed s.ntx s.lmts
    | some _, some _, none => printed s.bandwidth s.lmts
    | some tlrs, some ntxIdx, some bw =>
      if (follow band24G s.band).isSome then
        if decimal channel % 256 = 0 then some s.lmts
        else if maxBandwidthNum24G ≤ bw then printed s.bandwidth s.lmts
        else if regulation ≠ [] ∧ centerChNum24G ≤ decimal channel % 256 - 1 then none
        else
          some (rtwTxpwrLmtAdd s.lmts regulation
            { bw := bw, tlrs := tlrs, chIdx := decimal channel % 256 - 1, ntxIdx := ntxIdx }
            (clampLimit v))
      else printed s.band s.lmts := by
  rw [phySetTxPowerLimit, if_neg (by omega), getU1Byte_eq hch, getS1Byte_sprintf hl hu]

theorem setLimit_safe (s : St) (regulation channel : List Char) (hch : Digits channel) {v : ℤ}
    (hl : -128 ≤ v) (hu : v ≤ 127) :
    phySetTxPowerLimit s.lmts regulation s.band s.bandwidth s.rateSection s.ntx channel
      (sprintfD v) ≠ none ↔ LimitFits s regulation channel := by
  rw [LimitFits]
  by_cases hlen : channel.length < 10
  · rw [setLimit_eq s regulation channel hch hlen hl hu]
    simp only [hlen, true_and]
    split
    · exact printed_ne _ _
    · exact printed_ne _ _
    · exact printed_ne _ _
    · rename_i tlrs ntxIdx bw _ _ _
      by_cases hband : (follow band24G s.band).isSome = true
      · rw [if_pos hband, if_pos hband]
        by_cases hzero : decimal channel % 256 = 0
        · rw [if_pos hzero]
          exact iff_of_true (fun h => nomatch h) (Or.inl hzero)
        · rw [if_neg hzero, or_iff_right hzero]
          by_cases hbw : maxBandwidthNum24G ≤ bw
          · rw [if_pos hbw, if_pos hbw]
            exact printed_ne _ _
          · rw [if_neg hbw, if_neg hbw]
            by_cases hreg : regulation = []
            · rw [if_neg fun h => h.1 hreg]
              exact iff_of_true (fun h => nomatch h) (Or.inl hreg)
            · rw [or_iff_right hreg]
              split_ifs with hidx
              · refine iff_of_false (fun h => h rfl) ?_
                have := hidx.2
                omega
              · refine iff_of_true (fun h => nomatch h) ?_
                have hlt : ¬ centerChNum24G ≤ decimal channel % 256 - 1 := fun h => hidx ⟨hreg, h⟩
                omega
      · rw [if_neg hband, if_neg hband]
        exact printed_ne _ _
  · rw [phySetTxPowerLimit, if_pos (by omega)]
    exact iff_of_false (fun h => h rfl) fun h => hlen h.1

theorem rowFits_lmts (s : St) (lmts : Lmts) (channel : List Char) (names : List (List Char))
    (l : List Char) :
    RowFits { s with lmts := lmts } channel names l ↔ RowFits s channel names l := by
  induction names generalizing l with
  | nil => exact Iff.rfl
  | cons regulation names ih =>
    simp only [RowFits, ih]
    exact Iff.rfl

theorem rowLimits_safe (channel : List Char) (hch : Digits channel) (s : St)
    (names : List (List Char)) (l : List Char) :
    Safe (rowLimits channel s names l) ↔ RowFits s channel names l := by
  induction names generalizing s l with
  | nil => exact iff_of_true (safe_ok s) trivial
  | cons regulation names ih =>
    rw [rowLimits, RowFits]
    cases ht : limitAt (skipBlanks l) with
    | none => exact iff_of_true (safe_fail s) fun _ h => nomatch h
    | some t =>
      obtain ⟨v, hv, hl, hu⟩ := limitAt_printed ht
      have hset := setLimit_safe s regulation channel hch hl hu
      simp only [Option.mem_some_iff, forall_eq', hv]
      cases hres : phySetTxPowerLimit s.lmts regulation s.band s.bandwidth s.rateSection s.ntx
          channel (sprintfD v) with
      | none =>
        rw [hres] at hset
        exact iff_of_false not_safe fun h => hset.mpr h.1 rfl
      | some lmts =>
        rw [hres] at hset
        have hfits := hset.mp fun h => nomatch h
        dsimp only
        rw [ih, and_iff_right hfits, rowFits_lmts]

theorem chRow_safe (s : St) (l : Line) : Safe (chRow s l) ↔ ChRowFits s l := by
  rw [chRow, ChRowFits]
  cases follow hash2 l.text with
  | some r => exact word_safe s _ _ r l
  | none =>
    dsimp only
    split
    · rename_i c h r htext
      by_cases hch : (c = 'c' ∨ c = 'C') ∧ (h = 'h' ∨ h = 'H')
      · rw [if_pos hch, forall_prop_of_true hch]
        split_ifs with hlen
        · exact iff_of_false not_safe fun h => absurd h.1 (by omega)
        · rw [and_iff_right (by omega), rowLimits_safe]
          exact fun c hc => List.mem_takeWhile_imp hc
      · rw [if_neg hch]
        exact iff_of_true (safe_ok s) fun h => absurd h hch
    · exact iff_of_true (safe_ok s) trivial

theorem lineStep_safe (s : St) (l : Line) : Safe (lineStep s l) ↔ LineFits s l := by
  rw [lineStep, LineFits]
  by_cases hskip : skipped l = true
  · rw [if_pos hskip]
    exact iff_of_true (safe_ok s) (Or.inl hskip)
  · rw [if_neg hskip, or_iff_right hskip]
    cases s.stage with
    | excMapping =>
      dsimp only
      split_ifs with hhash
      · rw [tabDefine_safe, forall_prop_of_true hhash]
      · refine iff_of_true ?_ fun h => absurd h hhash
        cases parseRegExcConfig s l.text with
        | none => exact safe_fail s
        | some s' => exact safe_ok s'
    | tabDefine => exact tabDefine_safe s l
    | tabStart => exact tabStart_safe s l
    | columnDefine => exact columnDefine_safe s l
    | chRow => exact chRow_safe s l

theorem runLines_safe (s : St) (ls : List Line) : Safe (runLines s ls) ↔ FitsAlong s ls := by
  induction ls generalizing s with
  | nil => exact iff_of_true (safe_ok s) trivial
  | cons l ls ih =>
    rw [runLines_cons, safe_bind, lineStep_safe, FitsAlong]
    exact and_congr_right fun _ => forall₂_congr fun s' _ => ih s'

theorem parse_safe {regDecryptCustomFile : ℕ} (hreg : regDecryptCustomFile ≠ 1) (f : File) :
    Safe (phyParsePowerLimitTableFile regDecryptCustomFile f) ↔
      FitsAlong St.init (linesOf 1 f.text) := by
  rw [phyParsePowerLimitTableFile, if_neg hreg, runLines_safe]

end Rtl8189.LimitFile
