import Mathlib.Data.List.TakeWhile
import Mathlib.Data.Int.Lemmas
import Mathlib.Tactic.Common
import Rtl8189.FieldWidths

/-!
# Text of the power limit file

The scanner of the file takes tokens between two characters, decimal numbers into bytes, and
limits in dBm. A place in a line is what is left of the line, and its end is the NUL: the
scanner steps only over characters it has seen not to be the NUL.
-/
namespace Rtl8189.LimitText

def isBlank (c : Char) : Bool := c = ' ' || c = Char.ofNat 9

def skipBlanks (l : List Char) : List Char := l.dropWhile isBlank

def follow : List Char → List Char → Option (List Char)
  | [], l => some l
  | _ :: _, [] => none
  | c :: p, d :: l => if c = d then follow p l else none

def digit (c : Char) : ℕ := c.toNat - 48

def parseQualifiedString (l : List Char) (left right : Char) : Option (List Char × List Char) :=
  match l with
  | [] => none
  | c :: r =>
    if c ≠ left then none else
      match r.dropWhile fun c => c ≠ right with
      | [] => none
      | _ :: rest => some (r.takeWhile fun c => c ≠ right, rest)

def u8Decimal (v : ℕ) : List Char → Option ℕ
  | [] => some v
  | c :: r => if c.isDigit then u8Decimal ((v * 10 + digit c) % 256) r else none

def getU1ByteIntegerFromStringInDecimal (str : List Char) : Option ℕ := u8Decimal 0 str

def toS8 (v : ℤ) : ℤ := v.bmod 256

def s8Decimal (v : ℤ) : List Char → Option ℤ
  | [] => some v
  | c :: r => if c.isDigit then s8Decimal (toS8 (toS8 (v * 10) + digit c)) r else none

def getS1ByteIntegerFromStringInDecimal : List Char → Option ℤ
  | [] => some 0
  | c :: r =>
    if c = '+' then s8Decimal 0 r
    else if c = '-' then (s8Decimal 0 r).map fun v => toS8 (-v)
    else s8Decimal 0 (c :: r)

/-- `sprintf` with `%d`. -/
def sprintfD (v : ℤ) : List Char :=
  if v < 0 then '-' :: Nat.toDigits 10 v.natAbs else Nat.toDigits 10 v.natAbs

/-- At most two digits after the point. -/
def fractionDigits : List Char → Option (ℕ × List Char)
  | [] => none
  | c :: r =>
    if c.isDigit then
      match r with
      | [] => some (digit c * 10, [])
      | d :: r' => if d.isDigit then some (digit c * 10 + digit d, r') else some (digit c * 10, r)
    else none

def integerDigits (integer : ℕ) : List Char → Option (ℕ × ℕ × List Char)
  | [] => none
  | c :: r =>
    let integer := (integer * 10 + digit c) % 256
    match r with
    | [] => some (integer, 0, [])
    | d :: r' =>
      if d = '.' then (fractionDigits r').map fun f => (integer, f.1, f.2)
      else if d.isDigit then integerDigits integer r
      else some (integer, 0, r)

def getFractionValueFromString (l : List Char) : Option (ℕ × ℕ × List Char) :=
  match skipBlanks l with
  | [] => none
  | c :: r => if c.isDigit then integerDigits 0 (c :: r) else none

def txgiMax : ℤ := 63
def txgiPdbm : ℕ := 2

def phyTxpwrWwLmtValue : ℤ := if txgiMax = 63 then -63 else -128

def dbmLimit (negative : Bool) (l : List Char) : Option (List Char × List Char) :=
  (getFractionValueFromString l).map fun v =>
    let lmt := toS8 ((v.1 * txgiPdbm + v.2.1 * txgiPdbm / 100 : ℕ) : ℤ)
    (sprintfD (if negative then toS8 (-lmt) else lmt), v.2.2)

def limitAt (l : List Char) : Option (List Char × List Char) :=
  match l with
  | [] => none
  | c :: r =>
    if c = 'W' ∧ r.head? = some 'W' then some (sprintfD phyTxpwrWwLmtValue, r.tail)
    else if c = 'N' ∧ r.head? = some 'A' then some (sprintfD txgiMax, r.tail)
    else if c = '+' ∨ c = '-' then dbmLimit (c = '-') r
    else if c.isDigit ∨ c = '.' then dbmLimit false l
    else none

/-! ## Reading back -/

variable {p : List Char} {c d : Char} {l r t : List Char}

@[simp] theorem follow_append (p l : List Char) : follow p (p ++ l) = some l := by
  induction p with
  | nil => rfl
  | cons c p ih => simp [follow, ih]

def Ends (l : List Char) : Prop := ∀ c ∈ l.head?, isBlank c = true

theorem skipBlanks_append (hl : ∀ c ∈ l, isBlank c = true) (r : List Char) :
    skipBlanks (l ++ r) = skipBlanks r := List.dropWhile_append_of_pos hl

theorem skipBlanks_cons (hc : isBlank c = false) (r : List Char) :
    skipBlanks (c :: r) = c :: r := by
  rw [skipBlanks, List.dropWhile_cons_of_neg (by simp [hc])]

theorem parseQualifiedString_append (left : Char) (ht : ∀ c ∈ t, c ≠ d) (r : List Char) :
    parseQualifiedString (left :: (t ++ d :: r)) left d = some (t, r) := by
  have ht' : ∀ c ∈ t, (decide (c ≠ d)) = true := fun c hc => decide_eq_true (ht c hc)
  have hdrop : (t ++ d :: r).dropWhile (fun c => decide (c ≠ d)) = d :: r := by
    rw [List.dropWhile_append_of_pos ht', List.dropWhile_cons_of_neg (by simp)]
  have htake : (t ++ d :: r).takeWhile (fun c => decide (c ≠ d)) = t := by
    rw [List.takeWhile_append_of_pos ht', List.takeWhile_cons_of_neg (by simp), List.append_nil]
  simp only [parseQualifiedString, ne_eq, not_true_eq_false, if_false, hdrop, htake]

def decimalFrom (v : ℕ) (ds : List Char) : ℕ := ds.foldl (fun v c => v * 10 + digit c) v

abbrev decimal (ds : List Char) : ℕ := decimalFrom 0 ds

def Digits (ds : List Char) : Prop := ∀ c ∈ ds, c.isDigit = true

theorem digits_of_all {ds : List Char} (h : ds.all Char.isDigit = true) : Digits ds :=
  List.all_eq_true.1 h

theorem Digits.tail {ds : List Char} (h : Digits (c :: ds)) : Digits ds :=
  fun x hx => h x (List.mem_cons_of_mem c hx)

theorem Digits.head {ds : List Char} (h : Digits (c :: ds)) : c.isDigit = true :=
  h c List.mem_cons_self

theorem decimalFrom_cons (v : ℕ) (c : Char) (ds : List Char) :
    decimalFrom v (c :: ds) = decimalFrom (v * 10 + digit c) ds := by
  rw [decimalFrom, List.foldl_cons, decimalFrom]

theorem u8Decimal_eq (v : ℕ) {ds : List Char} (hds : Digits ds) :
    u8Decimal (v % 256) ds = some (decimalFrom v ds % 256) := by
  induction ds generalizing v with
  | nil => rfl
  | cons c ds ih =>
    rw [u8Decimal, if_pos hds.head, decimalFrom_cons, ← ih (v * 10 + digit c) hds.tail]
    congr 1
    omega

theorem getU1Byte_eq {ds : List Char} (hds : Digits ds) :
    getU1ByteIntegerFromStringInDecimal ds = some (decimal ds % 256) := u8Decimal_eq 0 hds

theorem blank_cases (h : isBlank c = true) : c = ' ' ∨ c = Char.ofNat 9 := by
  simpa [isBlank] using h

theorem Ends.not_digit (h : Ends (c :: l)) : c.isDigit = false ∧ c ≠ '.' := by
  obtain rfl | rfl := blank_cases (h c rfl)
  · exact ⟨rfl, by decide⟩
  · exact ⟨rfl, by decide⟩

theorem digit_not_blank (h : c.isDigit = true) : isBlank c = false := by
  by_contra hb
  obtain rfl | rfl := blank_cases (Bool.eq_true_of_not_eq_false hb)
  · exact absurd h (by decide)
  · exact absurd h (by decide)

theorem integerDigits_one (v : ℕ) (c d : Char) (r : List Char) :
    integerDigits v (c :: d :: r) =
      if d = '.' then
        (fractionDigits r).map fun f => ((v * 10 + digit c) % 256, f.1, f.2)
      else if d.isDigit then integerDigits ((v * 10 + digit c) % 256) (d :: r)
      else some ((v * 10 + digit c) % 256, 0, d :: r) := by
  rw [integerDigits.eq_def]

theorem u8_step (v : ℕ) (c : Char) : (v % 256 * 10 + digit c) % 256 = (v * 10 + digit c) % 256 := by
  omega

theorem digit_not_dot (h : c.isDigit = true) : c ≠ '.' := by
  rintro rfl
  exact absurd h (by decide)

theorem integerDigits_eq (v : ℕ) {ds : List Char} (hds : Digits (c :: ds)) (hr : Ends r) :
    integerDigits (v % 256) (c :: (ds ++ r)) = some (decimalFrom v (c :: ds) % 256, 0, r) := by
  induction ds generalizing v c with
  | nil =>
    cases r with
    | nil =>
      rw [List.append_nil, integerDigits.eq_def]
      simp only [u8_step]
      rfl
    | cons d r =>
      obtain ⟨hd, hdot⟩ := hr.not_digit
      rw [List.nil_append, integerDigits_one, if_neg hdot, hd, u8_step]
      rfl
  | cons e ds ih =>
    have he := hds.tail.head
    rw [List.cons_append, integerDigits_one, if_neg (digit_not_dot he), if_pos he, u8_step,
      ih (v * 10 + digit c) hds.tail]
    rfl

theorem integerDigits_point (v : ℕ) {ds : List Char} (hds : Digits (c :: ds)) (r : List Char) :
    integerDigits (v % 256) (c :: (ds ++ '.' :: r)) =
      (fractionDigits r).map fun f => (decimalFrom v (c :: ds) % 256, f.1, f.2) := by
  induction ds generalizing v c with
  | nil =>
    rw [List.nil_append, integerDigits_one, if_pos rfl, u8_step]
    rfl
  | cons e ds ih =>
    have he := hds.tail.head
    rw [List.cons_append, integerDigits_one, if_neg (digit_not_dot he), if_pos he, u8_step,
      ih (v * 10 + digit c) hds.tail]
    rfl

theorem fractionDigits_eq {f : List Char} (hf : Digits f) (hne : f ≠ []) (hlen : f.length ≤ 2)
    (hr : Ends r) : fractionDigits (f ++ r) = some (decimal f * 10 ^ (2 - f.length), r) := by
  match f, hf, hne, hlen with
  | [a], hf, _, _ =>
    cases r with
    | nil => simp [fractionDigits, hf.head, decimal, decimalFrom]
    | cons d r => simp [fractionDigits, hf.head, hr.not_digit.1, decimal, decimalFrom]
  | [a, b], hf, _, _ => simp [fractionDigits, hf.head, hf.tail.head, decimal, decimalFrom]

theorem getS1Byte_sprintf {v : ℤ} (hl : -128 ≤ v) (hu : v ≤ 127) :
    getS1ByteIntegerFromStringInDecimal (sprintfD v) = some v := by
  have hall : ∀ n : Fin 256,
      getS1ByteIntegerFromStringInDecimal (sprintfD ((n.val : ℤ) - 128)) =
        some ((n.val : ℤ) - 128) := by decide +kernel
  have hn := hall ⟨(v + 128).toNat, by omega⟩
  rwa [show ((v + 128).toNat : ℤ) - 128 = v by omega] at hn

end Rtl8189.LimitText
