import Mathlib.Data.List.DropRight

/-!
# Text that a shell reads back

The part of the shell's grammar that decides what a file of assignments does when it is
sourced: unquoted characters, backslashes, single quotes, blanks and newlines. A character
that would start an expansion, an operator, a pattern or a comment is not read further; the
command with it counts as an effect other than an assignment.
-/
namespace Rtl8189.ShellText

abbrev Text := List Char

abbrev Value := { s : Text // Char.ofNat 0 ∉ s }

/-- `sed` with a script that rewrites each line: the newlines are put back, and a last line
without one stays without. -/
def sedLines (f : Text → Text) : Text → Text → Text
  | [], [] => []
  | line, [] => f line
  | line, c :: t =>
    if c = '\n' then f line ++ '\n' :: sedLines f [] t else sedLines f (line ++ [c]) t

def commandSubst (out : Text) : Text :=
  (out.filter (· ≠ Char.ofNat 0)).rdropWhile (· = '\n')

structure WordChar where
  char : Char
  quoted : Bool
deriving DecidableEq

inductive Mode where
  | unquoted
  | quoted
  /-- Behind an unquoted backslash. -/
  | escaped
deriving DecidableEq

/-- Characters that, unquoted, do not stand for themselves in every word. -/
def active : Text :=
  "\"$&|;<>()*?[~#\x7b\x7d!".toList ++ [Char.ofNat 0, Char.ofNat 96]

inductive Token where
  | word (w : List WordChar)
  | newline
  | other
deriving DecidableEq

def flush : Option (List WordChar) → List Token
  | none => []
  | some w => [.word w]

def push (w : Option (List WordChar)) (c : WordChar) : Option (List WordChar) :=
  some (w.getD [] ++ [c])

def tokens : Mode → Option (List WordChar) → Text → List Token
  | .unquoted, w, [] => flush w
  | .quoted, _, [] => [.other]
  | .escaped, _, [] => [.other]
  | .quoted, w, c :: t =>
    if c = '\'' then tokens .unquoted w t else tokens .quoted (push w ⟨c, true⟩) t
  | .escaped, w, c :: t =>
    if c = '\n' then tokens .unquoted w t else tokens .unquoted (push w ⟨c, true⟩) t
  | .unquoted, w, c :: t =>
    if c = '\n' then flush w ++ .newline :: tokens .unquoted none t
    else if c = ' ' ∨ c = '\t' then flush w ++ tokens .unquoted none t
    else if c = '\'' then tokens .quoted (some (w.getD [])) t
    else if c = '\\' then tokens .escaped w t
    else if c ∈ active then [.other]
    else tokens .unquoted (push w ⟨c, false⟩) t

inductive Effect where
  | assign (name value : Text)
  /-- A command is run, a character is expanded, or the text is no command. -/
  | other
deriving DecidableEq

def nameChar (c : Char) : Bool := c.isAlphanum ∨ c = '_'

def inName (c : WordChar) : Bool := !c.quoted && nameChar c.char

/-- A variable assignment is a name, an equals sign and the rest of the word. -/
def assignment (w : List WordChar) : Effect :=
  let name := w.takeWhile inName
  match w.dropWhile inName with
  | [] => .other
  | e :: v =>
    if e = ⟨'=', false⟩ ∧ name ≠ [] ∧ (name.map WordChar.char).head?.all (!Char.isDigit ·) then
      .assign (name.map WordChar.char) (v.map WordChar.char)
    else .other

/-- Assignments change the shell's own variables where a command has no other words. -/
def command (words : List Effect) : List Effect :=
  if .other ∈ words then [.other] else words

def effects : List Effect → List Token → List Effect
  | words, [] => command words
  | words, .newline :: ts => command words ++ effects [] ts
  | words, .word w :: ts => effects (words ++ [assignment w]) ts
  | _, .other :: _ => [.other]

def source (text : Text) : List Effect := effects [] (tokens .unquoted none text)

/-! ## Single quotes -/

theorem sedLines_flatMap (g : Char → Text) (hg : g '\n' = ['\n']) (line t : Text) :
    sedLines (List.flatMap g) line t = line.flatMap g ++ t.flatMap g := by
  induction t generalizing line with
  | nil => cases line <;> simp [sedLines]
  | cons c t ih =>
    have hline : sedLines (List.flatMap g) line (c :: t) =
        if c = '\n' then line.flatMap g ++ '\n' :: sedLines (List.flatMap g) [] t
        else sedLines (List.flatMap g) (line ++ [c]) t := by
      cases line <;> rfl
    rw [hline]
    split_ifs with hc
    · subst hc
      rw [ih, List.flatMap_cons, hg]
      rfl
    · rw [ih, List.flatMap_append, List.flatMap_cons, List.flatMap_cons, List.flatMap_nil,
        List.append_nil, List.append_assoc]

theorem commandSubst_of_last {out : Text} (hnul : Char.ofNat 0 ∉ out) {c : Char}
    (hc : c ≠ '\n') (hlast : ∃ t, out = t ++ [c]) : commandSubst out = out := by
  have hfilter : out.filter (· ≠ Char.ofNat 0) = out :=
    List.filter_eq_self.2 fun d hd => decide_eq_true fun h => hnul (h ▸ hd)
  obtain ⟨t, rfl⟩ := hlast
  unfold commandSubst
  rw [hfilter, List.rdropWhile_concat_neg]
  simpa using hc

/-- A quote inside single quotes ends them, stands escaped and begins them again. -/
def escapeQuote (c : Char) : Text := if c = '\'' then "'\\''".toList else [c]

def quotedChars (s : Text) : List WordChar := s.map fun c => ⟨c, true⟩

def plainChars (s : Text) : List WordChar := s.map fun c => ⟨c, false⟩

theorem tokens_escaped (w : List WordChar) (s rest : Text) :
    tokens .quoted (some w) (s.flatMap escapeQuote ++ '\'' :: rest) =
      tokens .unquoted (some (w ++ quotedChars s)) rest := by
  induction s generalizing w with
  | nil => simp [tokens, quotedChars]
  | cons c s ih =>
    by_cases hc : c = '\''
    · subst hc
      have := ih (w ++ [⟨'\'', true⟩])
      simpa [tokens, escapeQuote, quotedChars, push] using this
    · have := ih (w ++ [⟨c, true⟩])
      simpa [tokens, escapeQuote, quotedChars, push, hc] using this

theorem tokens_singleQuoted (w : List WordChar) (s rest : Text) :
    tokens .unquoted (some w) ('\'' :: (s.flatMap escapeQuote ++ '\'' :: rest)) =
      tokens .unquoted (some (w ++ quotedChars s)) rest := by
  rw [← tokens_escaped]
  simp [tokens]

def plain (c : Char) : Bool :=
  c ≠ '\n' ∧ c ≠ ' ' ∧ c ≠ '\t' ∧ c ≠ '\'' ∧ c ≠ '\\' ∧ c ∉ active

theorem tokens_plain (w : List WordChar) {t : Text} (ht : t.all plain) (rest : Text) :
    tokens .unquoted (some w) (t ++ rest) =
      tokens .unquoted (some (w ++ plainChars t)) rest := by
  induction t generalizing w with
  | nil => simp [plainChars]
  | cons c t ih =>
    rw [List.all_cons, Bool.and_eq_true_iff] at ht
    obtain ⟨hn, hs, ht', hq, hb, ha⟩ := of_decide_eq_true ht.1
    have := ih (w ++ [⟨c, false⟩]) ht.2
    simpa [tokens, push, plainChars, hn, hs, ht', hq, hb, ha] using this

def assignLine (name value : Text) : Text :=
  name ++ '=' :: '\'' :: (value.flatMap escapeQuote ++ ['\'', '\n'])

structure IsName (name : Text) : Prop where
  ne : name ≠ []
  chars : name.all nameChar
  head : name.head?.all (!Char.isDigit ·)

instance (name : Text) : Decidable (IsName name) :=
  decidable_of_iff (name ≠ [] ∧ name.all nameChar ∧ name.head?.all (!Char.isDigit ·))
    ⟨fun h => ⟨h.1, h.2.1, h.2.2⟩, fun h => ⟨h.ne, h.chars, h.head⟩⟩

theorem plain_of_nameChar {c : Char} (hc : nameChar c) : plain c := by
  by_contra h
  have hmem : c ∈ ['\n', ' ', '\t', '\'', '\\'] ++ active := by
    by_contra hnot
    simp only [List.mem_append, List.mem_cons, List.not_mem_nil, or_false, not_or] at hnot
    exact h (decide_eq_true (by tauto))
  have hall : (['\n', ' ', '\t', '\'', '\\'] ++ active).all (!nameChar ·) := by decide
  have := List.all_eq_true.1 hall c hmem
  rw [hc] at this
  exact absurd this (by decide)

theorem assignment_eq {name : Text} (hname : IsName name) (value : Text) :
    assignment (plainChars name ++ ⟨'=', false⟩ :: quotedChars value) = .assign name value := by
  have hall : ∀ c ∈ plainChars name, inName c = true := by
    intro c hc
    obtain ⟨d, hd, rfl⟩ := List.mem_map.1 hc
    exact List.all_eq_true.1 hname.chars d hd
  have hstop : ¬ inName ⟨'=', false⟩ = true := by decide
  have htake : (plainChars name ++ ⟨'=', false⟩ :: quotedChars value).takeWhile inName =
      plainChars name := by
    rw [List.takeWhile_append_of_pos hall, List.takeWhile_cons_of_neg hstop, List.append_nil]
  have hdrop : (plainChars name ++ ⟨'=', false⟩ :: quotedChars value).dropWhile inName =
      ⟨'=', false⟩ :: quotedChars value := by
    rw [List.dropWhile_append_of_pos hall, List.dropWhile_cons_of_neg hstop]
  have hback : (plainChars name).map WordChar.char = name := by
    unfold plainChars
    rw [List.map_map]
    exact List.map_id name
  have hvalue : (quotedChars value).map WordChar.char = value := by
    unfold quotedChars
    rw [List.map_map]
    exact List.map_id value
  have hne : plainChars name ≠ [] := fun h => hname.ne (List.map_eq_nil_iff.1 h)
  unfold assignment
  simp only [htake, hdrop, hback, hvalue]
  rw [if_pos ⟨trivial, hne, hname.head⟩]

theorem tokens_begin {c : Char} (hc : plain c) (t : Text) :
    tokens .unquoted none (c :: t) = tokens .unquoted (some [⟨c, false⟩]) t := by
  obtain ⟨hn, hs, ht, hq, hb, ha⟩ := of_decide_eq_true hc
  simp [tokens, push, hn, hs, ht, hq, hb, ha]

theorem tokens_assignLine {name : Text} (hname : IsName name) (value rest : Text) :
    tokens .unquoted none (assignLine name value ++ rest) =
      .word (plainChars name ++ ⟨'=', false⟩ :: quotedChars value) :: .newline ::
        tokens .unquoted none rest := by
  obtain ⟨c, name', rfl⟩ := List.exists_cons_of_ne_nil hname.ne
  have hplain : ∀ d ∈ c :: name', plain d := by
    intro d hd
    exact plain_of_nameChar (List.all_eq_true.1 hname.chars d hd)
  have htail : (name' ++ ['=']).all plain := by
    rw [List.all_append, Bool.and_eq_true_iff]
    refine ⟨List.all_eq_true.2 fun d hd => ?_, by decide⟩
    exact hplain d (List.mem_cons_of_mem c hd)
  have hline : assignLine (c :: name') value ++ rest =
      c :: ((name' ++ ['=']) ++
        '\'' :: (value.flatMap escapeQuote ++ '\'' :: '\n' :: rest)) := by
    simp [assignLine]
  rw [hline, tokens_begin (hplain c List.mem_cons_self), tokens_plain _ htail,
    tokens_singleQuoted]
  simp [tokens, flush, plainChars]

theorem source_assignLines (lines : List (Text × Text)) (hnames : ∀ l ∈ lines, IsName l.1) :
    source (lines.flatMap fun l => assignLine l.1 l.2) =
      lines.map fun l => .assign l.1 l.2 := by
  unfold source
  induction lines with
  | nil => rfl
  | cons l lines ih =>
    obtain ⟨hl, hrest⟩ := List.forall_mem_cons.1 hnames
    rw [List.flatMap_cons, tokens_assignLine hl]
    simp only [effects, assignment_eq hl, List.nil_append, List.map_cons]
    rw [ih hrest]
    rfl

end Rtl8189.ShellText
