import Mathlib.Algebra.BigOperators.Group.List.Basic
import Mathlib.Data.List.GetD
import Mathlib.Order.Nat

/-!
# Records written one behind the other

Cells read blank until they are written. A log lays the encodings of its records on the
cells without gaps; a reader that starts at the end of some record meets the records behind
it, and then a blank cell.
-/
namespace Rtl8189.Tape

variable {β P : Type*}

/-- From cell `a` on the cells hold `bs`, and behind that nothing. -/
def Holds (blank : β) (cells : ℕ → β) (a : ℕ) (bs : List β) : Prop :=
  ∀ i, cells (a + i) = bs.getD i blank

section Holds

variable {blank : β} {cells : ℕ → β} {a : ℕ} {b : β} {bs cs : List β}

theorem Holds.head (h : Holds blank cells a (b :: bs)) : cells a = b := by
  simpa using h 0

theorem Holds.end_blank (h : Holds blank cells a []) : cells a = blank := by
  simpa using h 0

theorem Holds.drop (h : Holds blank cells a (bs ++ cs)) :
    Holds blank cells (a + bs.length) cs := by
  intro i
  have hi := h (bs.length + i)
  rw [List.getD_append_right _ _ _ _ (Nat.le_add_right _ _)] at hi
  simpa [Nat.add_assoc] using hi

theorem Holds.tail (h : Holds blank cells a (b :: bs)) : Holds blank cells (a + 1) bs := by
  rw [← List.singleton_append] at h
  exact h.drop

theorem Holds.past_end (h : Holds blank cells a bs) {i : ℕ} (hi : bs.length ≤ i) :
    cells (a + i) = blank := by
  rw [h i]
  exact List.getD_eq_default _ _ hi

/-- The cells from `a` on begin with `bs`, whatever is behind it. -/
def Starts (cells : ℕ → β) (a : ℕ) (bs : List β) : Prop :=
  ∀ i, i < bs.length → bs[i]? = some (cells (a + i))

theorem Starts.head (h : Starts cells a (b :: bs)) : cells a = b := by
  simpa using (h 0 (Nat.succ_pos _)).symm

theorem Starts.tail (h : Starts cells a (b :: bs)) : Starts cells (a + 1) bs := by
  intro i hi
  simpa [Nat.add_assoc, Nat.add_comm 1] using h (i + 1) (Nat.succ_lt_succ hi)

theorem Starts.append (h : Starts cells a bs) (h' : Starts cells (a + bs.length) cs) :
    Starts cells a (bs ++ cs) := by
  intro i hi
  rcases Nat.lt_or_ge i bs.length with hlt | hge
  · rw [List.getElem?_append_left hlt, h i hlt]
  · have hi' : i - bs.length < cs.length := by
      rw [List.length_append] at hi
      omega
    have haddr : a + bs.length + (i - bs.length) = a + i := by omega
    rw [List.getElem?_append_right hge, h' _ hi', haddr]

theorem Holds.starts (h : Holds blank cells a (bs ++ cs)) : Starts cells a bs := by
  intro i hi
  rw [h i, List.getD_append _ _ _ _ hi, List.getD_eq_getElem _ _ hi]
  exact List.getElem?_eq_getElem hi

theorem Holds.write (h : Holds blank cells 0 bs) (b : β) :
    Holds blank (Function.update cells bs.length b) 0 (bs ++ [b]) := by
  intro i
  rw [Nat.zero_add]
  rcases lt_trichotomy i bs.length with hi | rfl | hi
  · rw [Function.update_of_ne hi.ne, List.getD_append _ _ _ _ hi]
    simpa using h i
  · rw [Function.update_self, List.getD_append_right _ _ _ _ le_rfl]
    simp
  · have hblank := h.past_end hi.le
    rw [Function.update_of_ne hi.ne', ← Nat.zero_add i, hblank, List.getD_eq_default]
    simpa using Nat.succ_le_of_lt hi

def writeAll (cells : ℕ → β) : ℕ → List β → ℕ → β
  | _, [] => cells
  | a, b :: bs => writeAll (Function.update cells a b) (a + 1) bs

theorem writeAll_append (cells : ℕ → β) (a : ℕ) (bs cs : List β) :
    writeAll cells a (bs ++ cs) = writeAll (writeAll cells a bs) (a + bs.length) cs := by
  induction bs generalizing cells a with
  | nil => rfl
  | cons b bs ih =>
    simp only [List.cons_append, writeAll, ih, List.length_cons]
    rw [Nat.add_assoc, Nat.add_comm 1]

theorem Holds.writeAll (h : Holds blank cells 0 bs) (cs : List β) :
    Holds blank (writeAll cells bs.length cs) 0 (bs ++ cs) := by
  induction cs generalizing cells bs with
  | nil => rwa [List.append_nil]
  | cons c cs ih =>
    have hc := ih (h.write c)
    rwa [List.length_append, List.append_assoc] at hc

end Holds

section Log

variable (enc : P → List β)

def image (log : List P) : List β := log.flatMap enc

def size (log : List P) : ℕ := (image enc log).length

@[simp] theorem image_nil : image enc ([] : List P) = [] := rfl

@[simp] theorem size_nil : size enc ([] : List P) = 0 := rfl

theorem image_cons (p : P) (log : List P) : image enc (p :: log) = enc p ++ image enc log :=
  List.flatMap_cons

theorem image_append (log post : List P) :
    image enc (log ++ post) = image enc log ++ image enc post := List.flatMap_append

theorem size_append (log post : List P) :
    size enc (log ++ post) = size enc log + size enc post := by
  simp only [size, image_append, List.length_append]

theorem size_cons (p : P) (log : List P) :
    size enc (p :: log) = (enc p).length + size enc log := by
  simp only [size, image_cons, List.length_append]

/-- A place where a record starts, or the end of the log. -/
def Boundary (log : List P) (a : ℕ) : Prop := ∃ pre post, log = pre ++ post ∧ a = size enc pre

variable {enc}

theorem boundary_zero (log : List P) : Boundary enc log 0 := ⟨[], log, rfl, rfl⟩

theorem boundary_end (log : List P) : Boundary enc log (size enc log) :=
  ⟨log, [], (List.append_nil log).symm, rfl⟩

theorem Boundary.append {log : List P} {a : ℕ} (h : Boundary enc log a) (more : List P) :
    Boundary enc (log ++ more) a := by
  obtain ⟨pre, post, rfl, rfl⟩ := h
  exact ⟨pre, post ++ more, List.append_assoc _ _ _, rfl⟩

/-- A scan that moves over one record at a time, and stops at a blank cell, gets from
every boundary to the end. -/
theorem Boundary.scan {blank : β} {cells : ℕ → β} {log : List P} {a : ℕ}
    (h : Boundary enc log a) (hcells : Holds blank cells 0 (image enc log)) (next : ℕ → ℕ)
    (hend : ∀ a, a = size enc log → cells a = blank → next a = a)
    (hrec : ∀ a p post, a + size enc (p :: post) = size enc log →
      Holds blank cells a (image enc (p :: post)) → next a = next (a + (enc p).length)) :
    next a = size enc log := by
  obtain ⟨pre, post, rfl, rfl⟩ := h
  have hpost : Holds blank cells (size enc pre) (image enc post) := by
    rw [image_append] at hcells
    simpa [size] using hcells.drop
  rw [size_append] at hrec hend ⊢
  clear hcells
  generalize size enc pre = a at hpost hrec hend ⊢
  generalize hn : a + size enc post = n at hrec hend ⊢
  induction post generalizing a with
  | nil =>
    rw [size_nil, Nat.add_zero] at hn
    rw [hend a hn hpost.end_blank, hn]
  | cons p post ih =>
    rw [hrec a p post hn hpost]
    rw [image_cons] at hpost
    rw [size_cons, ← Nat.add_assoc] at hn
    exact ih _ hpost.drop hn

end Log

end Rtl8189.Tape
