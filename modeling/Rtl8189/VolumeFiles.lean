import Mathlib.Data.List.Infix
import Mathlib.Logic.Function.Basic
import Rtl8189.FileTree

/-!
# Files on several volumes

A location is a path on a volume. The commands are those for a whole tree: a copy or a move
of a directory takes with it what is below, and goes into a directory that is there already.
A command is done as a whole or not at all.
-/
namespace Rtl8189.VolumeFiles

open FileTree

variable {V N C : Type*}

structure Loc (V N : Type*) where
  vol : V
  path : List N
deriving DecidableEq

abbrev Disk (V N C : Type*) := Loc V N → Option (Node C)

def Loc.append (a : Loc V N) (p : List N) : Loc V N := ⟨a.vol, a.path ++ p⟩

def Loc.parent (a : Loc V N) : Loc V N := ⟨a.vol, a.path.dropLast⟩

def Below (a b : Loc V N) : Prop := a.vol = b.vol ∧ a.path <+: b.path

instance [DecidableEq V] [DecidableEq N] (a b : Loc V N) : Decidable (Below a b) :=
  inferInstanceAs (Decidable (_ ∧ _))

def Apart (a b : Loc V N) : Prop := ¬ Below a b ∧ ¬ Below b a

instance [DecidableEq V] [DecidableEq N] (a b : Loc V N) : Decidable (Apart a b) :=
  inferInstanceAs (Decidable (_ ∧ _))

/-- The nodes at a time when no command is under way: what has something below it is there. -/
structure Volumes (V N C : Type*) where
  node : Disk V N C
  closed : ∀ l p, node (l.append p) ≠ none → node l ≠ none

section Locations

variable {a b l : Loc V N}

theorem Below.refl (a : Loc V N) : Below a a := ⟨rfl, List.prefix_refl _⟩

theorem Below.trans (h : Below a b) (h' : Below b l) : Below a l :=
  ⟨h.1.trans h'.1, h.2.trans h'.2⟩

theorem below_append (a : Loc V N) (p : List N) : Below a (a.append p) :=
  ⟨rfl, List.prefix_append _ _⟩

theorem Below.exists_append (h : Below a l) : ∃ p, l = a.append p := by
  obtain ⟨va, pa⟩ := a
  obtain ⟨vl, pl⟩ := l
  obtain ⟨hvol, p, hp⟩ := h
  exact ⟨p, by simp only at hvol hp; rw [Loc.append, hvol, hp]⟩

theorem append_append (a : Loc V N) (p q : List N) : (a.append p).append q = a.append (p ++ q) := by
  rw [Loc.append, Loc.append, Loc.append, List.append_assoc]

theorem Apart.symm (h : Apart a b) : Apart b a := ⟨h.2, h.1⟩

theorem Apart.not_below (h : Apart a b) (ha : Below a l) : ¬ Below b l := by
  intro hb
  rcases List.prefix_or_prefix_of_prefix ha.2 hb.2 with hab | hba
  · exact h.1 ⟨ha.1.trans hb.1.symm, hab⟩
  · exact h.2 ⟨hb.1.trans ha.1.symm, hba⟩

theorem Apart.append (h : Apart a b) (p : List N) : Apart a (b.append p) :=
  ⟨fun hab => h.not_below hab (below_append b p), fun hba => h.2 ((below_append b p).trans hba)⟩

theorem apart_append {p q : List N} (hpq : ¬ p <+: q) (hqp : ¬ q <+: p) :
    Apart (a.append p) (a.append q) := by
  constructor
  · exact fun h => hpq ((List.prefix_append_right_inj _).1 h.2)
  · exact fun h => hqp ((List.prefix_append_right_inj _).1 h.2)

end Locations

section OfFiles

variable [DecidableEq V] [DecidableEq N]

def Volumes.ofFiles (es : List (Loc V N × Node C)) : Volumes V N C where
  node l := (es.lookup l).or (if es.any fun e => Below l e.1 then some .dir else none)
  closed := by
    intro l p h hnone
    rw [Option.or_eq_none_iff] at hnone
    split_ifs at hnone with hany
    · exact hnone.2
    · refine hany (List.any_eq_true.2 ?_)
      cases hlook : es.lookup (l.append p) with
      | some n =>
        obtain ⟨es₁, es₂, rfl, -⟩ := List.lookup_eq_some_iff.1 hlook
        exact ⟨(l.append p, n), List.mem_append_right _ List.mem_cons_self,
          decide_eq_true (below_append l p)⟩
      | none =>
        rw [hlook, Option.none_or] at h
        split_ifs at h with hbelow
        · obtain ⟨e, he, hle⟩ := List.any_eq_true.1 hbelow
          exact ⟨e, he, decide_eq_true ((below_append l p).trans (of_decide_eq_true hle))⟩
        · exact absurd rfl h

theorem Volumes.ofFiles_none {es : List (Loc V N × Node C)} {d l : Loc V N}
    (h : ∀ e ∈ es, ¬ Below d e.1) (hl : Below d l) : (Volumes.ofFiles es).node l = none := by
  have hout : ∀ e ∈ es, ¬ Below l e.1 := fun e he hle => h e he (hl.trans hle)
  have hlook : es.lookup l = none := by
    rw [List.lookup_eq_none_iff]
    intro e he
    exact bne_iff_ne.2 fun heq => hout e he (heq ▸ Below.refl l)
  have hany : ¬ (es.any fun e => Below l e.1) = true := by
    intro hany
    obtain ⟨e, he, hle⟩ := List.any_eq_true.1 hany
    exact hout e he (of_decide_eq_true hle)
  change (es.lookup l).or _ = none
  rw [hlook, if_neg hany]
  rfl

end OfFiles

/-! ## The commands -/

def target (src dst : Loc V N) (t : Disk V N C) : Loc V N :=
  if isDirNode (t dst) then dst.append src.path.getLast?.toList else dst

theorem target_below (src dst : Loc V N) (t : Disk V N C) : Below dst (target src dst t) := by
  unfold target
  split_ifs
  · exact below_append _ _
  · exact Below.refl _

theorem target_of_none {src dst : Loc V N} {t : Disk V N C} (h : t dst = none) :
    target src dst t = dst := by
  unfold target
  rw [h]
  rfl

variable [DecidableEq V] [DecidableEq N]

/-- `mkdir -p` -/
def mkdirs (d : Loc V N) (t : Disk V N C) : Option (Disk V N C) :=
  if d.path.inits.any fun p => isFileNode (t ⟨d.vol, p⟩) then none
  else some fun l => if Below l d ∧ (t l).isNone then some .dir else t l

/-- A node is put at the location; a file does not take the place of a directory. -/
def put (l : Loc V N) (n : Node C) (t : Disk V N C) : Option (Disk V N C) :=
  if isDirNode (t l.parent) ∧ ¬ (isFileNode (some n) ∧ isDirNode (t l)) then
    some (Function.update t l (some n))
  else none

def copyTo (src dst : Loc V N) (t : Disk V N C) : Disk V N C := fun l =>
  if Below dst l then (t (src.append (l.path.drop dst.path.length))).or (t l) else t l

/-- `cp -a`. Files and directories do not replace each other. -/
def copy (src dst : Loc V N) (t : Disk V N C) : Option (Disk V N C) :=
  let dst := target src dst t
  if (t src).isNone ∨ Below src dst ∨ ¬ isDirNode (t dst.parent) ∨
      (t dst).isSome ∧ isDirNode (t dst) ≠ isDirNode (t src) then none
  else some (copyTo src dst t)

/-- `mv`. A directory does not replace anything. -/
def move (src dst : Loc V N) (t : Disk V N C) : Option (Disk V N C) :=
  let dst := target src dst t
  if (t src).isNone ∨ Below src dst ∨ ¬ isDirNode (t dst.parent) ∨
      (t dst).isSome ∧ (isDirNode (t dst) ∨ isDirNode (t src)) then none
  else some fun l => if Below src l then none else copyTo src dst t l

/-! ## What they change -/

variable {t t' : Disk V N C} {src dst d l : Loc V N}

theorem mkdirs_eq (h : mkdirs d t = some t') (l : Loc V N) :
    t' l = if Below l d ∧ (t l).isNone then some .dir else t l := by
  unfold mkdirs at h
  split_ifs at h
  rw [← Option.some.inj h]

theorem mkdirs_of_some (h : mkdirs d t = some t') (hl : t l ≠ none) : t' l = t l := by
  rw [mkdirs_eq h, if_neg]
  intro hcond
  exact hl (Option.isNone_iff_eq_none.1 hcond.2)

theorem mkdirs_of_not_below (h : mkdirs d t = some t') (hl : ¬ Below l d) : t' l = t l := by
  rw [mkdirs_eq h, if_neg fun hcond => hl hcond.1]

theorem put_eq {n : Node C} {p : Loc V N} (h : put p n t = some t') :
    t' = Function.update t p (some n) := by
  unfold put at h
  split_ifs at h
  exact (Option.some.inj h).symm

theorem copyTo_outside (h : ¬ Below dst l) : copyTo src dst t l = t l := if_neg h

theorem copyTo_append (src dst : Loc V N) (t : Disk V N C) (p : List N) :
    copyTo src dst t (dst.append p) = (t (src.append p)).or (t (dst.append p)) := by
  unfold copyTo
  rw [if_pos (below_append dst p)]
  congr 3
  exact List.drop_left

theorem copy_eq (h : copy src dst t = some t') : t' = copyTo src (target src dst t) t := by
  unfold copy at h
  simp only at h
  split_ifs at h
  exact (Option.some.inj h).symm

theorem copy_outside (h : copy src dst t = some t') (hl : ¬ Below dst l) : t' l = t l := by
  rw [copy_eq h]
  exact copyTo_outside fun hbelow => hl ((target_below src dst t).trans hbelow)

theorem copy_file {c : C} {p : List N} (h : copy src dst t = some t') (hdst : t dst = none)
    (hsrc : t (src.append p) = some (.file c)) : t' (dst.append p) = some (.file c) := by
  rw [copy_eq h, target_of_none hdst, copyTo_append, hsrc]
  rfl

theorem move_eq (h : move src dst t = some t') (l : Loc V N) :
    t' l = if Below src l then none else copyTo src (target src dst t) t l := by
  unfold move at h
  simp only at h
  split_ifs at h
  rw [← Option.some.inj h]

theorem move_outside (h : move src dst t = some t') (hsrc : ¬ Below src l)
    (hdst : ¬ Below dst l) : t' l = t l := by
  rw [move_eq h, if_neg hsrc]
  exact copyTo_outside fun hbelow => hdst ((target_below src dst t).trans hbelow)

theorem move_file {c : C} {p : List N} (h : move src dst t = some t') (hdst : t dst = none)
    (hapart : Apart src dst) (hsrc : t (src.append p) = some (.file c)) :
    t' (dst.append p) = some (.file c) := by
  rw [move_eq h, if_neg (hapart.symm.not_below (below_append dst p)), target_of_none hdst,
    copyTo_append, hsrc]
  rfl

end Rtl8189.VolumeFiles
