import Mathlib.Data.List.Induction
import Mathlib.Data.List.Infix

/-!
# Trees of files and directories

A path is the list of names from the root. Every node lies in a directory. The operations
are those of the usual commands, each done as a whole or not at all.
-/
namespace Rtl8189.FileTree

variable {N C : Type*}

inductive Node (C : Type*) where
  | dir
  | file (c : C)
deriving DecidableEq

@[ext]
structure Tree (N C : Type*) where
  node : List N → Option (Node C)
  root : node [] = some .dir
  closed : ∀ p n, node (p ++ [n]) ≠ none → node p = some .dir

def isDirNode : Option (Node C) → Bool
  | some .dir => true
  | _ => false

def isFileNode : Option (Node C) → Bool
  | some (.file _) => true
  | _ => false

@[simp] theorem isDirNode_iff {x : Option (Node C)} : isDirNode x = true ↔ x = some .dir := by
  rcases x with _ | _ | c <;> simp [isDirNode]

theorem isFileNode_iff {x : Option (Node C)} :
    isFileNode x = true ↔ ∃ c, x = some (.file c) := by
  rcases x with _ | _ | c <;> simp [isFileNode]

namespace Tree

def isDir (t : Tree N C) (p : List N) : Bool := isDirNode (t.node p)

def isFile (t : Tree N C) (p : List N) : Bool := isFileNode (t.node p)

theorem not_dir_of_isFile {t : Tree N C} {p : List N} (h : t.isFile p = true) :
    t.node p ≠ some .dir := by
  obtain ⟨c, hc⟩ := isFileNode_iff.mp h
  rw [hc]
  simp

theorem parent_of_isFile {t : Tree N C} {p : List N} (h : t.isFile p = true) :
    t.node p.dropLast = some .dir := by
  obtain ⟨c, hc⟩ := isFileNode_iff.mp h
  rcases List.eq_nil_or_concat p with rfl | ⟨q, n, rfl⟩
  · exact absurd t.root (not_dir_of_isFile h)
  · rw [List.concat_eq_append] at hc
    rw [List.concat_eq_append, List.dropLast_concat]
    exact t.closed q n (by rw [hc]; exact Option.some_ne_none _)

def ofList [DecidableEq N] [DecidableEq C] (l : List (List N × Node C))
    (h : ∀ e ∈ l, e.1 ≠ [] ∧ (e.1.dropLast = [] ∨ l.lookup e.1.dropLast = some .dir)) :
    Tree N C where
  node p := if p = [] then some .dir else l.lookup p
  root := if_pos rfl
  closed := by
    intro p n hp
    rw [if_neg (by simp)] at hp
    obtain ⟨x, hx⟩ := Option.ne_none_iff_exists'.mp hp
    obtain ⟨l₁, l₂, hl, -⟩ := List.lookup_eq_some_iff.mp hx
    obtain ⟨-, hdir⟩ := h (p ++ [n], x) (by rw [hl]; simp)
    simp only [List.dropLast_concat] at hdir
    split_ifs with hnil
    · rfl
    · exact hdir.resolve_left hnil

/-! ## The operations -/

variable [DecidableEq N]

def write (t : Tree N C) (p : List N) (c : C) : Option (Tree N C) :=
  if h : t.isDir p.dropLast = true ∧ t.isDir p = false then
    some
      { node := fun q => if q = p then some (.file c) else t.node q
        root := by
          have hne : [] ≠ p := by
            rintro rfl
            simp [isDir, t.root, isDirNode] at h
          rw [if_neg hne, t.root]
        closed := by
          intro q n hq
          have hne : q ≠ p := by
            rintro rfl
            have hself : q ++ [n] ≠ q := by simp
            rw [if_neg hself] at hq
            simp [isDir, t.closed q n hq, isDirNode] at h
          rw [if_neg hne]
          split_ifs at hq with hp
          · subst hp
            simpa [isDir] using h.1
          · exact t.closed q n hq }
  else none

/-- `rm -f` -/
def remove (t : Tree N C) (p : List N) : Option (Tree N C) :=
  if h : t.isDir p = false then
    some
      { node := fun q => if q = p then none else t.node q
        root := by
          have hne : [] ≠ p := by
            rintro rfl
            simp [isDir, t.root, isDirNode] at h
          rw [if_neg hne, t.root]
        closed := by
          intro q n hq
          split_ifs at hq with hp
          · exact absurd rfl hq
          · have hdir := t.closed q n hq
            have hne : q ≠ p := by
              rintro rfl
              simp [isDir, hdir, isDirNode] at h
            rw [if_neg hne, hdir] }
  else none

/-- `mkdir -p` -/
def mkdirs (t : Tree N C) (p : List N) : Option (Tree N C) :=
  if h : ∀ q ∈ p.inits, t.isFile q = false then
    some
      { node := fun q => if q <+: p ∧ (t.node q).isNone then some .dir else t.node q
        root := by
          have hroot : ¬ (([] : List N) <+: p ∧ (t.node []).isNone) := by simp [t.root]
          rw [if_neg hroot, t.root]
        closed := by
          intro q n hq
          by_cases hp : q ++ [n] <+: p
          · have hpre : q <+: p := (List.prefix_append q [n]).trans hp
            have hfile := h q (List.mem_inits q p |>.mpr hpre)
            rcases hnode : t.node q with _ | _ | c
            · rw [if_pos ⟨hpre, by simp⟩]
            · rw [if_neg (by simp)]
            · simp [isFile, hnode, isFileNode] at hfile
          · rw [if_neg fun hcond => hp hcond.1] at hq
            have hdir := t.closed q n hq
            rw [if_neg (by simp [hdir]), hdir] }
  else none

/-- `cp -f`. A copy to a directory goes into the directory. -/
def copy (t : Tree N C) (src dst : List N) : Option (Tree N C) :=
  match t.node src with
  | some (.file c) =>
    let target := if t.isDir dst then dst ++ src.getLast?.toList else dst
    if target = src then none else t.write target c
  | _ => none

/-! ## What they change -/

variable {t t' : Tree N C} {p q : List N} {c : C}

theorem dir_of_prefix (t : Tree N C) (h : t.node p ≠ none) (hq : q <+: p) (hne : q ≠ p) :
    t.node q = some .dir := by
  obtain ⟨s, rfl⟩ := hq
  induction s using List.reverseRecOn with
  | nil => exact absurd (List.append_nil q).symm hne
  | append_singleton s n ih =>
    rw [← List.append_assoc] at h
    have hdir := t.closed (q ++ s) n h
    by_cases hs : q = q ++ s
    · rwa [← hs] at hdir
    · exact ih (by rw [hdir]; exact Option.some_ne_none _) hs

theorem write_node (h : t.write p c = some t') (q : List N) :
    t'.node q = if q = p then some (.file c) else t.node q := by
  unfold write at h
  split_ifs at h
  obtain rfl := Option.some.inj h
  rfl

theorem write_eq_some (hdir : t.node p.dropLast = some .dir) (hp : t.node p ≠ some .dir) :
    ∃ t', t.write p c = some t' := by
  have h : t.isDir p.dropLast = true ∧ t.isDir p = false := by
    refine ⟨by simpa [isDir] using hdir, ?_⟩
    rw [isDir, ← Bool.not_eq_true, isDirNode_iff]
    exact hp
  exact ⟨_, dif_pos h⟩

theorem not_dir_of_write (h : t.write p c = some t') : t.node p ≠ some .dir := by
  intro hdir
  unfold write at h
  rw [dif_neg (by simp [isDir, hdir, isDirNode])] at h
  cases h

theorem parent_of_write (h : t.write p c = some t') : t.node p.dropLast = some .dir := by
  unfold write at h
  split_ifs at h with hdir
  exact isDirNode_iff.mp hdir.1

theorem write_dir (h : t.write p c = some t') (hq : t.node q = some .dir) :
    t'.node q = some .dir := by
  have hne : q ≠ p := by
    rintro rfl
    exact not_dir_of_write h hq
  rw [write_node h, if_neg hne, hq]

theorem write_isFile (h : t.write p c = some t') (hq : q ≠ p) : t'.isFile q = t.isFile q := by
  rw [isFile, write_node h, if_neg hq]
  rfl

theorem remove_node (h : t.remove p = some t') (q : List N) :
    t'.node q = if q = p then none else t.node q := by
  unfold remove at h
  split_ifs at h
  obtain rfl := Option.some.inj h
  rfl

theorem remove_eq_some (hp : t.node p ≠ some .dir) : ∃ t', t.remove p = some t' := by
  have h : t.isDir p = false := by
    rw [isDir, ← Bool.not_eq_true, isDirNode_iff]
    exact hp
  exact ⟨_, dif_pos h⟩

theorem remove_eq_none (hp : t.node p = some .dir) : t.remove p = none := by
  unfold remove
  rw [dif_neg (by simp [isDir, hp, isDirNode])]

theorem remove_dir (h : t.remove p = some t') (hq : t.node q = some .dir) :
    t'.node q = some .dir := by
  have hne : q ≠ p := by
    rintro rfl
    unfold remove at h
    rw [dif_neg (by simp [isDir, hq, isDirNode])] at h
    cases h
  rw [remove_node h, if_neg hne, hq]

theorem mkdirs_node (h : t.mkdirs p = some t') (q : List N) :
    t'.node q = if q <+: p ∧ (t.node q).isNone then some .dir else t.node q := by
  unfold mkdirs at h
  split_ifs at h
  obtain rfl := Option.some.inj h
  rfl

theorem mkdirs_dir (h : t.mkdirs p = some t') : t'.node p = some .dir := by
  rw [mkdirs_node h]
  unfold mkdirs at h
  split_ifs at h with hfile
  have hp := hfile p ((List.mem_inits p p).mpr (List.prefix_refl p))
  rcases hnode : t.node p with _ | _ | c
  · rw [if_pos ⟨List.prefix_refl p, rfl⟩]
  · rw [if_neg (by simp)]
  · simp [isFile, hnode, isFileNode] at hp

theorem mkdirs_of_some (h : t.mkdirs p = some t') (hq : t.node q ≠ none) :
    t'.node q = t.node q := by
  rw [mkdirs_node h, if_neg]
  rintro ⟨-, hnone⟩
  exact hq (Option.isNone_iff_eq_none.mp hnone)

theorem mkdirs_isFile (h : t.mkdirs p = some t') (hq : t.isFile q = true) :
    t'.isFile q = true := by
  obtain ⟨c, hc⟩ := isFileNode_iff.mp hq
  rw [isFile, mkdirs_of_some h (by rw [hc]; exact Option.some_ne_none _), hc]
  rfl

theorem mkdirs_of_not_prefix (h : t.mkdirs p = some t') (hq : ¬ q <+: p) :
    t'.node q = t.node q := by
  rw [mkdirs_node h, if_neg fun hcond => hq hcond.1]

theorem mkdirs_self (h : t.node p = some .dir) : t.mkdirs p = some t := by
  have hdirs : ∀ q, q <+: p → t.node q = some .dir := by
    intro q hq
    by_cases hne : q = p
    · rw [hne, h]
    · exact t.dir_of_prefix (by rw [h]; exact Option.some_ne_none _) hq hne
  have hall : ∀ q ∈ p.inits, t.isFile q = false := by
    intro q hq
    simp [isFile, hdirs q (List.mem_inits q p |>.mp hq), isFileNode]
  unfold mkdirs
  rw [dif_pos hall, Option.some_inj]
  ext1
  funext q
  simp only
  rw [if_neg]
  rintro ⟨hq, hnone⟩
  simp [hdirs q hq] at hnone

theorem mkdirs_isSome_congr (h : ∀ q, q <+: p → t'.isFile q = t.isFile q) :
    (t'.mkdirs p).isSome = (t.mkdirs p).isSome := by
  have hall : (∀ q ∈ p.inits, t'.isFile q = false) ↔ ∀ q ∈ p.inits, t.isFile q = false :=
    forall₂_congr fun q hq => by rw [h q ((List.mem_inits q p).mp hq)]
  unfold mkdirs
  by_cases hfile : ∀ q ∈ p.inits, t.isFile q = false
  · rw [dif_pos (hall.mpr hfile), dif_pos hfile]
    rfl
  · rw [dif_neg (fun hcond => hfile (hall.mp hcond)), dif_neg hfile]

theorem copy_node (h : t.copy p q = some t') (hq : t.node q ≠ some .dir) (r : List N) :
    t'.node r = if r = q then t.node p else t.node r := by
  have hdir : t.isDir q = false := by
    rw [isDir, ← Bool.not_eq_true, isDirNode_iff]
    exact hq
  unfold copy at h
  split at h
  · next c hp =>
    simp only [hdir, Bool.false_eq_true, if_false] at h
    split_ifs at h
    rw [write_node h, hp]
  · cases h

theorem copy_target (h : t.copy p q = some t') :
    ∃ r c, (r = q ∨ ∃ n, r = q ++ [n]) ∧ t.write r c = some t' := by
  unfold copy at h
  split at h
  · next c hp =>
    simp only at h
    split_ifs at h
    · refine ⟨_, c, ?_, h⟩
      cases p.getLast? with
      | none => exact .inl (List.append_nil q)
      | some n => exact .inr ⟨n, rfl⟩
    · exact ⟨q, c, .inl rfl, h⟩
  · cases h

theorem copy_file (h : t.copy p q = some t') : ∃ c, t.node p = some (.file c) := by
  unfold copy at h
  split at h
  · next c hp => exact ⟨c, hp⟩
  · cases h

theorem copy_eq_some (hp : t.node p = some (.file c)) (hq : t.node q ≠ some .dir)
    (hdir : t.node q.dropLast = some .dir) (hne : q ≠ p) : ∃ t', t.copy p q = some t' := by
  have hnot : t.isDir q = false := by
    rw [isDir, ← Bool.not_eq_true, isDirNode_iff]
    exact hq
  obtain ⟨t', ht'⟩ := write_eq_some (c := c) hdir hq
  refine ⟨t', ?_⟩
  simp only [copy, hp, hnot, Bool.false_eq_true, if_false, if_neg hne, ht']

end Tree

end Rtl8189.FileTree
