import Rtl8189.HdmiTestBoot
import Rtl8189.VolumeFiles

/-!
# The installer on an offline disk

The script puts a test kernel on the mounted BOOT and ROOTFS partitions of a disk. It copies
the boot files it knows by name into a backup directory, moves the modules of the release
there, and then lets a tarball and the tools of the system write. It stops at the first step
that fails. Paths are in normal form, a release is one name, and there are no links.
-/
namespace Rtl8189.HdmiOsDisk

open FileTree StepList VolumeFiles

open HdmiTestBoot (Path pathNames dropSlash)

inductive Vol where
  | boot
  | root
  | elsewhere
deriving DecidableEq

abbrev Content := List String

abbrev Loc := VolumeFiles.Loc Vol String

abbrev Disk := VolumeFiles.Disk Vol String Content

abbrev Volumes := VolumeFiles.Volumes Vol String Content

structure Member where
  path : Path
  node : Node Content

structure Args where
  modulesTar : List Member
  kernelPath : Option Loc := none
  dtbPath : Option Loc := none
  dtbRelpath : Path := []
  kernelRelease : Option String := none
  backupRoot : Option Loc := none

/-- What a run finds outside the files, and what the tools of the system write. -/
structure Env where
  root : Bool := true
  tools : Bool := true
  /-- `date -u +%Y%m%dT%H%M%SZ` -/
  date : String
  /-- BOOT is mounted in ROOTFS, as `boot`. -/
  bootInRoot : Bool := false
  depmod : List (Path × Content) := []
  initrd : Content := []
  uInitrd : Content := []

def bootLoc (p : Path) : Loc := ⟨.boot, p⟩

def Env.rootLoc (env : Env) : Path → Loc
  | "boot" :: p => if env.bootInRoot then ⟨.boot, p⟩ else ⟨.root, "boot" :: p⟩
  | p => ⟨.root, p⟩

/-! ## Arguments -/

def uenvFdtRelpath (t : Disk) : Path :=
  match t (bootLoc ["uEnv.txt"]) with
  | some (.file lines) =>
    let fdt := (lines.map String.toList).filterMap fun l =>
      if "FDT=".toList.isPrefixOf l then some (l.drop 4) else none
    pathNames (dropSlash (fdt.getLast?.getD []))
  | _ => []

def modulesTarRelease (tar : List Member) : Option String :=
  tar.findSome? fun m =>
    match m.path with
    | "lib" :: "modules" :: release :: rest =>
      if rest ≠ [] ∨ isDirNode (some m.node) then some release else none
    | _ => none

def arguments (env : Env) (args : Args) (t : Disk) : Except String (String × Path) :=
  if env.root = false then .error "run as root"
  else if args.kernelPath.any fun k => !isFileNode (t k) then .error "kernel not found"
  else if args.dtbPath.any fun d => !isFileNode (t d) then .error "dtb not found"
  else if !isFileNode (t (env.rootLoc ["usr", "sbin", "update-initramfs"])) then
    .error "update-initramfs missing in rootfs"
  else if env.tools = false then .error "chroot and mkimage are required"
  else
    match args.kernelRelease.orElse fun _ => modulesTarRelease args.modulesTar with
    | none => .error "could not derive kernel release from modules tarball"
    | some release =>
      let relpath := if args.dtbRelpath = [] ∧ args.dtbPath.isSome then uenvFdtRelpath t
        else args.dtbRelpath
      if args.dtbPath.isSome ∧ relpath = [] then
        .error "could not derive DTB path; pass --dtb-relpath"
      else .ok (release, relpath)

/-! ## Steps -/

abbrev Step := Disk → Except String Disk

def command (name : String) (f : Disk → Option Disk) : Step := fun t =>
  match f t with
  | some t => .ok t
  | none => .error name

def mkdirP (d : Loc) : Step := command "mkdir" (mkdirs d)

def cpA (src dst : Loc) : Step := command "cp" (copy src dst)

def mv (src dst : Loc) : Step := command "mv" (move src dst)

def writeFile (l : Loc) (c : Content) : Step := command "write" (put l (.file c))

def chownR (d : Loc) : Step := command "chown" fun t => if (t d).isSome then some t else none

def whenExists (l : Loc) (f : Step) : Step := fun t => if (t l).isSome then f t else .ok t

def forArg (a : Option Loc) (f : Loc → Step) : Step := fun t =>
  match a with
  | some a => f a t
  | none => .ok t

section Script

variable (env : Env) (args : Args) (release : String) (relpath : Path)

def backupDir : Loc :=
  (args.backupRoot.getD (env.rootLoc ["root", "s905l3-hdmi-os-disk-backups"])).append
    [env.date ++ "-" ++ release]

def modulesDir : Loc := env.rootLoc ["lib", "modules", release]

def initrdName : String := "initrd.img-" ++ release

def bootFiles : List Path := [["zImage"], ["uInitrd"], ["uEnv.txt"], [initrdName release]]

def backedUp : List Path := bootFiles release ++ if relpath = [] then [] else [relpath]

def backupPlace (f : Path) : Loc := (backupDir env args release).append ("boot" :: f)

def backupFile (f : Path) : Step :=
  whenExists (bootLoc f) (cpA (bootLoc f) (backupPlace env args release f))

def backupDtbDir : Step :=
  whenExists (bootLoc relpath) (mkdirP (backupPlace env args release relpath.dropLast))

def backupSteps : List Step :=
  mkdirP (backupPlace env args release []) ::
    ((bootFiles release).map (backupFile env args release) ++
      if relpath = [] then []
      else [backupDtbDir env args release relpath, backupFile env args release relpath])

def moveModules : Step :=
  whenExists (modulesDir env release) (mv (modulesDir env release)
    ((backupDir env args release).append ["modules-" ++ release]))

def extract (m : Member) : List Step :=
  [mkdirP (env.rootLoc m.path).parent, command "tar" (put (env.rootLoc m.path) m.node)]

def bindTargets : List Loc := [["dev"], ["proc"], ["sys"], ["run"], ["boot"]].map env.rootLoc

def writeSteps : List Step :=
  args.modulesTar.flatMap (extract env) ++
    [chownR (modulesDir env release),
      forArg args.kernelPath fun k => cpA k (bootLoc ["zImage"]),
      forArg args.dtbPath fun _ => mkdirP (bootLoc relpath.dropLast),
      forArg args.dtbPath fun d => cpA d (bootLoc relpath)] ++
    (bindTargets env).map mkdirP ++
    env.depmod.map (fun f => writeFile ((modulesDir env release).append f.1) f.2) ++
    [writeFile (bootLoc [initrdName release]) env.initrd,
      writeFile (bootLoc ["uInitrd"]) env.uInitrd]

def installSteps : List Step :=
  backupSteps env args release relpath ++ [moveModules env args release] ++
    writeSteps env args release relpath

end Script

/-- A run that something stops after so many steps, unless it fails before. -/
def installUpTo (n : ℕ) (env : Env) (args : Args) (t : Disk) : Option String × Disk :=
  match arguments env args t with
  | .error e => (some e, t)
  | .ok (release, relpath) => exec ((installSteps env args release relpath).take n) t

/-! ## What is asked -/

section Asked

variable (env : Env) (args : Args) (release : String)

def place (l : Loc) : Option Loc :=
  if l.vol = .boot then some (backupPlace env args release l.path)
  else if Below (modulesDir env release) l then
    some ((backupDir env args release).append
      (("modules-" ++ release) :: l.path.drop (modulesDir env release).path.length))
  else none

/-- Every file of the partitions is as it was or in the backup as it was, and the backup
directories of earlier runs are as they were. -/
structure Kept (earlier : List Loc) (old t : Disk) : Prop where
  files : ∀ l c, l.vol ≠ .elsewhere → old l = some (.file c) →
    t l = some (.file c) ∨ ∃ x ∈ place env args release l, t x = some (.file c)
  earlier : ∀ e ∈ earlier, ∀ l, Below e l → t l = old l

def replaced (relpath : Path) : List Loc :=
  modulesDir env release :: (backedUp release relpath).map bootLoc

/-- The backup directory is new and apart from what is replaced, and the tarball has no file
beside it in place of one that is there. -/
structure Safe (relpath : Path) (earlier : List Loc) (old : Disk) : Prop where
  fresh : ∀ l, Below (backupDir env args release) l → old l = none
  apart : ∀ r ∈ replaced env release relpath, Apart r (backupDir env args release)
  files : (backedUp release relpath).Pairwise fun f g => ¬ f <+: g ∧ ¬ g <+: f
  members : ∀ m ∈ args.modulesTar,
    (∃ r ∈ replaced env release relpath, Below r (env.rootLoc m.path)) ∨
      (∀ c, old (env.rootLoc m.path) = some (.file c) → m.node = .file c) ∧
        ¬ Below (backupDir env args release) (env.rootLoc m.path) ∧
        ∀ e ∈ earlier, ¬ Below e (env.rootLoc m.path)
  earlier : ∀ e ∈ earlier, Apart e (backupDir env args release) ∧
    (∀ r ∈ replaced env release relpath, Apart e r) ∧ ∀ b ∈ bindTargets env, ¬ Below e b

end Asked

/-! ## Single steps -/

def Leaves (f : Step) (l : Loc) : Prop := ∀ t t', f t = .ok t' → t' l = t l

def Keeps (f : Step) (l : Loc) (n : Node Content) : Prop :=
  ∀ t t', f t = .ok t' → t l = some n → t' l = some n

section Steps

variable {f : Step} {l d src dst : Loc} {n : Node Content} {t t' : Disk}

theorem command_ok {name : String} {g : Disk → Option Disk} (h : command name g t = .ok t') :
    g t = some t' := by
  unfold command at h
  cases hg : g t with
  | none =>
    rw [hg] at h
    cases h
  | some t₁ =>
    rw [hg] at h
    cases h
    rfl

theorem Leaves.keeps (h : Leaves f l) : Keeps f l n := fun t t' ht hl => (h t t' ht).trans hl

theorem whenExists_leaves (h : Leaves f l) : Leaves (whenExists d f) l := by
  intro t t' ht
  unfold whenExists at ht
  split_ifs at ht
  · exact h t t' ht
  · cases ht
    rfl

theorem whenExists_keeps (h : Keeps f l n) : Keeps (whenExists d f) l n := by
  intro t t' ht hl
  unfold whenExists at ht
  split_ifs at ht
  · exact h t t' ht hl
  · cases ht
    exact hl

theorem forArg_leaves {a : Option Loc} {g : Loc → Step} (h : ∀ d ∈ a, Leaves (g d) l) :
    Leaves (forArg a g) l := by
  cases a with
  | none =>
    intro t t' ht
    cases ht
    rfl
  | some d => exact h d rfl

theorem forArg_keeps {a : Option Loc} {g : Loc → Step} (h : ∀ d ∈ a, Keeps (g d) l n) :
    Keeps (forArg a g) l n := by
  cases a with
  | none =>
    intro t t' ht hl
    cases ht
    exact hl
  | some d => exact h d rfl

theorem mkdirP_leaves (h : ¬ Below l d) : Leaves (mkdirP d) l :=
  fun _ _ ht => mkdirs_of_not_below (command_ok ht) h

theorem mkdirP_keeps : Keeps (mkdirP d) l n := by
  intro t t' ht hl
  rw [mkdirs_of_some (command_ok ht) (by rw [hl]; exact Option.some_ne_none _), hl]

theorem cpA_leaves (h : ¬ Below dst l) : Leaves (cpA src dst) l :=
  fun _ _ ht => copy_outside (command_ok ht) h

theorem mv_leaves (hsrc : ¬ Below src l) (hdst : ¬ Below dst l) : Leaves (mv src dst) l :=
  fun _ _ ht => move_outside (command_ok ht) hsrc hdst

theorem chownR_leaves : Leaves (chownR d) l := by
  intro t t' ht
  have hsome := command_ok ht
  split_ifs at hsome
  rw [Option.some.inj hsome]

theorem writeFile_leaves {c : Content} (h : l ≠ d) : Leaves (writeFile d c) l := by
  intro t t' ht
  rw [put_eq (command_ok ht), Function.update_of_ne h]

theorem below_of_parent {e : Loc} (h : Below e d.parent) : Below e d :=
  ⟨h.1, h.2.trans (List.dropLast_prefix _)⟩

theorem extract_leaves {env : Env} {m : Member} (h : ¬ Below l (env.rootLoc m.path))
    (hf : f ∈ extract env m) : Leaves f l := by
  rcases List.mem_cons.1 hf with rfl | hf
  · exact mkdirP_leaves fun hparent => h (below_of_parent hparent)
  · rw [List.mem_singleton.1 hf]
    intro t t' ht
    have hne : l ≠ env.rootLoc m.path := fun heq => h (heq ▸ Below.refl l)
    rw [put_eq (command_ok ht), Function.update_of_ne hne]

theorem extract_keeps {env : Env} {m : Member} (h : l = env.rootLoc m.path → m.node = n)
    (hf : f ∈ extract env m) : Keeps f l n := by
  rcases List.mem_cons.1 hf with rfl | hf
  · exact mkdirP_keeps
  · rw [List.mem_singleton.1 hf]
    intro t t' ht hl
    rw [put_eq (command_ok ht)]
    by_cases heq : l = env.rootLoc m.path
    · rw [heq, Function.update_self, h heq]
    · rw [Function.update_of_ne heq, hl]

end Steps

/-! ## The three parts -/

section Parts

variable {env : Env} {args : Args} {release : String} {relpath : Path} {earlier : List Loc}
  {old : Volumes} {l e : Loc} {f : Step} {n : Node Content}

theorem mem_backupSteps (hf : f ∈ backupSteps env args release relpath) :
    f = mkdirP (backupPlace env args release []) ∨
      (∃ g ∈ backedUp release relpath, f = backupFile env args release g) ∨
      relpath ≠ [] ∧ f = backupDtbDir env args release relpath := by
  unfold backupSteps at hf
  unfold backedUp
  rcases List.mem_cons.1 hf with rfl | hf
  · exact Or.inl rfl
  · rcases List.mem_append.1 hf with hf | hf
    · obtain ⟨g, hg, rfl⟩ := List.mem_map.1 hf
      exact Or.inr (Or.inl ⟨g, List.mem_append_left _ hg, rfl⟩)
    · split_ifs at hf with hrel
      · exact absurd hf List.not_mem_nil
      · rcases List.mem_cons.1 hf with rfl | hf
        · exact Or.inr (Or.inr ⟨hrel, rfl⟩)
        · rw [List.mem_singleton.1 hf, if_neg hrel]
          exact Or.inr (Or.inl ⟨relpath, List.mem_append_right _ (List.mem_singleton_self _), rfl⟩)

theorem below_backupPlace (p : Path) :
    Below (backupDir env args release) (backupPlace env args release p) := below_append _ _

theorem backupStep_keeps (hf : f ∈ backupSteps env args release relpath)
    (hl : ¬ Below (backupDir env args release) l) : Keeps f l n := by
  rcases mem_backupSteps hf with rfl | ⟨g, -, rfl⟩ | ⟨-, rfl⟩
  · exact mkdirP_keeps
  · exact whenExists_keeps (cpA_leaves fun h => hl ((below_backupPlace g).trans h)).keeps
  · exact whenExists_keeps mkdirP_keeps

theorem backupStep_leaves (hf : f ∈ backupSteps env args release relpath)
    (he : Apart e (backupDir env args release)) (hl : Below e l) : Leaves f l := by
  have hmkdir : ∀ p, Leaves (mkdirP (backupPlace env args release p)) l := fun p =>
    mkdirP_leaves fun h => he.symm.not_below (below_backupPlace p) (hl.trans h)
  rcases mem_backupSteps hf with rfl | ⟨g, -, rfl⟩ | ⟨-, rfl⟩
  · exact hmkdir _
  · exact whenExists_leaves
      (cpA_leaves fun h => he.not_below hl ((below_backupPlace g).trans h))
  · exact whenExists_leaves (hmkdir _)

/-! The backup of one file among the others -/

theorem backupPlace_append (g q : Path) : backupPlace env args release (g ++ q) =
    (backupPlace env args release g).append q := by
  rw [backupPlace, backupPlace, append_append]
  rfl

theorem backupPlace_not_below {g p : Path} (h : ¬ g <+: p) :
    ¬ Below (backupPlace env args release g) (backupPlace env args release p) := by
  intro hbelow
  have hcons := (List.prefix_append_right_inj _).1 hbelow.2
  exact h (List.prefix_cons_inj _ |>.1 hcons)

theorem backedUp_ne {g : Path} (hg : g ∈ backedUp release relpath) : g ≠ [] := by
  unfold backedUp bootFiles at hg
  rcases List.mem_append.1 hg with hg | hg
  · rintro rfl
    simp at hg
  · split_ifs at hg with hrel
    · exact absurd hg List.not_mem_nil
    · rw [List.mem_singleton.1 hg]
      exact hrel

def Passes (env : Env) (args : Args) (release : String) (g : Path) (f : Step) : Prop :=
  Leaves f (backupPlace env args release g) ∧
    ∀ q n, Keeps f (backupPlace env args release (g ++ q)) n

theorem mkdirP_passes {g p : Path} (h : ¬ g <+: p) :
    Passes env args release g (mkdirP (backupPlace env args release p)) :=
  ⟨mkdirP_leaves (backupPlace_not_below h), fun _ _ => mkdirP_keeps⟩

theorem backupFile_passes {g g' : Path} (h : ¬ g' <+: g ∧ ¬ g <+: g') :
    Passes env args release g (backupFile env args release g') := by
  refine ⟨whenExists_leaves (cpA_leaves (backupPlace_not_below h.1)), fun q n => ?_⟩
  refine whenExists_keeps (cpA_leaves (backupPlace_not_below fun hpre => ?_)).keeps
  rcases List.prefix_or_prefix_of_prefix hpre (List.prefix_append g q) with hp | hp
  · exact h.1 hp
  · exact h.2 hp

theorem backupDtbDir_passes {g : Path} (hrel : relpath ≠ [])
    (h : g = relpath ∨ ¬ g <+: relpath) :
    Passes env args release g (backupDtbDir env args release relpath) := by
  have hnot : ¬ g <+: relpath.dropLast := by
    intro hpre
    rcases h with rfl | h
    · have hlen := hpre.length_le
      rw [List.length_dropLast] at hlen
      have hpos := List.length_pos_iff.2 hrel
      omega
    · exact h (hpre.trans (List.dropLast_prefix _))
  obtain ⟨hleaves, hkeeps⟩ := @mkdirP_passes env args release g _ hnot
  exact ⟨whenExists_leaves hleaves, fun q n => whenExists_keeps (hkeeps q n)⟩

theorem backupSteps_split {g : Path} (hg : g ∈ backedUp release relpath)
    (hfiles : (backedUp release relpath).Pairwise fun f g => ¬ f <+: g ∧ ¬ g <+: f) :
    ∃ pre post, backupSteps env args release relpath =
        pre ++ backupFile env args release g :: post ∧
      ∀ f ∈ pre ++ post, Passes env args release g f := by
  have hboot : Passes env args release g (mkdirP (backupPlace env args release [])) :=
    mkdirP_passes fun hpre => backedUp_ne hg (List.prefix_nil.1 hpre)
  unfold backedUp at hg hfiles
  obtain ⟨hfour, -, hcross⟩ := List.pairwise_append.1 hfiles
  rcases List.mem_append.1 hg with hg' | hg'
  · obtain ⟨a, b, hab⟩ := List.append_of_mem hg'
    rw [hab] at hfour
    obtain ⟨-, hb, ha⟩ := List.pairwise_append.1 hfour
    have hother : ∀ g' ∈ a ++ b, Passes env args release g (backupFile env args release g') := by
      intro g' hmem
      apply backupFile_passes
      rcases List.mem_append.1 hmem with hmem | hmem
      · exact ha g' hmem g List.mem_cons_self
      · exact (List.rel_of_pairwise_cons hb hmem).symm
    have htail : ∀ f ∈ if relpath = [] then []
        else [backupDtbDir env args release relpath, backupFile env args release relpath],
        Passes env args release g f := by
      intro f hf
      split_ifs at hf hcross with hrel
      · exact absurd hf List.not_mem_nil
      · have hapart := hcross g hg' relpath (List.mem_singleton_self _)
        rcases List.mem_cons.1 hf with rfl | hf
        · exact backupDtbDir_passes hrel (Or.inr hapart.1)
        · rw [List.mem_singleton.1 hf]
          exact backupFile_passes hapart.symm
    refine ⟨mkdirP (backupPlace env args release []) :: a.map (backupFile env args release),
      b.map (backupFile env args release) ++ if relpath = [] then []
        else [backupDtbDir env args release relpath, backupFile env args release relpath],
      by simp [backupSteps, hab], fun f hf => ?_⟩
    rcases List.mem_append.1 hf with hf | hf
    · rcases List.mem_cons.1 hf with rfl | hf
      · exact hboot
      · obtain ⟨g', hmem, rfl⟩ := List.mem_map.1 hf
        exact hother g' (List.mem_append_left _ hmem)
    · rcases List.mem_append.1 hf with hf | hf
      · obtain ⟨g', hmem, rfl⟩ := List.mem_map.1 hf
        exact hother g' (List.mem_append_right _ hmem)
      · exact htail f hf
  · split_ifs at hg' hcross with hrel
    · exact absurd hg' List.not_mem_nil
    · obtain rfl := List.mem_singleton.1 hg'
      refine ⟨mkdirP (backupPlace env args release []) ::
          ((bootFiles release).map (backupFile env args release) ++
            [backupDtbDir env args release g]), [], by simp [backupSteps, hrel], fun f hf => ?_⟩
      rw [List.append_nil] at hf
      rcases List.mem_cons.1 hf with rfl | hf
      · exact hboot
      · rcases List.mem_append.1 hf with hf | hf
        · obtain ⟨g', hmem, rfl⟩ := List.mem_map.1 hf
          exact backupFile_passes (hcross g' hmem g (List.mem_singleton_self _))
        · rw [List.mem_singleton.1 hf]
          exact backupDtbDir_passes hrel (Or.inl rfl)

theorem Safe.copied (hs : Safe env args release relpath earlier old.node) {g q : Path}
    (hg : g ∈ backedUp release relpath) {c : Content} {t : Disk}
    (hc : old.node (bootLoc (g ++ q)) = some (.file c))
    (hrun : exec (backupSteps env args release relpath) old.node = (none, t)) :
    t (backupPlace env args release (g ++ q)) = some (.file c) := by
  obtain ⟨pre, post, hsplit, hpass⟩ :=
    @backupSteps_split env args release relpath g hg hs.files
  have hapart := hs.apart (bootLoc g) (List.mem_cons_of_mem _ (List.mem_map_of_mem hg))
  have hkeeps : ∀ f ∈ pre, ∀ p n, Keeps f (bootLoc (g ++ p)) n := by
    intro f hf p n
    have hmem : f ∈ backupSteps env args release relpath := by
      rw [hsplit]
      exact List.mem_append_left _ hf
    exact backupStep_keeps hmem (hapart.not_below (below_append (bootLoc g) p))
  have hthere : old.node (bootLoc g) ≠ none :=
    old.closed (bootLoc g) q (ne_of_eq_of_ne hc (Option.some_ne_none _))
  obtain ⟨n, hn⟩ := Option.ne_none_iff_exists'.1 hthere
  rw [hsplit] at hrun
  refine exec_reaches
    (P := fun t => t (bootLoc g) = some n ∧ t (bootLoc (g ++ q)) = some (.file c) ∧
      t (backupPlace env args release g) = none)
    (Q := fun t => t (backupPlace env args release (g ++ q)) = some (.file c))
    ?_ ?_ ?_ hrun ⟨hn, hc, hs.fresh _ (below_backupPlace g)⟩
  · rintro f hf t t' ⟨hsrc, hfile, hfree⟩ ht
    have hsrc' := hkeeps f hf [] n t t' ht
    rw [List.append_nil] at hsrc'
    refine ⟨hsrc' hsrc, hkeeps f hf q _ t t' ht hfile, ?_⟩
    rw [(hpass f (List.mem_append_left _ hf)).1 t t' ht, hfree]
  · rintro t t' ⟨hsrc, hfile, hfree⟩ ht
    unfold backupFile whenExists at ht
    rw [if_pos (by rw [hsrc]; rfl)] at ht
    rw [backupPlace_append]
    exact copy_file (command_ok ht) hfree hfile
  · intro f hf t t' hq ht
    exact (hpass f (List.mem_append_right _ hf)).2 q _ t t' ht hq

/-! The modules -/

def movedPlace (env : Env) (args : Args) (release : String) : Loc :=
  (backupDir env args release).append ["modules-" ++ release]

theorem modulesName_ne (release : String) : "modules-" ++ release ≠ "boot" := by
  intro h
  have hlen := congrArg String.length h
  rw [String.length_append] at hlen
  have hmod : "modules-".length = 8 := rfl
  have hboot : "boot".length = 4 := rfl
  omega

theorem place_apart_moved (p : Path) :
    Apart (backupPlace env args release p) (movedPlace env args release) := by
  apply apart_append
  · intro h
    exact modulesName_ne release (List.cons_prefix_cons.1 h).1.symm
  · intro h
    exact modulesName_ne release (List.cons_prefix_cons.1 h).1

theorem backupStep_leaves_moved (hf : f ∈ backupSteps env args release relpath) :
    Leaves f (movedPlace env args release) := by
  rcases mem_backupSteps hf with rfl | ⟨g, -, rfl⟩ | ⟨-, rfl⟩
  · exact mkdirP_leaves (place_apart_moved _).2
  · exact whenExists_leaves (cpA_leaves (place_apart_moved g).1)
  · exact whenExists_leaves (mkdirP_leaves (place_apart_moved _).2)

theorem moveModules_leaves (hmod : ¬ Below (modulesDir env release) l)
    (hmoved : ¬ Below (movedPlace env args release) l) :
    Leaves (moveModules env args release) l := whenExists_leaves (mv_leaves hmod hmoved)

theorem Safe.modules_apart (hs : Safe env args release relpath earlier old.node) :
    Apart (modulesDir env release) (backupDir env args release) :=
  hs.apart _ List.mem_cons_self

theorem Safe.moved (hs : Safe env args release relpath earlier old.node) {q : Path} {c : Content}
    {t t' : Disk} (hc : old.node ((modulesDir env release).append q) = some (.file c))
    (hrun : exec (backupSteps env args release relpath) old.node = (none, t))
    (ht : moveModules env args release t = .ok t') :
    t' ((movedPlace env args release).append q) = some (.file c) := by
  have hkept : ∀ p n, old.node ((modulesDir env release).append p) = some n →
      t ((modulesDir env release).append p) = some n := by
    intro p n hn
    have hall := exec_keeps (I := fun t => t ((modulesDir env release).append p) = some n)
      (backupSteps env args release relpath)
      (fun f hf s s' hs' hok => backupStep_keeps hf
        (hs.modules_apart.not_below (below_append _ p)) s s' hok hs') hn
    rwa [hrun] at hall
  have hfree : t (movedPlace env args release) = none := by
    have hall := exec_keeps (I := fun t => t (movedPlace env args release) = none)
      (backupSteps env args release relpath)
      (fun f hf s s' hs' hok => (backupStep_leaves_moved hf s s' hok).trans hs')
      (hs.fresh _ (below_append _ _))
    rwa [hrun] at hall
  have hthere := old.closed _ q (ne_of_eq_of_ne hc (Option.some_ne_none _))
  obtain ⟨n, hn⟩ := Option.ne_none_iff_exists'.1 hthere
  have hdir := hkept [] n (by rw [Loc.append, List.append_nil]; exact hn)
  rw [Loc.append, List.append_nil] at hdir
  unfold moveModules whenExists at ht
  rw [if_pos (by rw [hdir]; rfl)] at ht
  exact move_file (command_ok ht) hfree (hs.modules_apart.append _) (hkept q _ hc)

theorem Safe.saved (hs : Safe env args release relpath earlier old.node) {c : Content}
    {t t' : Disk} (hl : ∃ r ∈ replaced env release relpath, Below r l)
    (hc : old.node l = some (.file c))
    (hrun : exec (backupSteps env args release relpath) old.node = (none, t))
    (ht : moveModules env args release t = .ok t') :
    ∃ x ∈ place env args release l, Below (backupDir env args release) x ∧
      t' x = some (.file c) := by
  obtain ⟨r, hr, hbelow⟩ := hl
  obtain ⟨q, rfl⟩ := hbelow.exists_append
  rcases List.mem_cons.1 hr with rfl | hr
  · refine ⟨(movedPlace env args release).append q, ?_, ?_, hs.moved hc hrun ht⟩
    · have hvol : ((modulesDir env release).append q).vol ≠ .boot := by
        intro h
        cases h
      unfold place
      have hdrop : ((modulesDir env release).append q).path.drop
          (modulesDir env release).path.length = q := List.drop_left
      rw [if_neg hvol, if_pos (below_append _ q), hdrop]
      have hmoved : (movedPlace env args release).append q =
          (backupDir env args release).append (["modules-" ++ release] ++ q) :=
        append_append _ _ _
      rw [hmoved]
      rfl
    · exact (below_append _ _).trans (below_append _ q)
  · obtain ⟨g, hg, rfl⟩ := List.mem_map.1 hr
    have hplace := @below_backupPlace env args release (g ++ q)
    refine ⟨backupPlace env args release (g ++ q), rfl, hplace, ?_⟩
    have hleaves := moveModules_leaves (hs.modules_apart.symm.not_below hplace)
      ((place_apart_moved (g ++ q)).not_below (Below.refl _))
    rw [hleaves t t' ht]
    exact hs.copied hg hc hrun

/-! What is written then -/

theorem mem_writeSteps (hf : f ∈ writeSteps env args release relpath) :
    (∃ m ∈ args.modulesTar, f ∈ extract env m) ∨ f = chownR (modulesDir env release) ∨
      f = forArg args.kernelPath (fun k => cpA k (bootLoc ["zImage"])) ∨
      f = forArg args.dtbPath (fun _ => mkdirP (bootLoc relpath.dropLast)) ∨
      f = forArg args.dtbPath (fun d => cpA d (bootLoc relpath)) ∨
      (∃ b ∈ bindTargets env, f = mkdirP b) ∨
      (∃ p c, f = writeFile ((modulesDir env release).append p) c) ∨
      ∃ g ∈ bootFiles release, ∃ c, f = writeFile (bootLoc g) c := by
  unfold writeSteps at hf
  rcases List.mem_append.1 hf with hf | hf
  · rcases List.mem_append.1 hf with hf | hf
    · rcases List.mem_append.1 hf with hf | hf
      · rcases List.mem_append.1 hf with hf | hf
        · exact Or.inl (List.mem_flatMap.1 hf)
        · simp only [List.mem_cons, List.not_mem_nil, or_false] at hf
          rcases hf with rfl | rfl | rfl | rfl
          · exact Or.inr (Or.inl rfl)
          · exact Or.inr (Or.inr (Or.inl rfl))
          · exact Or.inr (Or.inr (Or.inr (Or.inl rfl)))
          · exact Or.inr (Or.inr (Or.inr (Or.inr (Or.inl rfl))))
      · obtain ⟨b, hb, rfl⟩ := List.mem_map.1 hf
        exact Or.inr (Or.inr (Or.inr (Or.inr (Or.inr (Or.inl ⟨b, hb, rfl⟩)))))
    · obtain ⟨w, -, rfl⟩ := List.mem_map.1 hf
      exact Or.inr (Or.inr (Or.inr (Or.inr (Or.inr (Or.inr (Or.inl ⟨w.1, w.2, rfl⟩))))))
  · simp only [List.mem_cons, List.not_mem_nil, or_false] at hf
    refine Or.inr (Or.inr (Or.inr (Or.inr (Or.inr (Or.inr (Or.inr ?_))))))
    rcases hf with rfl | rfl
    · exact ⟨[initrdName release], by simp [bootFiles], env.initrd, rfl⟩
    · exact ⟨["uInitrd"], by simp [bootFiles], env.uInitrd, rfl⟩

theorem bootFile_replaced {g : Path} (hg : g ∈ bootFiles release) :
    bootLoc g ∈ replaced env release relpath :=
  List.mem_cons_of_mem _ (List.mem_map_of_mem (List.mem_append_left _ hg))

theorem dtb_replaced (hrel : relpath ≠ []) : bootLoc relpath ∈ replaced env release relpath := by
  refine List.mem_cons_of_mem _ (List.mem_map_of_mem (List.mem_append_right _ ?_))
  rw [if_neg hrel]
  exact List.mem_singleton_self _

theorem writeStep_keeps (hrel : args.dtbPath.isSome → relpath ≠ [])
    (hf : f ∈ writeSteps env args release relpath)
    (hl : ∀ r ∈ replaced env release relpath, ¬ Below r l)
    (hm : ∀ m ∈ args.modulesTar, l = env.rootLoc m.path → m.node = n) : Keeps f l n := by
  rcases mem_writeSteps hf with ⟨m, hmem, hf⟩ | rfl | rfl | rfl | rfl | ⟨b, -, rfl⟩ |
    ⟨p, c, rfl⟩ | ⟨g, hg, c, rfl⟩
  · exact extract_keeps (hm m hmem) hf
  · exact chownR_leaves.keeps
  · refine forArg_keeps fun k _ => (cpA_leaves ?_).keeps
    exact hl _ (bootFile_replaced (List.mem_cons_self))
  · exact forArg_keeps fun _ _ => mkdirP_keeps
  · refine forArg_keeps fun d hd => (cpA_leaves ?_).keeps
    exact hl _ (dtb_replaced (hrel (Option.isSome_of_mem hd)))
  · exact mkdirP_keeps
  · refine (writeFile_leaves fun heq => ?_).keeps
    exact hl _ List.mem_cons_self (heq ▸ below_append _ p)
  · refine (writeFile_leaves fun heq => ?_).keeps
    exact hl _ (bootFile_replaced hg) (heq ▸ Below.refl _)

theorem writeStep_leaves (hrel : args.dtbPath.isSome → relpath ≠ [])
    (hs : Safe env args release relpath earlier old.node) (he : e ∈ earlier) (hl : Below e l)
    (hf : f ∈ writeSteps env args release relpath) : Leaves f l := by
  obtain ⟨-, hreplaced, hbind⟩ := hs.earlier e he
  have hout : ∀ r ∈ replaced env release relpath, ∀ d, Below r d → ¬ Below l d :=
    fun r hr d hd hld => (hreplaced r hr).not_below (hl.trans hld) hd
  rcases mem_writeSteps hf with ⟨m, hmem, hf⟩ | rfl | rfl | rfl | rfl | ⟨b, hb, rfl⟩ |
    ⟨p, c, rfl⟩ | ⟨g, hg, c, rfl⟩
  · refine extract_leaves (fun hlm => ?_) hf
    rcases hs.members m hmem with ⟨r, hr, hbelow⟩ | ⟨-, -, hearlier⟩
    · exact hout r hr _ hbelow hlm
    · exact hearlier e he (hl.trans hlm)
  · exact chownR_leaves
  · refine forArg_leaves fun k _ => cpA_leaves fun hbelow => ?_
    exact (hreplaced _ (bootFile_replaced List.mem_cons_self)).not_below hl hbelow
  · refine forArg_leaves fun d hd => mkdirP_leaves fun hparent => ?_
    exact hout _ (dtb_replaced (hrel (Option.isSome_of_mem hd))) _ (Below.refl _)
      (below_of_parent hparent)
  · refine forArg_leaves fun d hd => cpA_leaves fun hbelow => ?_
    exact (hreplaced _ (dtb_replaced (hrel (Option.isSome_of_mem hd)))).not_below hl hbelow
  · exact mkdirP_leaves fun hlb => hbind b hb (hl.trans hlb)
  · refine writeFile_leaves fun heq => ?_
    exact hout _ List.mem_cons_self _ (below_append _ p) (heq ▸ Below.refl l)
  · refine writeFile_leaves fun heq => ?_
    exact hout _ (bootFile_replaced hg) _ (Below.refl _) (heq ▸ Below.refl l)

end Parts

/-! ## The whole run -/

variable {env : Env} {args : Args} {release : String} {relpath : Path} {earlier : List Loc}
  {old : Volumes}

theorem relpath_ne {t : Disk} (h : arguments env args t = .ok (release, relpath)) :
    args.dtbPath.isSome → relpath ≠ [] := by
  intro hdtb hnil
  unfold arguments at h
  split_ifs at h
  all_goals
    split at h
    · cases h
    · simp only at h
      split_ifs at h with hempty
      cases h
      exact hempty ⟨hdtb, hnil⟩

theorem mem_installSteps {f : Step} (hf : f ∈ installSteps env args release relpath) :
    f ∈ backupSteps env args release relpath ∨ f = moveModules env args release ∨
      f ∈ writeSteps env args release relpath := by
  rcases List.mem_append.1 hf with hf | hf
  · rcases List.mem_append.1 hf with hf | hf
    · exact Or.inl hf
    · exact Or.inr (Or.inl (List.mem_singleton.1 hf))
  · exact Or.inr (Or.inr hf)

theorem Safe.not_below (hs : Safe env args release relpath earlier old.node) {l : Loc}
    {c : Content} (hc : old.node l = some (.file c)) : ¬ Below (backupDir env args release) l := by
  intro h
  rw [hs.fresh l h] at hc
  cases hc

theorem Safe.keeps_beside (hs : Safe env args release relpath earlier old.node)
    (hrel : args.dtbPath.isSome → relpath ≠ []) {l : Loc} {c : Content}
    (hl : ∀ r ∈ replaced env release relpath, ¬ Below r l)
    (hc : old.node l = some (.file c)) {f : Step}
    (hf : f ∈ installSteps env args release relpath) : Keeps f l (.file c) := by
  have hout := hs.not_below hc
  rcases mem_installSteps hf with hf | rfl | hf
  · exact backupStep_keeps hf hout
  · refine (moveModules_leaves (hl _ List.mem_cons_self) fun hmoved => ?_).keeps
    exact hout ((below_append _ _).trans hmoved)
  · refine writeStep_keeps hrel hf hl fun m hm heq => ?_
    rcases hs.members m hm with ⟨r, hr, hbelow⟩ | ⟨hsame, -, -⟩
    · exact absurd (heq ▸ hbelow) (hl r hr)
    · exact hsame c (heq ▸ hc)

theorem Safe.keeps_saved (hs : Safe env args release relpath earlier old.node)
    (hrel : args.dtbPath.isSome → relpath ≠ []) {x : Loc} {n : Node Content}
    (hx : Below (backupDir env args release) x) {f : Step}
    (hf : f ∈ writeSteps env args release relpath) : Keeps f x n := by
  refine writeStep_keeps hrel hf (fun r hr hbelow => (hs.apart r hr).not_below hbelow hx) ?_
  intro m hm heq
  exfalso
  rcases hs.members m hm with ⟨r, hr, hbelow⟩ | ⟨-, hout, -⟩
  · exact (hs.apart r hr).not_below hbelow (heq ▸ hx)
  · exact hout (heq ▸ hx)

/-- A file that is replaced is there up to the move, and in the backup from then on. -/
theorem Safe.kept_replaced (hs : Safe env args release relpath earlier old.node)
    (hrel : args.dtbPath.isSome → relpath ≠ []) {l : Loc} {c : Content}
    (hl : ∃ r ∈ replaced env release relpath, Below r l)
    (hc : old.node l = some (.file c)) (n : ℕ) :
    let t := (exec ((installSteps env args release relpath).take n) old.node).2
    t l = some (.file c) ∨ ∃ x ∈ place env args release l, t x = some (.file c) := by
  have hbackup : ∀ k, (exec ((backupSteps env args release relpath).take k) old.node).2 l =
      some (.file c) := fun k =>
    exec_keeps (I := fun t => t l = some (.file c)) _
      (fun f hf s s' hs' hok => backupStep_keeps (List.mem_of_mem_take hf) (hs.not_below hc)
        s s' hok hs') hc
  simp only [installSteps, List.append_assoc]
  obtain ⟨k, hk⟩ | ⟨k, hnone, hk⟩ := exec_take_append (backupSteps env args release relpath)
    ([moveModules env args release] ++ writeSteps env args release relpath) n old.node
  · rw [hk]
    exact Or.inl (hbackup k)
  · rw [hk]
    have hall := hbackup (backupSteps env args release relpath).length
    rw [List.take_length] at hall
    cases k with
    | zero => exact Or.inl hall
    | succ k =>
      rw [List.singleton_append, List.take_succ_cons]
      cases hmove : moveModules env args release
          (exec (backupSteps env args release relpath) old.node).2 with
      | error e =>
        rw [exec_cons_error hmove]
        exact Or.inl hall
      | ok t =>
        rw [exec_cons_ok hmove]
        obtain ⟨x, hx, hin, hsaved⟩ := hs.saved hl hc (Prod.ext hnone rfl) hmove
        exact Or.inr ⟨x, hx, exec_keeps (I := fun t => t x = some (.file c)) _
          (fun f hf s s' hs' hok => hs.keeps_saved hrel hin (List.mem_of_mem_take hf)
            s s' hok hs') hsaved⟩

theorem Safe.kept (hs : Safe env args release relpath earlier old.node)
    (hrel : args.dtbPath.isSome → relpath ≠ []) (n : ℕ) :
    Kept env args release earlier old.node
      (exec ((installSteps env args release relpath).take n) old.node).2 := by
  constructor
  · intro l c hvol hc
    by_cases hr : ∃ r ∈ replaced env release relpath, Below r l
    · exact hs.kept_replaced hrel hr hc n
    · have hkeeps := exec_keeps (I := fun t => t l = some (.file c))
        ((installSteps env args release relpath).take n)
        (fun f hf s s' hs' hok => hs.keeps_beside hrel (fun r hmem hbelow => hr ⟨r, hmem, hbelow⟩)
          hc (List.mem_of_mem_take hf) s s' hok hs') hc
      exact Or.inl hkeeps
  · intro e he l hl
    obtain ⟨hbackup, hreplaced, -⟩ := hs.earlier e he
    have hleaves : ∀ f ∈ installSteps env args release relpath, Leaves f l := by
      intro f hf
      rcases mem_installSteps hf with hf | rfl | hf
      · exact backupStep_leaves hf hbackup hl
      · refine moveModules_leaves ((hreplaced _ List.mem_cons_self).not_below hl) fun hmoved => ?_
        exact hbackup.not_below hl ((below_append _ _).trans hmoved)
      · exact writeStep_leaves hrel hs he hl hf
    exact exec_keeps (I := fun t => t l = old.node l) _
      (fun f hf s s' hs' hok => (hleaves f (List.mem_of_mem_take hf) s s' hok).trans hs') rfl

/-- Wherever a run stops, nothing that it replaced is lost. -/
theorem backups_complete (n : ℕ) (h : arguments env args old.node = .ok (release, relpath))
    (hs : Safe env args release relpath earlier old.node) :
    Kept env args release earlier old.node (installUpTo n env args old.node).2 := by
  unfold installUpTo
  rw [h]
  exact hs.kept (relpath_ne h) n

/-! ## A disk -/

def initramfs : Loc × Node Content := (⟨.root, ["usr", "sbin", "update-initramfs"]⟩, .file [])

def noon : Env := { date := "20260801T120000Z", initrd := ["initrd"], uInitrd := ["uInitrd"] }

def osDisk : Volumes := .ofFiles [initramfs, (bootLoc ["zImage"], .file ["old kernel"]),
  (bootLoc ["uEnv.txt"], .file ["FDT=/dtb/m302a.dtb"]),
  (bootLoc ["dtb", "m302a.dtb"], .file ["old tree"]),
  (⟨.root, ["lib", "modules", "6.1", "wifi.ko"]⟩, .file ["old module"]),
  (⟨.elsewhere, ["zImage"]⟩, .file ["new kernel"]),
  (⟨.elsewhere, ["m302a.dtb"]⟩, .file ["new tree"])]

def tarball : List Member := [⟨["lib", "modules", "6.1", "wifi.ko"], .file ["new module"]⟩]

def testArgs : Args where
  modulesTar := tarball
  kernelPath := some ⟨.elsewhere, ["zImage"]⟩
  dtbPath := some ⟨.elsewhere, ["m302a.dtb"]⟩

theorem osDisk_safe : Safe noon testArgs "6.1" ["dtb", "m302a.dtb"] [] osDisk.node where
  fresh l h := Volumes.ofFiles_none (by decide +kernel) h
  apart := by decide +kernel
  files := by decide +kernel
  members := by
    intro m hm
    rw [List.mem_singleton.1 hm]
    exact Or.inl (by decide +kernel)
  earlier e he := absurd he List.not_mem_nil

theorem backups_complete_osDisk : Kept noon testArgs "6.1" [] osDisk.node
    (installUpTo 12 noon testArgs osDisk.node).2 :=
  backups_complete 12 (by decide +kernel) osDisk_safe

def otherArgs : Args := { modulesTar := tarball, kernelRelease := some "6.6" }

def earlierDir : Loc :=
  ⟨.root, ["root", "s905l3-hdmi-os-disk-backups", "20260801T120000Z-6.1"]⟩

def secondRun : Volumes := .ofFiles [initramfs, (bootLoc ["zImage"], .file ["new kernel"]),
  (earlierDir.append ["boot", "zImage"], .file ["old kernel"])]

theorem backup_incomplete :
    arguments noon otherArgs osDisk.node = .ok ("6.6", []) ∧
    ¬ Kept noon otherArgs "6.6" [] osDisk.node (installUpTo 9 noon otherArgs osDisk.node).2 ∧
    arguments noon { modulesTar := tarball } secondRun.node = .ok ("6.1", []) ∧
    ¬ Kept noon { modulesTar := tarball } "6.1" [earlierDir] secondRun.node
      (installUpTo 2 noon { modulesTar := tarball } secondRun.node).2 := by
  refine ⟨by decide +kernel, fun h => ?_, by decide +kernel, fun h => ?_⟩
  · have hkept := h.files ⟨.root, ["lib", "modules", "6.1", "wifi.ko"]⟩ ["old module"]
      (by decide +kernel) (by decide +kernel)
    exact absurd hkept (by decide +kernel)
  · have hsame := h.earlier earlierDir List.mem_cons_self (earlierDir.append ["boot", "zImage"])
      (below_append _ _)
    exact absurd hsame (by decide +kernel)

end Rtl8189.HdmiOsDisk
