import Rtl8189.HdmiTestBoot

/-!
# Rollback of a test boot

Until the service is enabled an install writes to its own files only: the backups, the
state and the service. From then on a rollback finds all that it needs, wherever the
install stops.
-/
namespace Rtl8189.HdmiRollback

open FileTree StepList HdmiTestBoot

/-! ## The installer's own files -/

def guarded (p : Path) : Bool :=
  p.contains "hdmi-test-backups" || stateDir.isPrefixOf p || p == servicePath

def own (p : Path) : Bool := guarded p || p.isPrefixOf stateDir || p == installPath

theorem guarded_own {p : Path} (h : guarded p = true) : own p = true := by
  simp [own, h]

theorem ne_of_own {p q : Path} (hp : own p = true) (hq : own q = false) : p ≠ q := by
  rintro rfl
  rw [hp] at hq
  cases hq

theorem guarded_of_mem {p : Path} (h : "hdmi-test-backups" ∈ p) : guarded p = true := by
  simp [guarded, h]

theorem guarded_of_prefix {p : Path} (h : stateDir <+: p) : guarded p = true := by
  simp [guarded, List.isPrefixOf_iff_prefix, h]

theorem guarded_mono {p q : Path} (hq : guarded q = true) (hpre : q <+: p)
    (hne : q ≠ servicePath) : guarded p = true := by
  simp only [guarded, Bool.or_eq_true, List.contains_iff_mem, List.isPrefixOf_iff_prefix,
    beq_iff_eq, hne, or_false] at hq
  rcases hq with hmem | hstate
  · exact guarded_of_mem (hpre.subset hmem)
  · exact guarded_of_prefix (hstate.trans hpre)

theorem own_eq_false {p : Path} : own p = false ↔
    ("hdmi-test-backups" ∉ p ∧ ¬ stateDir <+: p ∧ p ≠ servicePath) ∧
      ¬ p <+: stateDir ∧ p ≠ installPath := by
  rw [← Bool.not_eq_true, ← List.isPrefixOf_iff_prefix, ← List.isPrefixOf_iff_prefix]
  simp [own, guarded, and_assoc]

/-! ## The files of an install -/

section

variable (env : Env) (args : Args) (t : Tree String Content)

def boot : Path := args.bootDir.resolve env.cwd

def backup : Path := boot env args ++ backupNames env

def dtb : Path := boot env args ++ dtbRelpath env args t

def written : List Path :=
  [boot env args ++ ["zImage"]] ++
    (if args.initrdPath.isSome then [boot env args ++ ["uInitrd"]] else []) ++
    if args.dtbPath.isSome then [dtb env args t] else []

/-- The boot directory is found again from anywhere, the second of the backup is new, and what is
overwritten is no directory and no file of the installer. -/
structure Plain : Prop where
  absolute : args.bootDir.absolute = true
  fresh : t.node (backup env args) = none
  free : ∀ p ∈ written env args t, own p = false
  notDir : ∀ p ∈ written env args t, t.node p ≠ some .dir

end

variable {env : Env} {args : Args} {t : Tree String Content}

theorem backup_own (names : Path) : own (backup env args ++ names) = true := by
  refine guarded_own (guarded_of_mem ?_)
  simp [backup, backupNames]

theorem mem_written_zImage : boot env args ++ ["zImage"] ∈ written env args t := by
  simp [written]

theorem mem_written_uInitrd (h : args.initrdPath.isSome = true) :
    boot env args ++ ["uInitrd"] ∈ written env args t := by
  simp [written, h]

theorem mem_written_dtb (h : args.dtbPath.isSome = true) : dtb env args t ∈ written env args t := by
  simp [written, h]

theorem own_bootFile {p : Path} (h : own (p ++ ["zImage"]) = false) {n : String}
    (hn : n = "uInitrd" ∨ n = "uEnv.txt") : own (p ++ [n]) = false := by
  obtain ⟨⟨hmem, hstate, -⟩, -, -⟩ := own_eq_false.mp h
  have hlast : ∀ q : Path, p ++ [n] = q → n ∈ q := by
    rintro q rfl
    simp
  refine own_eq_false.mpr ⟨⟨?_, ?_, ?_⟩, ?_, ?_⟩
  · intro hin
    rcases List.mem_append.mp hin with hp | hp
    · exact hmem (List.mem_append_left _ hp)
    · rcases hn with rfl | rfl <;> simp at hp
  · intro hpre
    rcases List.prefix_concat_iff.mp hpre with heq | hpre
    · have hin := hlast _ heq.symm
      rcases hn with rfl | rfl <;> simp [stateDir] at hin
    · exact hstate (hpre.trans (List.prefix_append _ _))
  · intro heq
    have hin := hlast _ heq
    rcases hn with rfl | rfl <;> simp [servicePath] at hin
  · intro hpre
    have hin : n ∈ stateDir := hpre.subset (by simp)
    rcases hn with rfl | rfl <;> simp [stateDir] at hin
  · intro heq
    have hin := hlast _ heq
    rcases hn with rfl | rfl <;> simp [installPath] at hin

/-! ## What a step changes -/

theorem fsStep_ok {name : String} {f : Tree String Content → Option (Tree String Content)}
    {m m' : Machine} (h : fsStep name f m = .ok m') :
    f m.fs = some m'.fs ∧ m'.enabled = m.enabled := by
  unfold fsStep at h
  split at h
  · next u hu =>
    obtain rfl := Except.ok.inj h
    exact ⟨hu, rfl⟩
  · cases h

theorem fsStep_eq {name : String} {f : Tree String Content → Option (Tree String Content)}
    {m : Machine} {u : Tree String Content} (h : f m.fs = some u) :
    fsStep name f m = .ok { m with fs := u } := by
  simp only [fsStep, h]

/-- The files that are not the installer's are as in `t`, and `b` is a directory. -/
def Untouched (t : Tree String Content) (b : Path) (m : Machine) : Prop :=
  (∀ p, own p = false → m.fs.node p = t.node p) ∧ m.fs.node b = some .dir

section

variable {b : Path} {m m' : Machine}

theorem Untouched.write {p : Path} {c : Content} (h : Untouched t b m) (hp : own p = true)
    (hw : m.fs.write p c = some m'.fs) : Untouched t b m' := by
  refine ⟨?_, Tree.write_dir hw h.2⟩
  intro q hq
  rw [Tree.write_node hw, if_neg (ne_of_own hp hq).symm, h.1 q hq]

theorem Untouched.redirect {p : Path} {c : Content} (h : Untouched t b m) (hp : own p = true)
    (hm : redirect p c m = .ok m') : Untouched t b m' := h.write hp (fsStep_ok hm).1

theorem Untouched.rmF {p : Path} (h : Untouched t b m) (hp : own p = true)
    (hm : rmF p m = .ok m') : Untouched t b m' := by
  have hr := (fsStep_ok hm).1
  refine ⟨?_, Tree.remove_dir hr h.2⟩
  intro q hq
  rw [Tree.remove_node hr, if_neg (ne_of_own hp hq).symm, h.1 q hq]

theorem Untouched.cpF {src dst : Path} (h : Untouched t b m) (hdst : "hdmi-test-backups" ∈ dst)
    (hm : cpF src dst m = .ok m') : Untouched t b m' := by
  obtain ⟨r, c, hr, hw⟩ := Tree.copy_target (fsStep_ok hm).1
  refine h.write (guarded_own (guarded_of_mem ?_)) hw
  rcases hr with rfl | ⟨n, rfl⟩
  · exact hdst
  · exact List.mem_append_left _ hdst

theorem Untouched.cpIfFile {src dst : Path} (h : Untouched t b m)
    (hdst : "hdmi-test-backups" ∈ dst) (hm : cpIfFile src dst m = .ok m') :
    Untouched t b m' := by
  unfold HdmiTestBoot.cpIfFile at hm
  split_ifs at hm
  · exact h.cpF hdst hm
  · obtain rfl := Except.ok.inj hm
    exact h

theorem Untouched.mkdirP {p : Path} (h : Untouched t b m)
    (hp : ∀ q, q <+: p → own q = false → q <+: b) (hm : mkdirP p m = .ok m') :
    Untouched t b m' := by
  have hd := (fsStep_ok hm).1
  have hb : m.fs.node b ≠ none := by
    rw [h.2]
    exact Option.some_ne_none _
  refine ⟨?_, by rw [Tree.mkdirs_of_some hd hb, h.2]⟩
  intro q hq
  rw [← h.1 q hq]
  by_cases hpre : q <+: p
  · apply Tree.mkdirs_of_some hd
    by_cases hqb : q = b
    · rwa [hqb]
    · rw [m.fs.dir_of_prefix hb (hp q hpre hq) hqb]
      exact Option.some_ne_none _
  · exact Tree.mkdirs_of_not_prefix hd hpre

end

theorem prefix_backup {q : Path} (h : q <+: backup env args) :
    q <+: boot env args ∨ "hdmi-test-backups" ∈ q := by
  rcases List.prefix_or_prefix_of_prefix h (List.prefix_append _ _) with hq | ⟨names, rfl⟩
  · exact .inl hq
  · rw [backup, List.prefix_append_right_inj] at h
    cases names with
    | nil => exact .inl (by rw [List.append_nil])
    | cons n names =>
      obtain ⟨rfl, -⟩ := List.cons_prefix_cons.mp h
      exact .inr (by simp)

theorem armSteps_untouched (env : Env) (args : Args) (relpath : Path) {m : Machine} {f : Step}
    (hf : f ∈ armSteps env args relpath) {m' : Machine}
    (hm : Untouched t (boot env args) m) (hok : f m = .ok m') :
    Untouched t (boot env args) m' := by
  have hbackup : ∀ names, "hdmi-test-backups" ∈ backup env args ++ names := by
    intro names
    simp [backup, backupNames]
  simp only [armSteps, installService, List.cons_append, List.nil_append, List.mem_cons,
    List.not_mem_nil, or_false] at hf
  rcases hf with rfl | rfl | rfl | rfl | rfl | rfl | rfl | rfl | rfl | rfl | rfl | rfl
  · refine hm.mkdirP ?_ hok
    intro q hq hown
    exact absurd hq (own_eq_false.mp hown).2.1
  · exact hm.rmF (by decide) hok
  · refine hm.mkdirP ?_ hok
    intro q hq hown
    rcases prefix_backup hq with h | h
    · exact h
    · exact absurd (guarded_own (guarded_of_mem h)) (by rw [hown]; exact Bool.false_ne_true)
  · simp only [checkZImage] at hok
    split_ifs at hok
    obtain rfl := Except.ok.inj hok
    exact hm
  · exact hm.cpF (hbackup _) hok
  · exact hm.cpIfFile (hbackup _) hok
  · exact hm.cpIfFile (hbackup _) hok
  · split_ifs at hok
    · exact hm.cpIfFile (hbackup _) hok
    · obtain rfl := Except.ok.inj hok
      exact hm
  · exact hm.redirect (by decide) hok
  · split_ifs at hok
    · obtain rfl := Except.ok.inj hok
      exact hm
    · exact hm.redirect (by decide) hok
  · exact hm.redirect (by decide) hok
  · obtain rfl := Except.ok.inj hok
    exact hm

/-! ## Once the service is enabled -/

def backed (t : Tree String Content) (p : Path) : Option (Node Content) :=
  if t.isFile p then t.node p else none

/-- State and backups lead a rollback to the boot files of `t`. -/
structure Backed (env : Env) (args : Args) (t : Tree String Content) (m : Machine) : Prop where
  named : args.dtbPath.isSome = true → dtbRelpath env args t ≠ []
  state : m.fs.node stateFile = some (.file (.state
    ⟨args.bootDir, args.bootDir.append (backupNames env), dtbRelpath env args t⟩))
  confirm : m.fs.node confirmFile = none
  zImage : m.fs.node (backup env args ++ ["zImage"]) = backed t (boot env args ++ ["zImage"])
  uInitrd : m.fs.node (backup env args ++ ["uInitrd"]) = backed t (boot env args ++ ["uInitrd"])
  uEnv : m.fs.node (backup env args ++ ["uEnv.txt"]) = backed t (boot env args ++ ["uEnv.txt"])
  dtb : m.fs.node (backup env args ++ ["dtb"]) =
    if args.dtbPath.isSome then backed t (dtb env args t) else none
  kept : ∀ p, own p = false → t.isFile p = true → m.fs.isFile p = true

structure Armed (env : Env) (args : Args) (t : Tree String Content) (m : Machine) : Prop
    extends Backed env args t m where
  service : m.fs.node servicePath = some (.file .unit)
  enabled : m.enabled = true

theorem cpIfFile_node {src dst : Path} {m m' : Machine} (h : cpIfFile src dst m = .ok m')
    (hdst : m.fs.node dst ≠ some .dir) (p : Path) :
    m'.fs.node p = if p = dst ∧ m.fs.isFile src = true then m.fs.node src else m.fs.node p := by
  unfold cpIfFile at h
  by_cases hsrc : m.fs.isFile src = true
  · rw [if_pos hsrc] at h
    rw [Tree.copy_node (fsStep_ok h).1 hdst]
    simp [hsrc]
  · rw [if_neg hsrc] at h
    obtain rfl := Except.ok.inj h
    simp [hsrc]

theorem backup_ne {q : Path} (names : Path) (h : "hdmi-test-backups" ∉ q) :
    backup env args ++ names ≠ q := by
  rintro rfl
  exact h (by simp [backup, backupNames])

theorem backup_name_ne {n n' : String} (h : n ≠ n') :
    backup env args ++ [n] ≠ backup env args ++ [n'] := by
  simpa using h

theorem Untouched.isFile {b p : Path} {m : Machine} (h : Untouched t b m) (hp : own p = false) :
    m.fs.isFile p = t.isFile p := by
  rw [Tree.isFile, Tree.isFile, h.1 p hp]

/-- What the backup directory holds, while no confirmation is left. -/
structure Shelf (env : Env) (args : Args) (t : Tree String Content)
    (shelf : String → Option (Node Content)) (m : Machine) : Prop where
  holds : ∀ n, m.fs.node (backup env args ++ [n]) = shelf n
  confirm : m.fs.node confirmFile = none
  untouched : Untouched t (boot env args) m

theorem confirm_gone {m m' : Machine} (hboot : m.fs.node (boot env args) = some .dir)
    (hconfirm : m.fs.node confirmFile = none) (hm : mkdirP (backup env args) m = .ok m') :
    m'.fs.node confirmFile = none := by
  have hpre : ¬ confirmFile <+: backup env args := by
    intro hpre
    rcases prefix_backup hpre with hb | hin
    · have hdir : m.fs.node confirmFile = some .dir := by
        by_cases heq : confirmFile = boot env args
        · rw [heq, hboot]
        · exact m.fs.dir_of_prefix (by rw [hboot]; exact Option.some_ne_none _) hb heq
      rw [hconfirm] at hdir
      cases hdir
    · exact absurd hin (by decide)
  rw [Tree.mkdirs_of_not_prefix (fsStep_ok hm).1 hpre, hconfirm]

theorem shelf_of_steps {m m₁ m₂ m₃ : Machine} (hfresh : m.fs.node (backup env args) = none)
    (hboot : m.fs.node (boot env args) = some .dir) (h₁ : mkdirP stateDir m = .ok m₁)
    (h₂ : rmF confirmFile m₁ = .ok m₂) (h₃ : mkdirP (backup env args) m₂ = .ok m₃) :
    Shelf env args m.fs (fun _ => none) m₃ := by
  have hstart : Untouched m.fs (boot env args) m := ⟨fun _ _ => rfl, hboot⟩
  have hsteps : ∀ f ∈ [mkdirP stateDir, rmF confirmFile, mkdirP (backup env args)],
      f ∈ armSteps env args [] := by
    intro f hf
    simp only [List.mem_cons, List.not_mem_nil, or_false] at hf
    rcases hf with rfl | rfl | rfl <;> simp [armSteps, backup, boot]
  have hu₁ := armSteps_untouched env args [] (hsteps _ (by simp)) hstart h₁
  have hu₂ := armSteps_untouched env args [] (hsteps _ (by simp)) hu₁ h₂
  have hu₃ := armSteps_untouched env args [] (hsteps _ (by simp)) hu₂ h₃
  have hconfirm : m₂.fs.node confirmFile = none := by
    rw [Tree.remove_node (fsStep_ok h₂).1, if_pos rfl]
  refine ⟨?_, ?_, hu₃⟩
  · intro n
    have hnone : m.fs.node (backup env args ++ [n]) = none := by
      by_contra hne
      rw [m.fs.closed _ _ hne] at hfresh
      cases hfresh
    have hpre : ¬ backup env args ++ [n] <+: stateDir := by
      intro hpre
      have hin : "hdmi-test-backups" ∈ stateDir := hpre.subset (by simp [backup, backupNames])
      simp [stateDir] at hin
    have hlong : ¬ backup env args ++ [n] <+: backup env args := by
      intro hpre
      have hlen := hpre.length_le
      rw [List.length_append, List.length_singleton] at hlen
      omega
    rw [Tree.mkdirs_of_not_prefix (fsStep_ok h₃).1 hlong, Tree.remove_node (fsStep_ok h₂).1,
      if_neg (backup_ne _ (by decide)), Tree.mkdirs_of_not_prefix (fsStep_ok h₁).1 hpre, hnone]
  · exact confirm_gone hu₂.2 hconfirm h₃

theorem Shelf.back {shelf : String → Option (Node Content)} {m m' : Machine} {src : Path}
    {n : String} (h : Shelf env args t shelf m) (hn : shelf n = none) (hsrc : own src = false)
    (hm : cpIfFile src (backup env args ++ [n]) m = .ok m') :
    Shelf env args t (Function.update shelf n (backed t src)) m' := by
  have hdst : m.fs.node (backup env args ++ [n]) ≠ some .dir := by
    rw [h.holds, hn]
    exact (Option.some_ne_none _).symm
  have hnode := cpIfFile_node hm hdst
  refine ⟨?_, ?_, h.untouched.cpIfFile (by simp [backup, backupNames]) hm⟩
  · intro n'
    rw [hnode, h.untouched.isFile hsrc, h.untouched.1 src hsrc, h.holds]
    by_cases hn' : n' = n
    · subst hn'
      rw [Function.update_self, backed]
      split_ifs <;> simp_all
    · rw [Function.update_of_ne hn', if_neg fun hcond => backup_name_ne hn' hcond.1]
  · rw [hnode, if_neg fun hcond => backup_ne _ (by decide) hcond.1.symm, h.confirm]

theorem Shelf.redirect {shelf : String → Option (Node Content)} {m m' : Machine} {p : Path}
    {c : Content} (h : Shelf env args t shelf m) (hp : own p = true)
    (hback : "hdmi-test-backups" ∉ p) (hconfirm : confirmFile ≠ p)
    (hm : redirect p c m = .ok m') : Shelf env args t shelf m' := by
  have hw := (fsStep_ok hm).1
  refine ⟨?_, ?_, h.untouched.redirect hp hm⟩
  · intro n
    rw [Tree.write_node hw, if_neg (backup_ne _ hback), h.holds]
  · rw [Tree.write_node hw, if_neg hconfirm, h.confirm]

def backups (env : Env) (args : Args) (t : Tree String Content) : String → Option (Node Content) :=
  Function.update (Function.update (Function.update (Function.update (fun _ => none)
    "zImage" (backed t (boot env args ++ ["zImage"])))
    "uInitrd" (backed t (boot env args ++ ["uInitrd"])))
    "uEnv.txt" (backed t (boot env args ++ ["uEnv.txt"])))
    "dtb" (if args.dtbPath.isSome then backed t (dtb env args t) else none)

theorem armed_of_exec {m m' : Machine} (hplain : Plain env args m.fs)
    (hboot : m.fs.node (boot env args) = some .dir)
    (hrel : args.dtbPath.isSome = true → dtbRelpath env args m.fs ≠ [])
    (h : exec (armSteps env args (dtbRelpath env args m.fs)) m = (none, m')) :
    Armed env args m.fs m' ∧ Untouched m.fs (boot env args) m' := by
  have huntouched : Untouched m.fs (boot env args) m' := by
    have hkeep := exec_keeps (I := Untouched m.fs (boot env args))
      (armSteps env args (dtbRelpath env args m.fs))
      (fun f hf s s' hs hok => armSteps_untouched env args (dtbRelpath env args m.fs) hf hs hok)
      ⟨fun _ _ => rfl, hboot⟩
    rwa [h] at hkeep
  have hownZ := hplain.free _ mem_written_zImage
  obtain ⟨m₁, h₁, hr₁⟩ := exec_cons_none h
  obtain ⟨m₂, h₂, hr₂⟩ := exec_cons_none hr₁
  obtain ⟨m₃, h₃, hr₃⟩ := exec_cons_none hr₂
  have hs₃ := shelf_of_steps hplain.fresh hboot h₁ h₂ h₃
  obtain ⟨m₄, h₄, hr₄⟩ := exec_cons_none hr₃
  have hZ : m₃.fs.isFile (boot env args ++ ["zImage"]) = true ∧ m₄ = m₃ := by
    simp only [checkZImage] at h₄
    split_ifs at h₄ with hfile
    exact ⟨hfile, (Except.ok.inj h₄).symm⟩
  obtain ⟨hfile, rfl⟩ := hZ
  obtain ⟨m₅, h₅, hr₅⟩ := exec_cons_none hr₄
  have hs₅ := hs₃.back rfl hownZ ((if_pos hfile).trans h₅)
  obtain ⟨m₆, h₆, hr₆⟩ := exec_cons_none hr₅
  have hs₆ := hs₅.back rfl (own_bootFile hownZ (.inl rfl)) h₆
  obtain ⟨m₇, h₇, hr₇⟩ := exec_cons_none hr₆
  have hs₇ := hs₆.back rfl (own_bootFile hownZ (.inr rfl)) h₇
  obtain ⟨m₈, h₈, hr₈⟩ := exec_cons_none hr₇
  have hs₈ : Shelf env args m.fs (backups env args m.fs) m₈ := by
    unfold backups
    by_cases hdtb : args.dtbPath.isSome = true
    · rw [if_pos hdtb] at h₈ ⊢
      exact hs₇.back rfl (hplain.free _ (mem_written_dtb hdtb)) h₈
    · rw [if_neg hdtb] at h₈ ⊢
      obtain rfl := Except.ok.inj h₈
      convert hs₇ using 1
      exact Function.update_eq_self_iff.mpr (by simp)
  obtain ⟨m₉, h₉, hr₉⟩ := exec_cons_none hr₈
  have hs₉ := hs₈.redirect (by decide) (by decide) (by decide) h₉
  have hstate₉ : m₉.fs.node stateFile = some (.file (.state
      ⟨args.bootDir, args.bootDir.append (backupNames env), dtbRelpath env args m.fs⟩)) := by
    have hw : redirect stateFile _ m₈ = .ok m₉ := h₉
    rw [Tree.write_node (fsStep_ok hw).1, if_pos rfl]
  obtain ⟨m₁₀, h₁₀, hr₁₀⟩ := exec_cons_none hr₉
  have hs₁₀ : Shelf env args m.fs (backups env args m.fs) m₁₀ ∧ m₁₀.fs.node stateFile = m₉.fs.node stateFile := by
    split_ifs at h₁₀
    · obtain rfl := Except.ok.inj h₁₀
      exact ⟨hs₉, rfl⟩
    · refine ⟨hs₉.redirect (by decide) (by decide) (by decide) h₁₀, ?_⟩
      rw [Tree.write_node (fsStep_ok h₁₀).1, if_neg (by decide)]
  obtain ⟨m₁₁, h₁₁, hr₁₁⟩ := exec_cons_none hr₁₀
  have hs₁₁ := hs₁₀.1.redirect (by decide) (by decide) (by decide) h₁₁
  have hstate₁₁ : m₁₁.fs.node stateFile = m₁₀.fs.node stateFile := by
    rw [Tree.write_node (fsStep_ok h₁₁).1, if_neg (by decide)]
  obtain ⟨m₁₂, h₁₂, hr₁₂⟩ := exec_cons_none hr₁₁
  obtain rfl := Except.ok.inj h₁₂
  obtain rfl : _ = m' := congrArg Prod.snd hr₁₂
  refine ⟨⟨⟨hrel, ?_, hs₁₁.confirm, ?_, ?_, ?_, ?_, ?_⟩, ?_, rfl⟩, huntouched⟩
  · exact (hstate₁₁.trans hs₁₀.2).trans hstate₉
  · exact (hs₁₁.holds "zImage").trans (by simp [backups])
  · exact (hs₁₁.holds "uInitrd").trans (by simp [backups])
  · exact (hs₁₁.holds "uEnv.txt").trans (by simp [backups])
  · exact (hs₁₁.holds "dtb").trans (by simp [backups])
  · intro p hp hfile
    rwa [huntouched.isFile hp]
  · show m₁₁.fs.node servicePath = _
    rw [Tree.write_node (fsStep_ok h₁₁).1, if_pos rfl]

/-! ## While the boot files are replaced -/

theorem Backed.of_guarded {m m' : Machine} (h : Backed env args t m)
    (hg : ∀ p, guarded p = true → p ≠ servicePath → m'.fs.node p = m.fs.node p)
    (hfile : ∀ p, own p = false → m.fs.isFile p = true → m'.fs.isFile p = true) :
    Backed env args t m' := by
  have hbackup : ∀ n, m'.fs.node (backup env args ++ [n]) = m.fs.node (backup env args ++ [n]) :=
    fun n => hg _ (guarded_of_mem (by simp [backup, backupNames])) (backup_ne _ (by decide))
  exact ⟨h.named, (hg _ (by decide) (by decide)).trans h.state,
    (hg _ (by decide) (by decide)).trans h.confirm, (hbackup _).trans h.zImage,
    (hbackup _).trans h.uInitrd, (hbackup _).trans h.uEnv, (hbackup _).trans h.dtb,
    fun p hp ht => hfile p hp (h.kept p hp ht)⟩

theorem Armed.of_guarded {m m' : Machine} (h : Armed env args t m)
    (hg : ∀ p, guarded p = true → m'.fs.node p = m.fs.node p) (hen : m'.enabled = m.enabled)
    (hfile : ∀ p, m.fs.isFile p = true → m'.fs.isFile p = true) : Armed env args t m' where
  toBacked := h.toBacked.of_guarded (fun p hp _ => hg p hp) fun p _ => hfile p
  service := (hg _ (by decide)).trans h.service
  enabled := hen.trans h.enabled

/-- Other files than those of the arguments are as in `t`, but there may be new directories on
the way to the device tree. -/
structure Replaced (env : Env) (args : Args) (t : Tree String Content) (m : Machine) : Prop where
  armed : Armed env args t m
  others : ∀ p, p ∉ written env args t → own p = false → m.fs.node p = t.node p ∨
    t.node p = none ∧ args.dtbPath.isSome = true ∧ p <+: (dtb env args t).dropLast

structure Copied (m m' : Machine) (dst : Path) : Prop where
  file : m'.fs.isFile dst = true
  files : ∀ p, m.fs.isFile p = true → m'.fs.isFile p = true
  notDir : ∀ p, m.fs.node p ≠ some .dir → m'.fs.node p ≠ some .dir
  others : ∀ p, p ≠ dst → m'.fs.node p = m.fs.node p
  enabled : m'.enabled = m.enabled

theorem cpF_copied {m m' : Machine} {src dst : Path} (hdst : m.fs.node dst ≠ some .dir)
    (hm : cpF src dst m = .ok m') : Copied m m' dst := by
  obtain ⟨hc, hen⟩ := fsStep_ok hm
  obtain ⟨c, hsrc⟩ := Tree.copy_file hc
  have hnode := Tree.copy_node hc hdst
  have hself : m'.fs.node dst = some (.file c) := by rw [hnode, if_pos rfl, hsrc]
  have hother : ∀ p, p ≠ dst → m'.fs.node p = m.fs.node p := by
    intro p hp
    rw [hnode, if_neg hp]
  refine ⟨isFileNode_iff.mpr ⟨c, hself⟩, ?_, ?_, hother, hen⟩
  · intro p hp
    by_cases h : p = dst
    · exact isFileNode_iff.mpr ⟨c, by rw [h, hself]⟩
    · rwa [Tree.isFile, hother p h]
  · intro p hp
    by_cases h : p = dst
    · rw [h, hself]
      simp
    · rwa [hother p h]

theorem Replaced.copied {m m' : Machine} {dst : Path} (h : Replaced env args t m)
    (hmem : dst ∈ written env args t) (hown : own dst = false) (hc : Copied m m' dst) :
    Replaced env args t m' := by
  refine ⟨h.armed.of_guarded ?_ hc.enabled hc.files, ?_⟩
  · intro p hp
    exact hc.others p (ne_of_own (guarded_own hp) hown)
  · intro p hp hpown
    have hne : p ≠ dst := by
      rintro rfl
      exact hp hmem
    rw [hc.others p hne]
    exact h.others p hp hpown

theorem Replaced.mkdirP {m m' : Machine} (h : Replaced env args t m)
    (hdtb : args.dtbPath.isSome = true) (hown : own (dtb env args t) = false)
    (hm : mkdirP (dtb env args t).dropLast m = .ok m') : Replaced env args t m' := by
  obtain ⟨hd, hen⟩ := fsStep_ok hm
  refine ⟨h.armed.of_guarded ?_ hen fun p hp => Tree.mkdirs_isFile hd hp, ?_⟩
  · intro p hp
    by_cases hservice : p = servicePath
    · refine Tree.mkdirs_of_some hd ?_
      rw [hservice, h.armed.service]
      exact Option.some_ne_none _
    · refine Tree.mkdirs_of_not_prefix hd ?_
      intro hpre
      have hguard := guarded_mono hp (hpre.trans (List.dropLast_prefix _)) hservice
      rw [guarded_own hguard] at hown
      cases hown
  · intro p hp hpown
    rw [Tree.mkdirs_node hd]
    split_ifs with hnew
    · rcases h.others p hp hpown with hsame | hnone
      · refine .inr ⟨?_, hdtb, hnew.1⟩
        rw [← hsame, Option.isNone_iff_eq_none.mp hnew.2]
      · exact .inr hnone
    · exact h.others p hp hpown

structure Stage (env : Env) (args : Args) (t : Tree String Content) (i : ℕ) (m : Machine) :
    Prop where
  replaced : Replaced env args t m
  notDir : i ≤ 2 → ∀ p ∈ written env args t, m.fs.node p ≠ some .dir
  dtbNotDir : args.dtbPath.isSome = true → m.fs.node (dtb env args t) ≠ some .dir
  zImage : 1 ≤ i → m.fs.isFile (boot env args ++ ["zImage"]) = true
  uInitrd : 2 ≤ i → args.initrdPath.isSome = true →
    m.fs.isFile (boot env args ++ ["uInitrd"]) = true
  dtb : 4 ≤ i → args.dtbPath.isSome = true → m.fs.isFile (dtb env args t) = true

theorem stage_zero {m : Machine} (hplain : Plain env args t)
    (harmed : Armed env args t m) (hm : Untouched t (boot env args) m) :
    Stage env args t 0 m := by
  have hsame : ∀ p ∈ written env args t, m.fs.node p ≠ some .dir := by
    intro p hp
    rw [hm.1 p (hplain.free p hp)]
    exact hplain.notDir p hp
  refine ⟨⟨harmed, fun p _ hown => .inl (hm.1 p hown)⟩, fun _ => hsame,
    fun hdtb => hsame _ (mem_written_dtb hdtb), ?_, ?_, ?_⟩ <;> omega

theorem forArg_ok {a : Option PathArg} {f : Path → Step} {m m' : Machine}
    (h : forArg env a f m = .ok m') :
    (∃ src, a = some src ∧ f (src.resolve env.cwd) m = .ok m') ∨ a = none ∧ m' = m := by
  cases a with
  | none => exact .inr ⟨rfl, (Except.ok.inj h).symm⟩
  | some src => exact .inl ⟨src, rfl, h⟩

theorem stage_kernel {m m' : Machine} (hplain : Plain env args t)
    (hkernel : args.kernelPath.isSome = true) (h : Stage env args t 0 m)
    (hok : forArg env args.kernelPath (fun src => cpF src (boot env args ++ ["zImage"])) m =
      .ok m') : Stage env args t 1 m' := by
  rcases forArg_ok hok with ⟨src, ha, hm⟩ | ⟨ha, rfl⟩
  · have hmem : boot env args ++ ["zImage"] ∈ written env args t := mem_written_zImage
    have hc := cpF_copied (h.notDir (by omega) _ hmem) hm
    exact ⟨h.replaced.copied hmem (hplain.free _ hmem) hc,
      fun _ p hp => hc.notDir p (h.notDir (by omega) p hp),
      fun hdtb => hc.notDir _ (h.dtbNotDir hdtb), fun _ => hc.file, by omega, by omega⟩
  · rw [ha] at hkernel
    cases hkernel

theorem stage_initrd {m m' : Machine} (hplain : Plain env args t) (h : Stage env args t 1 m)
    (hok : forArg env args.initrdPath (fun src => cpF src (boot env args ++ ["uInitrd"])) m =
      .ok m') : Stage env args t 2 m' := by
  rcases forArg_ok hok with ⟨src, ha, hm⟩ | ⟨ha, rfl⟩
  · have hmem : boot env args ++ ["uInitrd"] ∈ written env args t :=
      mem_written_uInitrd (by rw [ha]; rfl)
    have hc := cpF_copied (h.notDir (by omega) _ hmem) hm
    exact ⟨h.replaced.copied hmem (hplain.free _ hmem) hc,
      fun _ p hp => hc.notDir p (h.notDir (by omega) p hp),
      fun hdtb => hc.notDir _ (h.dtbNotDir hdtb), fun _ => hc.files _ (h.zImage le_rfl),
      fun _ _ => hc.file, by omega⟩
  · refine ⟨h.replaced, fun _ => h.notDir (by omega), h.dtbNotDir, fun _ => h.zImage le_rfl, ?_,
      by omega⟩
    intro _ hinitrd
    rw [ha] at hinitrd
    cases hinitrd

theorem stage_mkdir {m m' : Machine} (hplain : Plain env args t)
    (hrel : args.dtbPath.isSome = true → dtbRelpath env args t ≠ []) (h : Stage env args t 2 m)
    (hok : forArg env args.dtbPath
      (fun _ => mkdirP (boot env args ++ (dtbRelpath env args t).dropLast)) m = .ok m') :
    Stage env args t 3 m' := by
  rcases forArg_ok hok with ⟨src, ha, hm⟩ | ⟨ha, rfl⟩
  · have hdtb : args.dtbPath.isSome = true := by rw [ha]; rfl
    have hparent : (dtb env args t).dropLast =
        boot env args ++ (dtbRelpath env args t).dropLast :=
      List.dropLast_append_of_ne_nil (hrel hdtb)
    rw [← hparent] at hm
    have hd := (fsStep_ok hm).1
    refine ⟨h.replaced.mkdirP hdtb (hplain.free _ (mem_written_dtb hdtb)) hm, by omega, ?_,
      fun _ => Tree.mkdirs_isFile hd (h.zImage (by omega)),
      fun _ hinitrd => Tree.mkdirs_isFile hd (h.uInitrd le_rfl hinitrd), by omega⟩
    intro _
    rw [Tree.mkdirs_of_not_prefix hd]
    · exact h.dtbNotDir hdtb
    · intro hpre
      have hlen := hpre.length_le
      have hpos : 0 < (dtbRelpath env args t).length := List.length_pos_iff.mpr (hrel hdtb)
      rw [List.length_dropLast, dtb, List.length_append] at hlen
      omega
  · exact ⟨h.replaced, by omega, h.dtbNotDir, fun _ => h.zImage (by omega),
      fun _ => h.uInitrd le_rfl, by omega⟩

theorem stage_dtb {m m' : Machine} (hplain : Plain env args t) (h : Stage env args t 3 m)
    (hok : forArg env args.dtbPath
      (fun src => cpF src (boot env args ++ dtbRelpath env args t)) m = .ok m') :
    Stage env args t 4 m' := by
  rcases forArg_ok hok with ⟨src, ha, hm⟩ | ⟨ha, rfl⟩
  · have hdtb : args.dtbPath.isSome = true := by rw [ha]; rfl
    have hmem : dtb env args t ∈ written env args t := mem_written_dtb hdtb
    have hc := cpF_copied (h.dtbNotDir hdtb) hm
    exact ⟨h.replaced.copied hmem (hplain.free _ hmem) hc, by omega,
      fun _ => hc.notDir _ (h.dtbNotDir hdtb), fun _ => hc.files _ (h.zImage (by omega)),
      fun _ hinitrd => hc.files _ (h.uInitrd (by omega) hinitrd), fun _ _ => hc.file⟩
  · refine ⟨h.replaced, by omega, h.dtbNotDir, fun _ => h.zImage (by omega),
      fun _ => h.uInitrd (by omega), ?_⟩
    intro _ hdtb
    rw [ha] at hdtb
    cases hdtb

theorem stage_step (hplain : Plain env args t) (hkernel : args.kernelPath.isSome = true)
    (hrel : args.dtbPath.isSome = true → dtbRelpath env args t ≠ []) {i : ℕ}
    (hi : i < (replaceSteps env args (dtbRelpath env args t)).length) {m m' : Machine}
    (h : Stage env args t i m)
    (hok : (replaceSteps env args (dtbRelpath env args t))[i] m = .ok m') :
    Stage env args t (i + 1) m' := by
  have hcases : i = 0 ∨ i = 1 ∨ i = 2 ∨ i = 3 := by
    simp only [replaceSteps, List.length_cons, List.length_nil] at hi
    omega
  rcases hcases with rfl | rfl | rfl | rfl
  · exact stage_kernel hplain hkernel h hok
  · exact stage_initrd hplain h hok
  · exact stage_mkdir hplain hrel h hok
  · exact stage_dtb hplain h hok

theorem checks_none {m : Machine} (h : checks env args m.fs = none) :
    args.kernelPath.isSome = true ∧ m.fs.node (boot env args) = some .dir ∧
      (args.dtbPath.isSome = true → dtbRelpath env args m.fs ≠ []) ∧
        (unconfirmed m.fs = true → args.force = true) := by
  have hall := List.findSome?_eq_none_iff.mp h
  simp only [List.mem_cons, List.not_mem_nil, or_false, forall_eq_or_imp, forall_eq, id_eq,
    ite_eq_right_iff, reduceCtorEq, imp_false] at hall
  obtain ⟨-, hkernel, -, -, -, hboot, -, hrel, hforce⟩ := hall
  refine ⟨by simpa [Option.isSome_iff_ne_none] using hkernel, by simpa [Tree.isDir, boot] using hboot, ?_, ?_⟩
  · intro hdtb hnil
    exact hrel ⟨hdtb, hnil⟩
  · intro hun
    by_contra hne
    exact hforce ⟨hun, by simpa using hne⟩

def installPrefix (n : ℕ) (env : Env) (args : Args) (m : Machine) : Option String × Machine :=
  match checks env args m.fs with
  | some e => (some e, m)
  | none => exec ((installSteps env args m.fs).take n) m

theorem install_prefix {m : Machine} (hplain : Plain env args m.fs) (n : ℕ) :
    (∀ p, own p = false → (installPrefix n env args m).2.fs.node p = m.fs.node p) ∨
      ∃ i, Stage env args m.fs i (installPrefix n env args m).2 := by
  unfold installPrefix
  cases hchecks : checks env args m.fs with
  | some e => exact .inl fun _ _ => rfl
  | none =>
    obtain ⟨hkernel, hboot, hrel, -⟩ := checks_none hchecks
    have hstart : Untouched m.fs (boot env args) m := ⟨fun _ _ => rfl, hboot⟩
    rcases exec_take_append (armSteps env args (dtbRelpath env args m.fs))
      (replaceSteps env args (dtbRelpath env args m.fs)) n m with ⟨k, hk⟩ | ⟨k, hnone, hk⟩
    · refine .inl fun p hp => ?_
      have hkeep := exec_keeps (I := Untouched m.fs (boot env args))
        ((armSteps env args (dtbRelpath env args m.fs)).take k)
        (fun f hf s s' hs hok => armSteps_untouched env args (dtbRelpath env args m.fs)
          (List.mem_of_mem_take hf) hs hok) hstart
      simp only [installSteps, hk]
      exact hkeep.1 p hp
    · obtain ⟨harmed, huntouched⟩ := armed_of_exec hplain hboot hrel (Prod.ext hnone rfl)
      obtain ⟨i, -, hi, -⟩ := exec_stages (I := Stage env args m.fs)
        ((replaceSteps env args (dtbRelpath env args m.fs)).take k)
        (fun i hi s s' hs hok => by
          rw [List.getElem_take] at hok
          exact stage_step hplain hkernel hrel _ hs hok)
        (stage_zero hplain harmed huntouched)
      refine .inr ⟨i, ?_⟩
      simp only [installSteps, hk]
      exact hi

theorem install_done {m m' : Machine} (hplain : Plain env args m.fs)
    (h : installTestBoot env args m = (none, m')) : Stage env args m.fs 4 m' := by
  unfold installTestBoot at h
  cases hchecks : checks env args m.fs with
  | some e =>
    rw [hchecks] at h
    cases h
  | none =>
    rw [hchecks] at h
    obtain ⟨hkernel, hboot, hrel, -⟩ := checks_none hchecks
    simp only [installSteps] at h
    rw [exec_append] at h
    split_ifs at h with hnone
    · obtain ⟨harmed, huntouched⟩ := armed_of_exec hplain hboot hrel
        (Prod.ext (Option.isNone_iff_eq_none.mp hnone) rfl)
      obtain ⟨i, -, hi, hall⟩ := exec_stages (I := Stage env args m.fs)
        (replaceSteps env args (dtbRelpath env args m.fs))
        (fun i hi s s' hs hok => stage_step hplain hkernel hrel hi hs hok)
        (stage_zero hplain harmed huntouched)
      rw [h] at hi hall
      rw [hall rfl] at hi
      exact hi
    · rw [h] at hnone
      exact absurd rfl hnone

/-! ## The rollback -/

def bootFiles (env : Env) (args : Args) (t : Tree String Content) : List Path :=
  [boot env args ++ ["zImage"], boot env args ++ ["uInitrd"], boot env args ++ ["uEnv.txt"]] ++
    if args.dtbPath.isSome then [dtb env args t] else []

theorem mem_bootFiles {p : Path} (h : p ∈ written env args t) : p ∈ bootFiles env args t := by
  simp only [written, bootFiles, List.mem_append] at h ⊢
  rcases h with (h | h) | h
  · exact .inl (by simp_all)
  · exact .inl (by split_ifs at h <;> simp_all)
  · exact .inr h

def putBack (t : Tree String Content) (ps : List Path) (node : Path → Option (Node Content))
    (p : Path) : Option (Node Content) :=
  if p ∈ ps ∧ t.isFile p = true then t.node p else node p

theorem putBack_append (t : Tree String Content) (ps qs : List Path)
    (node : Path → Option (Node Content)) :
    putBack t qs (putBack t ps node) = putBack t (ps ++ qs) node := by
  funext p
  simp only [putBack, List.mem_append]
  split_ifs <;> simp_all

theorem backed_isFile (t : Tree String Content) (p : Path) :
    isFileNode (backed t p) = t.isFile p := by
  unfold backed
  split_ifs with h
  · rfl
  · rw [Bool.not_eq_true] at h
    rw [h]
    rfl

theorem Backed.restore {m : Machine} {src dst : Path} (h : Backed env args t m)
    (hsrc : m.fs.node src = backed t dst) (hown : own src = true) (hdst : own dst = false) :
    ∃ m', cpIfFile src dst m = .ok m' ∧ Backed env args t m' ∧
      m'.fs.node = putBack t [dst] m.fs.node := by
  have hfile : m.fs.isFile src = t.isFile dst := by
    rw [Tree.isFile, hsrc, backed_isFile]
  by_cases ht : t.isFile dst = true
  · have hm : m.fs.isFile dst = true := h.kept dst hdst ht
    obtain ⟨c, hc⟩ := isFileNode_iff.mp (hfile.trans ht)
    obtain ⟨u, hu⟩ := Tree.copy_eq_some hc (Tree.not_dir_of_isFile hm)
      (Tree.parent_of_isFile hm) (ne_of_own hown hdst).symm
    have hok : cpF src dst m = .ok { m with fs := u } := fsStep_eq hu
    have hcopied := cpF_copied (Tree.not_dir_of_isFile hm) hok
    refine ⟨_, (if_pos (hfile.trans ht)).trans hok, ?_, ?_⟩
    · exact h.of_guarded (fun p hp _ => hcopied.others p (ne_of_own (guarded_own hp) hdst))
        fun p _ => hcopied.files p
    · funext p
      show u.node p = _
      rw [Tree.copy_node hu (Tree.not_dir_of_isFile hm), hsrc, backed, if_pos ht, putBack]
      by_cases hp : p = dst
      · subst hp
        simp [ht]
      · simp [hp]
  · refine ⟨m, if_neg (by rwa [hfile]), h, ?_⟩
    funext p
    rw [putBack, if_neg]
    rintro ⟨hp, hfilep⟩
    rw [List.mem_singleton] at hp
    exact ht (hp ▸ hfilep)

def savedState (env : Env) (args : Args) (t : Tree String Content) : SavedState :=
  ⟨args.bootDir, args.bootDir.append (backupNames env), dtbRelpath env args t⟩

theorem restoreSteps_eq (habs : args.bootDir.absolute = true) (env' : Env) :
    restoreSteps env' (savedState env args t) =
      [cpIfFile (backup env args ++ ["zImage"]) (boot env args ++ ["zImage"]),
        cpIfFile (backup env args ++ ["uInitrd"]) (boot env args ++ ["uInitrd"]),
        cpIfFile (backup env args ++ ["uEnv.txt"]) (boot env args ++ ["uEnv.txt"]),
        restoreDtb (dtbRelpath env args t) (backup env args) (boot env args)] := by
  simp [restoreSteps, savedState, PathArg.resolve, PathArg.append, boot, backup, habs]

/-- The directories of the device tree are there when the device tree was. -/
theorem Backed.restoreDtb {m : Machine} (hplain : Plain env args t) (h : Backed env args t m) :
    ∃ m', HdmiTestBoot.restoreDtb (dtbRelpath env args t) (backup env args) (boot env args) m =
        .ok m' ∧ Backed env args t m' ∧
      m'.fs.node =
        putBack t (if args.dtbPath.isSome then [HdmiRollback.dtb env args t] else []) m.fs.node := by
  have hnode := h.dtb
  by_cases hdtb : args.dtbPath.isSome = true
  · rw [if_pos hdtb] at hnode ⊢
    have hown := hplain.free _ (mem_written_dtb hdtb)
    have hfile : m.fs.isFile (backup env args ++ ["dtb"]) =
        t.isFile (HdmiRollback.dtb env args t) := by
      rw [Tree.isFile, hnode, backed_isFile]
    have hstep : HdmiTestBoot.restoreDtb (dtbRelpath env args t) (backup env args)
        (boot env args) m =
        cpIfFile (backup env args ++ ["dtb"]) (HdmiRollback.dtb env args t) m := by
      unfold HdmiTestBoot.restoreDtb cpIfFile
      by_cases ht : t.isFile (HdmiRollback.dtb env args t) = true
      · have hparent : m.fs.node (boot env args ++ (dtbRelpath env args t).dropLast) =
            some .dir := by
          rw [← List.dropLast_append_of_ne_nil (h.named hdtb)]
          exact Tree.parent_of_isFile (h.kept _ hown ht)
        have hmk : mkdirP (boot env args ++ (dtbRelpath env args t).dropLast) m = .ok m :=
          fsStep_eq (Tree.mkdirs_self hparent)
        rw [if_pos ⟨h.named hdtb, hfile.trans ht⟩, if_pos (hfile.trans ht), hmk]
        rfl
      · rw [if_neg fun hcond => ht (hfile.symm.trans hcond.2), if_neg (by rwa [hfile])]
    rw [hstep]
    exact h.restore hnode (backup_own _) hown
  · rw [if_neg hdtb] at hnode ⊢
    refine ⟨m, if_neg ?_, h, ?_⟩
    · rintro ⟨-, hcond⟩
      rw [Tree.isFile, hnode] at hcond
      cases hcond
    · funext p
      simp [putBack]

theorem restore_spec {m : Machine} (hplain : Plain env args t) (h : Backed env args t m)
    (env' : Env) : ∃ m', exec (restoreSteps env' (savedState env args t)) m = (none, m') ∧
      Backed env args t m' ∧ m'.fs.node = putBack t (bootFiles env args t) m.fs.node := by
  have hownZ := hplain.free _ mem_written_zImage
  obtain ⟨m₁, h₁, harmed₁, hput₁⟩ := h.restore h.zImage (backup_own _) hownZ
  obtain ⟨m₂, h₂, harmed₂, hput₂⟩ :=
    harmed₁.restore harmed₁.uInitrd (backup_own _) (own_bootFile hownZ (.inl rfl))
  obtain ⟨m₃, h₃, harmed₃, hput₃⟩ :=
    harmed₂.restore harmed₂.uEnv (backup_own _) (own_bootFile hownZ (.inr rfl))
  obtain ⟨m₄, h₄, harmed₄, hput₄⟩ := harmed₃.restoreDtb hplain
  refine ⟨m₄, ?_, harmed₄, ?_⟩
  · rw [restoreSteps_eq hplain.absolute, exec_cons_ok h₁, exec_cons_ok h₂, exec_cons_ok h₃,
      exec_cons_ok h₄, exec_nil]
  · rw [hput₄, hput₃, hput₂, hput₁, putBack_append, putBack_append, putBack_append]
    rfl

theorem disable_spec {m : Machine} (hservice : m.fs.node servicePath ≠ some .dir) (env' : Env) :
    ∃ m', exec (disableService env') m = (none, m') ∧
      (∀ p, p ≠ servicePath → m'.fs.node p = m.fs.node p) ∧
        m'.fs.node servicePath ≠ some .dir := by
  unfold disableService
  split_ifs with hsystemd
  · obtain ⟨u, hu⟩ := Tree.remove_eq_some hservice
    refine ⟨⟨u, false⟩, ?_, ?_, ?_⟩
    · have hrm : rmF servicePath ⟨m.fs, false⟩ = .ok ⟨u, false⟩ := fsStep_eq hu
      have hset : setEnabled false m = .ok ⟨m.fs, false⟩ := rfl
      rw [exec_cons_ok hset, exec_cons_ok hrm, exec_nil]
    · intro p hp
      rw [Tree.remove_node hu, if_neg hp]
    · show u.node servicePath ≠ _
      rw [Tree.remove_node hu, if_pos rfl]
      simp
  · exact ⟨m, rfl, fun _ _ => rfl, hservice⟩

theorem Backed.loadState {m : Machine} (h : Backed env args t m) :
    loadState m.fs = .ok (savedState env args t) := by
  simp only [HdmiTestBoot.loadState, h.state]
  rfl

theorem own_of_mem_bootFiles (hplain : Plain env args t) {p : Path}
    (hp : p ∈ bootFiles env args t) : own p = false := by
  have hownZ := hplain.free _ mem_written_zImage
  simp only [bootFiles, List.mem_append, List.mem_cons, List.not_mem_nil, or_false] at hp
  rcases hp with (rfl | rfl | rfl) | hp
  · exact hownZ
  · exact own_bootFile hownZ (.inl rfl)
  · exact own_bootFile hownZ (.inr rfl)
  · split_ifs at hp with hdtb
    · rw [List.mem_singleton.mp hp]
      exact hplain.free _ (mem_written_dtb hdtb)
    · cases hp

structure Restored (env : Env) (args : Args) (t : Tree String Content) (m m' : Machine) :
    Prop where
  backed : Backed env args t m'
  service : m'.fs.node servicePath ≠ some .dir
  node : ∀ p, p ≠ servicePath → m'.fs.node p = putBack t (bootFiles env args t) m.fs.node p

theorem restored_of_disable {m m₁ : Machine} (hplain : Plain env args t)
    (hbacked : Backed env args t m₁)
    (hput : ∀ p, m₁.fs.node p = putBack t (bootFiles env args t) m.fs.node p)
    (hservice : m.fs.node servicePath ≠ some .dir) (env' : Env) :
    ∃ m', exec (disableService env') m₁ = (none, m') ∧ Restored env args t m m' := by
  have hservice₁ : m₁.fs.node servicePath ≠ some .dir := by
    rw [hput, putBack, if_neg]
    · exact hservice
    · intro hcond
      have hown := own_of_mem_bootFiles hplain hcond.1
      exact absurd hown (by decide)
  obtain ⟨m', hm', hsame, hgone⟩ := disable_spec hservice₁ env'
  refine ⟨m', hm', hbacked.of_guarded (fun p _ hp => hsame p hp) ?_, hgone, ?_⟩
  · intro p hp hfile
    rwa [Tree.isFile, hsame p (ne_of_own (by decide) hp).symm]
  · intro p hp
    rw [hsame p hp, hput]

theorem rollback_spec {m : Machine} (hplain : Plain env args t) (h : Backed env args t m)
    (hservice : m.fs.node servicePath ≠ some .dir) {env' : Env} (hroot : env'.root = true) :
    (∃ m', serviceRollback env' m = (none, m') ∧ Restored env args t m m') ∧
      ∃ m', manualRollback env' m = (none, m') ∧ Restored env args t m m' := by
  obtain ⟨m₁, h₁, hbacked, hput⟩ := restore_spec hplain h env'
  have hconfirm : m.fs.isFile confirmFile = false := by
    rw [Tree.isFile, h.confirm]
    rfl
  refine ⟨?_, ?_⟩
  · obtain ⟨m', hm', hrestored⟩ :=
      restored_of_disable hplain hbacked (congrFun hput) hservice env'
    refine ⟨m', ?_, hrestored⟩
    simp only [serviceRollback, hroot, Bool.not_true, Bool.false_eq_true, if_false, h.loadState,
      hconfirm]
    rw [exec_append, h₁]
    exact hm'
  · obtain ⟨u, hu⟩ : ∃ u, m₁.fs.remove confirmFile = some u := by
      refine Tree.remove_eq_some ?_
      rw [hbacked.confirm]
      simp
    have hnode : ∀ p, u.node p = m₁.fs.node p := by
      intro p
      rw [Tree.remove_node hu]
      split_ifs with hp
      · rw [hp, hbacked.confirm]
      · rfl
    have hrm : rmF confirmFile m₁ = .ok { m₁ with fs := u } := fsStep_eq hu
    have hbacked' : Backed env args t { m₁ with fs := u } :=
      hbacked.of_guarded (fun p _ _ => hnode p) fun p _ hp => by rwa [Tree.isFile, hnode]
    obtain ⟨m', hm', hrestored⟩ := restored_of_disable hplain hbacked'
      (fun p => (hnode p).trans (congrFun hput p)) hservice env'
    refine ⟨m', ?_, hrestored⟩
    simp only [manualRollback, hroot, Bool.not_true, Bool.false_eq_true, if_false, h.loadState]
    rw [List.append_assoc, exec_append, h₁]
    simp only [Option.isNone_none, if_true, List.cons_append, List.nil_append]
    rw [exec_cons_ok hrm, hm']

theorem Armed.service_not_dir {m : Machine} (h : Armed env args t m) :
    m.fs.node servicePath ≠ some .dir := by
  rw [h.service]
  simp

/-! ## Stopping anywhere -/

theorem Replaced.file_or {m : Machine} {p : Path} (h : Replaced env args t m)
    (hp : own p = false) (ht : t.isFile p = true) :
    putBack t (bootFiles env args t) m.fs.node p = t.node p := by
  unfold putBack
  split_ifs with hput
  · rfl
  · have hnot : p ∉ written env args t := fun hmem => hput ⟨mem_bootFiles hmem, ht⟩
    rcases h.others p hnot hp with hsame | ⟨hnone, -⟩
    · exact hsame
    · rw [Tree.isFile, hnone] at ht
      cases ht

/-- However far the install gets: if a file has changed, the rollback is in place and puts every
file back. -/
def CrashSafe (env : Env) (args : Args) (m : Machine) : Prop :=
  ∀ n, (∃ p, own p = false ∧ m.fs.isFile p = true ∧
      (installPrefix n env args m).2.fs.node p ≠ m.fs.node p) →
    Armed env args m.fs (installPrefix n env args m).2 ∧
      ∀ env' : Env, env'.root = true → ∀ p, own p = false → m.fs.isFile p = true →
        (serviceRollback env' (installPrefix n env args m).2).2.fs.node p = m.fs.node p

theorem install_crashSafe {m : Machine} (hplain : Plain env args m.fs) :
    CrashSafe env args m := by
  rintro n ⟨q, hq, -, hchanged⟩
  rcases install_prefix hplain n with hsame | ⟨i, hstage⟩
  · exact absurd (hsame q hq) hchanged
  · refine ⟨hstage.replaced.armed, ?_⟩
    intro env' hroot p hp hfile
    obtain ⟨⟨m', hm', hrestored⟩, -⟩ := rollback_spec hplain
      hstage.replaced.armed.toBacked hstage.replaced.armed.service_not_dir hroot
    rw [hm', hrestored.node p (ne_of_own (by decide) hp).symm]
    exact hstage.replaced.file_or hp hfile

/-! ## Rollback of a whole install -/

def RolledBack (env : Env) (args : Args) (t t' : Tree String Content) : Prop :=
  ∀ p ∈ written env args t, t'.node p = t.node p

/-- A file that was not there before is not taken away. -/
theorem rolledBack_iff {m m₁ : Machine} (hplain : Plain env args m.fs)
    (hdone : installTestBoot env args m = (none, m₁)) {env' : Env} (hroot : env'.root = true) :
    RolledBack env args m.fs (serviceRollback env' m₁).2.fs ↔
      ∀ p ∈ written env args m.fs, m.fs.isFile p = true := by
  have hstage := install_done hplain hdone
  obtain ⟨⟨m', hm', hrestored⟩, -⟩ := rollback_spec hplain hstage.replaced.armed.toBacked
    hstage.replaced.armed.service_not_dir hroot
  have hnode : ∀ p ∈ written env args m.fs,
      (serviceRollback env' m₁).2.fs.node p =
        putBack m.fs (bootFiles env args m.fs) m₁.fs.node p := by
    intro p hp
    rw [hm', hrestored.node p (ne_of_own (by decide) (hplain.free p hp)).symm]
  have hnew : ∀ p ∈ written env args m.fs, m₁.fs.isFile p = true := by
    intro p hp
    simp only [written, List.mem_append, List.mem_singleton] at hp
    rcases hp with (rfl | hp) | hp
    · exact hstage.zImage (by omega)
    · split_ifs at hp with hinitrd
      · rw [List.mem_singleton.mp hp]
        exact hstage.uInitrd (by omega) hinitrd
      · cases hp
    · split_ifs at hp with hdtb
      · rw [List.mem_singleton.mp hp]
        exact hstage.dtb le_rfl hdtb
      · cases hp
  constructor
  · intro hback p hp
    by_contra hno
    have hsame := hback p hp
    rw [hnode p hp, putBack, if_neg fun hcond => hno hcond.2] at hsame
    rw [Tree.isFile, ← hsame] at hno
    exact hno (hnew p hp)
  · intro hall p hp
    rw [hnode p hp, putBack, if_pos ⟨mem_bootFiles hp, hall p hp⟩]

/-! ## A board -/

def dirs : List (Path × Node Content) :=
  [["boot"], ["boot", "dtb"], ["usr"], ["usr", "local"], ["usr", "local", "sbin"], ["etc"],
    ["etc", "systemd"], ["etc", "systemd", "system"], ["var"], ["var", "lib"], ["root"]].map
    fun p => (p, .dir)

def newFiles : List (Path × Node Content) :=
  [(["root", "zImage"], .file (.text ["new kernel"])),
    (["root", "uInitrd"], .file (.text ["new initrd"])),
    (["root", "m302a.dtb"], .file (.text ["new tree"]))]

def oldFiles : List (Path × Node Content) :=
  [(["boot", "zImage"], .file (.text ["old kernel"])),
    (["boot", "uEnv.txt"], .file (.text ["FDT=/dtb/m302a.dtb"])),
    (["boot", "dtb", "m302a.dtb"], .file (.text ["old tree"]))]

def board : Machine where
  fs := Tree.ofList (dirs ++ newFiles ++ oldFiles) (by decide +kernel)
  enabled := false

def kernelArgs : Args := { kernelPath := some ⟨true, ["root", "zImage"]⟩ }

def treeArgs : Args := { kernelArgs with dtbPath := some ⟨true, ["root", "m302a.dtb"]⟩ }

def noon : Env := { date := "20260801T120000Z" }

theorem plain_treeArgs : Plain noon treeArgs board.fs where
  absolute := rfl
  fresh := by decide +kernel
  free := by decide +kernel
  notDir := by decide +kernel

theorem install_crashSafe_board : CrashSafe noon treeArgs board :=
  install_crashSafe plain_treeArgs

/-- The path of the device tree names its directory, so that the copy goes below it. -/
def dirArgs : Args := { treeArgs with dtbRelpath := ["dtb"] }

def hereArgs : Args := { kernelArgs with bootDir := ⟨false, []⟩ }

def inBoot : Env := { noon with cwd := ["boot"] }

theorem not_crashSafe : unconfirmed board.fs = false ∧ ¬ CrashSafe noon dirArgs board ∧
    ¬ CrashSafe inBoot hereArgs board := by
  refine ⟨by decide +kernel, ?_, ?_⟩ <;> intro h
  · have hback := (h 20 ⟨["boot", "dtb", "m302a.dtb"], by decide +kernel, by decide +kernel,
      by decide +kernel⟩).2 noon rfl ["boot", "dtb", "m302a.dtb"] (by decide +kernel)
      (by decide +kernel)
    exact absurd hback (by decide +kernel)
  · have hback := (h 20 ⟨["boot", "zImage"], by decide +kernel, by decide +kernel,
      by decide +kernel⟩).2 noon rfl ["boot", "zImage"] (by decide +kernel) (by decide +kernel)
    exact absurd hback (by decide +kernel)

theorem rolledBack_iff_board : RolledBack noon treeArgs board.fs
      (serviceRollback noon (installTestBoot noon treeArgs board).2).2.fs ↔
    ∀ p ∈ written noon treeArgs board.fs, board.fs.isFile p = true :=
  rolledBack_iff plain_treeArgs (Prod.ext (by decide +kernel) rfl) rfl

def initrdArgs : Args := { kernelArgs with initrdPath := some ⟨true, ["root", "uInitrd"]⟩ }

/-- The initrd of the test stays. -/
theorem initrd_not_rolledBack : (installTestBoot noon initrdArgs board).1 = none ∧
    ¬ RolledBack noon initrdArgs board.fs
      (serviceRollback noon (installTestBoot noon initrdArgs board).2).2.fs := by
  refine ⟨by decide +kernel, ?_⟩
  unfold RolledBack
  decide +kernel

end Rtl8189.HdmiRollback
