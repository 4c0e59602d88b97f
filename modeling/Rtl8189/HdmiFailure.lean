import Rtl8189.HdmiHistory

/-!
# An install that fails

Before the first boot file is overwritten an install can be refused by a check, or any of its
steps can fail. What the steps before have done stays.
-/
namespace Rtl8189.HdmiFailure

open FileTree StepList HdmiTestBoot HdmiRollback HdmiHistory

variable {env : Env} {args : Args} {m m' : Machine}

/-- Refused by a check, or stopped behind the first `n` steps, at the copy of the kernel at the
latest. -/
inductive Fails (env : Env) (args : Args) (m : Machine) : Option ℕ → Machine → Prop
  | refused (h : (checks env args m.fs).isSome = true) : Fails env args m none m
  | stopped {n : ℕ} {m' : Machine} (h : checks env args m.fs = none)
      (hn : n ≤ (armSteps env args (dtbRelpath env args m.fs)).length)
      (hrun : exec ((installSteps env args m.fs).take n) m = (none, m')) :
      Fails env args m (some n) m'

def Installers (env : Env) (args : Args) (p : Path) : Prop :=
  backup env args <+: p ∨ p ∈ [stateFile, confirmFile, servicePath, installPath]

structure Unchanged (env : Env) (args : Args) (m m' : Machine) : Prop where
  state : m'.fs.node stateFile = m.fs.node stateFile
  confirm : m'.fs.node confirmFile = m.fs.node confirmFile
  service : m'.fs.node servicePath = m.fs.node servicePath
  enabled : m'.enabled = m.enabled
  files : ∀ p, ¬ Installers env args p → backed m'.fs p = backed m.fs p

/-- What the steps before the one that fails write is there already. -/
structure Idle (env : Env) (args : Args) (m : Machine) (n : ℕ) : Prop where
  confirm : 2 ≤ n → m.fs.node confirmFile = none
  state : 9 ≤ n → m.fs.node stateFile = some (.file (.state (savedState env args m.fs)))
  service : 11 ≤ n → m.fs.node servicePath = some (.file .unit)
  enabled : 12 ≤ n → m.enabled = true

/-! ## What a step can write -/

theorem mkdirs_backup_node {t t' : Tree String Content} {p : Path}
    (hboot : t.node (boot env args) = some .dir) (hp : "hdmi-test-backups" ∉ p)
    (h : t.mkdirs (backup env args) = some t') : t'.node p = t.node p := by
  by_cases hpre : p <+: backup env args
  · have hdir : t.node p = some .dir := by
      have hb := (prefix_backup hpre).resolve_right hp
      by_cases heq : p = boot env args
      · rw [heq, hboot]
      · exact t.dir_of_prefix (by rw [hboot]; exact Option.some_ne_none _) hb heq
    exact Tree.mkdirs_of_some h (by rw [hdir]; exact Option.some_ne_none _)
  · exact Tree.mkdirs_of_not_prefix h hpre

def Kept (env : Env) (args : Args) (m m' : Machine) (p : Path) : Prop :=
  m'.fs.node p = m.fs.node p ∨
    (m.fs.node p = none ∧ m'.fs.node p = some .dir ∧
      (p <+: stateDir ∨ "hdmi-test-backups" ∈ p)) ∨
    backup env args <+: p

theorem kept_backed {p : Path} (h : Kept env args m m' p) (hp : ¬ backup env args <+: p) :
    backed m'.fs p = backed m.fs p := by
  rcases h with hsame | ⟨hnone, hdir, -⟩ | hin
  · rw [backed, backed, Tree.isFile, Tree.isFile, hsame]
  · rw [backed, backed, Tree.isFile, Tree.isFile, hnone, hdir]
    rfl
  · exact absurd hin hp

theorem kept_node {p : Path} (h : Kept env args m m' p) (hstate : ¬ p <+: stateDir)
    (hp : "hdmi-test-backups" ∉ p) : m'.fs.node p = m.fs.node p := by
  rcases h with hsame | ⟨-, -, hin | hin⟩ | hin
  · exact hsame
  · exact absurd hin hstate
  · exact absurd hin hp
  · exact absurd (hin.subset (by simp [backup, backupNames])) hp

theorem mkdirP_stateDir_kept (h : mkdirP stateDir m = .ok m') (p : Path) :
    Kept env args m m' p := by
  rw [Kept, Tree.mkdirs_node (fsStep_ok h).1]
  split_ifs with hnew
  · exact .inr (.inl ⟨Option.isNone_iff_eq_none.mp hnew.2, rfl, .inl hnew.1⟩)
  · exact .inl rfl

theorem mkdirP_backup_kept (hboot : m.fs.node (boot env args) = some .dir)
    (h : mkdirP (backup env args) m = .ok m') (p : Path) : Kept env args m m' p := by
  by_cases hp : "hdmi-test-backups" ∈ p
  · rw [Kept, Tree.mkdirs_node (fsStep_ok h).1]
    split_ifs with hnew
    · exact .inr (.inl ⟨Option.isNone_iff_eq_none.mp hnew.2, rfl, .inr hp⟩)
    · exact .inl rfl
  · exact .inl (mkdirs_backup_node hboot hp (fsStep_ok h).1)

theorem cpF_backup_kept {src : Path} {n : String}
    (h : cpF src (backup env args ++ [n]) m = .ok m') (p : Path) : Kept env args m m' p := by
  obtain ⟨r, c, hr, hw⟩ := Tree.copy_target (fsStep_ok h).1
  have hpre : backup env args <+: r := by
    rcases hr with rfl | ⟨n', rfl⟩
    · exact List.prefix_append _ _
    · exact (List.prefix_append _ _).trans (List.prefix_append _ _)
  by_cases hp : p = r
  · exact .inr (.inr (hp ▸ hpre))
  · exact .inl (by rw [Tree.write_node hw, if_neg hp])

theorem cpIfFile_backup_kept {src : Path} {n : String}
    (h : cpIfFile src (backup env args ++ [n]) m = .ok m') (p : Path) :
    Kept env args m m' p := by
  unfold cpIfFile at h
  split_ifs at h
  · exact cpF_backup_kept h p
  · obtain rfl := Except.ok.inj h
    exact .inl rfl

theorem redirect_kept {q : Path} {c : Content} (h : redirect q c m = .ok m') {p : Path}
    (hp : p ≠ q) : Kept env args m m' p :=
  .inl (by rw [Tree.write_node (fsStep_ok h).1, if_neg hp])

/-- What step `i` does to the boot directory, the four markers and all other files. -/
structure Writes (env : Env) (args : Args) (s : SavedState) (i : ℕ) (u u' : Machine) : Prop where
  boot : u'.fs.node (boot env args) = some .dir
  files : ∀ p, ¬ Installers env args p → Kept env args u u' p
  confirm : u'.fs.node confirmFile = if i = 1 then none else u.fs.node confirmFile
  state : u'.fs.node stateFile =
    if i = 8 then some (.file (.state s)) else u.fs.node stateFile
  service : u'.fs.node servicePath =
    if i = 10 then some (.file .unit) else u.fs.node servicePath
  enabled : u'.enabled = if i = 11 then true else u.enabled

section Step

variable {s : SavedState} {i : ℕ} {u u' : Machine}

theorem writes_of_kept (hi : i ≠ 1 ∧ i ≠ 8 ∧ i ≠ 10 ∧ i ≠ 11)
    (hk : ∀ p, p ≠ installPath → Kept env args u u' p)
    (hdir : u'.fs.node (boot env args) = some .dir) (hen : u'.enabled = u.enabled) :
    Writes env args s i u u' := by
  obtain ⟨h1, h8, h10, h11⟩ := hi
  refine ⟨hdir, fun p hp => hk p ?_, ?_, ?_, ?_, ?_⟩
  · rintro rfl
    exact hp (.inr (by simp))
  · rw [if_neg h1]
    exact kept_node (hk _ (by decide)) (by decide) (by decide)
  · rw [if_neg h8]
    exact kept_node (hk _ (by decide)) (by decide) (by decide)
  · rw [if_neg h10]
    exact kept_node (hk _ (by decide)) (by decide) (by decide)
  · rw [if_neg h11, hen]

theorem kept_boot (hboot : u.fs.node (boot env args) = some .dir)
    (h : Kept env args u u' (boot env args)) : u'.fs.node (boot env args) = some .dir := by
  rcases h with hsame | ⟨hnone, -⟩ | hin
  · rw [hsame, hboot]
  · rw [hboot] at hnone
    cases hnone
  · have hlen := hin.length_le
    rw [backup, List.length_append] at hlen
    simp only [backupNames, List.length_cons] at hlen
    omega

theorem writes_of_all_kept (hboot : u.fs.node (boot env args) = some .dir)
    (hi : i ≠ 1 ∧ i ≠ 8 ∧ i ≠ 10 ∧ i ≠ 11) (hk : ∀ p, Kept env args u u' p)
    (hen : u'.enabled = u.enabled) : Writes env args s i u u' :=
  writes_of_kept hi (fun p _ => hk p) (kept_boot hboot (hk _)) hen

theorem writes_of_same (hboot : u.fs.node (boot env args) = some .dir)
    (hi : i ≠ 1 ∧ i ≠ 8 ∧ i ≠ 10 ∧ i ≠ 11) (h : Except.ok u = Except.ok (ε := String) u') :
    Writes env args s i u u' := by
  obtain rfl := Except.ok.inj h
  exact writes_of_all_kept hboot hi (fun _ => .inl rfl) rfl

theorem cpIfFile_enabled {src dst : Path} (h : cpIfFile src dst u = .ok u') :
    u'.enabled = u.enabled := by
  unfold cpIfFile at h
  split_ifs at h
  · exact (fsStep_ok h).2
  · obtain rfl := Except.ok.inj h
    rfl

theorem writes_of_cpIfFile {src : Path} {n : String}
    (hboot : u.fs.node (boot env args) = some .dir) (hi : i ≠ 1 ∧ i ≠ 8 ∧ i ≠ 10 ∧ i ≠ 11)
    (h : cpIfFile src (backup env args ++ [n]) u = .ok u') : Writes env args s i u u' :=
  writes_of_all_kept hboot hi (cpIfFile_backup_kept h) (cpIfFile_enabled h)

theorem redirect_dir {q : Path} {c : Content} (hboot : u.fs.node (boot env args) = some .dir)
    (h : redirect q c u = .ok u') : u'.fs.node (boot env args) = some .dir :=
  Tree.write_dir (fsStep_ok h).1 hboot

theorem armStep_writes {t : Tree String Content} (hboot : u.fs.node (boot env args) = some .dir)
    (hi : i < (armSteps env args (dtbRelpath env args t)).length)
    (hok : (armSteps env args (dtbRelpath env args t))[i] u = .ok u') :
    Writes env args (savedState env args t) i u u' := by
  match i, hi, hok with
  | 0, _, hok =>
    have hm : mkdirP stateDir u = .ok u' := hok
    exact writes_of_all_kept hboot (by decide) (mkdirP_stateDir_kept hm) (fsStep_ok hm).2
  | 1, _, hok =>
    have hr : rmF confirmFile u = .ok u' := hok
    have hnode := Tree.remove_node (fsStep_ok hr).1
    refine ⟨Tree.remove_dir (fsStep_ok hr).1 hboot, fun p hp => .inl ?_, ?_, ?_, ?_,
      (fsStep_ok hr).2⟩
    · rw [hnode, if_neg]
      rintro rfl
      exact hp (.inr (by simp))
    · rw [hnode, if_pos rfl, if_pos rfl]
    · rw [hnode]
      rfl
    · rw [hnode]
      rfl
  | 2, _, hok =>
    have hm : mkdirP (backup env args) u = .ok u' := hok
    exact writes_of_all_kept hboot (by decide) (mkdirP_backup_kept hboot hm) (fsStep_ok hm).2
  | 3, _, hok =>
    have hz : checkZImage env args.bootDir u = .ok u' := hok
    unfold checkZImage at hz
    split_ifs at hz
    exact writes_of_same hboot (by decide) hz
  | 4, _, hok =>
    have hc : cpF (boot env args ++ ["zImage"]) (backup env args ++ ["zImage"]) u = .ok u' := hok
    exact writes_of_all_kept hboot (by decide) (cpF_backup_kept hc) (fsStep_ok hc).2
  | 5, _, hok =>
    have hc : cpIfFile (boot env args ++ ["uInitrd"]) (backup env args ++ ["uInitrd"]) u =
      .ok u' := hok
    exact writes_of_cpIfFile hboot (by decide) hc
  | 6, _, hok =>
    have hc : cpIfFile (boot env args ++ ["uEnv.txt"]) (backup env args ++ ["uEnv.txt"]) u =
      .ok u' := hok
    exact writes_of_cpIfFile hboot (by decide) hc
  | 7, _, hok =>
    have hc : (if args.dtbPath.isSome then
      cpIfFile (dtb env args t) (backup env args ++ ["dtb"]) u else .ok u) = .ok u' := hok
    split_ifs at hc
    · exact writes_of_cpIfFile hboot (by decide) hc
    · exact writes_of_same hboot (by decide) hc
  | 8, _, hok =>
    have hw : redirect stateFile (.state (savedState env args t)) u = .ok u' := hok
    have hnode := Tree.write_node (fsStep_ok hw).1
    refine ⟨redirect_dir hboot hw, fun p hp => redirect_kept hw ?_, ?_, ?_, ?_, (fsStep_ok hw).2⟩
    · rintro rfl
      exact hp (.inr (by simp))
    · rw [hnode]
      rfl
    · rw [hnode, if_pos rfl, if_pos rfl]
    · rw [hnode]
      rfl
  | 9, _, hok =>
    have hw : (if env.selfInstalled then .ok u else redirect installPath .script u) = .ok u' := hok
    split_ifs at hw
    · exact writes_of_same hboot (by decide) hw
    · exact writes_of_kept (by decide) (fun p hp => redirect_kept hw hp) (redirect_dir hboot hw)
        (fsStep_ok hw).2
  | 10, _, hok =>
    have hw : redirect servicePath .unit u = .ok u' := hok
    have hnode := Tree.write_node (fsStep_ok hw).1
    refine ⟨redirect_dir hboot hw, fun p hp => redirect_kept hw ?_, ?_, ?_, ?_, (fsStep_ok hw).2⟩
    · rintro rfl
      exact hp (.inr (by simp))
    · rw [hnode]
      rfl
    · rw [hnode]
      rfl
    · rw [hnode, if_pos rfl, if_pos rfl]
  | 11, _, hok =>
    obtain rfl := Except.ok.inj hok
    exact ⟨hboot, fun _ _ => .inl rfl, rfl, rfl, rfl, rfl⟩
  | i + 12, hi, _ =>
    have hlt : i + 12 < 12 := hi
    omega

end Step

/-! ## The steps before the one that fails -/

structure Done (env : Env) (args : Args) (m : Machine) (n : ℕ) (u : Machine) : Prop where
  boot : u.fs.node (boot env args) = some .dir
  files : ∀ p, ¬ Installers env args p → backed u.fs p = backed m.fs p
  confirm : u.fs.node confirmFile = if 2 ≤ n then none else m.fs.node confirmFile
  state : u.fs.node stateFile =
    if 9 ≤ n then some (.file (.state (savedState env args m.fs))) else m.fs.node stateFile
  service : u.fs.node servicePath =
    if 11 ≤ n then some (.file .unit) else m.fs.node servicePath
  enabled : u.enabled = if 12 ≤ n then true else m.enabled

/-- The marker is written by step `k` alone. -/
theorem mark_succ {α : Type*} {k i : ℕ} {x y : α} :
    (if i = k then x else if k + 1 ≤ i then x else y) = if k + 1 ≤ i + 1 then x else y := by
  split_ifs <;> first | rfl | omega

theorem Done.succ {i : ℕ} {u u' : Machine} (h : Done env args m i u)
    (hw : Writes env args (savedState env args m.fs) i u u') : Done env args m (i + 1) u' := by
  refine ⟨hw.boot, ?_, ?_, ?_, ?_, ?_⟩
  · intro p hp
    rw [kept_backed (hw.files p hp) fun hpre => hp (.inl hpre), h.files p hp]
  · rw [hw.confirm, h.confirm, mark_succ]
  · rw [hw.state, h.state, mark_succ]
  · rw [hw.service, h.service, mark_succ]
  · rw [hw.enabled, h.enabled, mark_succ]

theorem done_of_take (hboot : m.fs.node (boot env args) = some .dir) {n : ℕ}
    (hn : n ≤ (armSteps env args (dtbRelpath env args m.fs)).length)
    (hrun : exec ((installSteps env args m.fs).take n) m = (none, m')) :
    Done env args m n m' := by
  rw [installSteps, List.take_append_of_le_length hn] at hrun
  have hlen : ((armSteps env args (dtbRelpath env args m.fs)).take n).length = n := by
    rw [List.length_take, Nat.min_eq_left hn]
  have hstart : Done env args m 0 m := ⟨hboot, fun _ _ => rfl, rfl, rfl, rfl, rfl⟩
  obtain ⟨i, -, hi, hall⟩ := exec_stages (I := Done env args m)
    ((armSteps env args (dtbRelpath env args m.fs)).take n) (by
      intro i hi u u' hu hok
      rw [List.getElem_take] at hok
      exact hu.succ (armStep_writes hu.boot _ hok)) hstart
  rw [hrun] at hi hall
  rw [hall rfl, hlen] at hi
  exact hi

theorem untouched_of_take (hboot : m.fs.node (boot env args) = some .dir) {n : ℕ}
    (hn : n ≤ (armSteps env args (dtbRelpath env args m.fs)).length)
    (hrun : exec ((installSteps env args m.fs).take n) m = (none, m')) :
    Untouched m.fs (boot env args) m' := by
  rw [installSteps, List.take_append_of_le_length hn] at hrun
  have hkeep := exec_keeps (I := Untouched m.fs (boot env args))
    ((armSteps env args (dtbRelpath env args m.fs)).take n)
    (fun f hf _ _ => armSteps_untouched env args _ (List.mem_of_mem_take hf))
    (⟨fun _ _ => rfl, hboot⟩ : Untouched m.fs (boot env args) m)
  rwa [hrun] at hkeep

theorem Done.unchanged_iff {n : ℕ} (h : Done env args m n m') :
    Unchanged env args m m' ↔ Idle env args m n := by
  constructor
  · intro hu
    refine ⟨?_, ?_, ?_, ?_⟩ <;> intro hn
    · rw [← hu.confirm, h.confirm, if_pos hn]
    · rw [← hu.state, h.state, if_pos hn]
    · rw [← hu.service, h.service, if_pos hn]
    · rw [← hu.enabled, h.enabled, if_pos hn]
  · intro hi
    refine ⟨?_, ?_, ?_, ?_, h.files⟩
    · rw [h.state]
      split_ifs with hn
      · exact (hi.state hn).symm
      · rfl
    · rw [h.confirm]
      split_ifs with hn
      · exact (hi.confirm hn).symm
      · rfl
    · rw [h.service]
      split_ifs with hn
      · exact (hi.service hn).symm
      · rfl
    · rw [h.enabled]
      split_ifs with hn
      · exact (hi.enabled hn).symm
      · rfl

/-! ## What the next command answers -/

def named (env : Env) (args : Args) : List Path :=
  boot env args :: (boot env args ++ ["uEnv.txt"]) ::
    ([args.kernelPath, args.initrdPath, args.dtbPath].flatMap Option.toList).map
      (PathArg.resolve env.cwd)

structure SameAnswers (m m' : Machine) : Prop where
  load : loadState m'.fs = loadState m.fs
  pending : unconfirmed m'.fs = unconfirmed m.fs
  confirm : ∀ env : Env, (confirmBoot env m').1 = (confirmBoot env m).1
  install : ∀ (env : Env) (args : Args), (∀ p ∈ named env args, own p = false) →
    checks env args m'.fs = checks env args m.fs

theorem notFile_congr {t t' : Tree String Content} {a : Option PathArg}
    (h : ∀ p ∈ a.toList.map (PathArg.resolve env.cwd), t'.node p = t.node p) :
    notFile env t' a = notFile env t a := by
  cases a with
  | none => rfl
  | some a =>
    have hp := h (a.resolve env.cwd) (by simp)
    rw [notFile, notFile, Option.filter, Option.filter, Tree.isFile, Tree.isFile, hp]

theorem checks_congr {t t' : Tree String Content}
    (h : ∀ p ∈ named env args, t'.node p = t.node p)
    (hpending : unconfirmed t' = unconfirmed t) : checks env args t' = checks env args t := by
  have harg : ∀ a ∈ [args.kernelPath, args.initrdPath, args.dtbPath],
      notFile env t' a = notFile env t a := by
    intro a ha
    refine notFile_congr fun p hp => h p ?_
    obtain ⟨q, hq, rfl⟩ := List.mem_map.mp hp
    refine List.mem_cons_of_mem _ (List.mem_cons_of_mem _ (List.mem_map_of_mem ?_))
    exact List.mem_flatMap.mpr ⟨a, ha, hq⟩
  have hdir : t'.isDir (args.bootDir.resolve env.cwd) = t.isDir (args.bootDir.resolve env.cwd) := by
    rw [Tree.isDir, Tree.isDir, ← boot, h _ List.mem_cons_self]
  have hfdt : dtbRelpath env args t' = dtbRelpath env args t := by
    have huenv := h (args.bootDir.resolve env.cwd ++ ["uEnv.txt"])
      (List.mem_cons_of_mem _ List.mem_cons_self)
    simp only [dtbRelpath, uenvFdtRelpath, huenv]
  rw [checks, checks, harg _ (by simp), harg _ (by simp), harg _ (by simp), hdir, hfdt, hpending]

theorem touch_ok {p : Path} {u : Machine} (h : u.fs.node p.dropLast = some .dir) :
    ∃ u', touch p u = .ok u' ∧ ∀ q, q ≠ p → u'.fs.node q = u.fs.node q := by
  unfold touch
  split_ifs with hsome
  · exact ⟨u, rfl, fun _ _ => rfl⟩
  · rw [Option.isSome_iff_ne_none, not_not] at hsome
    obtain ⟨t, ht⟩ := Tree.write_eq_some (c := Content.empty) h
      (by rw [hsome]; exact (Option.some_ne_none _).symm)
    exact ⟨_, fsStep_eq ht, fun q hq => by rw [Tree.write_node ht, if_neg hq]⟩

theorem service_not_prefix : ¬ servicePath <+: stateDir := by decide

theorem confirm_answer (u : Machine) : (confirmBoot env u).1 =
    if !env.root then some "run as root"
    else if (u.fs.mkdirs stateDir).isSome then
      if env.systemd ∧ u.fs.node servicePath = some .dir then some "rm" else none
    else some "mkdir" := by
  unfold confirmBoot
  by_cases hroot : env.root = true
  · simp only [hroot, Bool.not_true, Bool.false_eq_true, if_false, List.cons_append,
      List.nil_append]
    cases hmk : u.fs.mkdirs stateDir with
    | none =>
      have herr : mkdirP stateDir u = .error "mkdir" := by simp only [mkdirP, fsStep, hmk]
      rw [exec_cons_error herr]
      rfl
    | some t =>
      have hok : mkdirP stateDir u = .ok { u with fs := t } := fsStep_eq hmk
      have hdir : t.node stateDir = some .dir := Tree.mkdirs_dir hmk
      obtain ⟨u₂, htouch, hkeep⟩ := touch_ok (p := confirmFile) (u := { u with fs := t }) hdir
      have hnode : u₂.fs.node servicePath = u.fs.node servicePath := by
        rw [hkeep _ (by decide), Tree.mkdirs_of_not_prefix hmk service_not_prefix]
      rw [exec_cons_ok hok, exec_cons_ok htouch, disableService, ← hnode]
      by_cases hsys : env.systemd = true
      · simp only [hsys, if_true, Option.isSome_some, true_and]
        have hset : setEnabled false u₂ = .ok { u₂ with enabled := false } := rfl
        rw [exec_cons_ok hset]
        by_cases hd : u₂.fs.node servicePath = some .dir
        · have herr : rmF servicePath { u₂ with enabled := false } = .error "rm" := by
            simp only [rmF, fsStep, Tree.remove_eq_none hd]
          rw [exec_cons_error herr, if_pos hd]
        · obtain ⟨t', ht'⟩ := Tree.remove_eq_some hd
          have hrm : rmF servicePath { u₂ with enabled := false } = .ok ⟨t', false⟩ :=
            fsStep_eq ht'
          rw [exec_cons_ok hrm, if_neg hd]
          rfl
      · simp only [hsys, Bool.false_eq_true, if_false, false_and, Option.isSome_some, if_true]
        rfl
  · simp only [hroot, Bool.not_false, if_true]

/-! ## An install that fails -/

theorem installer_of_own {p : Path} (h : own p = false) : ¬ Installers env args p := by
  rintro (hpre | hmem)
  · obtain ⟨names, rfl⟩ := hpre
    rw [backup_own] at h
    cases h
  · simp only [List.mem_cons, List.not_mem_nil, or_false] at hmem
    rcases hmem with rfl | rfl | rfl | rfl <;> revert h <;> decide

theorem not_installer_above {q : Path} (hq : q <+: stateDir) : ¬ Installers env args q := by
  rintro (hpre | hmem)
  · have hin : "hdmi-test-backups" ∈ stateDir :=
      (hpre.trans hq).subset (by simp [backup, backupNames])
    simp [stateDir] at hin
  · simp only [List.mem_cons, List.not_mem_nil, or_false] at hmem
    rcases hmem with rfl | rfl | rfl | rfl <;> revert hq <;> decide

theorem isFile_of_backed {t t' : Tree String Content} {p : Path} (h : backed t' p = backed t p) :
    t'.isFile p = t.isFile p := by
  have hiff : ∀ u : Tree String Content, u.isFile p = (backed u p).isSome := by
    intro u
    unfold backed
    split_ifs with hfile
    · obtain ⟨c, hc⟩ := isFileNode_iff.mp hfile
      rw [hfile, hc]
      rfl
    · rw [Bool.not_eq_true] at hfile
      rw [hfile]
      rfl
  rw [hiff, hiff, h]

theorem sameAnswers_of_unchanged (h : Unchanged env args m m')
    (hown : ∀ p, own p = false → m'.fs.node p = m.fs.node p) : SameAnswers m m' := by
  have hpending := unconfirmed_congr h.state h.confirm
  refine ⟨?_, hpending, ?_, ?_⟩
  · simp only [loadState, h.state]
  · intro env'
    have hmk : (m'.fs.mkdirs stateDir).isSome = (m.fs.mkdirs stateDir).isSome :=
      Tree.mkdirs_isSome_congr fun q hq => isFile_of_backed (h.files q (not_installer_above hq))
    rw [confirm_answer, confirm_answer, hmk, h.service]
  · intro env' args' hnamed
    exact checks_congr (fun p hp => hown p (hnamed p hp)) hpending

theorem fails_of_install {e : String} (h : installTestBoot env args m = (some e, m')) :
    (∃ stop, Fails env args m stop m') ∨
      ∃ n > (armSteps env args (dtbRelpath env args m.fs)).length,
        exec ((installSteps env args m.fs).take n) m = (none, m') := by
  unfold installTestBoot at h
  cases hchecks : checks env args m.fs with
  | some e' =>
    rw [hchecks] at h
    cases h
    exact .inl ⟨none, .refused (by rw [hchecks]; rfl)⟩
  | none =>
    rw [hchecks] at h
    obtain ⟨n, -, hrun⟩ := exec_error_take h
    rcases Nat.lt_or_ge (armSteps env args (dtbRelpath env args m.fs)).length n with hn | hn
    · exact .inr ⟨n, hn, hrun⟩
    · exact .inl ⟨some n, .stopped hchecks hn hrun⟩

/-! ## A confirmed test -/

def bare : Machine where
  fs := Tree.ofList (dirs ++ newFiles ++ [(stateDir, .dir),
    (stateFile,
      .file (.state ⟨⟨true, ["boot"]⟩, ⟨true, ["boot", "hdmi-test-backups", "old"]⟩, []⟩)),
    (confirmFile, .file .empty)]) (by decide +kernel)
  enabled := false

end Rtl8189.HdmiFailure
