import Rtl8189.EventRun
import Rtl8189.HdmiRollback

/-!
# Histories of test boots

The four commands follow each other in any order. A ledger beside the machine says whether
the installed test is still open and which tree was the last good one.
-/
namespace Rtl8189.HdmiHistory

open FileTree StepList HdmiTestBoot HdmiRollback EventRun

inductive Cmd where
  | install (env : Env) (args : Args)
  | confirm (env : Env)
  | rollback (env : Env)
  | service (env : Env)

def Cmd.run : Cmd → Machine → Option String × Machine
  | .install env args, m => installTestBoot env args m
  | .confirm env, m => confirmBoot env m
  | .rollback env, m => manualRollback env m
  | .service env, m => serviceRollback env m

structure Ledger where
  /-- The tree at the last confirmation, or at the start. -/
  good : Tree String Content
  /-- The test of the last install is neither confirmed nor rolled back. -/
  pending : Bool

/-- Only a command that completes counts, and the service does nothing for a confirmed test. -/
def Ledger.note (l : Ledger) (c : Cmd) (m : Machine) : Ledger :=
  if (c.run m).1 = none then
    match c with
    | .install _ _ => { l with pending := true }
    | .confirm _ => ⟨(c.run m).2.fs, false⟩
    | .rollback _ => { l with pending := false }
    | .service _ =>
      if m.fs.isFile confirmFile then l else { l with pending := false }
  else l

structure History where
  machine : Machine
  ledger : Ledger

def step (s : History) (c : Cmd) : History := ⟨(c.run s.machine).2, s.ledger.note c s.machine⟩

def start (m : Machine) : History := ⟨m, ⟨m.fs, false⟩⟩

/-! ## The two files that stand for an open test -/

variable {env : Env} {args : Args} {t : Tree String Content} {m m' : Machine}

structure Marked (m : Machine) : Prop where
  state : m.fs.isFile stateFile = true
  confirm : m.fs.node confirmFile = none

theorem Marked.write {p : Path} {c : Content} (h : Marked m) (hs : stateFile ≠ p)
    (hc : confirmFile ≠ p) (hw : m.fs.write p c = some m'.fs) : Marked m' where
  state := by rw [Tree.write_isFile hw hs, h.state]
  confirm := by rw [Tree.write_node hw, if_neg hc, h.confirm]

def Harmless (p : Path) : Prop := p ≠ stateDir ∧ p ≠ stateFile ∧ p ≠ confirmFile

theorem Marked.cpF {src dst : Path} (h : Marked m) (hdst : Harmless dst)
    (hm : cpF src dst m = .ok m') : Marked m' := by
  obtain ⟨r, c, hr, hw⟩ := Tree.copy_target (fsStep_ok hm).1
  obtain ⟨hdir, hstate, hconfirm⟩ := hdst
  rcases hr with rfl | ⟨n, rfl⟩
  · exact h.write hstate.symm hconfirm.symm hw
  · have hne : ∀ n', stateDir ++ [n'] ≠ dst ++ [n] := by
      intro n' heq
      exact hdir (List.append_inj' heq rfl).1.symm
    exact h.write (hne _) (hne _) hw

theorem Marked.mkdirP {p : Path} (h : Marked m) (hp : ¬ confirmFile <+: p)
    (hm : mkdirP p m = .ok m') : Marked m' where
  state := Tree.mkdirs_isFile (fsStep_ok hm).1 h.state
  confirm := by rw [Tree.mkdirs_of_not_prefix (fsStep_ok hm).1 hp, h.confirm]

theorem Marked.redirect {p : Path} {c : Content} (h : Marked m) (hs : stateFile ≠ p)
    (hc : confirmFile ≠ p) (hm : redirect p c m = .ok m') : Marked m' :=
  h.write hs hc (fsStep_ok hm).1

theorem harmless_name {p : Path} {n : String} (hn : n = "zImage" ∨ n = "uInitrd") :
    Harmless (p ++ [n]) := by
  have hmem : ∀ q : Path, p ++ [n] = q → n ∈ q := by
    rintro q rfl
    simp
  refine ⟨?_, ?_, ?_⟩ <;> intro heq <;> have hin := hmem _ heq <;>
    rcases hn with rfl | rfl <;> revert hin <;> decide

theorem cpF_confirm {src dst : Path} (hdst : "hdmi-test-backups" ∈ dst)
    (hm : cpF src dst m = .ok m') : m'.fs.node confirmFile = m.fs.node confirmFile := by
  obtain ⟨r, c, hr, hw⟩ := Tree.copy_target (fsStep_ok hm).1
  have hin : "hdmi-test-backups" ∈ r := by
    rcases hr with rfl | ⟨n, rfl⟩
    · exact hdst
    · exact List.mem_append_left _ hdst
  have hne : confirmFile ≠ r := by
    rintro rfl
    exact absurd hin (by decide)
  rw [Tree.write_node hw, if_neg hne]

theorem cpIfFile_confirm {src dst : Path} (hdst : "hdmi-test-backups" ∈ dst)
    (hm : cpIfFile src dst m = .ok m') : m'.fs.node confirmFile = m.fs.node confirmFile := by
  unfold cpIfFile at hm
  split_ifs at hm
  · exact cpF_confirm hdst hm
  · obtain rfl := Except.ok.inj hm
    rfl

theorem marked_of_armSteps {relpath : Path} (hboot : m.fs.node (boot env args) = some .dir)
    (h : exec (armSteps env args relpath) m = (none, m')) : Marked m' := by
  have hback : ∀ names, "hdmi-test-backups" ∈ boot env args ++ backupNames env ++ names := by
    simp [backupNames]
  obtain ⟨m₁, h₁, hr₁⟩ := exec_cons_none h
  obtain ⟨m₂, h₂, hr₂⟩ := exec_cons_none hr₁
  obtain ⟨m₃, h₃, hr₃⟩ := exec_cons_none hr₂
  have hconfirm₃ : m₃.fs.node confirmFile = none := by
    have hboot₁ : m₁.fs.node (boot env args) = some .dir := by
      rw [Tree.mkdirs_of_some (fsStep_ok h₁).1 (by rw [hboot]; exact Option.some_ne_none _), hboot]
    have hgone : m₂.fs.node confirmFile = none := by
      rw [Tree.remove_node (fsStep_ok h₂).1, if_pos rfl]
    exact confirm_gone (Tree.remove_dir (fsStep_ok h₂).1 hboot₁) hgone h₃
  obtain ⟨m₄, h₄, hr₄⟩ := exec_cons_none hr₃
  have hm₄ : m₄ = m₃ := by
    simp only [checkZImage] at h₄
    split_ifs at h₄
    exact (Except.ok.inj h₄).symm
  obtain ⟨m₅, h₅, hr₅⟩ := exec_cons_none hr₄
  obtain ⟨m₆, h₆, hr₆⟩ := exec_cons_none hr₅
  obtain ⟨m₇, h₇, hr₇⟩ := exec_cons_none hr₆
  obtain ⟨m₈, h₈, hr₈⟩ := exec_cons_none hr₇
  have hconfirm₈ : m₈.fs.node confirmFile = m₇.fs.node confirmFile := by
    split_ifs at h₈
    · exact cpIfFile_confirm (hback _) h₈
    · obtain rfl := Except.ok.inj h₈
      rfl
  have hconfirm : m₈.fs.node confirmFile = none := by
    rw [hconfirm₈, cpIfFile_confirm (hback _) h₇, cpIfFile_confirm (hback _) h₆,
      cpF_confirm (hback _) h₅, hm₄, hconfirm₃]
  obtain ⟨m₉, h₉, hr₉⟩ := exec_cons_none hr₈
  have hmarked₉ : Marked m₉ := by
    have hw : redirect stateFile _ m₈ = .ok m₉ := h₉
    refine ⟨isFileNode_iff.mpr ⟨.state ⟨args.bootDir, args.bootDir.append (backupNames env),
      relpath⟩, ?_⟩, ?_⟩
    · rw [Tree.write_node (fsStep_ok hw).1, if_pos rfl]
    · rw [Tree.write_node (fsStep_ok hw).1, if_neg (by decide), hconfirm]
  obtain ⟨m₁₀, h₁₀, hr₁₀⟩ := exec_cons_none hr₉
  have hmarked₁₀ : Marked m₁₀ := by
    split_ifs at h₁₀
    · obtain rfl := Except.ok.inj h₁₀
      exact hmarked₉
    · exact hmarked₉.redirect (by decide) (by decide) h₁₀
  obtain ⟨m₁₁, h₁₁, hr₁₁⟩ := exec_cons_none hr₁₀
  have hmarked₁₁ : Marked m₁₁ := hmarked₁₀.redirect (by decide) (by decide) h₁₁
  obtain ⟨m₁₂, h₁₂, hr₁₂⟩ := exec_cons_none hr₁₁
  obtain rfl := Except.ok.inj h₁₂
  obtain rfl : _ = m' := congrArg Prod.snd hr₁₂
  exact ⟨hmarked₁₁.state, hmarked₁₁.confirm⟩

def TreeApart (env : Env) (args : Args) (t : Tree String Content) : Prop :=
  args.dtbPath.isSome = true → dtb env args t ≠ stateDir ∧ dtb env args t ≠ stateFile ∧
    ¬ confirmFile <+: dtb env args t

theorem marked_of_install (hapart : TreeApart env args m.fs)
    (h : installTestBoot env args m = (none, m')) : Marked m' := by
  unfold installTestBoot at h
  cases hchecks : checks env args m.fs with
  | some e =>
    rw [hchecks] at h
    cases h
  | none =>
    rw [hchecks] at h
    obtain ⟨-, hboot, hrel, -⟩ := checks_none hchecks
    simp only [installSteps] at h
    rw [exec_append] at h
    split_ifs at h with hnone
    · have hmarked : Marked (exec (armSteps env args (dtbRelpath env args m.fs)) m).2 :=
        marked_of_armSteps hboot (Prod.ext (Option.isNone_iff_eq_none.mp hnone) rfl)
      have hkeep := exec_keeps (I := Marked) (replaceSteps env args (dtbRelpath env args m.fs))
        (fun f hf s s' hs hok => by
          simp only [replaceSteps, List.mem_cons, List.not_mem_nil, or_false] at hf
          rcases hf with rfl | rfl | rfl | rfl <;>
            rcases forArg_ok hok with ⟨src, ha, hok⟩ | ⟨-, rfl⟩
          · exact hs.cpF (harmless_name (.inl rfl)) hok
          · exact hs
          · exact hs.cpF (harmless_name (.inr rfl)) hok
          · exact hs
          · refine hs.mkdirP ?_ hok
            intro hpre
            have hdtb : args.dtbPath.isSome = true := by rw [ha]; rfl
            refine (hapart hdtb).2.2 (hpre.trans ?_)
            rw [dtb, ← List.dropLast_append_of_ne_nil (hrel hdtb)]
            exact List.dropLast_prefix _
          · exact hs
          · have hdtb : args.dtbPath.isSome = true := by rw [ha]; rfl
            obtain ⟨hdir, hstate, hconfirm⟩ := hapart hdtb
            refine hs.cpF ⟨hdir, hstate, ?_⟩ hok
            intro heq
            have hdtbPath : dtb env args m.fs = confirmFile := heq
            rw [hdtbPath] at hconfirm
            exact hconfirm (List.prefix_refl _)
          · exact hs) hmarked
      rwa [h] at hkeep
    · rw [h] at hnone
      exact absurd rfl hnone

/-! ## When an install is refused -/

/-- A command that fails leaves the two files as they were. -/
def Quiet (c : Cmd) (m : Machine) : Prop :=
  (c.run m).2.fs.node stateFile = m.fs.node stateFile ∧
    (c.run m).2.fs.node confirmFile = m.fs.node confirmFile

/-- No rollback takes place, and no command stops half-way with one of the two files written or
deleted. -/
def Steady (s : History) : Cmd → Prop
  | .install env args =>
    if ((Cmd.install env args).run s.machine).1 = none then TreeApart env args s.machine.fs
    else Quiet (.install env args) s.machine
  | .confirm env =>
    ((Cmd.confirm env).run s.machine).1 = none ∨ Quiet (.confirm env) s.machine
  | .rollback _ => s.machine.fs.isFile stateFile = false
  | .service _ =>
    s.machine.fs.isFile stateFile = false ∨ s.machine.fs.isFile confirmFile = true

structure Agrees (s : History) : Prop where
  pending : unconfirmed s.machine.fs = s.ledger.pending
  confirm : s.machine.fs.node confirmFile ≠ some .dir

theorem unconfirmed_congr {u : Tree String Content} (hs : u.node stateFile = t.node stateFile)
    (hc : u.node confirmFile = t.node confirmFile) : unconfirmed u = unconfirmed t := by
  simp only [unconfirmed, Tree.isFile, hs, hc]

theorem loadState_error (h : t.isFile stateFile = false) : ∃ e, loadState t = .error e := by
  unfold loadState
  split
  · next heq => simp [Tree.isFile, heq, isFileNode] at h
  · exact ⟨_, rfl⟩
  · exact ⟨_, rfl⟩

theorem confirm_of_done (hdir : m.fs.node confirmFile ≠ some .dir)
    (h : confirmBoot env m = (none, m')) : m'.fs.isFile confirmFile = true := by
  unfold confirmBoot at h
  split_ifs at h
  · cases h
  · obtain ⟨m₁, h₁, hr₁⟩ := exec_cons_none h
    obtain ⟨m₂, h₂, hr₂⟩ := exec_cons_none hr₁
    have hdir₁ : m₁.fs.node confirmFile = m.fs.node confirmFile :=
      Tree.mkdirs_of_not_prefix (fsStep_ok h₁).1 (by decide)
    have hfile₂ : m₂.fs.isFile confirmFile = true := by
      unfold touch at h₂
      split_ifs at h₂ with hsome
      · obtain rfl := Except.ok.inj h₂
        rw [← hdir₁] at hdir
        rcases hnode : m₁.fs.node confirmFile with _ | _ | c
        · rw [hnode] at hsome
          cases hsome
        · exact absurd hnode hdir
        · exact isFileNode_iff.mpr ⟨c, hnode⟩
      · exact isFileNode_iff.mpr ⟨.empty, by rw [Tree.write_node (fsStep_ok h₂).1, if_pos rfl]⟩
    have hkeep := exec_keeps (I := fun m => m.fs.isFile confirmFile = true) (disableService env)
      (fun f hf s s' hs hok => by
        unfold disableService at hf
        split_ifs at hf
        · simp only [List.mem_cons, List.not_mem_nil, or_false] at hf
          rcases hf with rfl | rfl
          · obtain rfl := Except.ok.inj hok
            exact hs
          · rw [Tree.isFile, Tree.remove_node (fsStep_ok hok).1, if_neg (by decide)]
            exact hs
        · cases hf) hfile₂
    have hrest : exec (disableService env) m₂ = (none, m') := hr₂
    rwa [hrest] at hkeep

theorem install_agrees {s : History} (hs : Agrees s)
    (hc : Steady s (.install env args)) : Agrees (step s (.install env args)) := by
  by_cases hdone : ((Cmd.install env args).run s.machine).1 = none
  · rw [Steady, if_pos hdone] at hc
    have hmarked : Marked (step s (.install env args)).machine :=
      marked_of_install hc (Prod.ext hdone rfl)
    have hun : unconfirmed (step s (.install env args)).machine.fs = true := by
      rw [unconfirmed, hmarked.state, Tree.isFile, hmarked.confirm]
      rfl
    refine ⟨?_, ?_⟩
    · rw [hun]
      simp only [step, Ledger.note, if_pos hdone]
    · rw [hmarked.confirm]
      simp
  · rw [Steady, if_neg hdone] at hc
    refine ⟨?_, ?_⟩
    · simp only [step, Ledger.note, if_neg hdone]
      rw [unconfirmed_congr hc.1 hc.2, hs.pending]
    · simp only [step]
      rw [hc.2]
      exact hs.confirm

theorem confirm_agrees {s : History} (hs : Agrees s) (hc : Steady s (.confirm env)) :
    Agrees (step s (.confirm env)) := by
  by_cases hdone : ((Cmd.confirm env).run s.machine).1 = none
  · have hfile : (step s (.confirm env)).machine.fs.isFile confirmFile = true :=
      confirm_of_done hs.confirm (Prod.ext hdone rfl)
    refine ⟨?_, Tree.not_dir_of_isFile hfile⟩
    rw [unconfirmed, hfile]
    simp only [step, Ledger.note, if_pos hdone, Bool.not_true, Bool.and_false]
  · obtain ⟨hstate, hconfirm⟩ := hc.resolve_left hdone
    refine ⟨?_, ?_⟩
    · simp only [step, Ledger.note, if_neg hdone]
      rw [unconfirmed_congr hstate hconfirm, hs.pending]
    · simp only [step]
      rw [hconfirm]
      exact hs.confirm

theorem Agrees.of_same {s : History} {c : Cmd} (hs : Agrees s)
    (hm : (c.run s.machine).2 = s.machine) (hl : s.ledger.note c s.machine = s.ledger) :
    Agrees (step s c) := by
  rw [step, hm, hl]
  exact hs

theorem rollback_agrees {s : History} (hs : Agrees s) (hc : Steady s (.rollback env)) :
    Agrees (step s (.rollback env)) := by
  obtain ⟨e, he⟩ := loadState_error hc
  by_cases hroot : env.root = true
  · have hrun : (Cmd.rollback env).run s.machine = (some e, s.machine) := by
      simp [Cmd.run, manualRollback, hroot, he]
    exact hs.of_same (by rw [hrun]) (by simp [Ledger.note, hrun])
  · have hrun : (Cmd.rollback env).run s.machine = (some "run as root", s.machine) := by
      simp [Cmd.run, manualRollback, hroot]
    exact hs.of_same (by rw [hrun]) (by simp [Ledger.note, hrun])

theorem service_agrees {s : History} (hs : Agrees s) (hc : Steady s (.service env)) :
    Agrees (step s (.service env)) := by
  by_cases hroot : env.root = true
  · cases hload : loadState s.machine.fs with
    | error e =>
      have hrun : (Cmd.service env).run s.machine = (some e, s.machine) := by
        simp [Cmd.run, serviceRollback, hroot, hload]
      exact hs.of_same (by rw [hrun]) (by simp [Ledger.note, hrun])
    | ok saved =>
      have hconfirm : s.machine.fs.isFile confirmFile = true := by
        rcases hc with hstate | hconfirm
        · obtain ⟨e, he⟩ := loadState_error hstate
          rw [hload] at he
          cases he
        · exact hconfirm
      have hrun : (Cmd.service env).run s.machine = (none, s.machine) := by
        simp [Cmd.run, serviceRollback, hroot, hload, hconfirm]
      exact hs.of_same (by rw [hrun]) (by simp [Ledger.note, hrun, hconfirm])
  · have hrun : (Cmd.service env).run s.machine = (some "run as root", s.machine) := by
      simp [Cmd.run, serviceRollback, hroot]
    exact hs.of_same (by rw [hrun]) (by simp [Ledger.note, hrun])

theorem step_agrees (s : History) (c : Cmd) (hs : Agrees s) (hc : Steady s c) :
    Agrees (step s c) := by
  cases c with
  | install env args => exact install_agrees hs hc
  | confirm env => exact confirm_agrees hs hc
  | rollback env => exact rollback_agrees hs hc
  | service env => exact service_agrees hs hc

theorem checks_refused (hforce : args.force = false)
    (hready : checks env { args with force := true } t = none) :
    checks env args t = some unconfirmedExists ↔ unconfirmed t = true := by
  have hall := List.findSome?_eq_none_iff.mp hready
  simp only [List.mem_cons, List.not_mem_nil, or_false, forall_eq_or_imp, forall_eq, id_eq] at hall
  obtain ⟨hroot, hkernel, hk, hi, hd, hboot, hsystemd, hrel, -⟩ := hall
  have hrel' : (if args.dtbPath.isSome ∧ dtbRelpath env args t = [] then
      some "could not derive DTB path; pass --dtb-relpath" else none) = none := hrel
  simp only [checks, List.findSome?_cons, id_eq, hroot, hkernel, hk, hi, hd, hboot, hsystemd,
    hrel', hforce, List.findSome?_nil]
  by_cases hun : unconfirmed t = true <;> simp [hun]

/-- Along a history without rollbacks an install is refused exactly for an open test. -/
theorem run_refused {m : Machine} (hclear : unconfirmed m.fs = false)
    (hdir : m.fs.node confirmFile ≠ some .dir) {cs : List Cmd}
    (hcs : Along step Steady (start m) cs) (env : Env) (args : Args) (hforce : args.force = false)
    (hready : checks env { args with force := true } (run step (start m) cs).machine.fs = none) :
    checks env args (run step (start m) cs).machine.fs = some unconfirmedExists ↔
      (run step (start m) cs).ledger.pending = true := by
  have hagrees := run_spec Steady Agrees step_agrees (s := start m) ⟨hclear, hdir⟩ hcs
  rw [checks_refused hforce hready, hagrees.pending]

instance (env : Env) (args : Args) (t : Tree String Content) : Decidable (TreeApart env args t) :=
  inferInstanceAs (Decidable (_ → _))

instance (c : Cmd) (m : Machine) : Decidable (Quiet c m) := inferInstanceAs (Decidable (_ ∧ _))

instance (s : History) : ∀ c, Decidable (Steady s c)
  | .install _ _ => inferInstanceAs (Decidable (ite _ _ _))
  | .confirm _ => inferInstanceAs (Decidable (_ ∨ _))
  | .rollback _ => inferInstanceAs (Decidable (_ = _))
  | .service _ => inferInstanceAs (Decidable (_ ∨ _))

def evening : Env := { date := "20260801T180000Z" }

theorem run_refused_board :
    checks evening treeArgs (run step (start board) [.install noon treeArgs, .confirm noon,
      .install evening kernelArgs]).machine.fs = some unconfirmedExists ↔
    (run step (start board) [.install noon treeArgs, .confirm noon,
      .install evening kernelArgs]).ledger.pending = true :=
  run_refused (by decide +kernel) (by decide +kernel) (by decide +kernel) evening treeArgs rfl
    (by decide +kernel)

/-- After a rollback by the service or by hand nothing is open, but the state file is left. -/
theorem rolled_back_refused :
    (run step (start board) [.install noon treeArgs, .service noon]).ledger.pending = false ∧
      checks evening treeArgs
        (run step (start board) [.install noon treeArgs, .service noon]).machine.fs =
          some unconfirmedExists ∧
      (run step (start board) [.install noon treeArgs, .rollback noon]).ledger.pending = false ∧
      checks evening treeArgs
        (run step (start board) [.install noon treeArgs, .rollback noon]).machine.fs =
          some unconfirmedExists := by
  refine ⟨?_, ?_, ?_, ?_⟩ <;> decide +kernel

/-! ## What a rollback leads to -/

/-- State and backups of a test that overwrote files of the last good boot only. -/
structure Tested (env : Env) (args : Args) (t good : Tree String Content) (m : Machine) : Prop where
  plain : Plain env args t
  backed : Backed env args t m
  there : ∀ p ∈ written env args t, t.isFile p = true
  same : ∀ p, own p = false → t.node p = good.node p
  others : ∀ p, p ∉ written env args t → own p = false → m.fs.node p = good.node p

structure Sound (s : History) : Prop where
  service : s.machine.fs.node servicePath ≠ some .dir
  confirm : s.machine.fs.node confirmFile ≠ some .dir
  tested : unconfirmed s.machine.fs = true →
    ∃ env args t, Tested env args t s.ledger.good s.machine
  pending : s.ledger.pending = true → unconfirmed s.machine.fs = true
  closed : s.ledger.pending = false →
    ∀ p, own p = false → s.machine.fs.node p = s.ledger.good.node p

/-- No install over an open test, none that is not plain or brings a new file, no rollback of a
confirmed test, and no command that stops half-way. -/
def Careful (s : History) : Cmd → Prop
  | .install env args =>
    checks env args s.machine.fs ≠ none ∨
      ((Cmd.install env args).run s.machine).1 = none ∧ s.ledger.pending = false ∧
        Plain env args s.machine.fs ∧
          ∀ p ∈ written env args s.machine.fs, s.machine.fs.isFile p = true
  | .confirm env => env.root = false ∨ ((Cmd.confirm env).run s.machine).1 = none
  | .rollback _ => unconfirmed s.machine.fs = true ∨ s.machine.fs.isFile stateFile = false
  | .service _ => True

theorem Sound.of_same {s : History} {c : Cmd} (hs : Sound s)
    (hm : (c.run s.machine).2 = s.machine) (hl : s.ledger.note c s.machine = s.ledger) :
    Sound (step s c) := by
  rw [step, hm, hl]
  exact hs

theorem unconfirmed_of_backed (h : Backed env args t m) : unconfirmed m.fs = true := by
  simp [HdmiTestBoot.unconfirmed, Tree.isFile, h.state, h.confirm, isFileNode]

theorem Tested.restored {good : Tree String Content} (h : Tested env args t good m)
    (hr : Restored env args t m m') {p : Path} (hp : own p = false) :
    m'.fs.node p = good.node p := by
  rw [hr.node p (ne_of_own (by decide) hp).symm, putBack]
  split_ifs with hput
  · exact h.same p hp
  · refine h.others p ?_ hp
    intro hmem
    exact hput ⟨mem_bootFiles hmem, h.there p hmem⟩

theorem Tested.again {good : Tree String Content} (h : Tested env args t good m)
    (hr : Restored env args t m m') : Tested env args t good m' :=
  ⟨h.plain, hr.backed, h.there, h.same, fun _ _ hp => h.restored hr hp⟩

theorem install_sound {s : History} (hs : Sound s) (hc : Careful s (.install env args)) :
    Sound (step s (.install env args)) := by
  cases hchecks : checks env args s.machine.fs with
  | some e =>
    have hrun : (Cmd.install env args).run s.machine = (some e, s.machine) := by
      simp [Cmd.run, installTestBoot, hchecks]
    exact hs.of_same (by rw [hrun]) (by simp [Ledger.note, hrun])
  | none =>
    obtain ⟨hdone, hclosed, hplain, hthere⟩ := hc.resolve_left fun hne => hne hchecks
    have hstage : Stage env args s.machine.fs 4 (step s (.install env args)).machine :=
      install_done hplain (Prod.ext hdone rfl)
    have hnote : s.ledger.note (.install env args) s.machine =
        { s.ledger with pending := true } := by
      simp only [Ledger.note, if_pos hdone]
    have hothers : ∀ p, p ∉ written env args s.machine.fs → own p = false →
        (step s (.install env args)).machine.fs.node p = s.ledger.good.node p := by
      intro p hp hown
      rw [← hs.closed hclosed p hown]
      rcases hstage.replaced.others p hp hown with hsame | ⟨hnone, hdtb, hpre⟩
      · exact hsame
      · -- the way to the device tree was there
        have hparent := Tree.parent_of_isFile (hthere _ (mem_written_dtb hdtb))
        have hdir : s.machine.fs.node p = some .dir := by
          by_cases heq : p = (dtb env args s.machine.fs).dropLast
          · rw [heq, hparent]
          · exact Tree.dir_of_prefix _ (by rw [hparent]; exact Option.some_ne_none _) hpre heq
        rw [hnone] at hdir
        cases hdir
    refine ⟨hstage.replaced.armed.service_not_dir, ?_, ?_, ?_, ?_⟩
    · rw [hstage.replaced.armed.confirm]
      simp
    · intro _
      refine ⟨env, args, s.machine.fs, hplain, hstage.replaced.armed.toBacked, hthere, ?_, ?_⟩
      · simp only [step, hnote]
        exact hs.closed hclosed
      · simp only [step, hnote]
        exact hothers
    · intro _
      exact unconfirmed_of_backed hstage.replaced.armed.toBacked
    · intro hpending
      simp only [step, hnote] at hpending
      cases hpending

theorem service_of_confirm (hservice : m.fs.node servicePath ≠ some .dir)
    (h : confirmBoot env m = (none, m')) : m'.fs.node servicePath ≠ some .dir := by
  unfold confirmBoot at h
  split_ifs at h
  · cases h
  · obtain ⟨m₁, h₁, hr₁⟩ := exec_cons_none h
    obtain ⟨m₂, h₂, hr₂⟩ := exec_cons_none hr₁
    have hservice₁ : m₁.fs.node servicePath = m.fs.node servicePath :=
      Tree.mkdirs_of_not_prefix (fsStep_ok h₁).1 (by decide)
    have hservice₂ : m₂.fs.node servicePath = m₁.fs.node servicePath := by
      unfold touch at h₂
      split_ifs at h₂
      · obtain rfl := Except.ok.inj h₂
        rfl
      · rw [Tree.write_node (fsStep_ok h₂).1, if_neg (by decide)]
    obtain ⟨m₃, hm₃, -, hgone⟩ := disable_spec (m := m₂)
      (by rw [hservice₂, hservice₁]; exact hservice) env
    have hrest : exec (disableService env) m₂ = (none, m') := hr₂
    rw [hm₃] at hrest
    obtain rfl := congrArg Prod.snd hrest
    exact hgone

theorem confirm_sound {s : History} (hs : Sound s) (hc : Careful s (.confirm env)) :
    Sound (step s (.confirm env)) := by
  by_cases hdone : ((Cmd.confirm env).run s.machine).1 = none
  · have hnote : s.ledger.note (.confirm env) s.machine =
        ⟨((Cmd.confirm env).run s.machine).2.fs, false⟩ := by
      simp only [Ledger.note, if_pos hdone]
    have hfile : (step s (.confirm env)).machine.fs.isFile confirmFile = true :=
      confirm_of_done hs.confirm (Prod.ext hdone rfl)
    refine ⟨service_of_confirm hs.service (Prod.ext hdone rfl), Tree.not_dir_of_isFile hfile,
      ?_, ?_, ?_⟩
    · intro hun
      rw [unconfirmed, hfile, Bool.not_true, Bool.and_false] at hun
      cases hun
    · intro hpending
      simp only [step, hnote] at hpending
      cases hpending
    · intro _ p _
      simp only [step, hnote]
  · have hroot : env.root = false := hc.resolve_right hdone
    have hrun : (Cmd.confirm env).run s.machine = (some "run as root", s.machine) := by
      simp [Cmd.run, confirmBoot, hroot]
    exact hs.of_same (by rw [hrun]) (by simp [Ledger.note, hrun])

theorem sound_of_restored {s : History} {c : Cmd} (h : Tested env args t s.ledger.good s.machine)
    (hr : Restored env args t s.machine (c.run s.machine).2)
    (hl : s.ledger.note c s.machine = { s.ledger with pending := false }) :
    Sound (step s c) where
  service := hr.service
  confirm := by
    show (c.run s.machine).2.fs.node confirmFile ≠ _
    rw [hr.backed.confirm]
    simp
  tested _ := by
    refine ⟨env, args, t, ?_⟩
    simp only [step, hl]
    exact h.again hr
  pending hpending := by
    simp only [step, hl] at hpending
    cases hpending
  closed _ p hp := by
    simp only [step, hl]
    exact h.restored hr hp

theorem rollback_sound {s : History} (hs : Sound s) (hc : Careful s (.rollback env)) :
    Sound (step s (.rollback env)) := by
  by_cases hroot : env.root = true
  · rcases hc with hun | hstate
    · obtain ⟨env', args, t, htested⟩ := hs.tested hun
      obtain ⟨-, m', hm', hr⟩ := rollback_spec htested.plain htested.backed hs.service hroot
      have hrun : (Cmd.rollback env).run s.machine = (none, m') := hm'
      exact sound_of_restored htested (by rw [hrun]; exact hr) (by simp [Ledger.note, hrun])
    · obtain ⟨e, he⟩ := loadState_error hstate
      have hrun : (Cmd.rollback env).run s.machine = (some e, s.machine) := by
        simp [Cmd.run, manualRollback, hroot, he]
      exact hs.of_same (by rw [hrun]) (by simp [Ledger.note, hrun])
  · have hrun : (Cmd.rollback env).run s.machine = (some "run as root", s.machine) := by
      simp [Cmd.run, manualRollback, hroot]
    exact hs.of_same (by rw [hrun]) (by simp [Ledger.note, hrun])

theorem service_sound {s : History} (hs : Sound s) : Sound (step s (.service env)) := by
  by_cases hroot : env.root = true
  · by_cases hun : unconfirmed s.machine.fs = true
    · obtain ⟨env', args, t, htested⟩ := hs.tested hun
      obtain ⟨⟨m', hm', hr⟩, -⟩ := rollback_spec htested.plain htested.backed hs.service hroot
      have hrun : (Cmd.service env).run s.machine = (none, m') := hm'
      have hconfirm : s.machine.fs.isFile confirmFile = false := by
        rw [Tree.isFile, htested.backed.confirm]
        rfl
      exact sound_of_restored htested (by rw [hrun]; exact hr)
        (by simp [Ledger.note, hrun, hconfirm])
    · cases hload : loadState s.machine.fs with
      | error e =>
        have hrun : (Cmd.service env).run s.machine = (some e, s.machine) := by
          simp [Cmd.run, serviceRollback, hroot, hload]
        exact hs.of_same (by rw [hrun]) (by simp [Ledger.note, hrun])
      | ok saved =>
        have hconfirm : s.machine.fs.isFile confirmFile = true := by
          by_contra hno
          have hstate : s.machine.fs.isFile stateFile = true := by
            by_contra hnot
            obtain ⟨e, he⟩ := loadState_error (Bool.not_eq_true _ |>.mp hnot)
            rw [hload] at he
            cases he
          exact hun (by simp [unconfirmed, hstate, hno])
        have hrun : (Cmd.service env).run s.machine = (none, s.machine) := by
          simp [Cmd.run, serviceRollback, hroot, hload, hconfirm]
        exact hs.of_same (by rw [hrun]) (by simp [Ledger.note, hrun, hconfirm])
  · have hrun : (Cmd.service env).run s.machine = (some "run as root", s.machine) := by
      simp [Cmd.run, serviceRollback, hroot]
    exact hs.of_same (by rw [hrun]) (by simp [Ledger.note, hrun])

theorem step_sound (s : History) (c : Cmd) (hs : Sound s) (hc : Careful s c) :
    Sound (step s c) := by
  cases c with
  | install env args => exact install_sound hs hc
  | confirm env => exact confirm_sound hs hc
  | rollback env => exact rollback_sound hs hc
  | service env => exact service_sound hs

theorem start_sound (hclear : unconfirmed m.fs = false)
    (hservice : m.fs.node servicePath ≠ some .dir)
    (hconfirm : m.fs.node confirmFile ≠ some .dir) : Sound (start m) := by
  refine ⟨hservice, hconfirm, ?_, ?_, fun _ _ _ => rfl⟩
  · intro hun
    rw [start, hclear] at hun
    cases hun
  · intro hpending
    cases hpending

/-- Whoever rolls an open test back: every file outside the installer's own is as it was at the
last confirmation, or at the start. -/
theorem run_lastGood {m : Machine} (hclear : unconfirmed m.fs = false)
    (hservice : m.fs.node servicePath ≠ some .dir)
    (hconfirm : m.fs.node confirmFile ≠ some .dir) {cs : List Cmd}
    (hcs : Along step Careful (start m) cs)
    (hopen : (run step (start m) cs).ledger.pending = true) {env : Env}
    (hroot : env.root = true) :
    ∀ c ∈ [Cmd.rollback env, Cmd.service env],
      (c.run (run step (start m) cs).machine).1 = none ∧
        ∀ p, own p = false → (c.run (run step (start m) cs).machine).2.fs.node p =
          (run step (start m) cs).ledger.good.node p := by
  have hs := run_spec Careful Sound step_sound (s := start m)
    (start_sound hclear hservice hconfirm) hcs
  obtain ⟨env', args, t, htested⟩ := hs.tested (hs.pending hopen)
  obtain ⟨⟨m₁, h₁, hr₁⟩, m₂, h₂, hr₂⟩ :=
    rollback_spec htested.plain htested.backed hs.service hroot
  intro c hc
  simp only [List.mem_cons, List.not_mem_nil, or_false] at hc
  rcases hc with rfl | rfl
  · have hrun : (Cmd.rollback env).run (run step (start m) cs).machine = (none, m₂) := h₂
    rw [hrun]
    exact ⟨rfl, fun p hp => htested.restored hr₂ hp⟩
  · have hrun : (Cmd.service env).run (run step (start m) cs).machine = (none, m₁) := h₁
    rw [hrun]
    exact ⟨rfl, fun p hp => htested.restored hr₁ hp⟩

def confirmedHistory : List Cmd :=
  [.install noon treeArgs, .confirm noon, .install evening treeArgs]

theorem careful_confirmedHistory : Along step Careful (start board) confirmedHistory := by
  refine ⟨.inr ⟨by decide +kernel, rfl, plain_treeArgs, by decide +kernel⟩,
    .inr (by decide +kernel), .inr ⟨by decide +kernel, by decide +kernel, ?_, by decide +kernel⟩,
    trivial⟩
  exact ⟨rfl, by decide +kernel, by decide +kernel, by decide +kernel⟩

theorem run_lastGood_board :
    ((Cmd.rollback noon).run (run step (start board) confirmedHistory).machine).1 = none ∧
      (∀ p, own p = false →
        ((Cmd.rollback noon).run (run step (start board) confirmedHistory).machine).2.fs.node p =
          (run step (start board) confirmedHistory).ledger.good.node p) ∧
      ((Cmd.service noon).run (run step (start board) confirmedHistory).machine).1 = none ∧
      ∀ p, own p = false →
        ((Cmd.service noon).run (run step (start board) confirmedHistory).machine).2.fs.node p =
          (run step (start board) confirmedHistory).ledger.good.node p := by
  have hroot : noon.root = true := rfl
  have h := run_lastGood (by decide +kernel) (by decide +kernel) (by decide +kernel)
    careful_confirmedHistory (by decide +kernel) hroot
  obtain ⟨hcode, hnodes⟩ := h (.rollback noon) List.mem_cons_self
  exact ⟨hcode, hnodes, h (.service noon) (List.mem_cons_of_mem _ List.mem_cons_self)⟩

def forcedHistory : List Cmd :=
  [.install noon kernelArgs, .install evening { kernelArgs with force := true }]

theorem forced_not_lastGood :
    (run step (start board) forcedHistory).ledger.pending = true ∧
      ∀ c ∈ [Cmd.rollback noon, Cmd.service noon],
        (c.run (run step (start board) forcedHistory).machine).2.fs.node ["boot", "zImage"] ≠
          (run step (start board) forcedHistory).ledger.good.node ["boot", "zImage"] := by
  refine ⟨by decide +kernel, ?_⟩
  intro c hc
  simp only [List.mem_cons, List.not_mem_nil, or_false] at hc
  rcases hc with rfl | rfl <;> decide +kernel

end Rtl8189.HdmiHistory
