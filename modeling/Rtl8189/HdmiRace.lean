import Rtl8189.EventRun
import Rtl8189.HdmiRollback

/-!
# A confirmation beside the service

The service of a test is running when the test is confirmed. Each of the two takes its next
step at any time.
-/
namespace Rtl8189.HdmiRace

open FileTree StepList HdmiTestBoot HdmiRollback EventRun

inductive Process where
  /-- The service in its delay. -/
  | sleeping
  /-- The first steps are done. -/
  | behind (i : ℕ)
  | done
  | failed
  | stopped
  | rebooted
deriving DecidableEq

inductive Who where
  | confirm
  | service

structure Race where
  machine : Machine
  confirm : Process
  service : Process

def confirmSteps (env : Env) : List Step :=
  [mkdirP stateDir, touch confirmFile] ++ disableService env

def serviceSteps (env : Env) (s : SavedState) : List Step :=
  restoreSteps env s ++ disableService env

def stopIndex : ℕ := 2

def Process.stop : Process → Process
  | .sleeping => .stopped
  | .behind _ => .stopped
  | p => p

def advance (fs : List Step) (last : Process) (i : ℕ) (m : Machine) : Process × Machine :=
  match fs[i]? with
  | none => (last, m)
  | some f =>
    match f m with
    | .ok m' => (.behind (i + 1), m')
    | .error _ => (.failed, m)

def step (env : Env) (s : SavedState) (r : Race) : Who → Race
  | .confirm =>
    match r.confirm with
    | .behind i =>
      if r.service = .rebooted then r
      else
        let (p, m) := advance (confirmSteps env) .done i r.machine
        ⟨m, p, if i = stopIndex ∧ env.systemd then r.service.stop else r.service⟩
    | _ => r
  | .service =>
    match r.service with
    | .sleeping =>
      { r with service := if r.machine.fs.isFile confirmFile then .done else .behind 0 }
    | .behind i =>
      let (p, m) := advance (serviceSteps env s) .rebooted i r.machine
      { r with machine := m, service := p }
    | _ => r

def start (env : Env) (m : Machine) : Race :=
  ⟨m, if env.root then .behind 0 else .failed, .sleeping⟩

/-! ## The files at the end -/

def signs : List Path := [confirmFile, servicePath]

structure Same (m m' : Machine) : Prop where
  node : ∀ p, p ∉ signs → m'.fs.node p = m.fs.node p
  dir : ∀ p, m'.fs.node p = some .dir ↔ m.fs.node p = some .dir

def Process.ended : Process → Bool
  | .sleeping => false
  | .behind _ => false
  | _ => true

def Over (r : Race) : Prop :=
  r.service = .rebooted ∨ (r.confirm.ended = true ∧ r.service.ended = true)

structure Settled (env : Env) (s : SavedState) (m : Machine) (r : Race) : Prop where
  files : Same m r.machine ∨
    ∃ w, exec (restoreSteps env s) m = (none, w) ∧ Same w r.machine
  confirmed : r.confirm = .done → Same m r.machine

def Process.copied : Process → ℕ
  | .behind k => k
  | _ => 0

/-- A service that has copied is not stopped and does not fail. -/
def Meets (env : Env) (s : SavedState) (r : Race) : Who → Prop
  | .confirm => r.confirm = .behind stopIndex → r.service.copied = 0
  | .service => 0 < r.service.copied → (step env s r .service).service ≠ .failed

instance (env : Env) (s : SavedState) : ∀ r who, Decidable (Meets env s r who)
  | r, .confirm => inferInstanceAs
      (Decidable (r.confirm = .behind stopIndex → r.service.copied = 0))
  | r, .service => inferInstanceAs
      (Decidable (0 < r.service.copied → (step env s r .service).service ≠ .failed))

variable {env : Env} {s : SavedState} {m m' : Machine}

theorem Same.refl (m : Machine) : Same m m := ⟨fun _ _ => rfl, fun _ => Iff.rfl⟩

theorem Same.symm (h : Same m m') : Same m' m :=
  ⟨fun p hp => (h.node p hp).symm, fun p => (h.dir p).symm⟩

theorem Same.trans {m'' : Machine} (h : Same m m') (h' : Same m' m'') : Same m m'' :=
  ⟨fun p hp => (h'.node p hp).trans (h.node p hp), fun p => (h'.dir p).trans (h.dir p)⟩

/-! ## The copies do not see the two files -/

def copyNames : List String := ["zImage", "uInitrd", "uEnv.txt", "dtb"]

theorem not_sign {p : Path} {n : String} (hn : n ∈ copyNames) : p ++ [n] ∉ signs := by
  intro hp
  have hlast : (p ++ [n]).getLast? ∈ signs.map List.getLast? := List.mem_map_of_mem hp
  rw [List.getLast?_concat] at hlast
  simp only [copyNames, List.mem_cons, List.not_mem_nil, or_false] at hn
  rcases hn with rfl | rfl | rfl | rfl <;> revert hlast <;> decide

theorem Same.isFile (h : Same m m') {p : Path} (hp : p ∉ signs) :
    m'.fs.isFile p = m.fs.isFile p := by
  rw [Tree.isFile, Tree.isFile, h.node p hp]

theorem Same.isDir (h : Same m m') (p : Path) : m'.fs.isDir p = m.fs.isDir p := by
  rw [Tree.isDir, Tree.isDir, Bool.eq_iff_iff, isDirNode_iff, isDirNode_iff, h.dir]

theorem Same.write {p : Path} {c : Content} {t : Tree String Content} (h : Same m m')
    (hw : m.fs.write p c = some t) :
    ∃ t', m'.fs.write p c = some t' ∧ Same { m with fs := t } { m' with fs := t' } := by
  obtain ⟨t', hw'⟩ : ∃ t', m'.fs.write p c = some t' := by
    refine Tree.write_eq_some ((h.dir _).mpr ?_) fun hdir => ?_
    · exact Tree.parent_of_write hw
    · exact Tree.not_dir_of_write hw ((h.dir p).mp hdir)
  refine ⟨t', hw', ?_, ?_⟩ <;> intro q
  · intro hq
    simp only [Tree.write_node hw, Tree.write_node hw', h.node q hq]
  · simp only [Tree.write_node hw, Tree.write_node hw']
    split_ifs
    · rfl
    · exact h.dir q

theorem Same.fsStep {name : String} {f : Tree String Content → Option (Tree String Content)}
    {u : Machine} (hok : fsStep name f m = .ok u)
    (h : ∀ t, f m.fs = some t →
      ∃ t', f m'.fs = some t' ∧ Same { m with fs := t } { m' with fs := t' }) :
    ∃ u', HdmiTestBoot.fsStep name f m' = .ok u' ∧ Same u u' := by
  obtain ⟨t', ht', hsame⟩ := h u.fs (fsStep_ok hok).1
  exact ⟨_, fsStep_eq ht', hsame.node, hsame.dir⟩

theorem Same.cpF {src dst : Path} {n : String} {u : Machine} (h : Same m m')
    (hn : n ∈ copyNames) (hok : cpF (src ++ [n]) dst m = .ok u) :
    ∃ u', HdmiTestBoot.cpF (src ++ [n]) dst m' = .ok u' ∧ Same u u' := by
  refine Same.fsStep hok fun t ht => ?_
  simp only [Tree.copy, h.node _ (not_sign hn), h.isDir, List.getLast?_concat,
    Option.toList_some] at ht ⊢
  split at ht
  · split_ifs at ht ⊢
    · exact h.write ht
    · exact h.write ht
  · cases ht

theorem Same.cpIfFile {src dst : Path} {n : String} {u : Machine} (h : Same m m')
    (hn : n ∈ copyNames) (hok : cpIfFile (src ++ [n]) dst m = .ok u) :
    ∃ u', HdmiTestBoot.cpIfFile (src ++ [n]) dst m' = .ok u' ∧ Same u u' := by
  unfold HdmiTestBoot.cpIfFile at hok ⊢
  rw [h.isFile (not_sign hn)]
  split_ifs at hok ⊢
  · exact h.cpF hn hok
  · obtain rfl := Except.ok.inj hok
    exact ⟨m', rfl, h⟩

theorem Same.mkdirP {p : Path} {u : Machine} (h : Same m m') (hp : ∀ q, q <+: p → q ∉ signs)
    (hok : mkdirP p m = .ok u) : ∃ u', HdmiTestBoot.mkdirP p m' = .ok u' ∧ Same u u' := by
  refine Same.fsStep hok fun t ht => ?_
  obtain ⟨t', ht'⟩ : ∃ t', m'.fs.mkdirs p = some t' := by
    rw [← Option.isSome_iff_exists, Tree.mkdirs_isSome_congr fun q hq => h.isFile (hp q hq), ht]
    rfl
  have hnode : ∀ q, q <+: p → m'.fs.node q = m.fs.node q := fun q hq => h.node q (hp q hq)
  refine ⟨t', ht', ?_, ?_⟩ <;> intro q
  · intro hq
    simp only [Tree.mkdirs_node ht, Tree.mkdirs_node ht', h.node q hq]
  · simp only [Tree.mkdirs_node ht, Tree.mkdirs_node ht']
    by_cases hq : q <+: p
    · rw [hnode q hq]
    · rw [if_neg fun hc => hq hc.1, if_neg fun hc => hq hc.1]
      exact h.dir q

/-- The device tree is not put below one of the two files. -/
def Apart (env : Env) (s : SavedState) : Prop :=
  ∀ p ∈ signs, ¬ p <+: s.bootDir.resolve env.cwd ++ s.dtbRelPath.dropLast

theorem Same.restoreStep {u : Machine} (h : Same m m') (hapart : Apart env s) {f : Step}
    (hf : f ∈ restoreSteps env s) (hok : f m = .ok u) : ∃ u', f m' = .ok u' ∧ Same u u' := by
  simp only [restoreSteps, List.mem_cons, List.not_mem_nil, or_false] at hf
  rcases hf with rfl | rfl | rfl | rfl
  · exact h.cpIfFile (by decide) hok
  · exact h.cpIfFile (by decide) hok
  · exact h.cpIfFile (by decide) hok
  · unfold restoreDtb at hok ⊢
    rw [h.isFile (not_sign (by decide))]
    split_ifs at hok ⊢
    · split at hok
      · next v hv =>
        obtain ⟨v', hv', hsame⟩ := h.mkdirP (fun q hq hmem => hapart q hmem hq) hv
        rw [hv']
        exact hsame.cpF (by decide) hok
      · cases hok
    · obtain rfl := Except.ok.inj hok
      exact ⟨m', rfl, h⟩

/-! ## The steps that touch one of the two files -/

theorem Same.of_write {p : Path} {c : Content} {t : Tree String Content}
    (hw : m.fs.write p c = some t) (hp : p ∈ signs) (b : Bool) : Same m ⟨t, b⟩ := by
  refine ⟨?_, ?_⟩ <;> intro q
  · intro hq
    have hne : q ≠ p := by
      rintro rfl
      exact hq hp
    exact (Tree.write_node hw q).trans (if_neg hne)
  · simp only [Tree.write_node hw]
    split_ifs with hq
    · rw [hq]
      exact iff_of_false (by simp) (Tree.not_dir_of_write hw)
    · rfl

theorem Same.of_remove {p : Path} {t : Tree String Content} (hr : m.fs.remove p = some t)
    (hp : p ∈ signs) (b : Bool) : Same m ⟨t, b⟩ := by
  have hdir : m.fs.node p ≠ some .dir := by
    intro hdir
    rw [Tree.remove_eq_none hdir] at hr
    cases hr
  refine ⟨?_, ?_⟩ <;> intro q
  · intro hq
    have hne : q ≠ p := by
      rintro rfl
      exact hq hp
    exact (Tree.remove_node hr q).trans (if_neg hne)
  · simp only [Tree.remove_node hr]
    split_ifs with hq
    · rw [hq]
      exact iff_of_false (by simp) hdir
    · rfl

theorem same_of_disable {f : Step} (hf : f ∈ disableService env) (hok : f m = .ok m') :
    Same m m' := by
  unfold disableService at hf
  split_ifs at hf
  · simp only [List.mem_cons, List.not_mem_nil, or_false] at hf
    rcases hf with rfl | rfl
    · obtain rfl := Except.ok.inj hok
      exact ⟨fun _ _ => rfl, fun _ => Iff.rfl⟩
    · exact Same.of_remove (fsStep_ok hok).1 (by decide) m'.enabled
  · cases hf

theorem same_of_confirm {f : Step} (hdir : m.fs.node stateDir = some .dir)
    (hf : f ∈ confirmSteps env) (hok : f m = .ok m') : Same m m' := by
  rcases List.mem_append.mp hf with hf | hf
  · simp only [List.mem_cons, List.not_mem_nil, or_false] at hf
    rcases hf with rfl | rfl
    · obtain ⟨hmk, -⟩ := fsStep_ok hok
      rw [Tree.mkdirs_self hdir] at hmk
      obtain hfs := Option.some.inj hmk
      exact ⟨fun _ _ => by rw [hfs], fun _ => by rw [hfs]⟩
    · unfold touch at hok
      split_ifs at hok
      · obtain rfl := Except.ok.inj hok
        exact Same.refl m
      · exact Same.of_write (fsStep_ok hok).1 (by decide) m'.enabled
  · exact same_of_disable hf hok

/-! ## Directories stay -/

theorem cpF_dir {src dst q : Path} (hok : cpF src dst m = .ok m')
    (hq : m.fs.node q = some .dir) : m'.fs.node q = some .dir := by
  obtain ⟨r, c, -, hw⟩ := Tree.copy_target (fsStep_ok hok).1
  exact Tree.write_dir hw hq

theorem cpIfFile_dir {src dst q : Path} (hok : cpIfFile src dst m = .ok m')
    (hq : m.fs.node q = some .dir) : m'.fs.node q = some .dir := by
  unfold cpIfFile at hok
  split_ifs at hok
  · exact cpF_dir hok hq
  · obtain rfl := Except.ok.inj hok
    exact hq

theorem restoreStep_dir {f : Step} {q : Path} (hf : f ∈ restoreSteps env s) (hok : f m = .ok m')
    (hq : m.fs.node q = some .dir) : m'.fs.node q = some .dir := by
  simp only [restoreSteps, List.mem_cons, List.not_mem_nil, or_false] at hf
  rcases hf with rfl | rfl | rfl | rfl
  · exact cpIfFile_dir hok hq
  · exact cpIfFile_dir hok hq
  · exact cpIfFile_dir hok hq
  · unfold restoreDtb at hok
    split_ifs at hok
    · split at hok
      · next v hv =>
        refine cpF_dir hok ?_
        rw [Tree.mkdirs_of_some (fsStep_ok hv).1 (by rw [hq]; exact Option.some_ne_none _), hq]
      · cases hok
    · obtain rfl := Except.ok.inj hok
      exact hq

/-! ## The two together -/

theorem advance_cases (fs : List Step) (last : Process) (i : ℕ) (m : Machine) :
    (fs.length ≤ i ∧ advance fs last i m = (last, m)) ∨
      (∃ h : i < fs.length, ∃ m', fs[i] m = .ok m' ∧
        advance fs last i m = (.behind (i + 1), m')) ∨
      advance fs last i m = (.failed, m) := by
  unfold advance
  rcases Nat.lt_or_ge i fs.length with hi | hi
  · rw [List.getElem?_eq_getElem hi]
    cases hf : fs[i] m with
    | ok m' => exact .inr (.inl ⟨hi, m', hf, by simp only [hf]⟩)
    | error e => exact .inr (.inr (by simp only [hf]))
  · rw [List.getElem?_eq_none hi]
    exact .inl ⟨hi, rfl⟩

def Placed (env : Env) (s : SavedState) (m m' : Machine) : Process → Prop
  | .behind k => ∃ w, exec ((restoreSteps env s).take k) m = (none, w) ∧ Same w m'
  | .rebooted => ∃ w, exec (restoreSteps env s) m = (none, w) ∧ Same w m'
  | _ => Same m m'

theorem Placed.same {u : Machine} {p : Process} (h : Placed env s m m' p) (hu : Same m' u) :
    Placed env s m u p := by
  cases p with
  | behind k =>
    obtain ⟨w, hw, hsame⟩ := h
    exact ⟨w, hw, hsame.trans hu⟩
  | rebooted =>
    obtain ⟨w, hw, hsame⟩ := h
    exact ⟨w, hw, hsame.trans hu⟩
  | _ => exact Same.trans h hu

theorem Placed.stop {p : Process} (h : Placed env s m m' p) (hp : p.copied = 0) :
    Placed env s m m' p.stop := by
  cases p with
  | behind k =>
    obtain rfl : k = 0 := hp
    obtain ⟨w, hw, hsame⟩ := h
    cases hw
    exact hsame
  | _ => exact h

def Process.halted : Process → Bool
  | .done => true
  | .failed => true
  | .stopped => true
  | _ => false

def Process.past : Process → Bool
  | .behind i => decide (stopIndex < i)
  | .done => true
  | _ => false

structure Sound (env : Env) (s : SavedState) (m : Machine) (r : Race) : Prop where
  dir : r.machine.fs.node stateDir = some .dir
  placed : Placed env s m r.machine r.service
  past : r.confirm.past = true → r.service.halted = true

theorem stop_halted {p : Process} (h : p ≠ .rebooted) : p.stop.halted = true := by
  cases p <;> first | rfl | exact absurd rfl h

theorem Sound.confirm {r : Race} (h : Sound env s m r) (hsys : env.systemd = true)
    (hmeets : Meets env s r .confirm) : Sound env s m (step env s r .confirm) := by
  obtain ⟨u, c, p⟩ := r
  cases c with
  | behind i =>
    by_cases hreboot : p = .rebooted
    · simpa only [step, if_pos hreboot] using h
    · have hplaced : Placed env s m u (if i = stopIndex ∧ env.systemd then p.stop else p) := by
        split_ifs with hi
        · exact h.placed.stop (hmeets (congrArg _ hi.1))
        · exact h.placed
      have hhalted : stopIndex ≤ i →
          (if i = stopIndex ∧ env.systemd then p.stop else p).halted = true := by
        intro hi
        split_ifs with hstop
        · exact stop_halted hreboot
        · have hlt : stopIndex < i := by
            rcases Nat.lt_or_eq_of_le hi with hlt | heq
            · exact hlt
            · exact absurd ⟨heq.symm, hsys⟩ hstop
          exact h.past (decide_eq_true hlt)
      simp only [step, if_neg hreboot]
      rcases advance_cases (confirmSteps env) .done i u with
        ⟨hi, hadv⟩ | ⟨hi, u', hok, hadv⟩ | hadv
      · rw [hadv]
        refine ⟨h.dir, hplaced, fun _ => hhalted ?_⟩
        simp only [confirmSteps, disableService, hsys, if_true, List.length_append,
          List.length_cons, List.length_nil] at hi
        exact Nat.le_trans (by decide) hi
      · rw [hadv]
        have hsame := same_of_confirm h.dir (List.getElem_mem hi) hok
        refine ⟨(hsame.dir _).mpr h.dir, hplaced.same hsame, fun hpast => hhalted ?_⟩
        exact Nat.le_of_lt_succ (of_decide_eq_true hpast)
      · rw [hadv]
        exact ⟨h.dir, hplaced, fun hpast => by cases hpast⟩
  | _ => exact h

theorem Placed.copy {k : ℕ} {u : Machine} (h : Placed env s m m' (.behind k))
    (hapart : Apart env s) (hk : k < (restoreSteps env s).length)
    (hok : (restoreSteps env s)[k] m' = .ok u) : Placed env s m u (.behind (k + 1)) := by
  obtain ⟨w, hw, hsame⟩ := h
  obtain ⟨w', hw', hsame'⟩ := hsame.symm.restoreStep hapart (List.getElem_mem hk) hok
  exact ⟨w', exec_take_succ hk hw hw', hsame'.symm⟩

theorem placed_of_le {k l : ℕ} (h : Placed env s m m' (.behind k))
    (hk : (restoreSteps env s).length ≤ k) (hl : (restoreSteps env s).length ≤ l) :
    Placed env s m m' (.behind l) := by
  obtain ⟨w, hw, hsame⟩ := h
  rw [List.take_of_length_le hk] at hw
  exact ⟨w, by rw [List.take_of_length_le hl, hw], hsame⟩

theorem Sound.service {r : Race} (h : Sound env s m r) (hapart : Apart env s)
    (hmeets : Meets env s r .service) : Sound env s m (step env s r .service) := by
  obtain ⟨u, c, p⟩ := r
  cases p with
  | sleeping =>
    refine ⟨h.dir, ?_, fun hc => absurd (h.past hc) Bool.false_ne_true⟩
    simp only [step]
    split_ifs
    · exact h.placed
    · exact ⟨m, rfl, h.placed⟩
  | behind k =>
    have hpast : ∀ b : Bool, c.past = true → b = true :=
      fun b hc => absurd (h.past hc) Bool.false_ne_true
    simp only [step]
    rcases advance_cases (serviceSteps env s) .rebooted k u with
      ⟨hi, hadv⟩ | ⟨hi, u', hok, hadv⟩ | hadv
    · rw [hadv]
      have hlen : (restoreSteps env s).length ≤ k := by
        rw [serviceSteps, List.length_append] at hi
        exact Nat.le_trans (Nat.le_add_right _ _) hi
      obtain ⟨w, hw, hsame⟩ := h.placed
      rw [List.take_of_length_le hlen] at hw
      exact ⟨h.dir, ⟨w, hw, hsame⟩, hpast _⟩
    · rw [hadv]
      rcases Nat.lt_or_ge k (restoreSteps env s).length with hk | hk
      · have hstep : (restoreSteps env s)[k] u = .ok u' := by
          have hleft : (serviceSteps env s)[k] = (restoreSteps env s)[k] :=
            List.getElem_append_left hk
          rwa [hleft] at hok
        exact ⟨restoreStep_dir (List.getElem_mem hk) hstep h.dir, h.placed.copy hapart hk hstep,
          hpast _⟩
      · have hmem : (serviceSteps env s)[k] ∈ disableService env := by
          simp only [serviceSteps, List.getElem_append_right hk]
          exact List.getElem_mem _
        have hsame := same_of_disable hmem hok
        exact ⟨(hsame.dir _).mpr h.dir,
          (placed_of_le h.placed hk (Nat.le_succ_of_le hk)).same hsame, hpast _⟩
    · have hzero : k = 0 := by
        by_contra hk
        exact hmeets (Nat.pos_of_ne_zero hk) (congrArg Prod.fst hadv)
      rw [hadv]
      exact ⟨h.dir, h.placed.stop hzero, fun _ => rfl⟩
  | _ => exact h

theorem Sound.step {r : Race} (h : Sound env s m r) (hsys : env.systemd = true)
    (hapart : Apart env s) (who : Who) (hmeets : Meets env s r who) :
    Sound env s m (step env s r who) := by
  cases who with
  | confirm => exact h.confirm hsys hmeets
  | service => exact h.service hapart hmeets

theorem Sound.settled {r : Race} (h : Sound env s m r) (hover : Over r) :
    Settled env s m r := by
  obtain ⟨u, c, p⟩ := r
  refine ⟨?_, fun hdone => ?_⟩
  · cases p with
    | sleeping => rcases hover with hr | ⟨-, hr⟩ <;> cases hr
    | behind k => rcases hover with hr | ⟨-, hr⟩ <;> cases hr
    | rebooted => exact .inr h.placed
    | _ => exact .inl h.placed
  · have hhalted : p.halted = true := h.past (congrArg Process.past hdone)
    cases p with
    | done => exact h.placed
    | failed => exact h.placed
    | stopped => exact h.placed
    | _ => cases hhalted

theorem stateDir_of_loadState (h : loadState m.fs = .ok s) :
    m.fs.node stateDir = some .dir := by
  refine m.fs.closed stateDir "state" fun hnone => ?_
  simp only [loadState, stateFile, hnone] at h
  cases h

theorem race_settled (hload : loadState m.fs = .ok s) (hsys : env.systemd = true)
    (hapart : Apart env s) {ws : List Who} (hws : Along (step env s) (Meets env s) (start env m) ws)
    (hover : Over (run (step env s) (start env m) ws)) :
    Settled env s m (run (step env s) (start env m) ws) := by
  have hstart : Sound env s m (start env m) := by
    refine ⟨stateDir_of_loadState hload, Same.refl m, fun hpast => ?_⟩
    simp only [start] at hpast
    split_ifs at hpast <;> cases hpast
  exact (run_spec (Meets env s) (Sound env s m)
    (fun r who hr hmeets => hr.step hsys hapart who hmeets) hstart hws).settled hover

/-! ## One of them alone -/

def tick (fs : List Step) (last : Process) : Process × Machine → Process × Machine
  | (.behind i, m) => advance fs last i m
  | x => x

def outcome (last : Process) (x : Option String × Machine) : Process × Machine :=
  (if x.1.isNone then last else .failed, x.2)

theorem tick_of_ended {fs : List Step} {last p : Process} (hp : p.ended = true) (n : ℕ)
    (m : Machine) : (tick fs last)^[n] (p, m) = (p, m) := by
  refine Function.iterate_fixed ?_ n
  cases p with
  | behind i => cases hp
  | _ => rfl

theorem tick_iterate {fs : List Step} {last : Process} {i k : ℕ}
    (hk : i + k = fs.length) (m : Machine) :
    (tick fs last)^[k + 1] (.behind i, m) = outcome last (exec (fs.drop i) m) := by
  induction k generalizing i m with
  | zero =>
    have hi : fs.length ≤ i := Nat.le_of_eq hk.symm
    simp only [Function.iterate_succ, Function.iterate_zero, Function.comp_apply, id_eq, tick,
      advance, List.getElem?_eq_none hi, List.drop_of_length_le hi]
    rfl
  | succ k ih =>
    have hi : i < fs.length := by omega
    rw [Function.iterate_succ_apply, List.drop_eq_getElem_cons hi]
    simp only [tick, advance, List.getElem?_eq_getElem hi]
    cases hf : fs[i] m with
    | ok m' =>
      rw [exec_cons_ok hf]
      exact ih (by omega) m'
    | error e =>
      rw [exec_cons_error hf]
      exact tick_of_ended rfl _ _

theorem confirm_tick (r : Race) (h : r.service ≠ .rebooted) :
    ((step env s r .confirm).confirm, (step env s r .confirm).machine) =
        tick (confirmSteps env) .done (r.confirm, r.machine) ∧
      (step env s r .confirm).service ≠ .rebooted := by
  obtain ⟨m, c, p⟩ := r
  cases c with
  | behind i =>
    simp only [step, if_neg h, tick, true_and]
    split_ifs
    · cases p <;> first | exact h | exact Process.noConfusion
    · exact h
  | _ => exact ⟨rfl, h⟩

theorem confirms_tick (n : ℕ) (r : Race) (h : r.service ≠ .rebooted) :
    ((run (step env s) r (List.replicate n .confirm)).confirm,
        (run (step env s) r (List.replicate n .confirm)).machine) =
      (tick (confirmSteps env) .done)^[n] (r.confirm, r.machine) := by
  induction n generalizing r with
  | zero => rfl
  | succ n ih =>
    obtain ⟨htick, hservice⟩ := confirm_tick (s := s) r h
    rw [List.replicate_succ, run_cons, ih _ hservice, htick, Function.iterate_succ_apply]

theorem services_tick (n : ℕ) (r : Race) (h : r.service ≠ .sleeping) :
    ((run (step env s) r (List.replicate n .service)).service,
        (run (step env s) r (List.replicate n .service)).machine) =
      (tick (serviceSteps env s) .rebooted)^[n] (r.service, r.machine) := by
  induction n generalizing r with
  | zero => rfl
  | succ n ih =>
    have htick : ((step env s r .service).service, (step env s r .service).machine) =
        tick (serviceSteps env s) .rebooted (r.service, r.machine) := by
      obtain ⟨m, c, p⟩ := r
      cases p with
      | sleeping => exact absurd rfl h
      | _ => rfl
    have hawake : (step env s r .service).service ≠ .sleeping := by
      obtain ⟨m, c, p⟩ := r
      cases p with
      | sleeping => exact absurd rfl h
      | behind k =>
        rcases advance_cases (serviceSteps env s) .rebooted k m with
          ⟨-, hadv⟩ | ⟨-, m', -, hadv⟩ | hadv <;> simp only [step, hadv] <;>
            exact Process.noConfusion
      | _ => exact h
    rw [List.replicate_succ, run_cons, ih _ hawake, htick, Function.iterate_succ_apply]

theorem confirm_alone (hroot : env.root = true) (m : Machine) :
    ((run (step env s) (start env m) (List.replicate ((confirmSteps env).length + 1)
        .confirm)).confirm,
      (run (step env s) (start env m) (List.replicate ((confirmSteps env).length + 1)
        .confirm)).machine) = outcome .done (confirmBoot env m) := by
  rw [confirms_tick _ _ Process.noConfusion]
  simp only [start, hroot, if_true, confirmBoot, Bool.not_true, Bool.false_eq_true, if_false]
  exact tick_iterate (Nat.zero_add _) m

theorem service_alone (hroot : env.root = true) (hload : loadState m.fs = .ok s)
    (hmark : m.fs.isFile confirmFile = false) :
    ((run (step env s) (start env m) (List.replicate ((serviceSteps env s).length + 2)
        .service)).service,
      (run (step env s) (start env m) (List.replicate ((serviceSteps env s).length + 2)
        .service)).machine) = outcome .rebooted (serviceRollback env m) := by
  have hawake : (step env s (start env m) .service).service = .behind 0 := by
    simp only [step, start, hmark, Bool.false_eq_true, if_false]
  rw [List.replicate_succ, run_cons, services_tick _ _ (by rw [hawake]; exact Process.noConfusion),
    hawake]
  simp only [serviceRollback, hroot, hload, hmark, Bool.not_true, Bool.false_eq_true, if_false]
  exact tick_iterate (Nat.zero_add _) m

/-! ## Between two copies -/

def tested : Machine := (installTestBoot noon treeArgs board).2

def testedState : SavedState := savedState noon treeArgs board.fs

theorem loadState_tested : loadState tested.fs = .ok testedState := by decide +kernel

theorem apart_tested : Apart noon testedState := by
  unfold Apart
  decide +kernel

def halfway : Race := run (step noon testedState) (start noon tested)
  ([.service, .service] ++ List.replicate 5 .confirm)

theorem confirmed_halfway : Over halfway ∧ halfway.confirm = .done ∧
    ¬ Same tested halfway.machine ∧
    ¬ ∃ w, exec (restoreSteps noon testedState) tested = (none, w) ∧ Same w halfway.machine := by
  refine ⟨.inr ⟨by decide +kernel, by decide +kernel⟩, by decide +kernel, ?_, ?_⟩
  · intro h
    have hnode := h.node ["boot", "zImage"] (by decide)
    exact absurd hnode (by decide +kernel)
  · rintro ⟨w, hw, h⟩
    have hnode := h.node ["boot", "dtb", "m302a.dtb"] (by decide)
    have hw' : w = (exec (restoreSteps noon testedState) tested).2 := by rw [hw]
    rw [hw'] at hnode
    exact absurd hnode (by decide +kernel)

/-- The service is stopped when it has found no marker and copied nothing. -/
theorem race_settled_tested : Settled noon testedState tested
    (run (step noon testedState) (start noon tested)
      ([.service] ++ List.replicate 5 .confirm)) := by
  exact race_settled loadState_tested rfl apart_tested (by decide +kernel)
    (.inr ⟨by decide +kernel, by decide +kernel⟩)

end Rtl8189.HdmiRace
