import Mathlib.Data.List.Infix
import Mathlib.Logic.Function.Basic
import Rtl8189.EventRun

/-!
# The queue limits of the internal eMMC

A shell script writes the queue limits of the eMMC disks, and installs a service that runs
it and a rule that udev follows at every event of a disk. A text is a list of characters.
What an attribute shows once a text is written to it is up to the kernel, and which device
paths the rule takes is up to udev.
-/
namespace Rtl8189.EmmcLimits

open EventRun

abbrev Text := List Char

inductive Attr
  | maxSectorsKb
  | nomerges
  | readAheadKb
deriving DecidableEq

structure Env where
  hostMatch : Option Text := none
  maxSectorsKb : Option Text := none
  nomerges : Option Text := none
  readAheadKb : Option Text := none
  readOnly : Option Text := none

structure Settings where
  hostMatch : Text
  limit : Attr → Text
  readOnly : Text

/-- `${NAME:-value}` -/
def orDefault (x : Option Text) (value : Text) : Text :=
  if x.getD [] = [] then value else x.getD []

def Env.settings (e : Env) : Settings where
  hostMatch := orDefault e.hostMatch "d0074000.mmc".toList
  limit
    | .maxSectorsKb => orDefault e.maxSectorsKb ['4']
    | .nomerges => orDefault e.nomerges ['2']
    | .readAheadKb => orDefault e.readAheadKb ['0']
  readOnly := orDefault e.readOnly ['0']

/-- What the service finds: systemd sets none of the variables. -/
def serviceSettings : Settings := Env.settings {}

variable {α : Type*}

@[ext]
structure Disk (α : Type*) where
  name : Text
  /-- `readlink -f` of its directory -/
  path : Text
  attr : Attr → Option α
  ro : Bool
  /-- `/dev/name` is a block device. -/
  blockDev : Bool

structure Kernel (α : Type*) where
  /-- What the attribute of the disk shows after the text, if the text is accepted. -/
  store : Text → Attr → Text → Option α
  /-- The same for a text that is assigned in a rule. -/
  assign : Text → Attr → Text → Option α
  setro : Text → Bool
  /-- `ENV{DEVPATH}=="*${HOST_MATCH}*"` for the host and the path -/
  devpathMatches : Text → Text → Bool

structure System (α : Type*) where
  disks : List (Disk α) := []
  /-- What the rule was written with, while service and rule are there. -/
  installed : Option Settings := none

/-! ## The script -/

def found (host : Text) (d : Disk α) : Bool :=
  "mmcblk".toList <+: d.name ∧ ¬ "boot".toList <:+: d.name ∧ ¬ "rpmb".toList <:+: d.name ∧
    host <:+: d.path

def Disk.writeAttr (d : Disk α) (a : Attr) (v : Option α) : Disk α :=
  { d with attr := Function.update d.attr a ((d.attr a).map v.getD) }

variable (K : Kernel α)

def Disk.setReadOnly (d : Disk α) (s : Settings) : Disk α :=
  if s.readOnly = ['1'] ∧ d.blockDev then { d with ro := d.ro || K.setro d.name } else d

def applyOne (s : Settings) (d : Disk α) : Disk α :=
  let put a d := Disk.writeAttr d a (K.store d.name a (s.limit a))
  put .readAheadKb (put .nomerges (put .maxSectorsKb (d.setReadOnly K s)))

def applyLimits (s : Settings) (disks : List (Disk α)) : List (Disk α) :=
  disks.map fun d => if found s.hostMatch d then applyOne K s d else d

def statusLimits (s : Settings) (disks : List (Disk α)) : List (Disk α) :=
  disks.map fun d => if found s.hostMatch d then applyOne K s d else d

/-! ## The rule -/

/-- `KERNEL=="mmcblk[0-9]"` -/
def kernelMatches (name : Text) : Bool :=
  "mmcblk".toList <+: name ∧ name.length = 7 ∧ (name.getD 6 ' ').isDigit

def ruleMatches (s : Settings) (d : Disk α) : Bool :=
  kernelMatches d.name && K.devpathMatches s.hostMatch d.path

def runRule (s : Settings) (d : Disk α) : Disk α :=
  let put a d := Disk.writeAttr d a (K.assign d.name a (s.limit a))
  if ruleMatches K s d then put .readAheadKb (put .nomerges (put .maxSectorsKb d)) else d

/-! ## Runs -/

inductive Event (α : Type*)
  | install (root systemctl : Bool) (env : Env)
  | apply (root : Bool) (env : Env)
  | status (env : Env)
  | uninstall (root : Bool)
  /-- The disks of before are gone; those of the new boot are added. -/
  | boot
  | service
  | add (d : Disk α)
  | change (name : Text)

def System.service (c : System α) : System α :=
  if c.installed.isSome then { c with disks := applyLimits K serviceSettings c.disks } else c

def System.follow (c : System α) (d : Disk α) : Disk α :=
  match c.installed with
  | some s => runRule K s d
  | none => d

def step (c : System α) : Event α → System α
  | .install root systemctl env =>
    if root then
      let c := { c with installed := some env.settings }
      if systemctl then c.service K else { c with disks := applyLimits K env.settings c.disks }
    else c
  | .apply root env =>
    if root then { c with disks := applyLimits K env.settings c.disks } else c
  | .status env => { c with disks := statusLimits K env.settings c.disks }
  | .uninstall root => if root then { c with installed := none } else c
  | .boot => { c with disks := [] }
  | .service => c.service K
  | .add d => { c with disks := c.disks.filter (fun d' => d'.name ≠ d.name) ++ [c.follow K d] }
  | .change name =>
    { c with disks := c.disks.map fun d => if d.name = name then c.follow K d else d }

/-! ## What is asked -/

def Limited (s : Settings) (d : Disk α) : Prop :=
  (d.ro = true ↔ s.readOnly = ['1']) ∧
    ∀ a, ∃ v, d.attr a = some v ∧ K.store d.name a (s.limit a) = some v

def Honoured (c : System α) : Prop :=
  ∀ s, c.installed = some s → ∀ d ∈ c.disks, found s.hostMatch d → Limited K s d

def Kept (c : System α) : Event α → Prop
  | .install root systemctl env =>
    root → systemctl → Honoured K (step K c (.install root systemctl env))
  | .service => Honoured K (step K c .service)
  | .add d => Honoured K (step K c (.add d))
  | .change name => Honoured K (step K c (.change name))
  | .status env => (step K c (.status env)).disks = c.disks
  | _ => True

/-- The disk is read-only already if it is to be, and each attribute shows, with what is
stored there now if anything is, what the text of the settings stands for. -/
def Agrees (s : Settings) (d : Disk α) (stored : Attr → Option α) : Prop :=
  (d.ro = true ↔ s.readOnly = ['1']) ∧
    ∀ a, ∃ old, d.attr a = some old ∧ K.store d.name a (s.limit a) = some ((stored a).getD old)

/-- What the service stores: the values that are built in, under the host that is built in. -/
def serviceStores (d : Disk α) (a : Attr) : Option α :=
  if found serviceSettings.hostMatch d then K.store d.name a (serviceSettings.limit a) else none

def ruleStores (s : Settings) (d : Disk α) (a : Attr) : Option α :=
  if ruleMatches K s d then K.assign d.name a (s.limit a) else none

def Meets (c : System α) : Event α → Prop
  | .install root systemctl env => root → systemctl →
    ∀ d ∈ c.disks, found env.settings.hostMatch d → Agrees K env.settings d (serviceStores K d)
  | .service => ∀ s, c.installed = some s →
    ∀ d ∈ c.disks, found s.hostMatch d → Agrees K s d (serviceStores K d)
  | .add d => ∀ s, c.installed = some s →
    (∀ d' ∈ c.disks, d'.name ≠ d.name → found s.hostMatch d' → Limited K s d') ∧
      (found s.hostMatch d → Agrees K s d (ruleStores K s d))
  | .change name => ∀ s, c.installed = some s → ∀ d ∈ c.disks, found s.hostMatch d →
    if d.name = name then Agrees K s d (ruleStores K s d) else Limited K s d
  | .status env => ∀ d ∈ c.disks, found env.settings.hostMatch d →
    (env.settings.readOnly = ['1'] → d.blockDev → K.setro d.name → d.ro) ∧
      ∀ a old, d.attr a = some old →
        (K.store d.name a (env.settings.limit a)).getD old = old
  | _ => True

/-! ## One disk -/

section Disk

variable {K} {s : Settings} {d d' : Disk α} {host : Text} {stored : Attr → Option α}

theorem found_congr (hname : d'.name = d.name) (hpath : d'.path = d.path) :
    found host d' = found host d := by
  rw [found, found, hname, hpath]

structure Stored (stored : Attr → Option α) (d d' : Disk α) : Prop where
  name : d'.name = d.name
  path : d'.path = d.path
  attr : ∀ a, d'.attr a = (d.attr a).map (stored a).getD

theorem Stored.refl (d : Disk α) : Stored (fun _ => none) d d where
  name := rfl
  path := rfl
  attr a := by cases d.attr a <;> rfl

theorem stored_put (d : Disk α) (v : Attr → Option α) :
    Stored v d (((d.writeAttr .maxSectorsKb (v .maxSectorsKb)).writeAttr .nomerges
      (v .nomerges)).writeAttr .readAheadKb (v .readAheadKb)) where
  name := rfl
  path := rfl
  attr a := by cases a <;> rfl

theorem stored_applyOne (s : Settings) (d : Disk α) :
    Stored (fun a => K.store d.name a (s.limit a)) d (applyOne K s d) := by
  have hname : (d.setReadOnly K s).name = d.name := by
    unfold Disk.setReadOnly
    split <;> rfl
  have hpath : (d.setReadOnly K s).path = d.path := by
    unfold Disk.setReadOnly
    split <;> rfl
  have hattr : (d.setReadOnly K s).attr = d.attr := by
    unfold Disk.setReadOnly
    split <;> rfl
  have h := stored_put (d.setReadOnly K s)
    fun a => K.store (d.setReadOnly K s).name a (s.limit a)
  exact ⟨h.name.trans hname, h.path.trans hpath, fun a => by rw [← hattr, ← hname]; exact h.attr a⟩

theorem applyOne_ro (s : Settings) (d : Disk α) :
    (applyOne K s d).ro = (d.setReadOnly K s).ro := rfl

theorem stored_runRule (s : Settings) (d : Disk α) :
    Stored (ruleStores K s d) d (runRule K s d) := by
  unfold runRule ruleStores
  split
  · exact stored_put d _
  · exact Stored.refl d

theorem runRule_ro (s : Settings) (d : Disk α) : (runRule K s d).ro = d.ro := by
  unfold runRule
  split <;> rfl

theorem Stored.limited_iff (h : Stored stored d d') (hro : d'.ro = d.ro) :
    Limited K s d' ↔ Agrees K s d stored := by
  unfold Limited Agrees
  rw [hro, h.name]
  refine and_congr_right fun _ => forall_congr' fun a => ?_
  rw [h.attr]
  constructor
  · rintro ⟨v, hv, hstore⟩
    obtain ⟨old, hold, rfl⟩ := Option.map_eq_some_iff.mp hv
    exact ⟨old, hold, hstore⟩
  · rintro ⟨old, hold, hstore⟩
    exact ⟨_, Option.map_eq_some_iff.mpr ⟨old, hold, rfl⟩, hstore⟩

theorem service_limited :
    Limited K s (if found serviceSettings.hostMatch d then applyOne K serviceSettings d else d) ↔
      Agrees K s d (serviceStores K d) := by
  by_cases h : found serviceSettings.hostMatch d = true
  · have hstored : serviceStores K d = fun a => K.store d.name a (serviceSettings.limit a) := by
      funext a
      exact if_pos h
    rw [if_pos h, hstored]
    exact (stored_applyOne _ d).limited_iff rfl
  · have hstored : serviceStores K d = fun _ => none := by
      funext a
      exact if_neg h
    rw [if_neg h, hstored]
    exact (Stored.refl d).limited_iff rfl

theorem service_found :
    found host (if found serviceSettings.hostMatch d then applyOne K serviceSettings d else d) =
      found host d := by
  split
  · exact found_congr (stored_applyOne _ d).name (stored_applyOne _ d).path
  · rfl

theorem applyOne_eq_iff : applyOne K s d = d ↔
    (s.readOnly = ['1'] → d.blockDev → K.setro d.name → d.ro) ∧
      ∀ a old, d.attr a = some old → (K.store d.name a (s.limit a)).getD old = old := by
  have hstored := stored_applyOne (K := K) s d
  have hdev : (applyOne K s d).blockDev = d.blockDev := by
    change (d.setReadOnly K s).blockDev = d.blockDev
    unfold Disk.setReadOnly
    split <;> rfl
  have hro : (applyOne K s d).ro = d.ro ↔
      (s.readOnly = ['1'] → d.blockDev → K.setro d.name → d.ro) := by
    rw [applyOne_ro, Disk.setReadOnly]
    split
    · next h =>
      simp only [h.1, h.2, true_imp_iff]
      cases d.ro <;> cases K.setro d.name <;> decide
    · next h => exact iff_of_true rfl fun h1 h2 => absurd ⟨h1, h2⟩ h
  have hattr : (applyOne K s d).attr = d.attr ↔
      ∀ a old, d.attr a = some old → (K.store d.name a (s.limit a)).getD old = old := by
    rw [funext_iff]
    refine forall_congr' fun a => ?_
    rw [hstored.attr]
    cases d.attr a with
    | none => exact iff_of_true rfl fun old h => by cases h
    | some v =>
      rw [Option.map_some, Option.some_inj]
      exact ⟨fun h old hold => Option.some.inj hold ▸ h, fun h => h v rfl⟩
  rw [← hro, ← hattr]
  constructor
  · intro h
    rw [h]
    exact ⟨rfl, rfl⟩
  · rintro ⟨h1, h2⟩
    exact Disk.ext hstored.name hstored.path h2 h1 hdev

end Disk

/-! ## One step -/

variable {K} {c : System α}

theorem honoured_some {s : Settings} (h : c.installed = some s) :
    Honoured K c ↔ ∀ d ∈ c.disks, found s.hostMatch d → Limited K s d := by
  unfold Honoured
  rw [h]
  exact ⟨fun h => h s rfl, fun h s' hs' => Option.some.inj hs' ▸ h⟩

theorem honoured_none (h : c.installed = none) : Honoured K c := by
  intro s hs
  cases h.symm.trans hs

theorem service_honoured {s : Settings} (h : c.installed = some s) :
    Honoured K (c.service K) ↔
      ∀ d ∈ c.disks, found s.hostMatch d → Agrees K s d (serviceStores K d) := by
  have hservice : c.service K = { c with disks := applyLimits K serviceSettings c.disks } := by
    rw [System.service, h]
    rfl
  have hsome : (c.service K).installed = some s := by
    rw [hservice]
    exact h
  rw [honoured_some hsome, hservice, applyLimits, List.forall_mem_map]
  refine forall₂_congr fun d _ => ?_
  rw [service_found, service_limited]

theorem follow_found {host : Text} {d : Disk α} : found host (c.follow K d) = found host d := by
  unfold System.follow
  split
  · exact found_congr (stored_runRule _ d).name (stored_runRule _ d).path
  · rfl

theorem follow_limited {s : Settings} (h : c.installed = some s) {d : Disk α} :
    Limited K s (c.follow K d) ↔ Agrees K s d (ruleStores K s d) := by
  have hfollow : c.follow K d = runRule K s d := by
    unfold System.follow
    rw [h]
  rw [hfollow]
  exact (stored_runRule s d).limited_iff (runRule_ro s d)

theorem add_honoured {s : Settings} (h : c.installed = some s) (d : Disk α) :
    Honoured K (step K c (.add d)) ↔
      (∀ d' ∈ c.disks, d'.name ≠ d.name → found s.hostMatch d' → Limited K s d') ∧
        (found s.hostMatch d → Agrees K s d (ruleStores K s d)) := by
  rw [honoured_some (by exact h), step, List.forall_mem_append, List.forall_mem_singleton,
    follow_found, follow_limited h]
  refine and_congr_left fun _ => forall_congr' fun d' => ?_
  rw [List.mem_filter, decide_eq_true_eq, and_imp]

theorem change_honoured {s : Settings} (h : c.installed = some s) (name : Text) :
    Honoured K (step K c (.change name)) ↔ ∀ d ∈ c.disks, found s.hostMatch d →
      if d.name = name then Agrees K s d (ruleStores K s d) else Limited K s d := by
  rw [honoured_some (by exact h), step, List.forall_mem_map]
  refine forall₂_congr fun d _ => ?_
  split
  · rw [follow_found, follow_limited h]
  · rfl

theorem status_disks (env : Env) : (step K c (.status env)).disks = c.disks ↔
    ∀ d ∈ c.disks, found env.settings.hostMatch d → applyOne K env.settings d = d := by
  have hmap := List.map_inj_left (l := c.disks) (g := id)
    (f := fun d => if found env.settings.hostMatch d then applyOne K env.settings d else d)
  rw [List.map_id] at hmap
  refine hmap.trans (forall₂_congr fun d _ => ?_)
  split
  · next h => exact (imp_iff_right h).symm
  · next h => exact iff_of_true rfl fun h' => absurd h' h

theorem service_installed : (c.service K).installed = c.installed := by
  unfold System.service
  split <;> rfl

theorem honoured_iff {c' : System α} {p : Settings → Prop} (hsame : c'.installed = c.installed)
    (h : ∀ s, c.installed = some s → (Honoured K c' ↔ p s)) :
    Honoured K c' ↔ ∀ s, c.installed = some s → p s := by
  cases hc : c.installed with
  | none =>
    refine iff_of_true (honoured_none (hsame.trans hc)) fun s hs => ?_
    cases hs
  | some s =>
    rw [h s hc]
    exact ⟨fun hp s' hs' => Option.some.inj hs' ▸ hp, fun hp => hp s rfl⟩

variable (K) in
theorem kept_iff_meets (c : System α) (e : Event α) : Kept K c e ↔ Meets K c e := by
  cases e with
  | install root systemctl env =>
    refine forall₂_congr fun hroot hsystemctl => ?_
    rw [step, if_pos hroot]
    simp only [if_pos hsystemctl]
    exact service_honoured rfl
  | status env =>
    refine (status_disks env).trans (forall₂_congr fun d _ => forall_congr' fun _ => ?_)
    exact applyOne_eq_iff
  | service => exact honoured_iff service_installed fun s hs => service_honoured hs
  | add d => exact honoured_iff rfl fun s hs => add_honoured hs d
  | change name => exact honoured_iff rfl fun s hs => change_honoured hs name
  | apply root env => exact Iff.rfl
  | uninstall root => exact Iff.rfl
  | boot => exact Iff.rfl

/-- The limits are those installed after every step of a run, and a status run changes nothing,
just when every step finds what it takes. -/
theorem limits_kept_iff (K : Kernel α) (c : System α) (es : List (Event α)) :
    Along (step K) (Kept K) c es ↔ Along (step K) (Meets K) c es :=
  ⟨Along.imp fun c e => (kept_iff_meets K c e).1, Along.imp fun c e => (kept_iff_meets K c e).2⟩

/-! ## A disk that is left writable -/

def plainKernel : Kernel Text where
  store _ _ t := some t
  assign _ _ t := some t
  setro _ := true
  devpathMatches host path := host <:+: path

def emmc : Disk Text where
  name := "mmcblk1".toList
  path := "/sys/devices/platform/d0074000.mmc/mmc_host/mmc1/block/mmcblk1".toList
  attr
    | .maxSectorsKb => some "512".toList
    | .nomerges => some ['0']
    | .readAheadKb => some "128".toList
  ro := false
  blockDev := true

def protect : Env := { readOnly := some ['1'] }

theorem protected_left_writable :
    ¬ Along (step plainKernel) (Kept plainKernel) { disks := [emmc] }
        [.install true true protect] ∧
      ¬ Along (step plainKernel) (Kept plainKernel) { disks := [emmc] } [.status {}] := by
  constructor
  · intro h
    have hlimited := h.1 rfl rfl protect.settings rfl _ List.mem_cons_self (by decide +kernel)
    exact absurd (hlimited.1.2 rfl) (by decide +kernel)
  · intro h
    have hshown := congrArg (List.map fun d => d.attr .maxSectorsKb) h.1
    exact absurd hshown (by decide +kernel)

end Rtl8189.EmmcLimits
