import Rtl8189.FileTree
import Rtl8189.StepList

/-!
# The installer of a test boot

A shell script puts a test kernel in the boot directory and arms a service that puts the
files from before back unless the test is confirmed. Paths are in normal form. A command
stops at the first step that fails.
-/
namespace Rtl8189.HdmiTestBoot

open FileTree StepList

abbrev Path := List String

structure PathArg where
  absolute : Bool
  names : Path
deriving DecidableEq

def PathArg.resolve (cwd : Path) (a : PathArg) : Path :=
  if a.absolute then a.names else cwd ++ a.names

def PathArg.append (a : PathArg) (p : Path) : PathArg := { a with names := a.names ++ p }

def PathArg.text (a : PathArg) : String :=
  (if a.absolute then "/" else "") ++ "/".intercalate a.names

/-- What `write_state` writes. The delay has an effect on the time only. -/
structure SavedState where
  bootDir : PathArg
  backupDir : PathArg
  dtbRelPath : Path
deriving DecidableEq

inductive Content where
  | text (lines : List String)
  | empty
  | script
  | unit
  | state (s : SavedState)
deriving DecidableEq

structure Machine where
  fs : Tree String Content
  /-- The service is enabled. -/
  enabled : Bool

/-- What a run of the script finds outside the file system. -/
structure Env where
  root : Bool := true
  systemd : Bool := true
  cwd : Path := []
  /-- `date -u +%Y%m%dT%H%M%SZ` -/
  date : String
  /-- `$0` is the installed script. -/
  selfInstalled : Bool := false

structure Args where
  kernelPath : Option PathArg := none
  initrdPath : Option PathArg := none
  dtbPath : Option PathArg := none
  bootDir : PathArg := ⟨true, ["boot"]⟩
  dtbRelpath : Path := []
  force : Bool := false

def installPath : Path := ["usr", "local", "sbin", "s905l3-hdmi-test"]
def servicePath : Path := ["etc", "systemd", "system", "s905l3-hdmi-rollback.service"]
def stateDir : Path := ["var", "lib", "s905l3-hdmi-test"]
def stateFile : Path := stateDir ++ ["state"]
def confirmFile : Path := stateDir ++ ["confirmed"]

/-! ## Steps -/

abbrev Step := Machine → Except String Machine

def fsStep (name : String) (f : Tree String Content → Option (Tree String Content)) : Step :=
  fun m =>
    match f m.fs with
    | some t => .ok { m with fs := t }
    | none => .error name

def mkdirP (p : Path) : Step := fsStep "mkdir" fun t => t.mkdirs p

def rmF (p : Path) : Step := fsStep "rm" fun t => t.remove p

def cpF (src dst : Path) : Step := fsStep "cp" fun t => t.copy src dst

def redirect (p : Path) (c : Content) : Step := fsStep "redirect" fun t => t.write p c

def cpIfFile (src dst : Path) : Step := fun m => if m.fs.isFile src then cpF src dst m else .ok m

def touch (p : Path) : Step := fun m =>
  if (m.fs.node p).isSome then .ok m else redirect p .empty m

def setEnabled (b : Bool) : Step := fun m => .ok { m with enabled := b }

/-! ## Commands -/

def dropSlash : List Char → List Char
  | '/' :: cs => cs
  | cs => cs

def pathNames (cs : List Char) : Path :=
  ((cs.splitOn '/').map String.ofList).foldl (fun acc n =>
    if n = "" ∨ n = "." then acc else if n = ".." then acc.dropLast else acc ++ [n]) []

/-- The path in the last `FDT=` line of `uEnv.txt`. -/
def uenvFdtRelpath (t : Tree String Content) (boot : Path) : Path :=
  match t.node (boot ++ ["uEnv.txt"]) with
  | some (.file (.text lines)) =>
    let fdt := (lines.map String.toList).filterMap fun l =>
      if "FDT=".toList.isPrefixOf l then some (l.drop 4) else none
    pathNames (dropSlash (fdt.getLast?.getD []))
  | _ => []

def unconfirmedExists : String :=
  "an unconfirmed HDMI test already exists; run --confirm, --rollback, or --force"

def unconfirmed (t : Tree String Content) : Bool := t.isFile stateFile && !t.isFile confirmFile

/-- The path of the device tree: from the command line, else from `uEnv.txt`. -/
def dtbRelpath (env : Env) (args : Args) (t : Tree String Content) : Path :=
  if args.dtbRelpath = [] ∧ args.dtbPath.isSome then uenvFdtRelpath t (args.bootDir.resolve env.cwd)
  else args.dtbRelpath

def notFile (env : Env) (t : Tree String Content) (p : Option PathArg) : Option PathArg :=
  p.filter fun a => !t.isFile (a.resolve env.cwd)

/-- What is checked before anything is written: the first complaint counts. -/
def checks (env : Env) (args : Args) (t : Tree String Content) : Option String :=
  [if !env.root then some "run as root" else none,
    if args.kernelPath.isNone then some "--kernel is required" else none,
    (notFile env t args.kernelPath).map fun a => "kernel not found: " ++ a.text,
    (notFile env t args.initrdPath).map fun a => "initrd not found: " ++ a.text,
    (notFile env t args.dtbPath).map fun a => "dtb not found: " ++ a.text,
    if !t.isDir (args.bootDir.resolve env.cwd) then
      some ("boot directory not found: " ++ args.bootDir.text) else none,
    if !env.systemd then some "systemd is required for automatic rollback" else none,
    if args.dtbPath.isSome ∧ dtbRelpath env args t = [] then
      some "could not derive DTB path; pass --dtb-relpath" else none,
    if unconfirmed t ∧ !args.force then some unconfirmedExists else none].findSome? id

def backupNames (env : Env) : Path := ["hdmi-test-backups", env.date]

def writeState (env : Env) (args : Args) (relpath : Path) : Step :=
  redirect stateFile (.state ⟨args.bootDir, args.bootDir.append (backupNames env), relpath⟩)

def installService (env : Env) : List Step :=
  [fun m => if env.selfInstalled then .ok m else redirect installPath .script m,
    redirect servicePath .unit, setEnabled true]

def checkZImage (env : Env) (bootDir : PathArg) : Step := fun m =>
  if m.fs.isFile (bootDir.resolve env.cwd ++ ["zImage"]) then .ok m
  else .error ("existing " ++ (bootDir.append ["zImage"]).text ++ " not found")

def armSteps (env : Env) (args : Args) (relpath : Path) : List Step :=
  let boot := args.bootDir.resolve env.cwd
  let backup := boot ++ backupNames env
  [mkdirP stateDir, rmF confirmFile, mkdirP backup, checkZImage env args.bootDir,
    cpF (boot ++ ["zImage"]) (backup ++ ["zImage"]),
    cpIfFile (boot ++ ["uInitrd"]) (backup ++ ["uInitrd"]),
    cpIfFile (boot ++ ["uEnv.txt"]) (backup ++ ["uEnv.txt"]),
    fun m =>
      if args.dtbPath.isSome then cpIfFile (boot ++ relpath) (backup ++ ["dtb"]) m else .ok m,
    writeState env args relpath] ++ installService env

def forArg (env : Env) (a : Option PathArg) (f : Path → Step) : Step := fun m =>
  match a with
  | some a => f (a.resolve env.cwd) m
  | none => .ok m

def replaceSteps (env : Env) (args : Args) (relpath : Path) : List Step :=
  let boot := args.bootDir.resolve env.cwd
  [forArg env args.kernelPath fun src => cpF src (boot ++ ["zImage"]),
    forArg env args.initrdPath fun src => cpF src (boot ++ ["uInitrd"]),
    forArg env args.dtbPath fun _ => mkdirP (boot ++ relpath.dropLast),
    forArg env args.dtbPath fun src => cpF src (boot ++ relpath)]

def installSteps (env : Env) (args : Args) (t : Tree String Content) : List Step :=
  armSteps env args (dtbRelpath env args t) ++ replaceSteps env args (dtbRelpath env args t)

def installTestBoot (env : Env) (args : Args) (m : Machine) : Option String × Machine :=
  match checks env args m.fs with
  | some e => (some e, m)
  | none => exec (installSteps env args m.fs) m

/-- The file is sourced. What is not a state file stops the script. -/
def loadState (t : Tree String Content) : Except String SavedState :=
  match t.node stateFile with
  | some (.file (.state s)) => .ok s
  | some (.file _) => .error "BOOT_DIR"
  | _ => .error "no rollback state at /var/lib/s905l3-hdmi-test/state"

def restoreDtb (relpath backup boot : Path) : Step := fun m =>
  if relpath ≠ [] ∧ m.fs.isFile (backup ++ ["dtb"]) then
    match mkdirP (boot ++ relpath.dropLast) m with
    | .ok m => cpF (backup ++ ["dtb"]) (boot ++ relpath) m
    | .error e => .error e
  else .ok m

def restoreSteps (env : Env) (s : SavedState) : List Step :=
  let boot := s.bootDir.resolve env.cwd
  let backup := s.backupDir.resolve env.cwd
  [cpIfFile (backup ++ ["zImage"]) (boot ++ ["zImage"]),
    cpIfFile (backup ++ ["uInitrd"]) (boot ++ ["uInitrd"]),
    cpIfFile (backup ++ ["uEnv.txt"]) (boot ++ ["uEnv.txt"]),
    restoreDtb s.dtbRelPath backup boot]

def disableService (env : Env) : List Step :=
  if env.systemd then [setEnabled false, rmF servicePath] else []

def confirmBoot (env : Env) (m : Machine) : Option String × Machine :=
  if !env.root then (some "run as root", m)
  else exec ([mkdirP stateDir, touch confirmFile] ++ disableService env) m

def manualRollback (env : Env) (m : Machine) : Option String × Machine :=
  if !env.root then (some "run as root", m)
  else
    match loadState m.fs with
    | .error e => (some e, m)
    | .ok s => exec (restoreSteps env s ++ [rmF confirmFile] ++ disableService env) m

def serviceRollback (env : Env) (m : Machine) : Option String × Machine :=
  if !env.root then (some "run as root", m)
  else
    match loadState m.fs with
    | .error e => (some e, m)
    | .ok s =>
      if m.fs.isFile confirmFile then (none, m)
      else exec (restoreSteps env s ++ disableService env) m

end Rtl8189.HdmiTestBoot
