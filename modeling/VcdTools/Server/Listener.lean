import Mathlib.Logic.Function.Basic

/-! # Listeners on one socket path

`server/listener.rs`: the runs of `bind_inner` on one path and what becomes of
their listeners, one file-system call a step, in any order. Run `i` binds the
temporary name `i`, which no other run has. A call fails as the files make it
fail, or in a body of `bind_inner` for a reason of its own (`BindLook.fails`). -/
namespace VcdTools.Server

inductive IoErrorKind
  | notFound | permissionDenied | addrInUse | alreadyExists | invalidInput | invalidData | other
  deriving DecidableEq, Repr

/-- An error of the system has no message of its own. -/
structure IoError where
  kind : IoErrorKind
  message : Option String
  deriving DecidableEq, Repr

def IoError.new (kind : IoErrorKind) (message : String) : IoError := ⟨kind, some message⟩

def IoError.os (kind : IoErrorKind) : IoError := ⟨kind, none⟩

/-! ## The directory -/

structure ParentMetadata where
  isDir : Bool
  uid : Nat
  mode : Nat
  deriving DecidableEq, Repr

/-- What `bind_inner` learns of the path before it looks at it. `parent` is the
`fs::metadata` of the parent, if there is one. -/
structure SocketPath where
  isAbsolute : Bool
  parent : Option (Except IoError ParentMetadata)

def SocketPath.check (path : SocketPath) (effectiveUid : Nat) : Except IoError Unit :=
  if !path.isAbsolute then .error (.new .invalidInput "Unix socket path must be absolute")
  else
    match path.parent with
    | none => .error (.new .invalidInput "Unix socket path has no parent")
    | some parent => do
      let metadata ← parent
      if !metadata.isDir then
        .error (.new .invalidInput "Unix socket parent is not a directory")
      else if metadata.uid != effectiveUid || metadata.mode &&& 0o077 != 0 then
        .error (.new .permissionDenied
          "Unix socket parent must be owner-only (0700-style) and owned by the current user")
      else .ok ()

/-! ## Files and guards -/

/-- The metadata of a file. The device is the directory's for every file. -/
structure FileMetadata where
  isSocket : Bool
  uid : Nat
  ino : Nat
  deriving DecidableEq, Repr

/-- `SocketIdentity::matches`. -/
def FileMetadata.matches (metadata : FileMetadata) (identity : Nat) : Bool :=
  metadata.isSocket && metadata.ino == identity

/-- The file that was at the path from the start, or the socket of a run. -/
inductive SocketFile
  | initial
  | made (i : Nat)
  deriving DecidableEq, Repr

/-- A run knows two names: its temporary one and the path. -/
inductive SocketName
  | temporary | path
  deriving DecidableEq, Repr

structure CreatedSocketGuard where
  path : SocketName
  publishedPath : Option SocketName
  identity : Option Nat
  deriving DecidableEq, Repr

/-- What `cleanup` calls `remove_if_owned` on, in order. -/
def CreatedSocketGuard.targets (guard : CreatedSocketGuard) : List SocketName :=
  guard.path :: (guard.publishedPath.toList.filter (· != guard.path))

/-- `remove_if_owned` would remove this file. -/
def CreatedSocketGuard.owns (guard : CreatedSocketGuard) (metadata : FileMetadata) : Bool :=
  guard.identity.elim metadata.isSocket metadata.matches

/-! ## Runs -/

/-- Why a guard cleans up: the run has failed, the listener is dropped, or
its `cleanup` is called. -/
inductive BindOutcome
  | failed (error : IoError)
  | dropped
  | cleaned
  deriving DecidableEq, Repr

/-- The listener is closed first when it is dropped, and last when a run fails. -/
def BindOutcome.listens : BindOutcome → Bool
  | .failed _ | .cleaned => true
  | .dropped => false

/-- The next call of a run. -/
inductive BindPc
  | checking
  /-- `fs::symlink_metadata(path)` of `if let Ok(existing)`. -/
  | looking
  | connecting (existing : FileMetadata)
  /-- The second `fs::symlink_metadata(path)`. -/
  | validating (existing : FileMetadata)
  /-- `fs::remove_file(path)`. -/
  | removing
  | binding
  | hooking
  | capturing
  | restricting
  /-- The `fs::symlink_metadata` after the `chmod`. -/
  | inspecting
  /-- `fs::hard_link`. -/
  | linking
  /-- `fs::remove_file` of the temporary name. -/
  | unlinking
  | confirming
  | bound
  /-- `symlink_metadata` in `remove_if_owned`. -/
  | cleaning (targets : List SocketName) (outcome : BindOutcome)
  /-- `remove_file` in `remove_if_owned`. -/
  | erasing (name : SocketName) (targets : List SocketName) (outcome : BindOutcome)
  | finished (outcome : BindOutcome)
  deriving DecidableEq, Repr

/-- The run's socket is open. -/
def BindPc.listens : BindPc → Bool
  | .checking | .looking | .connecting _ | .validating _ | .removing | .binding => false
  | .hooking | .capturing | .restricting | .inspecting | .linking | .unlinking | .confirming
  | .bound => true
  | .cleaning _ outcome | .erasing _ _ outcome => outcome.listens
  | .finished outcome => outcome == .cleaned

/-- The run has linked its socket to the path and has not come to take it away. -/
def BindPc.published : BindPc → Bool
  | .unlinking | .confirming | .bound => true
  | .cleaning targets _ => targets.contains .path
  | .erasing name targets _ => name == .path || targets.contains .path
  | _ => false

/-- `ino` is the inode number of the run's socket, `temporary` says that its
temporary name exists. -/
structure BindRun where
  pc : BindPc
  ino : Nat
  temporary : Bool
  guard : CreatedSocketGuard
  deriving DecidableEq, Repr

def BindRun.start : BindRun where
  pc := .checking
  ino := 0
  temporary := false
  guard := ⟨.temporary, none, none⟩

structure InitialFile where
  metadata : FileMetadata
  listening : Bool

/-- `runs` is how many runs there are. -/
structure BindConfig where
  target : SocketPath
  effectiveUid : Nat
  runs : Nat
  initial : Option InitialFile

/-- `initialListening` says that somebody listens on the initial file. -/
structure ListenerState where
  path : Option SocketFile
  initialListening : Bool
  runs : Nat → BindRun

/-- What befalls a call: an error of its own, and the inode number that a new
socket gets. -/
structure BindLook where
  fails : Option IoError := none
  ino : Nat := 0

inductive BindAction
  | step (i : Nat) (look : BindLook)
  /-- The owner of listener `i` drops it. -/
  | drop (i : Nat)
  /-- The owner of listener `i` calls `cleanup`. -/
  | cleanup (i : Nat)
  /-- The server on the initial file closes its socket. -/
  | hangup

def ListenerState.init (config : BindConfig) : ListenerState where
  path := config.initial.map fun _ => .initial
  initialListening := config.initial.any fun file => file.metadata.isSocket && file.listening
  runs := fun _ => .start

namespace ListenerState
variable (config : BindConfig) (s : ListenerState) (i : Nat)

def metadata : SocketFile → FileMetadata
  | .initial => (config.initial.map InitialFile.metadata).getD ⟨false, 0, 0⟩
  | .made i => ⟨true, config.effectiveUid, (s.runs i).ino⟩

/-- `UnixStream::connect` to the file succeeds. -/
def listening : SocketFile → Bool
  | .initial => s.initialListening
  | .made i => (s.runs i).pc.listens

def put (run : BindRun) : ListenerState := { s with runs := Function.update s.runs i run }

def goto (run : BindRun) (pc : BindPc) : ListenerState := s.put i { run with pc }

/-- The file that one of the run's names refers to. -/
def resolve (run : BindRun) : SocketName → Option SocketFile
  | .temporary => if run.temporary then some (.made i) else none
  | .path => s.path

/-- `fs::remove_file`. -/
def remove (run : BindRun) (pc : BindPc) : SocketName → ListenerState
  | .temporary => s.put i { run with temporary := false, pc }
  | .path => { s.put i { run with pc } with path := none }

/-- Some file that is linked or open has the number. -/
def inUse (ino : Nat) : Bool :=
  ((s.path == some .initial || s.initialListening) && (s.metadata config .initial).ino == ino) ||
  (List.range config.runs).any fun i =>
    ((s.runs i).temporary || (s.runs i).pc.listens || s.path == some (.made i)) &&
      (s.runs i).ino == ino

/-- An error before there is a guard. -/
def abort (run : BindRun) (error : IoError) : ListenerState :=
  s.goto i run (.finished (.failed error))

/-- An error that the guard is dropped with. -/
def fail (run : BindRun) (error : IoError) : ListenerState :=
  s.goto i run (.cleaning run.guard.targets (.failed error))

def changedDuringCreation : IoError :=
  .new .alreadyExists "Unix socket path changed during creation"

/-- The stale-socket branch of `bind_inner`. -/
def probe (run : BindRun) : BindPc → ListenerState
  | .looking =>
    match s.path with
    | none => s.goto i run .binding
    | some file =>
      if !(s.metadata config file).isSocket then
        s.abort i run (.new .alreadyExists "refusing to unlink a non-socket path")
      else s.goto i run (.connecting (s.metadata config file))
  | .connecting existing =>
    match s.path with
    | none =>
      s.abort i run (.new .addrInUse "Unix socket liveness is uncertain; refusing to unlink")
    | some file =>
      if s.listening file then
        s.abort i run (.new .addrInUse "Unix socket already has a live listener")
      else if existing.uid != config.effectiveUid then
        s.abort i run (.new .permissionDenied "stale Unix socket is not owned by the current user")
      else s.goto i run (.validating existing)
  | .validating existing =>
    match s.path with
    | none => s.abort i run (.os .notFound)
    | some file =>
      if (s.metadata config file).matches existing.ino then s.goto i run .removing
      else s.abort i run (.new .alreadyExists
        "Unix socket path changed during stale-socket validation")
  | .removing =>
    match s.path with
    | none => s.abort i run (.os .notFound)
    | some _ => s.remove i run .binding .path
  | _ => s

/-- `bind_inner` from the bound temporary name on. -/
def create (run : BindRun) : BindPc → ListenerState
  | .hooking => s.goto i run .capturing
  | .capturing =>
    match s.resolve i run .temporary with
    | none => s.fail i run (.os .notFound)
    | some file =>
      if (s.metadata config file).isSocket then
        let identity := (s.metadata config file).ino
        s.goto i { run with guard := { run.guard with identity := some identity } } .restricting
      else s.fail i run (.new .invalidData "created Unix socket path is not a socket")
  | .restricting => s.goto i run .inspecting
  | .inspecting =>
    match s.resolve i run .temporary with
    | none => s.fail i run (.os .notFound)
    | some file =>
      if run.guard.identity.any (s.metadata config file).matches then s.goto i run .linking
      else s.fail i run (.new .alreadyExists "Unix socket temporary path changed during creation")
  | .linking =>
    match s.path with
    | some _ => s.fail i run (.os .alreadyExists)
    | none =>
      let guard := { run.guard with publishedPath := some .path }
      { s.goto i { run with guard } .unlinking with path := some (.made i) }
  | .unlinking =>
    match s.resolve i run .temporary with
    | none => s.fail i run (.os .notFound)
    | some _ =>
      let guard := { run.guard with path := .path, publishedPath := none }
      s.remove i { run with guard } .confirming .temporary
  | .confirming =>
    match s.path with
    | none => s.fail i run (.os .notFound)
    | some file =>
      if run.guard.identity.any (s.metadata config file).matches then s.goto i run .bound
      else s.fail i run changedDuringCreation
  | _ => s

/-- The guard's `cleanup`. -/
def clean (run : BindRun) : BindPc → ListenerState
  | .cleaning [] outcome => s.goto i run (.finished outcome)
  | .cleaning (name :: targets) outcome =>
    match s.resolve i run name with
    | none => s.goto i run (.cleaning targets outcome)
    | some file =>
      if run.guard.owns (s.metadata config file) then
        s.goto i run (.erasing name targets outcome)
      else s.goto i run (.cleaning targets outcome)
  | .erasing name targets outcome =>
    match s.resolve i run name with
    | none => s.goto i run (.finished outcome)
    | some _ => s.remove i run (.cleaning targets outcome) name
  | _ => s

/-- The next call of run `i`. -/
def turn (run : BindRun) (look : BindLook) : Option ListenerState :=
  match run.pc with
  | .checking =>
    match config.target.check config.effectiveUid with
    | .error error => some (s.abort i run error)
    | .ok () => some (s.goto i run .looking)
  | .looking =>
    match look.fails with
    | some _ => some (s.goto i run .binding)
    | none => some (s.probe config i run .looking)
  | .connecting existing =>
    match look.fails with
    | some _ => some (s.abort i run
        (.new .addrInUse "Unix socket liveness is uncertain; refusing to unlink"))
    | none => some (s.probe config i run (.connecting existing))
  | .validating _ | .removing =>
    match look.fails with
    | some error => some (s.abort i run error)
    | none => some (s.probe config i run run.pc)
  | .binding =>
    match look.fails with
    | some error => some (s.abort i run error)
    | none =>
      if s.inUse config look.ino then none
      else some (s.put i { run with pc := .hooking, ino := look.ino, temporary := true })
  | .hooking | .capturing | .restricting | .inspecting | .linking | .unlinking | .confirming =>
    match look.fails with
    | some error => some (s.fail i run error)
    | none => some (s.create config i run run.pc)
  | .cleaning _ _ | .erasing _ _ _ => some (s.clean config i run run.pc)
  | .bound | .finished _ => none

def step : BindAction → Option ListenerState
  | .step i look => if i < config.runs then s.turn config i (s.runs i) look else none
  | .drop i =>
    match (s.runs i).pc with
    | .bound => some (s.goto i (s.runs i) (.cleaning (s.runs i).guard.targets .dropped))
    | .finished .cleaned => some (s.goto i (s.runs i) (.finished .dropped))
    | _ => none
  | .cleanup i =>
    match (s.runs i).pc with
    | .bound => some (s.goto i (s.runs i) (.cleaning (s.runs i).guard.targets .cleaned))
    | _ => none
  | .hangup => some { s with initialListening := false }

end ListenerState
end VcdTools.Server
