/-
Module: FameZ.Reference.Launch
Purpose: The servers of one host: their command lines, the size of the shared
  memory, the socket they bind, their main loop, and how they end.
Trusted boundary: the translation of main.c and of ivshmem_server_init,
  ivshmem_server_ftruncate and ivshmem_server_start; pow2ceil, a parameter
Main exports: Args, Opt, ivshmemServerParseArgs, ivshmemServerInit, Rounds,
  Stage, Process, Files, Action, advance, Host, Label, step, init
-/
import FameZ.Reference.Server

namespace FameZ.Reference.Launch

/-!
Servers are started and stopped on one host in any order, and their calls
interleave.  They meet in two places: the names of their sockets, and the POSIX
shared memory objects, which nobody removes.  Every call has its own outcome;
`bind` fails in any case when the name of the socket is there already.
-/

/-- The name of a file, without its final NUL. -/
abbrev Path := List UInt8

def path (name : String) : Path :=
  name.toList.map fun c => UInt8.ofNat c.toNat

/-! ### The command line -/

/-- `IvshmemServerArgs`. -/
structure Args where
  verbose : Bool
  foreground : Bool
  pidFile : Path
  unixSocketPath : Path
  shmPath : Path
  useShmOpen : Bool
  shmSize : UInt64
  nVectors : Nat
deriving Repr, DecidableEq

def defaultArgs : Args where
  verbose := false
  foreground := false
  pidFile := path "/var/run/ivshmem-server.pid"
  unixSocketPath := path "/tmp/ivshmem_socket"
  shmPath := path "ivshmem"
  useShmOpen := true
  shmSize := 4 * 1024 * 1024
  nVectors := 1

/-- What getopt finds.  `l` and `n` come with what `parse_option_size` and
`parse_uint_full` make of their argument, `none` being an error. -/
inductive Opt where
  | h
  | v
  | F
  | p (optarg : Path)
  | S (optarg : Path)
  | M (optarg : Path)
  | m (optarg : Path)
  | l (size : Option UInt64)
  | n (vectors : Option UInt64)
  | unknown
deriving Repr, DecidableEq

/-- One round of the loop of getopt, or the code of `exit`. -/
def parseOpt (args : Args) : Opt → Except Nat Args
  | .h => .error 0
  | .v => .ok { args with verbose := true }
  | .F => .ok { args with foreground := true }
  | .p optarg => .ok { args with pidFile := optarg }
  | .S optarg => .ok { args with unixSocketPath := optarg }
  | .M optarg => .ok { args with shmPath := optarg, useShmOpen := true }
  | .m optarg => .ok { args with shmPath := optarg, useShmOpen := false }
  | .l none => .error 1
  | .l (some size) => .ok { args with shmSize := size }
  | .n none => .error 1
  | .n (some vectors) =>
      -- an unsigned long long is assigned to an unsigned
      .ok { args with nVectors := vectors.toNat % 2 ^ 32 }
  | .unknown => .error 1

/-- `ivshmem_server_parse_args`. -/
def ivshmemServerParseArgs (args : Args) (argv : List Opt) :
    Except Nat Args :=
  match argv.foldlM parseOpt args with
  | .error code => .error code
  | .ok args =>
      if ivshmemServerMaxVectors < args.nVectors then .error 1
      else if args.verbose && !args.foreground then .error 1
      else .ok args

/-! ### Before the main loop -/

def pathMax : Nat := 4096

/-- `sizeof(sun.sun_path)`. -/
def sunPathSize : Nat := 108

def ivshmemServerMaxHugepageSize : Nat := 1024 * 1024 * 1024

/-- `ivshmem_server_init`: both names fit their buffers. -/
def ivshmemServerInit (args : Args) : Bool :=
  decide (args.unixSocketPath.length < pathMax) &&
    decide (args.shmPath.length < pathMax)

/-- `pow2ceil` rounds an `unsigned` up to the next power of two. -/
structure Rounds (pow2ceil : Nat → Nat) : Prop where
  power : ∀ v, v < 2 ^ 32 → ∃ k, pow2ceil v = 2 ^ k
  above : ∀ v, v < 2 ^ 32 → v ≤ pow2ceil v
  least : ∀ v k, v < 2 ^ 32 → v ≤ 2 ^ k → pow2ceil v ≤ 2 ^ k

/-- How far a server has come.  `sizing` is the loop of
ivshmem_server_ftruncate, before its test; `exited` is the end of main. -/
inductive Stage where
  | absent
  | opened
  | sizing (shmsize : Nat)
  | sized
  | bound
  | serving (server : State)
  | exited (code : Nat)
  | killed

/-- `file` is the size of the unlinked file of a server that uses no POSIX
object.  A server that serves keeps its log itself. -/
structure Process where
  args : Args
  net : Nat → Bool
  eventfd : Nat → Bool
  stage : Stage
  file : Nat
  log : List (Custody.Event Handle)

/-- What servers share: the sockets in the file system, and the sizes of the
POSIX objects, 0 before the first `shm_open`. -/
structure Files where
  sockets : List Path
  objects : Path → Nat

/-- The outcomes of the run of a server. -/
def Process.env (p : Process) : Env where
  nVectors := p.args.nVectors
  net := p.net
  eventfd := p.eventfd

/-- The POSIX object of a server: `shm_open` strips leading slashes. -/
def Process.object (p : Process) : Path :=
  p.args.shmPath.dropWhile fun byte => decide (byte = 47)

/-- `st_size` of the shared memory. -/
def Process.size (files : Files) (p : Process) : Nat :=
  if p.args.useShmOpen then files.objects p.object else p.file

/-- A start: the command line and the outcomes of the first calls. -/
structure Command where
  argv : List Opt
  sigaction : Bool
  opens : Bool
  net : Nat → Bool
  eventfd : Nat → Bool

/-- Before main. -/
def Process.unborn : Process where
  args := defaultArgs
  net := fun _ => true
  eventfd := fun _ => true
  stage := .absent
  file := 0
  log := []

/-- `main` up to the opening of the shared memory. -/
def launch (command : Command) : Process :=
  let p := { Process.unborn with
    net := command.net
    eventfd := command.eventfd }
  match ivshmemServerParseArgs defaultArgs command.argv with
  | .error code => { p with stage := .exited code }
  | .ok args =>
      if command.sigaction && ivshmemServerInit args && command.opens then
        { p with args := args, stage := .opened, log := [.acquire .shm] }
      else { p with args := args, stage := .exited 1 }

/-- The size that is asked for, as the parameter of ivshmem_server_ftruncate,
and rounded. -/
def rounded (pow2ceil : Nat → Nat) (args : Args) : Nat :=
  pow2ceil (args.shmSize.toNat % 2 ^ 32) % 2 ^ 32

/-- `ivshmem_server_ftruncate` up to its loop. -/
def fstat (pow2ceil : Nat → Nat) (ok : Bool) (files : Files) (p : Process) :
    Process :=
  if ok && decide (p.size files = rounded pow2ceil p.args) then
    { p with stage := .sized }
  else { p with stage := .sizing (rounded pow2ceil p.args) }

def Process.record (event : Custody.Event Handle) (p : Process) : Process :=
  { p with log := p.log ++ [event] }

/-- The label err_close_shm. -/
def Process.closeShm (p : Process) : Process :=
  { p.record (.release .shm) with stage := .exited 1 }

/-- The label err_close_sock. -/
def Process.closeSock (p : Process) : Process :=
  (p.record (.release .listener)).closeShm

/-- A successful `ftruncate`. -/
def resize (shmsize : Nat) (files : Files) (p : Process) : Process × Files :=
  if p.args.useShmOpen then
    ({ p with stage := .sized },
      { files with
        objects := Function.update files.objects p.object shmsize })
  else ({ p with stage := .sized, file := shmsize }, files)

/-- One pass of the loop of ivshmem_server_ftruncate, or its end.  `shmsize` is
an `unsigned`. -/
def ftruncate (shmsize : Nat) (ok : Bool) (files : Files) (p : Process) :
    Process × Files :=
  if shmsize ≤ ivshmemServerMaxHugepageSize then
    if ok then resize shmsize files p
    else ({ p with stage := .sizing (shmsize * 2 % 2 ^ 32) }, files)
  else (p.closeShm, files)

/-- `ivshmem_server_start` from `socket` to `bind`. -/
def bindSocket (socket bind : Bool) (files : Files) (p : Process) :
    Process × Files :=
  if socket then
    let p := p.record (.acquire .listener)
    if sunPathSize ≤ p.args.unixSocketPath.length then (p.closeSock, files)
    else if bind && decide (p.args.unixSocketPath ∉ files.sockets) then
      ({ p with stage := .bound },
        { files with sockets := p.args.unixSocketPath :: files.sockets })
    else (p.closeSock, files)
  else (p.closeShm, files)

/-- `unlink` of the socket. -/
def unlink (files : Files) (p : Process) : Files :=
  { files with
    sockets := files.sockets.filter fun socket =>
      socket ≠ p.args.unixSocketPath }

/-- `listen`, and `main` up to its loop. -/
def listen (listens daemon pidFile : Bool) (files : Files) (p : Process) :
    Process × Files :=
  if listens then
    let server := { Reference.init with log := p.log }
    if p.args.foreground || (daemon && pidFile) then
      ({ p with stage := .serving server }, files)
    else
      ({ p with
          stage := .exited 1
          log := (ivshmemServerClose p.env server).log },
        unlink files p)
  else (p.closeSock, files)

/-- One round of ivshmem_server_poll_events, or its end and that of main. -/
def poll (event : Reference.Label) (server : State) (files : Files)
    (p : Process) : Option (Process × Files) :=
  match Reference.step p.env server event with
  | none => none
  | some server =>
      if server.running then some ({ p with stage := .serving server }, files)
      else
        some ({ p with stage := .exited 0, log := server.log }, unlink files p)

/-! ### Runs -/

/-- What a server does next.  A signal without a handler kills it, and what it
has open is closed by the kernel. -/
inductive Action where
  | launch (command : Command)
  | fstat (ok : Bool)
  | ftruncate (ok : Bool)
  | bind (socket bind : Bool)
  | listen (listens daemon pidFile : Bool)
  | poll (event : Reference.Label)
  | kill

/-- A process takes the actions of its stage. -/
def advance (pow2ceil : Nat → Nat) (action : Action) (files : Files)
    (p : Process) : Option (Process × Files) :=
  match p.stage, action with
  | .absent, .launch command => some (Launch.launch command, files)
  | .opened, .fstat ok => some (Launch.fstat pow2ceil ok files p, files)
  | .sizing shmsize, .ftruncate ok =>
      some (Launch.ftruncate shmsize ok files p)
  | .sized, .bind socket bind => some (bindSocket socket bind files p)
  | .bound, .listen listens daemon pidFile =>
      some (Launch.listen listens daemon pidFile files p)
  | .serving server, .poll event => Launch.poll event server files p
  | .absent, .kill => none
  | .exited _, .kill => none
  | .killed, .kill => none
  | _, .kill => some ({ p with stage := .killed }, files)
  | _, _ => none

structure Host where
  files : Files
  process : Nat → Process

/-- Before the first server. -/
def init : Host where
  files := { sockets := [], objects := fun _ => 0 }
  process := fun _ => Process.unborn

/-- An action of one server. -/
structure Label where
  process : Nat
  action : Action

def step (pow2ceil : Nat → Nat) : Transition.Step Host Label :=
  fun host label =>
    (advance pow2ceil label.action host.files (host.process label.process)).map
      fun (p, files) =>
        { files := files
          process := Function.update host.process label.process p }

end FameZ.Reference.Launch
