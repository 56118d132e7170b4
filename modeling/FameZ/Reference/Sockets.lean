/-
Module: FameZ.Reference.Sockets
Purpose: The servers of one host over every run: what each has open, which
  sockets are in the file system, and when none of them is left behind.
Trusted boundary: none
Main exports: Advance, Process.holds, Sound, Moves, Inv, launches_accounted,
  Tidy, Orderly, sockets_tidy_iff
-/
import FameZ.Lib.Names
import FameZ.Reference.Descriptors
import FameZ.Reference.Launch

namespace FameZ.Reference.Launch

/-! A server binds only a name that is free and unlinks it when it closes, so
that names are never shared.  What is left is the name that nobody unlinks: the
failing path behind `bind` closes the socket and leaves its file. -/

/-- What an action does, by the stage that takes it. -/
inductive Advance (pow2ceil : Nat → Nat) (files : Files) (p : Process) :
    Action → Process × Files → Prop where
  | launch (command : Command) (stage : p.stage = .absent) :
      Advance pow2ceil files p (.launch command) (launch command, files)
  | fstat (ok : Bool) (stage : p.stage = .opened) :
      Advance pow2ceil files p (.fstat ok) (fstat pow2ceil ok files p, files)
  | ftruncate (shmsize : Nat) (ok : Bool) (stage : p.stage = .sizing shmsize) :
      Advance pow2ceil files p (.ftruncate ok) (ftruncate shmsize ok files p)
  | bind (socket bind : Bool) (stage : p.stage = .sized) :
      Advance pow2ceil files p (.bind socket bind)
        (bindSocket socket bind files p)
  | listen (listens daemon pidFile : Bool) (stage : p.stage = .bound) :
      Advance pow2ceil files p (.listen listens daemon pidFile)
        (listen listens daemon pidFile files p)
  | poll (server : State) (event : Reference.Label) (after : Process × Files)
      (stage : p.stage = .serving server)
      (polled : poll event server files p = some after) :
      Advance pow2ceil files p (.poll event) after
  | kill (born : p.stage ≠ .absent) (runs : ∀ code, p.stage ≠ .exited code)
      (alive : p.stage ≠ .killed) :
      Advance pow2ceil files p .kill ({ p with stage := .killed }, files)

variable {pow2ceil : Nat → Nat} {files : Files} {p : Process}
  {action : Action} {after : Process × Files}

theorem advance_advances
    (taken : advance pow2ceil action files p = some after) :
    Advance pow2ceil files p action after := by
  unfold advance at taken
  split at taken
  · rename_i command stage
    cases taken
    exact .launch command stage
  · rename_i ok stage
    cases taken
    exact .fstat ok stage
  · rename_i shmsize ok stage
    cases taken
    exact .ftruncate shmsize ok stage
  · rename_i socket bind stage
    cases taken
    exact .bind socket bind stage
  · rename_i listens daemon pidFile stage
    cases taken
    exact .listen listens daemon pidFile stage
  · rename_i server event stage
    exact .poll server event after stage taken
  · cases taken
  · cases taken
  · cases taken
  · rename_i born runs alive
    cases taken
    exact .kill born runs alive
  · cases taken

/-! ### What a server has open -/

/-- The log of a server, which it keeps itself once it serves. -/
def Process.history (p : Process) : List (Custody.Event Handle) :=
  match p.stage with
  | .serving server => server.log
  | _ => p.log

/-- What a server has open. -/
def Process.holds (p : Process) : List Handle :=
  match p.stage with
  | .opened => [.shm]
  | .sizing _ => [.shm]
  | .sized => [.shm]
  | .bound => [.listener, .shm]
  | .serving server => held server
  | _ => []

/-- The socket of a server. -/
def Process.socket (p : Process) : Option Path :=
  match p.stage with
  | .bound => some p.args.unixSocketPath
  | .serving _ => some p.args.unixSocketPath
  | _ => none

/-- What the stage of a server says about its log. -/
def Process.Logged (p : Process) : Prop :=
  match p.stage with
  | .absent => p.log = []
  | .opened => p.log = [.acquire .shm]
  | .sizing _ => p.log = [.acquire .shm]
  | .sized => p.log = [.acquire .shm]
  | .bound => p.log = Reference.init.log
  | .serving server => ∃ events,
      Transition.run (Reference.step p.env) Reference.init events = some server
  | .exited _ => Custody.Settled p.log
  | .killed => True

/-- The command line has been checked. -/
structure Sound (p : Process) : Prop where
  vectors : p.args.nVectors ≤ ivshmemServerMaxVectors
  logged : p.Logged

theorem nVectors_of_parse {args parsed : Args} {argv : List Opt}
    (ok : ivshmemServerParseArgs args argv = .ok parsed) :
    parsed.nVectors ≤ ivshmemServerMaxVectors := by
  unfold ivshmemServerParseArgs at ok
  split at ok
  · cases ok
  · split at ok
    · cases ok
    · split at ok
      · cases ok
      · cases ok
        omega

namespace Sound

theorem unborn : Sound Process.unborn := ⟨by decide, rfl⟩

theorem launch (command : Command) : Sound (Launch.launch command) := by
  unfold Launch.launch
  dsimp only
  split
  · exact ⟨unborn.vectors, rfl⟩
  · rename_i parsed
    split
    · exact ⟨nVectors_of_parse parsed, rfl⟩
    · exact ⟨nVectors_of_parse parsed, rfl⟩

/-- The end of a server whose shared memory alone is open. -/
theorem closeShm (vectors : p.args.nVectors ≤ ivshmemServerMaxVectors)
    (opened : p.log = [.acquire .shm]) : Sound p.closeShm := by
  refine ⟨vectors, ?_⟩
  have settled : Custody.Settled [Custody.Event.acquire Handle.shm,
      .release .shm] := by decide
  simpa [Process.closeShm, Process.record, Process.Logged, opened] using
    settled

/-- The end of a server with its socket. -/
theorem closeSock (vectors : p.args.nVectors ≤ ivshmemServerMaxVectors)
    (opened : p.log = Reference.init.log) : Sound p.closeSock := by
  refine ⟨vectors, ?_⟩
  have settled : Custody.Settled (Reference.init.log ++
      [.release .listener, .release .shm]) := by decide
  simpa [Process.closeSock, Process.closeShm, Process.record, Process.Logged,
    opened] using settled

theorem fstat {ok : Bool} (sound : Sound p) (stage : p.stage = .opened) :
    Sound (Launch.fstat pow2ceil ok files p) := by
  have logged := sound.logged
  rw [Process.Logged, stage] at logged
  unfold Launch.fstat
  split
  · exact ⟨sound.vectors, logged⟩
  · exact ⟨sound.vectors, logged⟩

theorem ftruncate {shmsize : Nat} {ok : Bool} (sound : Sound p)
    (stage : p.stage = .sizing shmsize) :
    Sound (Launch.ftruncate shmsize ok files p).1 := by
  have logged := sound.logged
  rw [Process.Logged, stage] at logged
  unfold Launch.ftruncate resize
  split
  · split
    · split
      · exact ⟨sound.vectors, logged⟩
      · exact ⟨sound.vectors, logged⟩
    · exact ⟨sound.vectors, logged⟩
  · exact closeShm sound.vectors logged

theorem bindSocket {socket bind : Bool} (sound : Sound p)
    (stage : p.stage = .sized) :
    Sound (Launch.bindSocket socket bind files p).1 := by
  have logged := sound.logged
  rw [Process.Logged, stage] at logged
  have both : (p.record (.acquire .listener)).log = Reference.init.log := by
    rw [Process.record, logged]
    rfl
  unfold Launch.bindSocket
  split
  · dsimp only
    split
    · exact closeSock sound.vectors both
    · split
      · exact ⟨sound.vectors, both⟩
      · exact closeSock sound.vectors both
  · exact closeShm sound.vectors logged

theorem listen {listens daemon pidFile : Bool} (sound : Sound p)
    (stage : p.stage = .bound) :
    Sound (Launch.listen listens daemon pidFile files p).1 := by
  have logged := sound.logged
  rw [Process.Logged, stage] at logged
  unfold Launch.listen
  split
  · dsimp only
    rw [logged]
    split
    · exact ⟨sound.vectors, [], rfl⟩
    · refine ⟨sound.vectors, ?_⟩
      have settled : Custody.Settled (Reference.init.log ++
          [.release .listener, .release .shm]) := by decide
      exact settled
  · exact closeSock sound.vectors logged

theorem poll {server : State} {event : Reference.Label} (sound : Sound p)
    (stage : p.stage = .serving server)
    (polled : Launch.poll event server files p = some after) :
    Sound after.1 := by
  have logged := sound.logged
  rw [Process.Logged, stage] at logged
  obtain ⟨events, reached⟩ := logged
  unfold Launch.poll at polled
  split at polled
  · cases polled
  · rename_i next taken
    have further : Transition.run (Reference.step p.env) Reference.init
        (events ++ [event]) = some next := by
      rw [Transition.run_append, reached, Option.bind_some,
        Transition.run_cons, taken]
      rfl
    split at polled
    · cases polled
      exact ⟨sound.vectors, events ++ [event], further⟩
    · rename_i ended
      cases polled
      refine ⟨sound.vectors, ?_⟩
      have kept : Accounted p.env next :=
        Transition.run_preserves (fun _ _ _ kept taken => kept.step taken)
          (Accounted.init p.env) further
      have stopped : next.running = false := by simpa using ended
      change Custody.Settled next.log
      rw [Custody.Settled, kept.log, held, stopped, kept.stopped stopped]
      rfl

theorem advance (sound : Sound p)
    (taken : Advance pow2ceil files p action after) : Sound after.1 := by
  cases taken with
  | launch command stage => exact launch command
  | fstat ok stage => exact sound.fstat stage
  | ftruncate shmsize ok stage => exact sound.ftruncate stage
  | bind socket bind stage => exact sound.bindSocket stage
  | listen listens daemon pidFile stage => exact sound.listen stage
  | poll server event after stage polled => exact sound.poll stage polled
  | kill born runs alive => exact ⟨sound.vectors, trivial⟩

/-- A server has never released what it did not hold, and holds what its stage
says. -/
theorem custody (sound : Sound p) (alive : p.stage ≠ .killed) :
    Custody.run 0 p.history = some (p.holds : Multiset Handle) := by
  have logged := sound.logged
  rw [Process.Logged] at logged
  rw [Process.history, Process.holds]
  cases stage : p.stage with
  | absent =>
      rw [stage] at logged
      rw [logged]
      rfl
  | opened =>
      rw [stage] at logged
      rw [logged]
      rfl
  | sizing shmsize =>
      rw [stage] at logged
      rw [logged]
      rfl
  | sized =>
      rw [stage] at logged
      rw [logged]
      rfl
  | bound =>
      rw [stage] at logged
      rw [logged]
      decide
  | serving server =>
      rw [stage] at logged
      obtain ⟨events, reached⟩ := logged
      have kept : Accounted p.env server :=
        Transition.run_preserves (fun _ _ _ kept taken => kept.step taken)
          (Accounted.init p.env) reached
      exact kept.log
  | exited code =>
      rw [stage] at logged
      exact logged
  | killed => exact absurd stage alive

end Sound

/-! ### The sockets in the file system -/

/-- What an action does to the sockets, but for one that leaves one behind. -/
abbrev Moves (files files' : Files) (p p' : Process) : Prop :=
  Names.Moves files.sockets files'.sockets p.socket p'.socket

/-- The condition on an action: no `listen` fails, and no server that has its
socket is killed. -/
def Spares (p : Process) : Action → Prop
  | .listen listens _ _ => listens = true
  | .kill => p.socket = none
  | _ => True

instance (p : Process) (action : Action) : Decidable (Spares p action) :=
  match action with
  | .launch _ => inferInstanceAs (Decidable True)
  | .fstat _ => inferInstanceAs (Decidable True)
  | .ftruncate _ => inferInstanceAs (Decidable True)
  | .bind _ _ => inferInstanceAs (Decidable True)
  | .listen listens _ _ => inferInstanceAs (Decidable (listens = true))
  | .poll _ => inferInstanceAs (Decidable True)
  | .kill => inferInstanceAs (Decidable (p.socket = none))

theorem launch_moves (command : Command) (stage : p.stage = .absent) :
    Moves files files p (launch command) := by
  have none : p.socket = none := by rw [Process.socket, stage]
  unfold launch
  dsimp only
  split
  · exact .stays none.symm rfl
  · split
    · exact .stays none.symm rfl
    · exact .stays none.symm rfl

theorem fstat_moves {ok : Bool} (stage : p.stage = .opened) :
    Moves files files p (fstat pow2ceil ok files p) := by
  have none : p.socket = none := by rw [Process.socket, stage]
  unfold fstat
  split
  · exact .stays none.symm rfl
  · exact .stays none.symm rfl

theorem ftruncate_moves {shmsize : Nat} {ok : Bool}
    (stage : p.stage = .sizing shmsize) :
    Moves files (ftruncate shmsize ok files p).2 p
      (ftruncate shmsize ok files p).1 := by
  have none : p.socket = none := by rw [Process.socket, stage]
  unfold ftruncate resize
  split
  · split
    · split
      · exact .stays none.symm rfl
      · exact .stays none.symm rfl
    · exact .stays none.symm rfl
  · exact .stays none.symm rfl

theorem bindSocket_moves {socket bind : Bool} (stage : p.stage = .sized) :
    Moves files (bindSocket socket bind files p).2 p
      (bindSocket socket bind files p).1 := by
  have none : p.socket = none := by rw [Process.socket, stage]
  unfold bindSocket
  split
  · dsimp only
    split
    · exact .stays none.symm rfl
    · split
      · rename_i free
        rw [Bool.and_eq_true, decide_eq_true_iff] at free
        exact .binds _ none rfl free.2 rfl
      · exact .stays none.symm rfl
  · exact .stays none.symm rfl

theorem listen_moves {listens daemon pidFile : Bool}
    (stage : p.stage = .bound) :
    (listens = true ∧ Moves files (listen listens daemon pidFile files p).2 p
        (listen listens daemon pidFile files p).1) ∨
      (listens = false ∧ ∃ path, Names.Leaves files.sockets
        (listen listens daemon pidFile files p).2.sockets p.socket
        (listen listens daemon pidFile files p).1.socket path) := by
  have some : p.socket = some p.args.unixSocketPath := by
    rw [Process.socket, stage]
  unfold listen
  split
  · rename_i listened
    refine .inl ⟨listened, ?_⟩
    dsimp only
    split
    · exact .stays some.symm rfl
    · exact .unlinks _ some rfl rfl
  · rename_i failed
    exact .inr ⟨by simpa using failed, _, some, rfl, rfl⟩

theorem poll_moves {server : State} {event : Reference.Label}
    (stage : p.stage = .serving server)
    (polled : poll event server files p = some after) :
    Moves files after.2 p after.1 := by
  have some : p.socket = some p.args.unixSocketPath := by
    rw [Process.socket, stage]
  unfold poll at polled
  split at polled
  · cases polled
  · split at polled
    · cases polled
      exact .stays some.symm rfl
    · cases polled
      exact .unlinks _ some rfl rfl

/-- An action that spares the sockets moves them, any other leaves one. -/
theorem Advance.moves_or_leaves
    (taken : Advance pow2ceil files p action after) :
    (Spares p action ∧ Moves files after.2 p after.1) ∨
      (¬ Spares p action ∧ ∃ path, Names.Leaves files.sockets
        after.2.sockets p.socket after.1.socket path) := by
  cases taken with
  | launch command stage => exact .inl ⟨trivial, launch_moves command stage⟩
  | fstat ok stage => exact .inl ⟨trivial, fstat_moves stage⟩
  | ftruncate shmsize ok stage => exact .inl ⟨trivial, ftruncate_moves stage⟩
  | bind socket bind stage => exact .inl ⟨trivial, bindSocket_moves stage⟩
  | listen listens daemon pidFile stage =>
      rcases listen_moves stage with ⟨listened, moves⟩ | ⟨failed, leaves⟩
      · exact .inl ⟨listened, moves⟩
      · refine .inr ⟨?_, leaves⟩
        rw [Spares, failed]
        decide
  | poll server event after stage polled =>
      exact .inl ⟨trivial, poll_moves stage polled⟩
  | kill born runs alive =>
      cases socket : p.socket with
      | none => exact .inl ⟨socket, .stays socket.symm rfl⟩
      | some path =>
          refine .inr ⟨?_, path, rfl, rfl, rfl⟩
          rw [Spares, socket]
          exact Option.some_ne_none path

/-! ### Runs -/

def Host.sockets (host : Host) (i : Nat) : Option Path :=
  (host.process i).socket

/-- Every server is sound, and no two have one socket. -/
structure Inv (host : Host) : Prop where
  sound : ∀ i, Sound (host.process i)
  held : Names.Held host.sockets host.files.sockets

/-- The sockets in the file system are those of the servers that are there. -/
def Tidy (host : Host) : Prop :=
  Names.Exact host.sockets host.files.sockets

/-- The condition on a step. -/
def Orderly (host : Host) (label : Label) : Prop :=
  Spares (host.process label.process) label.action

instance (host : Host) (label : Label) : Decidable (Orderly host label) :=
  inferInstanceAs (Decidable (Spares _ _))

variable {host next : Host} {label : Label}

theorem step_advances (taken : step pow2ceil host label = some next) :
    ∃ after, Advance pow2ceil host.files (host.process label.process)
        label.action after ∧
      next.files = after.2 ∧
      next.process =
        Function.update host.process label.process after.1 := by
  rw [step, Option.map_eq_some_iff] at taken
  obtain ⟨after, advanced, rfl⟩ := taken
  exact ⟨after, advance_advances advanced, rfl, rfl⟩

theorem sockets_update {i : Nat} {p : Process}
    (process : next.process = Function.update host.process i p) :
    next.sockets = Function.update host.sockets i p.socket := by
  funext j
  rw [Host.sockets, process]
  by_cases same : j = i
  · rw [same, Function.update_self, Function.update_self]
  · rw [Function.update_of_ne same, Function.update_of_ne same, Host.sockets]

namespace Inv

theorem init : Inv init :=
  ⟨fun _ => Sound.unborn, nofun, nofun⟩

theorem step (inv : Inv host)
    (taken : Launch.step pow2ceil host label = some next) : Inv next := by
  obtain ⟨after, advanced, files, process⟩ := step_advances taken
  constructor
  · intro i
    rw [process]
    by_cases same : i = label.process
    · rw [same, Function.update_self]
      exact (inv.sound _).advance advanced
    · rw [Function.update_of_ne same]
      exact inv.sound i
  · rw [sockets_update process, files]
    rcases advanced.moves_or_leaves with ⟨-, moves⟩ | ⟨-, path, leaves⟩
    · exact inv.held.moves moves
    · exact inv.held.leaves leaves

/-- A step that leaves no socket behind. -/
theorem tidy (inv : Inv host) (tidy : Tidy host) (orderly : Orderly host label)
    (taken : Launch.step pow2ceil host label = some next) : Tidy next := by
  obtain ⟨after, advanced, files, process⟩ := step_advances taken
  rw [Tidy, sockets_update process, files]
  rcases advanced.moves_or_leaves with ⟨-, moves⟩ | ⟨disorderly, -⟩
  · exact Names.Exact.moves tidy inv.held moves
  · exact absurd orderly disorderly

/-- Any other step leaves one. -/
theorem untidy (inv : Inv host) (disorderly : ¬ Orderly host label)
    (taken : Launch.step pow2ceil host label = some next) : ¬ Tidy next := by
  obtain ⟨after, advanced, files, process⟩ := step_advances taken
  rw [Tidy, sockets_update process, files]
  rcases advanced.moves_or_leaves with ⟨orderly, -⟩ | ⟨-, path, leaves⟩
  · exact absurd orderly disorderly
  · exact inv.held.not_exact leaves

end Inv

theorem tidy_init : Tidy init := by
  intro name
  refine ⟨fun member => absurd member List.not_mem_nil, ?_⟩
  rintro ⟨i, has⟩
  cases has

/-- Over every run of any servers on one host, whatever their calls return: a
server that was not killed has never released what it did not hold and holds
what its stage says, so that one that has exited has given everything back; no
two servers have one socket; and a server that serves has at most 64 vectors and
is in a state that the runs of its main loop reach. -/
theorem launches_accounted {trace : List Label}
    (reached : Transition.run (step pow2ceil) init trace = some host) :
    (∀ i, (host.process i).stage ≠ .killed →
      Custody.run 0 (host.process i).history =
        some ((host.process i).holds : Multiset Handle)) ∧
    (∀ i j path, (host.process i).socket = some path →
      (host.process j).socket = some path → i = j) ∧
    ∀ i server, (host.process i).stage = .serving server →
      (host.process i).args.nVectors ≤ ivshmemServerMaxVectors ∧
        ∃ events, Transition.run (Reference.step (host.process i).env)
          Reference.init events = some server := by
  have inv : Inv host :=
    Transition.run_preserves (fun _ _ _ inv taken => inv.step taken) Inv.init
      reached
  refine ⟨fun i alive => (inv.sound i).custody alive, inv.held.exclusive,
    fun i server stage => ?_⟩
  have logged := (inv.sound i).logged
  rw [Process.Logged, stage] at logged
  exact ⟨(inv.sound i).vectors, logged⟩

/-- Two servers of one command line, of which the second cannot bind, and the
end of the first. -/
theorem launches_accounted_two :
    let command : Command :=
      { argv := [.F]
        sigaction := true
        opens := true
        net := fun _ => true
        eventfd := fun _ => true }
    ∃ host, Transition.run (step id) init
        [⟨0, .launch command⟩, ⟨1, .launch command⟩, ⟨0, .fstat false⟩,
          ⟨0, .ftruncate true⟩, ⟨1, .fstat true⟩, ⟨0, .bind true true⟩,
          ⟨0, .listen true true true⟩, ⟨1, .bind true true⟩,
          ⟨0, .poll (.poll (some ⟨true, true⟩) [])⟩, ⟨0, .poll .quit⟩] =
            some host ∧
      (∀ i, (host.process i).stage ≠ .killed →
        Custody.run 0 (host.process i).history =
          some ((host.process i).holds : Multiset Handle)) ∧
      (∀ i j path, (host.process i).socket = some path →
        (host.process j).socket = some path → i = j) ∧
      ∀ i server, (host.process i).stage = .serving server →
        (host.process i).args.nVectors ≤ ivshmemServerMaxVectors ∧
          ∃ events, Transition.run (Reference.step (host.process i).env)
            Reference.init events = some server := by
  intro command
  obtain ⟨host, reached⟩ : ∃ host, Transition.run (step id) init
      [⟨0, .launch command⟩, ⟨1, .launch command⟩, ⟨0, .fstat false⟩,
        ⟨0, .ftruncate true⟩, ⟨1, .fstat true⟩, ⟨0, .bind true true⟩,
        ⟨0, .listen true true true⟩, ⟨1, .bind true true⟩,
        ⟨0, .poll (.poll (some ⟨true, true⟩) [])⟩, ⟨0, .poll .quit⟩] =
          some host :=
    Option.isSome_iff_exists.mp (by decide +kernel)
  exact ⟨host, reached, launches_accounted reached⟩

/-- Over every run of any servers on one host: the sockets in the file system
are always those of the servers that are there, exactly if no `listen` fails and
no server that has its socket is killed. -/
theorem sockets_tidy_iff (pow2ceil : Nat → Nat) (trace : List Label) :
    Transition.Always (step pow2ceil) Tidy init trace ↔
      Transition.Meets (step pow2ceil) Orderly init trace := by
  have kept : ∀ host label next, Inv host ∧ Tidy host → Orderly host label →
      step pow2ceil host label = some next → Inv next ∧ Tidy next :=
    fun _ _ _ inv orderly taken =>
      ⟨inv.1.step taken, inv.1.tidy inv.2 orderly taken⟩
  exact Transition.always_iff_meets kept (fun _ inv => inv.2)
    (fun _ _ _ inv disorderly taken => inv.1.untidy disorderly taken)
    ⟨Inv.init, tidy_init⟩

end FameZ.Reference.Launch
