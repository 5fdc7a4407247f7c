import CloudProvider.Files.Tree
import CloudProvider.Program

/-! Surroundings that exist only as a value: a clock that moves by resting alone, a signal that is
given by a timetable, names that are counted, a tree of files, and a runner of commands that does as
it is told. The cloud is left open. -/

namespace CloudProvider.Rehearsal

open Time (Moment)

inductive SignalEvent
  | send (value : Bool)
  /-- Nothing is sent any more. -/
  | drop
deriving DecidableEq

structure Signal where
  value : Bool
  /-- What is still to come, each with its instant, the earliest first. -/
  coming : List (Nat × SignalEvent)

namespace Signal

def silent : Signal := ⟨false, []⟩

/-- Hears what comes before the deadline, and the instant at which the signal is given. Time goes on by
resting alone, so a rest is over when anything comes at its very deadline. -/
def hear (value : Bool) (deadline : Nat) : List (Nat × SignalEvent) → Option Nat × Signal
  | [] => (none, ⟨value, []⟩)
  | (instant, event) :: later =>
    if deadline ≤ instant then (none, ⟨value, (instant, event) :: later⟩)
    else
      match event with
      | .drop => (none, ⟨value, []⟩)
      | .send true => (some instant, ⟨true, later⟩)
      | .send false => hear false deadline later

end Signal

inductive Runner
  /-- The last argument names a file, which is copied to the path after `-o`. -/
  | copying
  | ending (output : CommandOutput)
  | unstartable (fault : Files.Fault)

structure State (ρ : Type) where
  remote : ρ
  clock : Moment
  /-- Nanoseconds since the start. -/
  now : Nat
  signal : Signal
  names : Nat
  files : Files.Tree
  runner : Runner
  /-- The latest comes first. -/
  commands : List Command

def home : Files.Place := ["home"]

def scratchRoot : String := "/scratch/"

namespace State

def start {ρ : Type} (remote : ρ) (clock : Moment) : State ρ :=
  { remote, clock, now := 0, signal := .silent, names := 0
    files := (Files.Tree.empty.put home .directory).put ["scratch"] .directory
    runner := .copying, commands := [] }

end State

def afterOutputFlag : List String → Option String
  | "-o" :: path :: _ => some path
  | _ :: rest => afterOutputFlag rest
  | [] => none

def copyInput (command : Command) (files : Files.Tree) :
    Except Files.Fault CommandOutput × Files.Tree :=
  let done : Except Files.Fault CommandOutput := .ok ⟨true, "", ""⟩
  match afterOutputFlag command.arguments, command.arguments.getLast? with
  | some output, some input =>
    match files.read home input with
    | .error fault => (.error fault, files)
    | .ok contents =>
      match files.write home output contents with
      | .error fault => (.error fault, files)
      | .ok files => (done, files)
  | _, _ => (done, files)

variable {ρ : Type}

def runCommand (command : Command) (s : State ρ) :
    Except Files.Fault CommandOutput × State ρ :=
  let s := { s with commands := command :: s.commands }
  match s.runner with
  | .ending output => (.ok output, s)
  | .unstartable fault => (.error fault, s)
  | .copying =>
    let (result, files) := copyInput command s.files
    (result, { s with files })

def rest (deadline : Nat) (heeding : Bool) (s : State ρ) : Bool × State ρ :=
  let deadline := max deadline s.now
  if heeding then
    if s.signal.value then (true, s)
    else
      match Signal.hear false deadline s.signal.coming with
      | (some instant, signal) => (true, { s with signal, now := max instant s.now })
      | (none, signal) => (false, { s with signal, now := deadline })
  else (false, { s with now := deadline })

def changeFiles (change : Files.Tree → Except Files.Fault Files.Tree) (s : State ρ) :
    Except Files.Fault Unit × State ρ :=
  match change s.files with
  | .ok files => (.ok (), { s with files })
  | .error fault => (.error fault, s)

def handle (cloud : (c : Call) → StateM ρ (Except CloudError c.Answer)) :
    (e : Effect) → StateM (State ρ) e.Reply
  | .emit _ => pure ()
  | .call c => fun s => let (answer, remote) := cloud c s.remote; (answer, { s with remote })
  | .now => fun s => (s.now, s)
  | .pause deadline heeding => rest deadline heeding
  | .signalled => fun s => (s.signal.value, s)
  | .clock => fun s => (s.clock, s)
  | .freshName kind => fun s => (s!"{kind}-{s.names + 1}", { s with names := s.names + 1 })
  | .makeScratch name => fun s =>
    let path := scratchRoot ++ name
    match s.files.makeDirectory home path with
    | .ok files => (.ok path, { s with files })
    | .error fault => (.error fault, s)
  | .discardScratch path => fun s =>
    match s.files.locate home path with
    | .ok place => ((), { s with files := s.files.remove place })
    | .error _ => ((), s)
  | .makeDirectory path => changeFiles (·.makeDirectory home path)
  | .writeFile path contents => changeFiles (·.write home path contents)
  | .readFile path => fun s => (s.files.read home path, s)
  | .run command => runCommand command

end CloudProvider.Rehearsal
