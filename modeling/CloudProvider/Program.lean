import CloudProvider.ActionError
import CloudProvider.Cloud.Call
import CloudProvider.Command
import CloudProvider.Trail

/-! Programs that act on their surroundings. A program is a tree: what it asks for next, and how it
goes on with each reply. Nothing here acts; a handler, which answers one effect at a time in a monad
of its own, turns a program into a run. -/

namespace CloudProvider

open Time (Moment)

inductive Effect
  | emit (event : Event)
  | call (c : Call)
  /-- Nanoseconds of a clock that only goes forward. -/
  | now
  /-- Rests until that instant. If `heeding`, a signal cuts the rest short. -/
  | pause (deadline : Nat) (heeding : Bool)
  /-- Whether the signal has been given. -/
  | signalled
  /-- The time of day. -/
  | clock
  | freshName (kind : String)
  /-- A new directory whose name begins with the given one. -/
  | makeScratch (name : String)
  | discardScratch (path : String)
  | makeDirectory (path : String)
  | writeFile (path : String) (contents : Bytes)
  | readFile (path : String)
  | run (command : Command)

abbrev Effect.Reply : Effect → Type
  | .emit _ => Unit
  | .call c => Except CloudError c.Answer
  | .now => Nat
  | .pause _ _ => Bool
  | .signalled => Bool
  | .clock => Moment
  | .freshName _ => String
  | .makeScratch _ => Except Files.Fault String
  | .discardScratch _ => Unit
  | .makeDirectory _ => Except Files.Fault Unit
  | .writeFile _ _ => Except Files.Fault Unit
  | .readFile _ => Except Files.Fault Bytes
  | .run _ => Except Files.Fault CommandOutput

inductive Program (α : Type) : Type
  | done (a : α)
  | step (e : Effect) (next : e.Reply → Program α)

namespace Program

variable {α β : Type}

def bind : Program α → (α → Program β) → Program β
  | .done a, k => k a
  | .step e next, k => .step e fun r => (next r).bind k

instance : Monad Program where
  pure := .done
  bind := bind

theorem bind_eq (p : Program α) (k : α → Program β) : p >>= k = p.bind k := rfl

theorem bind_done (p : Program α) : p.bind .done = p := by
  induction p with
  | done a => rfl
  | step e next ih => simp only [bind, ih]

theorem bind_assoc {γ : Type} (p : Program α) (k : α → Program β) (l : β → Program γ) :
    (p.bind k).bind l = p.bind fun a => (k a).bind l := by
  induction p with
  | done a => rfl
  | step e next ih => simp only [bind, ih]

instance : LawfulMonad Program :=
  LawfulMonad.mk' Program bind_done (fun _ _ => rfl) bind_assoc

def perform (e : Effect) : Program e.Reply :=
  .step e .done

def interpret {m : Type → Type} [Monad m] (handle : (e : Effect) → m e.Reply) :
    Program α → m α
  | .done a => pure a
  | .step e next => do (next (← handle e)).interpret handle

theorem interpret_bind {m : Type → Type} [Monad m] [LawfulMonad m]
    (handle : (e : Effect) → m e.Reply) (p : Program α) (k : α → Program β) :
    (p.bind k).interpret handle = p.interpret handle >>= fun a => (k a).interpret handle := by
  induction p with
  | done a => simp [bind, interpret]
  | step e next ih => simp [bind, interpret, ih]

/-- The same program, but the events that belong into a trail are kept, each with the time of day,
and none is passed on. The latest of those kept before comes first in `kept`. -/
def recording (kept : Trail) : Program α → Program (α × Trail)
  | .done a => .done (a, kept.reverse)
  | .step (.emit event) next =>
    if event.level.isRecorded then
      .step .clock fun moment => (next ()).recording (⟨moment, event⟩ :: kept)
    else (next ()).recording kept
  | .step e next => .step e fun r => (next r).recording kept

def recorded (p : Program α) : Program (α × Trail) :=
  p.recording []

end Program

inductive Panic
  | text (message : String)
  | other
  /-- Nobody but the process as a whole may deal with it. -/
  | severe (reason : String)
deriving DecidableEq

inductive Halt
  | failed (error : ActionError)
  | panicked (panic : Panic)
  /-- A wait has used up the rounds it is given. -/
  | unfinished

abbrev Pipeline := ExceptT Halt Program

namespace Pipeline

variable {α : Type}

def perform (e : Effect) : Pipeline e.Reply :=
  ExceptT.lift (Program.perform e)

def emit (event : Event) : Pipeline Unit :=
  perform (.emit event)

def emitAll : List Event → Pipeline Unit
  | [] => pure ()
  | event :: rest => do
    emit event
    emitAll rest

def fail (e : ActionError) : Pipeline α :=
  throw (.failed e)

def panic (message : String) : Pipeline α :=
  throw (.panicked (.text message))

/-- An error of the cloud ends the pipeline. -/
def call (c : Call) : Pipeline c.Answer := do
  match ← perform (.call c) with
  | .ok answer => return answer
  | .error e => fail (.cloud e)

def orFault (r : Except Files.Fault α) : Pipeline α :=
  match r with
  | .ok a => pure a
  | .error fault => fail (.io (.file fault))

/-- Works in a directory of its own, which is gone afterwards, however the work ends. -/
def withScratch (kind : String) (work : (name directory : String) → Pipeline α) : Pipeline α := do
  let name ← perform (.freshName kind)
  let directory ← orFault (← perform (.makeScratch name))
  let outcome ← ExceptT.lift (work name directory).run
  perform (.discardScratch directory)
  match outcome with
  | .ok a => return a
  | .error halt => throw halt

end Pipeline
end CloudProvider
