import CloudProvider.Action.Table

/-! Dispatching a request: the action is looked up and invoked, and whatever comes of it is put into
one envelope, with the trail of the call as its log. Panics are dealt with here, but for severe ones,
which go on. -/

namespace CloudProvider

open Json (Value)

namespace Dispatch

inductive Outcome
  | answered (envelope : Envelope)
  /-- A severe panic is passed on. -/
  | raised (reason : String)
  | unfinished

inductive Ending
  | result (value : Value)
  | failure (f : Failure)
  | raised (reason : String)
  | unfinished

def panicText : Panic → String
  | .text message => message
  | .severe reason => reason
  | .other => "unknown panic"

def emit (event : Event) : Program Unit :=
  Program.perform (.emit event)

def conclude (method : String) : Except Halt Value → Program Ending
  | .ok value => do
    emit (.info ("Result: " ++ value.render) [])
    emit (.info ("Ending " ++ method) [])
    return .result value
  | .error (.failed e) => do
    emit (.error (method ++ " failed: " ++ e.message) [])
    return .failure e.failure
  | .error (.panicked (.severe reason)) => return .raised reason
  | .error (.panicked panic) => do
    let text := panicText panic
    emit (.error (method ++ " panicked: " ++ text) [])
    return .failure (ActionError.cloud (.internal (.recoveredPanic method text))).failure
  | .error .unfinished => return .unfinished

def call (t : Table) (s : Settings) (method : String) (arguments : List Value) :
    Program Ending := do
  emit (.info ("Starting " ++ method) [])
  emit (.info ("Arguments: " ++ (Value.array arguments).render) [])
  match t.get? method with
  | none =>
    let e := ActionError.notImplemented method
    emit (.error e.message [])
    return .failure e.failure
  | some action => conclude method (← (action.invoke s ⟨arguments⟩).run)

end Dispatch

def dispatch (t : Table) (s : Settings) (method : String) (arguments : List Value) :
    Program Dispatch.Outcome := do
  let (ending, trail) ← (Dispatch.call t s method arguments).recorded
  match ending with
  | .result value => return .answered (.success value trail.text)
  | .failure f => return .answered (.failed f trail.text)
  | .raised reason => return .raised reason
  | .unfinished => return .unfinished

end CloudProvider
