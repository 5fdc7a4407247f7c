import CloudProvider.Cloud.Id
import CloudProvider.Json.Record

/-! Tasks: work that the cloud does in the background. What is known of one is a snapshot, with the
steps it has gone through and the errors they met. -/

namespace CloudProvider

open Json (Codec Field Record)
open Text (Dictionary)

inductive TaskState
  | queued
  | started
  | completed
  | error
  /-- A state that is not known here. It counts as one in progress. -/
  | other (name : String) (unknown : name ∉ ["QUEUED", "STARTED", "COMPLETED", "ERROR"])
deriving DecidableEq

namespace TaskState

def name : TaskState → String
  | .queued => "QUEUED"
  | .started => "STARTED"
  | .completed => "COMPLETED"
  | .error => "ERROR"
  | .other name _ => name

def ofName (s : String) : TaskState :=
  if h₁ : s = "QUEUED" then .queued
  else if h₂ : s = "STARTED" then .started
  else if h₃ : s = "COMPLETED" then .completed
  else if h₄ : s = "ERROR" then .error
  else .other s (by simp [h₁, h₂, h₃, h₄])

theorem name_ofName (s : String) : (ofName s).name = s := by
  unfold ofName
  repeat' split
  all_goals simp_all [TaskState.name]

def isTerminal : TaskState → Bool
  | .completed | .error => true
  | _ => false

def codec : Codec TaskState :=
  Codec.string.map ofName name

end TaskState

/-- What the cloud says when it declines something. -/
structure Refusal where
  code : String
  message : String
  data : Dictionary Json.Value

namespace Refusal

def record : Record Refusal where
  name := "ApiError"
  fields :=
    .cons (.required "code" .string) <|
    .cons (.required "message" .string) <|
    .cons (.withDefault "data" (.dictionary .value) []) .nil
  build := fun (code, message, data, ()) => ⟨code, message, data⟩
  parts r := (r.code, r.message, r.data, ())

def codec : Codec Refusal := record.codec

end Refusal

structure Entity where
  id : String
  kind : String
deriving DecidableEq

namespace Entity

def nobody : Entity := ⟨"", ""⟩

def record : Record Entity where
  name := "Entity"
  fields :=
    .cons (.withDefault "id" .string "") <|
    .cons (.withDefault "kind" .string "") .nil
  build := fun (id, kind, ()) => ⟨id, kind⟩
  parts e := (e.id, e.kind, ())

def codec : Codec Entity := record.codec

end Entity

structure Step where
  id : Option String
  operation : String
  state : TaskState
  sequence : UInt32
  errors : List Refusal

namespace Step

def record : Record Step where
  name := "Step"
  fields :=
    .cons (.optional "id" .string) <|
    .cons (.withDefault "operation" .string "") <|
    .cons (.required "state" TaskState.codec) <|
    .cons (.withDefault "sequence" .word32 0) <|
    .cons (.listed "errors" Refusal.codec.list) .nil
  build := fun (id, operation, state, sequence, errors, ()) =>
    ⟨id, operation, state, sequence, errors⟩
  parts s := (s.id, s.operation, s.state, s.sequence, s.errors, ())

def codec : Codec Step := record.codec

end Step

structure Task where
  id : TaskId
  operation : String
  state : TaskState
  entity : Entity
  steps : List Step
  queuedTime : Option Int64
  startedTime : Option Int64
  endTime : Option Int64
  selfLink : Option String

namespace Task

def new (id : TaskId) (operation : String) (state : TaskState) : Task :=
  ⟨id, operation, state, .nobody, [], none, none, none, none⟩

def stepErrors (t : Task) : List Refusal :=
  t.steps.flatMap Step.errors

def record : Record Task where
  name := "Task"
  fields :=
    .cons (.required "id" (Id.codec .task)) <|
    .cons (.withDefault "operation" .string "") <|
    .cons (.required "state" TaskState.codec) <|
    .cons (.withDefault "entity" Entity.codec .nobody) <|
    .cons (.listed "steps" Step.codec.list) <|
    .cons (.optional "queuedTime" .int64) <|
    .cons (.optional "startedTime" .int64) <|
    .cons (.optional "endTime" .int64) <|
    .cons (.optional "selfLink" .string) .nil
  build := fun (id, operation, state, entity, steps, queued, started, ended, link, ()) =>
    ⟨id, operation, state, entity, steps, queued, started, ended, link⟩
  parts t :=
    (t.id, t.operation, t.state, t.entity, t.steps, t.queuedTime, t.startedTime, t.endTime,
      t.selfLink, ())

def codec : Codec Task := record.codec

end Task
end CloudProvider
