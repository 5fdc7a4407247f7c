import CloudProvider.Action.Standard
import CloudProvider.Blueprint
import CloudProvider.CommandLine
import CloudProvider.Config
import CloudProvider.Dispatch

/-! What happens before a request is dispatched: it is read, then the command line is looked at, then
the configuration file. The first of these that fails decides the answer; nothing is logged by then. -/

namespace CloudProvider.Setup

structure Job where
  table : Table
  settings : Settings
  /-- Where the cloud is. -/
  target : String
  request : Request

inductive Outcome
  | ready (job : Job)
  | failed (error : ActionError)
  | panicked (message : String)

/-- The cause that is told for a command line without options. -/
def lineCause (preset : Option String) : CommandLine.Outcome → Except String CommandLine.Options
  | .accepted options => .ok options
  | .asked question => .error (question.answer preset)
  | .refused fault => .error fault.message

def assemble (config : Config) (request : Request) : Except ActionError Job := do
  let blueprint : Blueprint String :=
    ⟨some config.cloud.target, some config.cloud.project, config.agent, config.tasks.policy⟩
  let (target, settings) ←
    blueprint.build.mapError fun part => .setup "Error creating esxcloud client" part.message
  let table ←
    Table.standard.mapError fun fault => .setup "Error building action table" fault.message
  return ⟨table, settings, target, request⟩

/-- `input` is what reading the request has come to. -/
def prepare (preset : Option String) (line : CommandLine.Outcome)
    (input : Except Files.Fault String) : Program Outcome :=
  match input with
  | .error fault => return .failed (.setup "Error reading from stdin" fault.message)
  | .ok text =>
    match Request.codec.decode (Text.Utf8.encode text) with
    | .error fault => return .failed (.setup "Error parsing args" fault.message)
    | .ok request =>
      match lineCause preset line with
      | .error cause => return .failed (.setup "Unable to load esxcloud config" cause)
      | .ok options => do
        match Config.load options.configPath (← Program.perform (.readFile options.configPath)) with
        | .panicked message => return .panicked message
        | .refused fault => return .failed (.setup "Error loading config file" fault.message)
        | .accepted config =>
          match assemble config request with
          | .error e => return .failed e
          | .ok job => return .ready job

def Job.answer (j : Job) : Program Dispatch.Outcome :=
  dispatch j.table j.settings j.request.method j.request.arguments

def failed (e : ActionError) : Envelope :=
  .failed e.failure ""

/-- Prepares a call and answers it, unless preparing breaks down with a message. `host` answers
effects, with the cloud at the given place. -/
def respond {m : Type → Type} [Monad m] (host : String → (e : Effect) → m e.Reply)
    (preset : Option String) (line : CommandLine.Outcome) (input : Except Files.Fault String) :
    m (Except String Dispatch.Outcome) := do
  match ← (prepare preset line input).interpret (host "") with
  | .panicked message => return .error message
  | .failed e => return .ok (.answered (failed e))
  | .ready job => return .ok (← job.answer.interpret (host job.target))

end CloudProvider.Setup
