import CloudProvider.Cloud.Task

/-! How a call to the cloud, or the wait for a task, can fail. -/

namespace CloudProvider

open Json (Fault)

/-- Trouble on this side: the cloud is not to blame for it. -/
inductive Trouble
  /-- An answer that is not what the call promises. -/
  | undecodable (fault : Fault)
  | malformed (fault : Fault)
  | unscripted (key : String)
  | unopened (path reason : String)
  /-- The task is done, and what it made has no name. -/
  | nameless (task : TaskId) (wanted : String)
  | recoveredPanic (method panic : String)
  | stated (cause : String)

namespace Trouble

def message : Trouble → String
  | .undecodable fault => "esxcloud: failed to decode response: " ++ fault.message
  | .malformed fault => fault.message
  | .unscripted key => "unscripted call: " ++ key
  | .unopened path reason => "failed to open " ++ path ++ ": " ++ reason
  | .nameless task wanted => "esxcloud: task '" ++ task.text ++ "' finished without " ++ wanted
  | .recoveredPanic method panic => "Recovered panic in " ++ method ++ ": " ++ panic
  | .stated cause => cause

end Trouble

inductive CloudError
  /-- The cloud declined, and said why. -/
  | refused (refusal : Refusal) (status : UInt16)
  /-- There was no answer, or one that does not come from the cloud. -/
  | transport (status : Option UInt16) (body : String)
  | taskFailed (task : Task)
  | taskTimeout (task : TaskId)
  | internal (trouble : Trouble)

namespace CloudError

def message : CloudError → String
  | .refused r status =>
    s!"esxcloud: \x7b HTTP status: '{status.toNat}', code: '" ++ r.code ++ "', message: '"
      ++ r.message ++ "', data: '" ++ (Json.Value.object r.data).render ++ "' \x7d"
  | .transport status body =>
    "esxcloud: HTTP " ++ (status.elim "error" fun s => toString s.toNat) ++ ": " ++ body
  | .taskFailed task =>
    "esxcloud: Task '" ++ task.id.text
      ++ "' is in error state. Examine task for full details."
  | .taskTimeout task =>
    "esxcloud: Timed out waiting for task '" ++ task.text
      ++ "'. Task may not be in error state, examine task for full details."
  | .internal trouble => trouble.message

/-- The cloud has decided: asking again will not change the answer. -/
def isRefusal : CloudError → Bool
  | .refused .. => true
  | _ => false

/-- The cloud itself says that there is no such thing. A bare 404 may come from anywhere. -/
def isNotFound : CloudError → Bool
  | .refused _ status => status = 404
  | _ => false

end CloudError
end CloudProvider
