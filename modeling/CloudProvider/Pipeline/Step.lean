import CloudProvider.Agent.Environment
import CloudProvider.Wait

/-! Pipelines go step by step: a step submits one change and waits for the task that makes it. The
first failure ends a pipeline, and nothing is undone. -/

namespace CloudProvider

structure Settings where
  project : String
  agent : AgentSettings
  policy : Policy

namespace Pipeline

def step (s : Settings) (name : String) (submission : Submission) : Pipeline Task := do
  let task ← call (.submit submission)
  emit (.info "submitted" [("step", .text name), ("task_id", .text task.id.text)])
  let done ← Wait.track s.policy task.id
  emit (.info "step done" [("step", .text name), ("entity", .text done.entity.id)])
  return done

def make (s : Settings) (name wanted : String) (kind : Kind) (submission : Submission) :
    Pipeline (Id kind) := do
  let done ← step s name submission
  if done.entity.id.isEmpty then
    fail (.cloud (.internal (.nameless done.id wanted)))
  else return ⟨done.entity.id⟩

def change (s : Settings) (name : String) (submission : Submission) : Pipeline Unit := do
  discard (step s name submission)

/-- Whether a resource exists. That it does not, only the cloud can say. -/
def isThere (c : Call) : Pipeline Bool := do
  match ← perform (.call c) with
  | .ok _ => return true
  | .error e => if e.isNotFound then return false else fail (.cloud e)

end Pipeline
end CloudProvider
