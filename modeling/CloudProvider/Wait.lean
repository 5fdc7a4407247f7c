import CloudProvider.Exponent
import CloudProvider.Policy
import CloudProvider.Program

/-! Waiting for a task. The cloud is polled at once and then after each interval, until the task has
ended, the cloud declines, too many polls in a row have failed, or the time is up; the time is looked
at before a poll and never cuts one short. A signal, where one is heeded, cuts the rest between two
polls short. -/

namespace CloudProvider.Wait

inductive Verdict
  | over (outcome : Except CloudError Task)
  /-- `failures` polls in a row have failed by now. -/
  | again (failures : Nat)
  /-- The count of failures has left its word. -/
  | overflow

/-- Failures in a row are counted in a word of 32 bits. -/
def failureLimit : Nat := 2 ^ 32

def subject (id : TaskId) : String × Detail :=
  ("task_id", .text id.text)

def judgeSnapshot (id : TaskId) (task : Task) : List Event × Verdict :=
  match task.state with
  | .completed =>
    ([.info "task completed" [subject id, ("operation", .text task.operation)]], .over (.ok task))
  | .error =>
    (.error "task failed" [subject id, ("operation", .text task.operation)] ::
      task.stepErrors.map fun r => .error r.message [subject id, ("code", .text r.code)],
      .over (.error (.taskFailed task)))
  | state =>
    ([.debug "task in progress" [subject id, ("state", .text state.name)]], .again 0)

def judgeFailure (policy : Policy) (id : TaskId) (failures : Nat) (e : CloudError) :
    List Event × Verdict :=
  if e.isRefusal then ([], .over (.error e))
  else
    let failures := failures + 1
    if failureLimit ≤ failures then ([], .overflow)
    else if policy.maxRetries.toNat < failures then
      ([.error "giving up on task"
        [subject id, ("failures", .integer failures), ("error", .text e.message)]], .over (.error e))
    else
      ([.warn "poll failed, retrying"
        [subject id, ("failures", .integer failures),
          ("max_retries", .integer policy.maxRetries.toNat), ("error", .text e.message)]],
        .again failures)

/-- What the answer to a poll means after so many failures in a row, and what is said about it. -/
def judge (policy : Policy) (id : TaskId) (failures : Nat) :
    Except CloudError Task → List Event × Verdict
  | .ok task => judgeSnapshot id task
  | .error e => judgeFailure policy id failures e

/-- The first instant that the clock cannot show, in seconds. -/
def clockLimit : Nat := 2 ^ 63

def timeout {α : Type} (id : TaskId) : Pipeline α :=
  Pipeline.fail (.cloud (.taskTimeout id))

/-- Rests for an interval, and tells whether a signal has cut the rest short. -/
def rest (policy : Policy) (heeding : Bool) : Pipeline Bool := do
  let now ← Pipeline.perform .now
  let deadline := now + policy.interval.nanos
  if clockLimit * 10 ^ 9 ≤ deadline then
    Pipeline.panic "overflow when adding duration to instant"
  Pipeline.perform (.pause deadline heeding)

def poll (policy : Policy) (id : TaskId) (heeding : Bool) (started : Nat) :
    Nat → Nat → Pipeline Task
  | 0, _ => throw .unfinished
  | rounds + 1, failures => do
    let now ← Pipeline.perform .now
    if policy.timeout.nanos ≤ now - started then
      Pipeline.emit (.error "timed out waiting for task"
        [subject id, ("timeout", .text policy.timeout.text)])
      timeout id
    else
      let (events, verdict) := judge policy id failures (← Pipeline.perform (.call (.poll id)))
      Pipeline.emitAll events
      match verdict with
      | .over (.ok task) => return task
      | .over (.error e) => Pipeline.fail (.cloud e)
      | .overflow => Pipeline.panic "attempt to add with overflow"
      | .again failures =>
        if ← rest policy heeding then
          Pipeline.emit (.warn "wait cancelled" [subject id])
          timeout id
        else poll policy id heeding started rounds failures

/-- More rounds than the time allows. Without an interval time may stand still, and then the number
only has to be out of reach. -/
def roundLimit (policy : Policy) : Nat :=
  if policy.interval.nanos = 0 then 2 ^ 64
  else policy.timeout.nanos / policy.interval.nanos + 2

/-- The snapshot with which the task completes. -/
def track (policy : Policy) (id : TaskId) : Pipeline Task := do
  poll policy id false (← Pipeline.perform .now) (roundLimit policy) 0

/-- The same, until the signal is given. -/
def untilSignalled (policy : Policy) (id : TaskId) : Pipeline Task := do
  let started ← Pipeline.perform .now
  if ← Pipeline.perform .signalled then timeout id
  else poll policy id true started (roundLimit policy) 0

end CloudProvider.Wait
