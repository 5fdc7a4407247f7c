import CloudProvider.Cloud.Call

/-! A cloud that answers by a script. Every call has a key, and every key its own queue of responses,
of which the last is given again and again. All calls are kept. -/

namespace CloudProvider

open Json (Value)
open Text (Dictionary)

namespace Submission

def key : Submission → String
  | .createVm project _ => "create_vm " ++ project
  | .deleteVm id => "delete_vm " ++ id.text
  | .operateVm id operation => "vm_operation " ++ id.text ++ " " ++ operation.operation
  | .attachDisk id operation => "attach_disk " ++ id.text ++ " " ++ operation.disk.text
  | .detachDisk id operation => "detach_disk " ++ id.text ++ " " ++ operation.disk.text
  | .attachIso id _ => "attach_iso " ++ id.text
  | .createDisk project _ => "create_disk " ++ project
  | .deleteDisk id => "delete_disk " ++ id.text
  | .createImage _ _ => "create_image"
  | .deleteImage id => "delete_image " ++ id.text

/-- What is sent along, as a JSON value. Of an upload it is the text of the file: an ISO image that
is no text is left out, and in a disk image what is no text is replaced. -/
def body? : Submission → Option Value
  | .createVm _ vm => some (NewVm.codec.toValue vm).sorted
  | .operateVm _ operation => some (VmOperation.codec.toValue operation).sorted
  | .attachDisk _ operation => some (DiskOperation.codec.toValue operation).sorted
  | .detachDisk _ operation => some (DiskOperation.codec.toValue operation).sorted
  | .createDisk _ disk => some (NewDisk.codec.toValue disk).sorted
  | .attachIso _ iso => do return .string (← Text.Utf8.decode? (← iso.contents.toOption))
  | .createImage image _ => do return .string (Text.Utf8.lossy (← image.contents.toOption))
  | .deleteVm _ | .deleteDisk _ | .deleteImage _ => none

end Submission

namespace Call

def key : Call → String
  | .poll id => "get_task " ++ id.text
  | .submit submission => submission.key
  | .getVm id => "get_vm " ++ id.text
  | .getDisk id => "get_disk " ++ id.text
  | .listDisks project => "list_disks " ++ project

def body? : Call → Option Value
  | .submit submission => submission.body?
  | _ => none

end Call

structure Script where
  queues : Dictionary (List (Except CloudError Value))
  /-- Key and body of every call, the latest first. -/
  past : List (String × Option Value)

namespace Script

def empty : Script := ⟨[], []⟩

def queue (s : Script) (key : String) : List (Except CloudError Value) :=
  (s.queues.get? key).getD []

def push (s : Script) (key : String) (response : Except CloudError Value) : Script :=
  { s with queues := s.queues.insert key (s.queue key ++ [response]) }

def respond (s : Script) (key : String) (value : Value) : Script :=
  s.push key (.ok value)

def fail (s : Script) (key : String) (e : CloudError) : Script :=
  s.push key (.error e)

/-- The call `key` is answered by a queued task, which the next poll finds in its final state. -/
def task (s : Script) (key : String) (id : TaskId) (entity : String) (final : TaskState) : Script :=
  let queued : Task := { Task.new id "SCRIPTED" .queued with entity := ⟨entity, ""⟩ }
  let done := { queued with state := final }
  (s.respond key (Task.codec.toValue queued).sorted).respond (Call.poll id).key
    (Task.codec.toValue done).sorted

/-- The response to the next call `key`. It leaves the queue unless it is the last. -/
def next (s : Script) (key : String) : Option (Except CloudError Value) × Script :=
  match s.queue key with
  | [] => (none, s)
  | [response] => (some response, s)
  | response :: rest => (some response, { s with queues := s.queues.insert key rest })

def answer (c : Call) : StateM Script (Except CloudError c.Answer) := fun s =>
  let (response, s) := s.next c.key
  let s := { s with past := (c.key, c.body?) :: s.past }
  match response with
  | none => (.error (.internal (.unscripted c.key)), s)
  | some (.error e) => (.error e, s)
  | some (.ok value) =>
    match c.codec.ofValue value with
    | .ok answer => (.ok answer, s)
    | .error cause => (.error (.internal (.malformed ⟨cause, none⟩)), s)

def calls (s : Script) : List (String × Option Value) :=
  s.past.reverse

end Script
end CloudProvider
