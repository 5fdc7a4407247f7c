import CloudProvider.Cloud.Disk
import CloudProvider.Cloud.Error
import CloudProvider.Files.Fault
import CloudProvider.Text.Utf8

/-! Calls to the cloud: polling a task, reading a resource, and submissions, which change something
and are answered by the task that does it. -/

namespace CloudProvider

open Json (Codec)

/-- A file that goes with a call: where it lies and what reading it has come to. -/
structure Upload where
  path : String
  contents : Except Files.Fault Bytes

inductive Submission
  | createVm (project : String) (vm : NewVm)
  /-- Media that are attached go with the machine. -/
  | deleteVm (id : VmId)
  | operateVm (id : VmId) (operation : VmOperation)
  | attachDisk (id : VmId) (operation : DiskOperation)
  | detachDisk (id : VmId) (operation : DiskOperation)
  | attachIso (id : VmId) (iso : Upload)
  | createDisk (project : String) (disk : NewDisk)
  | deleteDisk (id : DiskId)
  | createImage (image : Upload) (name : String)
  | deleteImage (id : ImageId)

inductive Call
  | poll (id : TaskId)
  | submit (submission : Submission)
  | getVm (id : VmId)
  | getDisk (id : DiskId)
  | listDisks (project : String)

namespace Call

abbrev Answer : Call → Type
  | .poll _ => Task
  | .submit _ => Task
  | .getVm _ => Vm
  | .getDisk _ => Disk
  | .listDisks _ => DiskList

def codec : (c : Call) → Codec c.Answer
  | .poll _ => Task.codec
  | .submit _ => Task.codec
  | .getVm _ => Vm.codec
  | .getDisk _ => Disk.codec
  | .listDisks _ => DiskList.codec

end Call
end CloudProvider
