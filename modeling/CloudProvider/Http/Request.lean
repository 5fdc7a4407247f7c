import CloudProvider.Cloud.Call
import CloudProvider.Files.Tree
import CloudProvider.Http.Url

/-! The request over HTTP that belongs to a call: its method, where it goes, and what it carries. -/

namespace CloudProvider.Http

inductive Method
  | get
  | post
  | delete
deriving DecidableEq, Repr

def Method.name : Method → String
  | .get => "GET"
  | .post => "POST"
  | .delete => "DELETE"

/-- A part of a form. Only files have a file name. -/
structure Part where
  name : String
  fileName : Option String
  contents : Except Files.Fault Bytes

inductive Payload
  | nothing
  | json (text : String)
  | form (parts : List Part)

/-- What a call asks for, without saying where the cloud is. -/
structure Route where
  method : Method
  path : String
  /-- Deletion does not wait for anything that is still in use. -/
  forced : Bool

structure Request where
  method : Method
  url : Url
  login : Option (String × String)
  payload : Payload

inductive RequestFault
  | unopened (path : String) (fault : Files.Fault)
  | noUrl
  | unusable (url : Url)

end Http

namespace Submission

open Http

def route : Submission → Route
  | .createVm project _ => ⟨.post, "/projects/" ++ project ++ "/vms", false⟩
  | .deleteVm id => ⟨.delete, "/vms/" ++ id.text, true⟩
  | .operateVm id _ => ⟨.post, "/vms/" ++ id.text ++ "/operations", false⟩
  | .attachDisk id _ => ⟨.post, "/vms/" ++ id.text ++ "/attach_disk", false⟩
  | .detachDisk id _ => ⟨.post, "/vms/" ++ id.text ++ "/detach_disk", false⟩
  | .attachIso id _ => ⟨.post, "/vms/" ++ id.text ++ "/attach_iso", false⟩
  | .createDisk project _ => ⟨.post, "/projects/" ++ project ++ "/disks", false⟩
  | .deleteDisk id => ⟨.delete, "/disks/" ++ id.text, true⟩
  | .createImage _ _ => ⟨.post, "/images", false⟩
  | .deleteImage id => ⟨.delete, "/images/" ++ id.text, false⟩

def filePart (u : Upload) : Except RequestFault Part :=
  let part : Part := ⟨"file", some ((Files.lastName? u.path).getD "upload"), u.contents⟩
  match u.contents with
  | .error fault => if fault.preventsOpening then .error (.unopened u.path fault) else .ok part
  | .ok _ => .ok part

/-- Disk images are copied to every host at once. -/
def replication : Part :=
  ⟨"ImageReplication", none, .ok (Text.Utf8.encode "EAGER")⟩

def payload : Submission → Except RequestFault Payload
  | .createVm _ vm => .ok (.json (NewVm.codec.encode vm))
  | .operateVm _ operation => .ok (.json (VmOperation.codec.encode operation))
  | .attachDisk _ operation => .ok (.json (DiskOperation.codec.encode operation))
  | .detachDisk _ operation => .ok (.json (DiskOperation.codec.encode operation))
  | .createDisk _ disk => .ok (.json (NewDisk.codec.encode disk))
  | .attachIso _ iso => do return .form [← filePart iso]
  | .createImage image _ => do return .form [replication, ← filePart image]
  | .deleteVm _ | .deleteDisk _ | .deleteImage _ => .ok .nothing

end Submission

namespace Call

open Http

def route : Call → Route
  | .poll id => ⟨.get, "/tasks/" ++ id.text, false⟩
  | .submit submission => submission.route
  | .getVm id => ⟨.get, "/vms/" ++ id.text, false⟩
  | .getDisk id => ⟨.get, "/disks/" ++ id.text, false⟩
  | .listDisks project => ⟨.get, "/projects/" ++ project ++ "/disks", false⟩

def payload : Call → Except RequestFault Payload
  | .submit submission => submission.payload
  | _ => .ok .nothing

end Call

namespace Http

/-- Where the cloud's interface begins, below the configured target. -/
def base (target : String) : String :=
  String.ofList (target.toList.reverse.dropWhile (· = '/')).reverse ++ "/v1"

/-- The request for a call. Files are opened before anybody looks at the address. -/
def request (target : String) (c : Call) : Except RequestFault Request := do
  let payload ← c.payload
  let some url := Url.parse (base target ++ c.route.path) | throw .noUrl
  if !url.hasHost then throw (.unusable url)
  let (login, url) := url.takeLogin
  let url := if c.route.forced then url.withParameter "force" "true" else url
  if !url.isSendable then throw (.unusable url)
  return ⟨c.route.method, url, login, payload⟩

end Http
end CloudProvider
