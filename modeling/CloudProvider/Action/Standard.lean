import CloudProvider.Action.Table
import CloudProvider.Pipeline.Stemcells
import CloudProvider.Pipeline.Vms

/-! The actions on this cloud. Each decodes all of its arguments before it does anything. -/

namespace CloudProvider.Action

open Json (Codec Value)
open Pipeline

def decoded {α : Type} (r : Except ArgumentFault α) : Pipeline α :=
  match r with
  | .ok a => pure a
  | .error fault => fail (.invalidArgument fault)

def idValue {kind : Kind} (id : Id kind) : Value :=
  .string id.text

/-- Nothing but the path counts: what else is known of an image is inside of it. -/
def createStemcell : Action where
  name := "create_stemcell"
  invoke s a := do
    let path ← decoded (a.required (Codec.text "path string") 0 "image_path")
    return idValue (← Pipeline.createStemcell s path)

def deleteStemcell : Action where
  name := "delete_stemcell"
  invoke s a := do
    Pipeline.deleteStemcell s (← decoded (a.id .image 0))
    return .null

structure DiskRequest where
  megabytes : UInt64
  properties : DiskProperties
  vm : Option VmId

def diskRequest (a : Arguments) : Except ArgumentFault DiskRequest := do
  a.expectAtLeast 2
  let megabytes ← a.required Codec.word64 0 "size"
  let properties ← a.required DiskProperties.codec 1 "cloud_properties"
  let vm ← a.optional (Id.codec .vm) 2 Kind.vm.argument
  return ⟨megabytes, properties, vm⟩

def createDisk : Action where
  name := "create_disk"
  invoke s a := do
    let r ← decoded (diskRequest a)
    return idValue (← Pipeline.createDisk s r.megabytes r.properties r.vm)

def deleteDisk : Action where
  name := "delete_disk"
  invoke s a := do
    Pipeline.deleteDisk s (← decoded (a.id .disk 0))
    return .null

def hasDisk : Action where
  name := "has_disk"
  invoke _ a := do
    return .bool (← Pipeline.hasDisk (← decoded (a.id .disk 0)))

def pair (a : Arguments) : Except ArgumentFault (VmId × DiskId) := do
  let vm ← a.id .vm 0
  return (vm, ← a.id .disk 1)

def attachDisk : Action where
  name := "attach_disk"
  invoke s a := do
    let (vm, disk) ← decoded (pair a)
    Pipeline.attachDisk s vm disk
    return .null

def detachDisk : Action where
  name := "detach_disk"
  invoke s a := do
    let (vm, disk) ← decoded (pair a)
    Pipeline.detachDisk s vm disk
    return .null

def getDisks : Action where
  name := "get_disks"
  invoke s a := do
    return .array ((← disksOf s (← decoded (a.id .vm 0))).map idValue)

def vmOrder (a : Arguments) : Except ArgumentFault VmOrder := do
  a.expectAtLeast 6
  let agentId ← a.required Codec.string 0 "agent_id"
  let image ← a.id .image 1
  let properties ← a.required VmProperties.codec 2 "cloud_properties"
  let networks ← a.optional Codec.value 3 "networks"
  let disks ← a.optional (Id.codec .disk).list 4 "disk_cids"
  let env ← a.optional Codec.value 5 "env"
  return ⟨agentId, image, properties, networks.getD .null, disks.getD [], env.getD .null⟩

def createVm : Action where
  name := "create_vm"
  invoke s a := do
    return idValue (← Pipeline.createVm s (← decoded (vmOrder a)))

def deleteVm : Action where
  name := "delete_vm"
  invoke s a := do
    Pipeline.deleteVm s (← decoded (a.id .vm 0))
    return .null

def hasVm : Action where
  name := "has_vm"
  invoke _ a := do
    return .bool (← Pipeline.hasVm (← decoded (a.id .vm 0)))

def restartVm : Action where
  name := "restart_vm"
  invoke s a := do
    Pipeline.restartVm s (← decoded (a.id .vm 0))
    return .null

/-- Metadata is accepted, and kept nowhere. -/
def setVmMetadata : Action where
  name := "set_vm_metadata"
  invoke _ a := do
    let vm ← decoded (a.optional Codec.string 0 Kind.vm.argument)
    emit (.info "set_vm_metadata called; VM metadata is not stored"
      [("vm", .text (vm.getD "<none>"))])
    return .null

def standard : List Action :=
  [createStemcell, deleteStemcell, createDisk, deleteDisk, hasDisk, attachDisk, detachDisk,
    getDisks, createVm, deleteVm, hasVm, restartVm, setVmMetadata]

end CloudProvider.Action

namespace CloudProvider.Table

def standard : Except TableFault Table :=
  empty.registerAll Action.standard

end CloudProvider.Table
