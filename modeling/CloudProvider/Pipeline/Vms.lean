import CloudProvider.Pipeline.AgentImage
import CloudProvider.Pipeline.Disks

/-! Pipelines on virtual machines. -/

namespace CloudProvider.Pipeline

open Json (Codec Record Value)

structure VmProperties where
  flavor : String
  diskFlavor : String
  diskSizeGb : UInt32
deriving DecidableEq

namespace VmProperties

def record : Record VmProperties where
  name := "VmCloudProperties"
  fields :=
    .cons (.required "vm_flavor" .string) <|
    .cons (.required "disk_flavor" .string) <|
    .cons (.withDefault "vm_attached_disk_size_gb" .word32 16) .nil
  build := fun (flavor, diskFlavor, diskSizeGb, ()) => ⟨flavor, diskFlavor, diskSizeGb⟩
  parts p := (p.flavor, p.diskFlavor, p.diskSizeGb, ())

def codec : Codec VmProperties := record.codec

end VmProperties

structure VmOrder where
  agentId : String
  image : ImageId
  properties : VmProperties
  networks : Value
  /-- Disks to be attached later, by requests of their own. -/
  disks : List DiskId
  env : Value

namespace VmOrder

/-- All machines bear one name: they are told apart by their ids. -/
def vmName : String := "bosh-vm"

def newVm (o : VmOrder) : NewVm where
  name := vmName
  flavor := o.properties.flavor
  image := o.image
  disks := [.ephemeralBoot "boot-disk" o.properties.diskFlavor o.properties.diskSizeGb]
  affinities := []
  tags := []

def environment (o : VmOrder) (settings : AgentSettings) (vm : VmId) : AgentEnvironment :=
  ((AgentEnvironment.new o.agentId ⟨vmName, vm⟩).withSettings settings).withDeployment
    o.networks o.env

end VmOrder

def createVm (s : Settings) (o : VmOrder) : Pipeline VmId := do
  let vm ← make s "create vm" "a VM id" .vm (.createVm s.project o.newVm)
  withAgentImage (o.environment s.agent vm) fun image => do
    let contents ← perform (.readFile image)
    change s "attach iso" (.attachIso vm ⟨image, contents⟩)
  change s "power on" (.operateVm vm (.power .start))
  return vm

def detachAll (s : Settings) (vm : VmId) : List DiskId → Pipeline Unit
  | [] => pure ()
  | disk :: rest => do
    detachDisk s vm disk
    detachAll s vm rest

/-- Detaches the disks that name the machine, one by one, and then deletes it. It is not stopped
before: after an earlier attempt it may be stopped already. -/
def deleteVm (s : Settings) (vm : VmId) : Pipeline Unit := do
  let disks ← disksOf s vm
  emit (.info "tearing down vm" [("vm", .text vm.text), ("disks", .integer disks.length)])
  detachAll s vm disks
  change s "delete vm" (.deleteVm vm)

def hasVm (vm : VmId) : Pipeline Bool :=
  isThere (.getVm vm)

def restartVm (s : Settings) (vm : VmId) : Pipeline Unit :=
  change s "restart vm" (.operateVm vm (.power .restart))

end CloudProvider.Pipeline
