import CloudProvider.Exponent
import CloudProvider.Pipeline.Step

/-! Pipelines on persistent disks. -/

namespace CloudProvider.Pipeline

open Json (Codec Record)

structure DiskProperties where
  flavor : String
deriving DecidableEq

namespace DiskProperties

def record : Record DiskProperties where
  name := "DiskCloudProperties"
  fields := .cons (.required "flavor" .string) .nil
  build := fun (flavor, ()) => ⟨flavor⟩
  parts p := (p.flavor, ())

def codec : Codec DiskProperties := record.codec

end DiskProperties

/-- Gigabytes for an order of so many megabytes: at least one, and no more than a word holds. -/
def orderedCapacity (megabytes : UInt64) : Except ArgumentFault UInt32 :=
  let n := NewDisk.gigabytes megabytes
  if n < 1 then .error .diskTooSmall
  else if n < 2 ^ 32 then .ok (UInt32.ofNat n)
  else .error (.diskTooLarge megabytes)

def orderedDisk (properties : DiskProperties) (capacityGb : UInt32) (vm : Option VmId) : NewDisk where
  name := vm.elim "bosh-disk" fun vm => "disk-for-vm-" ++ vm.text
  kind := NewDisk.persistentKind
  flavor := properties.flavor
  capacityGb := capacityGb
  affinities := []
  tags := []

def createDisk (s : Settings) (megabytes : UInt64) (properties : DiskProperties)
    (vm : Option VmId) : Pipeline DiskId := do
  match orderedCapacity megabytes with
  | .error fault => fail (.invalidArgument fault)
  | .ok capacity =>
    make s "create disk" "a disk id" .disk
      (.createDisk s.project (orderedDisk properties capacity vm))

def deleteDisk (s : Settings) (disk : DiskId) : Pipeline Unit :=
  change s "delete disk" (.deleteDisk disk)

def hasDisk (disk : DiskId) : Pipeline Bool :=
  isThere (.getDisk disk)

def attachDisk (s : Settings) (vm : VmId) (disk : DiskId) : Pipeline Unit :=
  change s "attach disk" (.attachDisk vm (.on disk))

def detachDisk (s : Settings) (vm : VmId) (disk : DiskId) : Pipeline Unit :=
  change s "detach disk" (.detachDisk vm (.on disk))

def disksOf (s : Settings) (vm : VmId) : Pipeline (List DiskId) := do
  return (← call (.listDisks s.project)).attachedTo vm

end CloudProvider.Pipeline
