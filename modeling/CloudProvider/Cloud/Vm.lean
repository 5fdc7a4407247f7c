import CloudProvider.Cloud.Id
import CloudProvider.Json.Record

/-! Virtual machines: what the cloud says about one, what is asked of it in creating one, and what can
be done to one. -/

namespace CloudProvider

open Json (Codec Record)
open Text (Dictionary)

structure AttachedDisk where
  name : String
  kind : String
  flavor : String
  capacityGb : UInt32
  bootDisk : Bool
  id : Option String
  state : Option String
deriving DecidableEq

namespace AttachedDisk

def record : Record AttachedDisk where
  name := "AttachedDisk"
  fields :=
    .cons (.required "name" .string) <|
    .cons (.required "kind" .string) <|
    .cons (.required "flavor" .string) <|
    .cons (.required "capacityGb" .word32) <|
    .cons (.required "bootDisk" .bool) <|
    .cons (.optional "id" .string) <|
    .cons (.optional "state" .string) .nil
  build := fun (name, kind, flavor, capacity, boot, id, state, ()) =>
    ⟨name, kind, flavor, capacity, boot, id, state⟩
  parts d := (d.name, d.kind, d.flavor, d.capacityGb, d.bootDisk, d.id, d.state, ())

def codec : Codec AttachedDisk := record.codec

/-- A boot disk that is made with its machine and goes with it. -/
def ephemeralBoot (name flavor : String) (capacityGb : UInt32) : AttachedDisk :=
  ⟨name, "ephemeral-disk", flavor, capacityGb, true, none, none⟩

end AttachedDisk

/-- Something that a machine or a disk is to be close to. -/
structure Locality where
  kind : String
  id : String
deriving DecidableEq

namespace Locality

def record : Record Locality where
  name := "LocalitySpec"
  fields :=
    .cons (.required "kind" .string) <|
    .cons (.required "id" .string) .nil
  build := fun (kind, id, ()) => ⟨kind, id⟩
  parts l := (l.kind, l.id, ())

def codec : Codec Locality := record.codec

end Locality

structure NewVm where
  name : String
  flavor : String
  image : ImageId
  disks : List AttachedDisk
  affinities : List Locality
  tags : List String
deriving DecidableEq

namespace NewVm

def record : Record NewVm where
  name := "VmCreateSpec"
  fields :=
    .cons (.required "name" .string) <|
    .cons (.required "flavor" .string) <|
    .cons (.required "sourceImageId" (Id.codec .image)) <|
    .cons (.required "attachedDisks" AttachedDisk.codec.list) <|
    .cons (.listed "affinities" Locality.codec.list) <|
    .cons (.listed "tags" Codec.string.list) .nil
  build := fun (name, flavor, image, disks, affinities, tags, ()) =>
    ⟨name, flavor, image, disks, affinities, tags⟩
  parts n := (n.name, n.flavor, n.image, n.disks, n.affinities, n.tags, ())

def codec : Codec NewVm := record.codec

end NewVm

inductive Power
  | start
  | stop
  | restart
deriving DecidableEq, Repr

def Power.name : Power → String
  | .start => "START_VM"
  | .stop => "STOP_VM"
  | .restart => "RESTART_VM"

structure VmOperation where
  operation : String
  arguments : Dictionary Json.Value

namespace VmOperation

def power (p : Power) : VmOperation :=
  ⟨p.name, []⟩

def record : Record VmOperation where
  name := "VmOperation"
  fields :=
    .cons (.required "operation" .string) <|
    .cons (.listed "arguments" (.dictionary .value)) .nil
  build := fun (operation, arguments, ()) => ⟨operation, arguments⟩
  parts o := (o.operation, o.arguments, ())

def codec : Codec VmOperation := record.codec

end VmOperation

structure DiskOperation where
  disk : DiskId
  arguments : Dictionary Json.Value

namespace DiskOperation

def on (disk : DiskId) : DiskOperation :=
  ⟨disk, []⟩

def record : Record DiskOperation where
  name := "VmDiskOperation"
  fields :=
    .cons (.required "diskId" (Id.codec .disk)) <|
    .cons (.listed "arguments" (.dictionary .value)) .nil
  build := fun (disk, arguments, ()) => ⟨disk, arguments⟩
  parts o := (o.disk, o.arguments, ())

def codec : Codec DiskOperation := record.codec

end DiskOperation

structure Vm where
  id : VmId
  name : String
  state : String
  flavor : String
  image : Option ImageId
  disks : List AttachedDisk
  metadata : Dictionary String
deriving DecidableEq

namespace Vm

/-- The metadata is a table without an order. -/
def record (arrange : Dictionary String → List (String × String)) : Record Vm where
  name := "Vm"
  fields :=
    .cons (.required "id" (Id.codec .vm)) <|
    .cons (.withDefault "name" .string "") <|
    .cons (.withDefault "state" .string "") <|
    .cons (.withDefault "flavor" .string "") <|
    .cons (.optional "sourceImageId" (Id.codec .image)) <|
    .cons (.withDefault "attachedDisks" AttachedDisk.codec.list []) <|
    .cons (.withDefault "metadata" (.table .string arrange) []) .nil
  build := fun (id, name, state, flavor, image, disks, metadata, ()) =>
    ⟨id, name, state, flavor, image, disks, metadata⟩
  parts v := (v.id, v.name, v.state, v.flavor, v.image, v.disks, v.metadata, ())

/-- Writes the metadata as `arrange` puts it. In reading, the order makes no difference. -/
def codecIn (arrange : Dictionary String → List (String × String)) : Codec Vm :=
  (record arrange).codec

def codec : Codec Vm := codecIn fun metadata => metadata

end Vm
end CloudProvider
