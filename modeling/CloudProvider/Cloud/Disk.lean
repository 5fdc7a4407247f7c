import CloudProvider.Cloud.Vm

/-! Persistent disks: they outlive the machines that they are attached to. -/

namespace CloudProvider

open Json (Codec Record)

structure NewDisk where
  name : String
  kind : String
  flavor : String
  capacityGb : UInt32
  affinities : List Locality
  tags : List String
deriving DecidableEq

namespace NewDisk

def record : Record NewDisk where
  name := "DiskCreateSpec"
  fields :=
    .cons (.required "name" .string) <|
    .cons (.required "kind" .string) <|
    .cons (.required "flavor" .string) <|
    .cons (.required "capacityGb" .word32) <|
    .cons (.listed "localitySpec" Locality.codec.list) <|
    .cons (.listed "tags" Codec.string.list) .nil
  build := fun (name, kind, flavor, capacity, affinities, tags, ()) =>
    ⟨name, kind, flavor, capacity, affinities, tags⟩
  parts n := (n.name, n.kind, n.flavor, n.capacityGb, n.affinities, n.tags, ())

def codec : Codec NewDisk := record.codec

def persistentKind : String := "persistent-disk"

def gigabytes (megabytes : UInt64) : Nat :=
  (megabytes.toNat + 999) / 1000

end NewDisk

structure Disk where
  id : DiskId
  name : String
  kind : String
  flavor : String
  capacityGb : UInt32
  state : String
  vms : List VmId
deriving DecidableEq

namespace Disk

def record : Record Disk where
  name := "PersistentDisk"
  fields :=
    .cons (.required "id" (Id.codec .disk)) <|
    .cons (.withDefault "name" .string "") <|
    .cons (.withDefault "kind" .string "") <|
    .cons (.withDefault "flavor" .string "") <|
    .cons (.withDefault "capacityGb" .word32 0) <|
    .cons (.withDefault "state" .string "") <|
    .cons (.withDefault "vms" (Id.codec .vm).list []) .nil
  build := fun (id, name, kind, flavor, capacity, state, vms, ()) =>
    ⟨id, name, kind, flavor, capacity, state, vms⟩
  parts d := (d.id, d.name, d.kind, d.flavor, d.capacityGb, d.state, d.vms, ())

def codec : Codec Disk := record.codec

def isAttachedTo (d : Disk) (vm : VmId) : Bool :=
  d.vms.contains vm

end Disk

structure DiskList where
  items : List Disk
deriving DecidableEq

namespace DiskList

def record : Record DiskList where
  name := "DiskList"
  fields := .cons (.withDefault "items" Disk.codec.list []) .nil
  build := fun (items, ()) => ⟨items⟩
  parts l := (l.items, ())

def codec : Codec DiskList := record.codec

def attachedTo (l : DiskList) (vm : VmId) : List DiskId :=
  (l.items.filter (·.isAttachedTo vm)).map Disk.id

end DiskList
end CloudProvider
