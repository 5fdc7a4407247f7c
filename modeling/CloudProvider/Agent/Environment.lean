import CloudProvider.Cloud.Id
import CloudProvider.Json.Record

/-! What the agent inside a machine has to know when it first starts. -/

namespace CloudProvider

open Json (Codec Record Value)
open Text (Dictionary)

structure Blobstore where
  provider : String
  options : Dictionary Value

namespace Blobstore

def blank : Blobstore := ⟨"", []⟩

def record : Record Blobstore where
  name := "BlobstoreSpec"
  fields :=
    .cons (.withDefault "provider" .string "") <|
    .cons (.withDefault "options" (.dictionary .value) []) .nil
  build := fun (provider, options, ()) => ⟨provider, options⟩
  parts b := (b.provider, b.options, ())

def codec : Codec Blobstore := record.codec

end Blobstore

structure AgentSettings where
  mbus : String
  ntp : List String
  blobstore : Blobstore

namespace AgentSettings

def blank : AgentSettings := ⟨"", [], .blank⟩

def record : Record AgentSettings where
  name := "AgentConfig"
  fields :=
    .cons (.required "mbus" .string) <|
    .cons (.withDefault "ntp" Codec.string.list []) <|
    .cons (.withDefault "blobstore" Blobstore.codec .blank) .nil
  build := fun (mbus, ntp, blobstore, ()) => ⟨mbus, ntp, blobstore⟩
  parts s := (s.mbus, s.ntp, s.blobstore, ())

def codec : Codec AgentSettings := record.codec

end AgentSettings

structure VmIdentity where
  name : String
  id : VmId
deriving DecidableEq

namespace VmIdentity

def record : Record VmIdentity where
  name := "VmSpec"
  fields :=
    .cons (.required "name" .string) <|
    .cons (.required "id" (Id.codec .vm)) .nil
  build := fun (name, id, ()) => ⟨name, id⟩
  parts v := (v.name, v.id, ())

def codec : Codec VmIdentity := record.codec

end VmIdentity

structure AgentEnvironment where
  agentId : String
  vm : VmIdentity
  mbus : String
  ntp : List String
  networks : Value
  env : Value
  disks : Dictionary String
  blobstore : Blobstore

namespace AgentEnvironment

def record : Record AgentEnvironment where
  name := "AgentEnv"
  fields :=
    .cons (.required "agent_id" .string) <|
    .cons (.required "vm" VmIdentity.codec) <|
    .cons (.required "mbus" .string) <|
    .cons (.required "ntp" Codec.string.list) <|
    .cons (.required "networks" .value) <|
    .cons (.required "env" .value) <|
    .cons (.required "disks" (.dictionary .string)) <|
    .cons (.required "blobstore" Blobstore.codec) .nil
  build := fun (agentId, vm, mbus, ntp, networks, env, disks, blobstore, ()) =>
    ⟨agentId, vm, mbus, ntp, networks, env, disks, blobstore⟩
  parts e := (e.agentId, e.vm, e.mbus, e.ntp, e.networks, e.env, e.disks, e.blobstore, ())

def codec : Codec AgentEnvironment := record.codec

def orEmpty (v : Value) : Value :=
  if v.isNull then .object [] else v

/-- For a machine whose second device is the ephemeral disk. -/
def new (agentId : String) (vm : VmIdentity) : AgentEnvironment :=
  ⟨agentId, vm, "", [], .object [], .object [], [("ephemeral", "1")], .blank⟩

def withSettings (e : AgentEnvironment) (s : AgentSettings) : AgentEnvironment :=
  { e with mbus := s.mbus, ntp := s.ntp, blobstore := s.blobstore }

/-- Null counts as an object without members. -/
def withDeployment (e : AgentEnvironment) (networks env : Value) : AgentEnvironment :=
  { e with networks := orEmpty networks, env := orEmpty env }

end AgentEnvironment
end CloudProvider
