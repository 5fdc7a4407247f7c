import CloudProvider.Json.Codec

/-! Names that the cloud gives to what it holds. They are opaque texts and look alike; the kind keeps
them apart. -/

namespace CloudProvider

inductive Kind
  | task
  | vm
  | disk
  | image
deriving DecidableEq, Repr

structure Id (kind : Kind) where
  text : String
deriving DecidableEq

abbrev TaskId := Id .task
abbrev VmId := Id .vm
abbrev DiskId := Id .disk
abbrev ImageId := Id .image

def Kind.argument : Kind → String
  | .task => "task_id"
  | .vm => "vm_cid"
  | .disk => "disk_cid"
  | .image => "stemcell_cid"

def Id.codec (kind : Kind) : Json.Codec (Id kind) :=
  Json.Codec.string.map Id.mk Id.text

end CloudProvider
