import CloudProvider.Cloud.Error
import CloudProvider.Text.Utf8

/-! A complete answer over HTTP, and what it means: contents, a refusal of the cloud, or something
that the cloud did not write. -/

namespace CloudProvider.Http

structure Answer where
  status : UInt16
  body : Bytes

namespace Answer

def isSuccess (a : Answer) : Bool :=
  200 ≤ a.status.toNat && a.status.toNat < 300

/-- The contents of a successful answer. Of another answer the cloud is the author if the body is a
refusal. -/
def contents (a : Answer) : Except CloudError Bytes :=
  if a.isSuccess then .ok a.body
  else
    match Refusal.codec.decode a.body with
    | .ok refusal => .error (.refused refusal a.status)
    | .error _ => .error (.transport (some a.status) (Text.Utf8.lossy a.body))

end Answer

def decodeContents {α : Type} (codec : Json.Codec α) (body : Bytes) : Except CloudError α :=
  (codec.decode body).mapError fun fault => .internal (.undecodable fault)

def unreachable (cause : String) : CloudError :=
  .transport none cause

end CloudProvider.Http
