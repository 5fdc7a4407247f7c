import CloudProvider.Archive.Fault
import CloudProvider.Cloud.Error
import CloudProvider.Envelope
import CloudProvider.Files.Fault

/-! How an action can fail, and what the caller is told of it. -/

namespace CloudProvider

inductive ArgumentFault
  | tooFew (wanted given : Nat)
  | missing (name : String) (index : Nat)
  | unexpected (name : String) (cause : Json.Cause)
  | emptyId (name : String)
  | diskTooSmall
  | diskTooLarge (megabytes : UInt64)
  | noImage (path : String)
  | stated (message : String)

namespace ArgumentFault

def message : ArgumentFault → String
  | .tooFew wanted given =>
    s!"Expected at least {wanted} " ++ (if wanted = 1 then "argument" else "arguments")
      ++ s!", got {given}"
  | .missing name index => "Missing argument '" ++ name ++ s!"' at position {index}"
  | .unexpected name cause =>
    "Unexpected argument where " ++ name ++ " should be: " ++ cause.message
  | .emptyId name => "Argument '" ++ name ++ "' must not be empty"
  | .diskTooSmall =>
    "Must provide a size in MiB that rounds up to at least 1 GiB for esxcloud"
  | .diskTooLarge megabytes => s!"disk size {megabytes.toNat} MiB is too large"
  | .noImage path =>
    "Could not find entry for OVA image in stemcell at path '" ++ path ++ "'"
  | .stated message => message

end ArgumentFault

inductive IoFault
  | file (fault : Files.Fault)
  | archive (fault : Archive.Fault)
deriving DecidableEq

def IoFault.message : IoFault → String
  | .file fault => fault.message
  | .archive fault => fault.message

inductive ActionError
  | cloud (error : CloudError)
  | invalidArgument (fault : ArgumentFault)
  /-- The kind and the retry flag are given with the error. -/
  | declared (kind : FailureKind) (retry : Bool) (message : String)
  | io (fault : IoFault)
  | command (program output : String)

namespace ActionError

def notImplemented (method : String) : ActionError :=
  .declared .notImplemented false ("Method " ++ method ++ " not implemented in esxcloud CPI.")

def setup (context cause : String) : ActionError :=
  .declared .cpiError false ("CPI error: '" ++ context ++ "' | Caused by: '" ++ cause ++ "'")

def message : ActionError → String
  | .cloud error => error.message
  | .invalidArgument fault => fault.message
  | .declared _ _ message => message
  | .io fault => fault.message
  | .command program output => "command '" ++ program ++ "' failed: " ++ output

/-- The kind of failure, and whether trying again can help. It can if nobody knows what the cloud
made of the request. -/
def verdict : ActionError → FailureKind × Bool
  | .cloud (.refused ..) => (.cloudError, false)
  | .cloud (.taskFailed _) => (.cloudError, false)
  | .cloud (.transport ..) => (.cloudError, true)
  | .cloud (.taskTimeout _) => (.cloudError, true)
  | .cloud (.internal _) => (.cpiError, false)
  | .invalidArgument _ => (.cpiError, false)
  | .io _ => (.cpiError, false)
  | .command .. => (.cpiError, false)
  | .declared kind retry _ => (kind, retry)

def failure (e : ActionError) : Failure :=
  ⟨e.verdict.1, e.message, e.verdict.2⟩

end ActionError
end CloudProvider
