import CloudProvider.Json.Record

/-! Requests and the envelope that answers each of them: a result or a failure, and the log of the
call. -/

namespace CloudProvider

open Json (Codec Record Value)

structure Request where
  method : String
  arguments : List Value

namespace Request

def record : Record Request where
  name := "Request"
  fields :=
    .cons (.required "method" .string) <|
    .cons (.withDefault "arguments" Codec.value.list []) .nil
  build := fun (method, arguments, ()) => ⟨method, arguments⟩
  parts r := (r.method, r.arguments, ())

def codec : Codec Request := record.codec

end Request

inductive FailureKind
  | cloudError
  | cpiError
  | notImplemented
deriving DecidableEq, Repr

namespace FailureKind

def name : FailureKind → String
  | .cloudError => "Bosh::Clouds::CloudError"
  | .cpiError => "Bosh::Clouds::CpiError"
  | .notImplemented => "Bosh::Clouds::NotImplemented"

def known : List (String × FailureKind) :=
  [.cloudError, .cpiError, .notImplemented].map fun k => (k.name, k)

def codec : Codec FailureKind :=
  .choice known name

end FailureKind

structure Failure where
  kind : FailureKind
  message : String
  /-- Whether the caller may send the same request again. -/
  retry : Bool
deriving DecidableEq

namespace Failure

def record : Record Failure where
  name := "ResponseError"
  fields :=
    .cons (.required "type" FailureKind.codec) <|
    .cons (.required "message" .string) <|
    .cons (.required "ok_to_retry" .bool) .nil
  build := fun (kind, message, retry, ()) => ⟨kind, message, retry⟩
  parts f := (f.kind, f.message, f.retry, ())

def codec : Codec Failure := record.codec

end Failure

structure Envelope where
  result : Value
  failure : Option Failure
  log : String

namespace Envelope

def record : Record Envelope where
  name := "Response"
  fields :=
    .cons (.required "result" .value) <|
    .cons (.withDefault "error" Failure.codec.option none) <|
    .cons (.withDefault "log" .string "") .nil
  build := fun (result, failure, log, ()) => ⟨result, failure, log⟩
  parts e := (e.result, e.failure, e.log, ())

def codec : Codec Envelope := record.codec

def success (result : Value) (log : String) : Envelope :=
  ⟨result, none, log⟩

def failed (failure : Failure) (log : String) : Envelope :=
  ⟨.null, some failure, log⟩

def isSuccess (e : Envelope) : Bool :=
  e.failure.isNone

end Envelope
end CloudProvider
