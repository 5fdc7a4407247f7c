import CloudProvider.Http.Answer
import CloudProvider.Http.Request

/-! The cloud as it is reached over HTTP. How messages travel is left open: a network takes one
request and brings back the complete answer, or says that there is none. -/

namespace CloudProvider.Http

inductive NetworkFault
  /-- Nothing came back. -/
  | unanswered
  /-- The answer broke off. -/
  | brokenOff
deriving DecidableEq

abbrev Network (m : Type → Type) := Request → m (Except NetworkFault Answer)

def NetworkFault.cloudError (url : Url) : NetworkFault → CloudError
  | .unanswered => unreachable ("error sending request for url (" ++ url.text ++ ")")
  | .brokenOff => unreachable "error decoding response body"

/-- Where a request cannot be made, there is no answer either. A file that cannot be opened is
trouble on this side. -/
def RequestFault.cloudError : RequestFault → CloudError
  | .unopened path fault => .internal (.unopened path fault.message)
  | .noUrl => unreachable "builder error"
  | .unusable url => unreachable ("builder error for url (" ++ url.text ++ ")")

def interpret (c : Call) (url : Url) :
    Except NetworkFault Answer → Except CloudError c.Answer
  | .error fault => .error (fault.cloudError url)
  | .ok answer => answer.contents >>= decodeContents c.codec

def answer {m : Type → Type} [Monad m] (network : Network m) (target : String) (c : Call) :
    m (Except CloudError c.Answer) :=
  match request target c with
  | .error fault => pure (.error fault.cloudError)
  | .ok r => do return interpret c r.url (← network r)

end CloudProvider.Http
