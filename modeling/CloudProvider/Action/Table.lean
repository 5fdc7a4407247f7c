import CloudProvider.Action.Arguments
import CloudProvider.Pipeline.Step
import CloudProvider.Text.Lowercase

/-! Actions, which callers ask for by name, and the table in which they are looked up. Case does not
matter in names, and each name is taken once. -/

namespace CloudProvider

open Json (Value)
open Text (Dictionary lower)

structure Action where
  name : String
  invoke : Settings → Arguments → Pipeline Value

inductive TableFault
  | alreadyRegistered (name : String)
deriving DecidableEq

def TableFault.message : TableFault → String
  | .alreadyRegistered name => "Action '" ++ name ++ "' is already registered"

structure Table where
  actions : Dictionary Action

namespace Table

def empty : Table := ⟨[]⟩

def get? (t : Table) (method : String) : Option Action :=
  t.actions.get? (lower method)

def register (t : Table) (action : Action) : Except TableFault Table :=
  let name := lower action.name
  match t.actions.get? name with
  | some _ => .error (.alreadyRegistered name)
  | none => .ok ⟨t.actions.insert name action⟩

def registerAll (t : Table) (actions : List Action) : Except TableFault Table :=
  actions.foldlM register t

/-- The names in lower case, in order. -/
def registered (t : Table) : List String :=
  t.actions.map (·.1)

end Table
end CloudProvider
