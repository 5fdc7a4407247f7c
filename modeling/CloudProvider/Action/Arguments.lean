import CloudProvider.ActionError

/-! Arguments of a request, which are told apart by their positions. Each is decoded on its own, and
what is wrong with one is said with its name. -/

namespace CloudProvider

open Json (Codec Value)

structure Arguments where
  values : List Value

namespace Arguments

variable {α : Type}

def expectAtLeast (a : Arguments) (count : Nat) : Except ArgumentFault Unit :=
  if a.values.length < count then .error (.tooFew count a.values.length) else .ok ()

def decode (c : Codec α) (name : String) (v : Value) : Except ArgumentFault α :=
  (c.ofValue v).mapError (.unexpected name)

def required (a : Arguments) (c : Codec α) (index : Nat) (name : String) :
    Except ArgumentFault α :=
  match a.values[index]? with
  | none => .error (.missing name index)
  | some v => decode c name v

/-- Missing and null both mean that nothing is given. -/
def optional (a : Arguments) (c : Codec α) (index : Nat) (name : String) :
    Except ArgumentFault (Option α) :=
  match a.values[index]? with
  | none | some .null => .ok none
  | some v => some <$> decode c name v

/-- An id, which is named after its kind and is never empty. -/
def id (a : Arguments) (kind : Kind) (index : Nat) : Except ArgumentFault (Id kind) := do
  let text ← a.required Codec.string index kind.argument
  if text.isEmpty then throw (.emptyId kind.argument) else return ⟨text⟩

end Arguments
end CloudProvider
