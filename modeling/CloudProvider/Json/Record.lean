import CloudProvider.Json.Codec
import CloudProvider.Json.Skip

/-! Records: structures that are written as objects with fixed names. In reading, an object may hold
its members in any order and others besides; a list of the members in their declared order is
accepted too. -/

namespace CloudProvider.Json

structure Field (α : Type) where
  name : String
  codec : Codec α
  /-- What a missing member stands for. A required member has nothing here. -/
  absent : Option α
  /-- Whether the member is left out in writing. -/
  omits : α → Bool
  absent_of_omits : ∀ a, omits a = true → absent = some a

namespace Field

variable {α : Type}

def required (name : String) (codec : Codec α) : Field α :=
  ⟨name, codec, none, fun _ => false, by simp⟩

/-- Missing means `a`; it is written all the same. -/
def withDefault (name : String) (codec : Codec α) (a : α) : Field α :=
  ⟨name, codec, some a, fun _ => false, by simp⟩

/-- Null and missing both mean `none`, which is left out in writing. -/
def optional (name : String) (codec : Codec α) : Field (Option α) :=
  ⟨name, codec.option, some none, Option.isNone, by simp⟩

/-- Missing means empty, and an empty list is left out in writing. -/
def listed (name : String) (codec : Codec (List α)) : Field (List α) :=
  ⟨name, codec, some [], List.isEmpty, by simp⟩

end Field

inductive Fields : List Type → Type 1
  | nil : Fields []
  | cons {α : Type} {kinds : List Type} (first : Field α) (rest : Fields kinds) :
      Fields (α :: kinds)

abbrev Row : List Type → Type
  | [] => Unit
  | α :: kinds => α × Row kinds

abbrev Slots : List Type → Type
  | [] => Unit
  | α :: kinds => Option α × Slots kinds

def Slots.empty : (kinds : List Type) → Slots kinds
  | [] => ()
  | _ :: kinds => (none, empty kinds)

namespace Fields

/-- Reads the member `key`, whose name has been passed; nothing if there is no such field. -/
def readMember (room : Nat) (key : String) :
    {kinds : List Type} → Fields kinds → Slots kinds → Option (Reader (Slots kinds))
  | _, .nil, _ => none
  | _, .cons f rest, (slot, slots) =>
    if f.name = key then some do
      if slot.isSome then Reader.refuse (.repeatedMember key)
      else
        Reader.colon
        return (some (← f.codec.read room), slots)
    else (rest.readMember room key slots).map fun r => (slot, ·) <$> r

def ofMember (key : String) (v : Value) :
    {kinds : List Type} → Fields kinds → Slots kinds → Option (Except Cause (Slots kinds))
  | _, .nil, _ => none
  | _, .cons f rest, (slot, slots) =>
    if f.name = key then some do
      if slot.isSome then .error (.repeatedMember key) else return (some (← f.codec.ofValue v), slots)
    else (rest.ofMember key v slots).map fun r => (slot, ·) <$> r

/-- The first required field without a value is at fault. -/
def complete : {kinds : List Type} → Fields kinds → Slots kinds → Except Cause (Row kinds)
  | _, .nil, _ => pure ()
  | _, .cons f rest, (slot, slots) => do
    match slot <|> f.absent with
    | none => .error (.missingMember f.name)
    | some a => return (a, ← rest.complete slots)

/-- The values in their declared order. A list may end where every further field has a default. -/
def readItems (room : Nat) (wanted : String) (index : Nat) :
    {kinds : List Type} → Fields kinds → Reader (Row kinds)
  | _, .nil => pure ()
  | _, .cons f rest => do
    if ← Reader.moreElements (index = 0) then
      let a ← f.codec.read room
      return (a, ← rest.readItems room wanted (index + 1))
    else
      match f.absent with
      | none => Reader.refuse (.wrongLength index wanted)
      | some a => return (a, ← rest.readItems room wanted (index + 1))

def ofItems (wanted : String) (index : Nat) :
    {kinds : List Type} → Fields kinds → List Value → Except Cause (Row kinds × List Value)
  | _, .nil, items => pure ((), items)
  | _, .cons f rest, v :: items => do
    let a ← f.codec.ofValue v
    let (row, left) ← rest.ofItems wanted (index + 1) items
    return ((a, row), left)
  | _, .cons f rest, [] => do
    match f.absent with
    | none => .error (.wrongLength index wanted)
    | some a =>
      let (row, left) ← rest.ofItems wanted (index + 1) []
      return ((a, row), left)

def members : {kinds : List Type} → Fields kinds → Row kinds → List (String × Value)
  | _, .nil, _ => []
  | _, .cons f rest, (a, row) =>
    if f.omits a then rest.members row else (f.name, f.codec.toValue a) :: rest.members row

end Fields

structure Record (σ : Type) where
  name : String
  {kinds : List Type}
  fields : Fields kinds
  build : Row kinds → σ
  parts : σ → Row kinds

namespace Record

variable {σ : Type}

def described (r : Record σ) : String :=
  "struct " ++ r.name

def describedAsList (r : Record σ) : String :=
  let n := r.kinds.length
  s!"{r.described} with {n} " ++ if n = 1 then "element" else "elements"

def readMembers (r : Record σ) (room : Nat) :
    Nat → Bool → Slots r.kinds → Reader (Slots r.kinds)
  | 0, _, _ => Reader.fail .endInObject
  | rounds + 1, first, slots => do
    match ← Reader.nextKey? first with
    | none => return slots
    | some key =>
      match r.fields.readMember room key slots with
      | some member => r.readMembers room rounds false (← member)
      | none =>
        Reader.colon
        Reader.skip
        r.readMembers room rounds false slots

def readObject (r : Record σ) (room : Nat) : Reader (Row r.kinds) := do
  let rounds := (← Reader.cursor).rest.length + 1
  match r.fields.complete (← r.readMembers room rounds true (Slots.empty r.kinds)) with
  | .ok row => pure row
  | .error cause => Reader.refuse cause

def ofMembers (r : Record σ) :
    List (String × Value) → Slots r.kinds → Except Cause (Slots r.kinds)
  | [], slots => pure slots
  | (key, v) :: rest, slots =>
    match r.fields.ofMember key v slots with
    | some found => do r.ofMembers rest (← found)
    | none => r.ofMembers rest slots

def codec (r : Record σ) : Codec σ where
  read room := do
    match ← Reader.token with
    | none => Reader.failNext .endInValue
    | some '[' =>
      let inner ← Reader.enter room
      r.build <$> Reader.bracketed (r.fields.readItems inner r.describedAsList 0) Reader.endList
    | some '\x7b' =>
      let inner ← Reader.enter room
      r.build <$> Reader.bracketed (r.readObject inner) Reader.endObject
    | some _ => Reader.wrongType r.described
  ofValue
    | .array items => do
      let (row, left) ← r.fields.ofItems r.describedAsList 0 items
      if left.isEmpty then return r.build row
      else .error (.wrongLength items.length "fewer elements in array")
    | .object members => do
      let slots ← r.ofMembers members (Slots.empty r.kinds)
      return r.build (← r.fields.complete slots)
    | v => .error (.wrongType (.of v) r.described)
  toValue s := .object (r.fields.members (r.parts s))

end Record
end CloudProvider.Json
