import CloudProvider.Exponent
import CloudProvider.Json.Reader

/-! Codecs: how a type is read from a JSON text, how it is taken from a JSON value that has been read
already, and which value it is written as. The two ways of reading accept the same values and refuse
the others for the same causes; they differ in positions, and in which of two faults is met first. -/

namespace CloudProvider.Json

open Text (Dictionary)

structure Codec (α : Type) where
  /-- The argument counts the levels of brackets still allowed. -/
  read : Nat → Reader α
  ofValue : Value → Except Cause α
  toValue : α → Value

namespace Codec

variable {α β : Type}

def decode (c : Codec α) (text : Bytes) : Except Fault α :=
  let whole : Reader α := do
    let a ← c.read depthLimit
    Reader.endText
    return a
  (whole (Cursor.start text)).1

def encode (c : Codec α) (a : α) : String :=
  (c.toValue a).render

def map (c : Codec α) (wrap : α → β) (unwrap : β → α) : Codec β where
  read room := wrap <$> c.read room
  ofValue v := wrap <$> c.ofValue v
  toValue b := c.toValue (unwrap b)

def atToken (k : Char → Reader α) : Reader α := do
  match ← Reader.token with
  | none => Reader.failNext .endInValue
  | some c => k c

def refused (wanted : String) (v : Value) : Except Cause α :=
  .error (.wrongType (.of v) wanted)

def bool : Codec Bool where
  read _ := atToken fun c =>
    match c with
    | 't' => do Reader.advance; Reader.word ['r', 'u', 'e']; pure true
    | 'f' => do Reader.advance; Reader.word ['a', 'l', 's', 'e']; pure false
    | _ => Reader.wrongType "a boolean"
  ofValue
    | .bool b => pure b
    | v => refused "a boolean" v
  toValue := .bool

def text (wanted : String) : Codec String where
  read _ := atToken fun c =>
    if c = '"' then do Reader.advance; Reader.string else Reader.wrongType wanted
  ofValue
    | .string s => pure s
    | v => refused wanted v
  toValue := .string

def string : Codec String :=
  text "a string"

def integer (wanted : String) (narrow? : Int → Option α) (widen : α → Number) : Codec α where
  read _ := atToken fun c =>
    let check (n : Number) : Reader α := Reader.located do
      match narrowed n with
      | .ok a => pure a
      | .error cause => Reader.refuse cause
    if c = '-' then do Reader.advance; check (← Reader.number true)
    else if c.isDigit then do check (← Reader.number false)
    else Reader.wrongType wanted
  ofValue
    | .number n => narrowed n
    | v => refused wanted v
  toValue a := .number (widen a)
where
  narrowed (n : Number) : Except Cause α :=
    match n with
    | .integer i _ =>
      match narrow? i with
      | some a => .ok a
      | none => .error (.wrongValue (.number n) wanted)
    | .fraction _ => .error (.wrongType (.number n) wanted)

def word32 : Codec UInt32 :=
  integer "u32" (fun i => if 0 ≤ i ∧ i < 2 ^ 32 then some (UInt32.ofNat i.toNat) else none)
    fun w => Number.ofNat w.toNat (by have := w.toNat_lt; omega)

def word64 : Codec UInt64 :=
  integer "u64" (fun i => if 0 ≤ i ∧ i < 2 ^ 64 then some (UInt64.ofNat i.toNat) else none)
    fun w => Number.ofNat w.toNat w.toNat_lt

def int64 : Codec Int64 :=
  integer "i64" (fun i => if -2 ^ 63 ≤ i ∧ i < 2 ^ 63 then some (Int64.ofInt i) else none)
    fun w => .integer w.toInt (by have := w.toInt_lt; have := w.le_toInt; omega)

def value : Codec Value where
  read := Value.read
  ofValue := .ok
  toValue := id

def itemsOf (ofValue : Value → Except Cause α) : List Value → Except Cause (List α)
  | [] => pure []
  | v :: rest => return (← ofValue v) :: (← itemsOf ofValue rest)

def list (c : Codec α) : Codec (List α) where
  read room := atToken fun first =>
    if first = '[' then do
      let inner ← Reader.enter room
      Reader.bracketed (Reader.elements (c.read inner)) Reader.endList
    else Reader.wrongType "a sequence"
  ofValue
    | .array items => itemsOf c.ofValue items
    | v => refused "a sequence" v
  toValue items := .array (items.map c.toValue)

def membersOf (ofValue : Value → Except Cause α) (seen : Dictionary α) :
    List (String × Value) → Except Cause (Dictionary α)
  | [] => pure seen
  | (k, v) :: rest => do membersOf ofValue (seen.insert k (← ofValue v)) rest

/-- Objects with any keys. Of a repeated key the last value counts. -/
def dictionary (c : Codec α) : Codec (Dictionary α) where
  read room := atToken fun first =>
    if first = '\x7b' then do
      let inner ← Reader.enter room
      Reader.bracketed (Reader.members (c.read inner)) Reader.endObject
    else Reader.wrongType "a map"
  ofValue
    | .object members => membersOf c.ofValue [] members
    | v => refused "a map" v
  toValue d := .object (d.map fun (k, a) => (k, c.toValue a))

/-- The same, for a table without an order: its members are written in whatever order they are put. -/
def table (c : Codec α) (arrange : Dictionary α → List (String × α)) : Codec (Dictionary α) where
  read := c.dictionary.read
  ofValue := c.dictionary.ofValue
  toValue d := c.dictionary.toValue (arrange d)

def option (c : Codec α) : Codec (Option α) where
  read room := do
    match ← Reader.token with
    | some 'n' => Reader.advance; Reader.word ['u', 'l', 'l']; pure none
    | _ => some <$> c.read room
  ofValue
    | .null => pure none
    | v => some <$> c.ofValue v
  toValue := Value.ofOption c.toValue

/-- A few names. Each may also stand as the only key of an object whose value is null. -/
def choice (known : List (String × α)) (name : α → String) : Codec α where
  read room := atToken fun first =>
    if first = '"' then Reader.located do
      Reader.advance
      pick (← Reader.string)
    else if first = '\x7b' then do
      let _ ← Reader.enter room
      let a ← key
      Reader.colon
      nothing
      match ← Reader.token with
      | some '\x7d' => Reader.advance; pure a
      | some _ => Reader.fail .expectedValue
      | none => Reader.fail .endInObject
    else Reader.failNext .expectedValue
  ofValue
    | .string s => find s
    | .object [(s, v)] => do
      let a ← find s
      match v with
      | .null => pure a
      | v => refused "unit" v
    | .object _ => .error (.wrongValue .object "map with a single key")
    | v => refused "string or map" v
  toValue a := .string (name a)
where
  find (s : String) : Except Cause α :=
    match known.lookup s with
    | some a => .ok a
    | none => .error (.unknownVariant s (known.map (·.1)))
  pick (s : String) : Reader α :=
    match find s with
    | .ok a => pure a
    | .error cause => Reader.refuse cause
  key : Reader α := atToken fun c =>
    if c = '"' then Reader.located do Reader.advance; pick (← Reader.string)
    else Reader.wrongType "variant identifier"
  nothing : Reader Unit := atToken fun c =>
    if c = 'n' then do Reader.advance; Reader.word ['u', 'l', 'l'] else Reader.wrongType "unit"

/-- Narrows what is read: a refusal is reported where the enclosing value ends. -/
def refine (c : Codec α) (check : α → Except Cause β) (unwrap : β → α) : Codec β where
  read room := do
    match check (← c.read room) with
    | .ok b => pure b
    | .error cause => Reader.refuse cause
  ofValue v := do check (← c.ofValue v)
  toValue b := c.toValue (unwrap b)

end Codec
end CloudProvider.Json
