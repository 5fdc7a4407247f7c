import CloudProvider.Decimal.Binary64
import CloudProvider.Exponent
import CloudProvider.Text.Dictionary

/-! JSON values and their compact text. Integers of 64 bits are kept exactly, every other number is
a binary fraction. The members of an object are written as they stand; a value read from a text has
them in dictionary order. -/

namespace CloudProvider.Json

open Decimal (Binary64)
open Text (Dictionary)

inductive Number
  /-- Between the least signed and the greatest unsigned integer of 64 bits. -/
  | integer (i : Int) (fits : -2 ^ 63 ≤ i ∧ i < 2 ^ 64)
  | fraction (x : Binary64)
deriving DecidableEq

inductive Value
  | null
  | bool (b : Bool)
  | number (n : Number)
  | string (s : String)
  | array (items : List Value)
  | object (members : List (String × Value))

instance : Inhabited Value := ⟨.null⟩

namespace Number

/-- Positional up to 16 digits before the point and 4 zeros after it. -/
def layout : Decimal.Layout := ⟨-5, 15, true⟩

def render : Number → String
  | .integer i _ => toString i
  | .fraction x => if x.isFinite then x.render layout else "null"

def ofNat (n : Nat) (h : n < 2 ^ 64 := by omega) : Number :=
  .integer n ⟨by omega, by omega⟩

end Number

namespace Value

def isNull : Value → Bool
  | .null => true
  | _ => false

def ofOption {α : Type} (f : α → Value) : Option α → Value
  | none => .null
  | some a => f a

def hexDigit (n : Nat) : Char :=
  Nat.digitChar n

/-- Escapes are used where a string needs them: quotes, backslashes and control characters. -/
def escape (c : Char) : List Char :=
  if c = '"' then ['\\', '"']
  else if c = '\\' then ['\\', '\\']
  else if c = '\n' then ['\\', 'n']
  else if c = '\r' then ['\\', 'r']
  else if c = '\t' then ['\\', 't']
  else if c = '\x08' then ['\\', 'b']
  else if c = '\x0c' then ['\\', 'f']
  else if c < ' ' then
    ['\\', 'u', '0', '0', hexDigit (c.toNat / 16), hexDigit (c.toNat % 16)]
  else [c]

def renderString (s : String) : List Char :=
  '"' :: s.toList.flatMap escape ++ ['"']

mutual

def chars : Value → List Char
  | .null => "null".toList
  | .bool true => "true".toList
  | .bool false => "false".toList
  | .number n => n.render.toList
  | .string s => renderString s
  | .array items => '[' :: itemChars items ++ [']']
  | .object members => '\x7b' :: memberChars members ++ ['\x7d']

def itemChars : List Value → List Char
  | [] => []
  | [v] => v.chars
  | v :: w :: rest => v.chars ++ ',' :: itemChars (w :: rest)

def memberChars : List (String × Value) → List Char
  | [] => []
  | [(k, v)] => renderString k ++ ':' :: v.chars
  | (k, v) :: m :: rest => renderString k ++ ':' :: v.chars ++ ',' :: memberChars (m :: rest)

end

def render (v : Value) : String :=
  String.ofList v.chars

mutual

def sorted : Value → Value
  | .array items => .array (sortedItems items)
  | .object members => .object (Dictionary.ofList (sortedMembers members))
  | v => v

def sortedItems : List Value → List Value
  | [] => []
  | v :: rest => v.sorted :: sortedItems rest

def sortedMembers : List (String × Value) → List (String × Value)
  | [] => []
  | (k, v) :: rest => (k, v.sorted) :: sortedMembers rest

end

end Value
end CloudProvider.Json
