import CloudProvider.Exponent
import CloudProvider.Json.Fault
import CloudProvider.Text.Utf8

/-! Reading JSON from bytes: what is left of the text, where reading stands, and the tokens. A reader
that fails leaves the cursor where it stopped, so that whoever called it can say where that was. -/

namespace CloudProvider.Json

open Decimal (Binary64)
open Text

structure Cursor where
  rest : Bytes
  position : Position
deriving DecidableEq

abbrev Reader := ExceptT Fault (StateM Cursor)

namespace Cursor

def start (text : Bytes) : Cursor := ⟨text, .start⟩

/-- The position just past the next byte: where a fault of that byte is reported. -/
def past (c : Cursor) : Position :=
  match c.rest with
  | [] => c.position
  | b :: _ => c.position.after b

def next (c : Cursor) : Cursor :=
  ⟨c.rest.drop 1, c.past⟩

def isSpace (b : UInt8) : Bool :=
  b = ' '.toUInt8 || b = '\n'.toUInt8 || b = '\t'.toUInt8 || b = '\r'.toUInt8

def skipSpace (c : Cursor) : Cursor :=
  go c.rest c.position
where
  go : Bytes → Position → Cursor
    | [], p => ⟨[], p⟩
    | b :: rest, p => if isSpace b then go rest (p.after b) else ⟨b :: rest, p⟩

end Cursor

namespace Reader

variable {α : Type}

def cursor : Reader Cursor :=
  fun c => (.ok c, c)

def jump (c : Cursor) : Reader Unit :=
  fun _ => (.ok (), c)

def fail (cause : Cause) : Reader α :=
  fun c => (.error ⟨cause, some c.position⟩, c)

def failNext (cause : Cause) : Reader α :=
  fun c => (.error ⟨cause, some c.past⟩, c)

/-- Refuses the value that is being read, not the text: whoever reads it knows the position. -/
def refuse (cause : Cause) : Reader α :=
  fun c => (.error ⟨cause, none⟩, c)

/-- Runs `r` and hands its failure over as a value. -/
def attempt (r : Reader α) : Reader (Except Fault α) :=
  fun c => let (result, c') := r c; (.ok result, c')

/-- Gives a refusal of `r` the position at which `r` ended. -/
def located (r : Reader α) : Reader α :=
  fun c =>
    match r c with
    | (.error f, c') => (.error (f.locate c'.position), c')
    | done => done

/-- The next byte, as an ASCII or Latin-1 character. -/
def peek : Reader (Option Char) :=
  fun c => (.ok (c.rest.head?.map Char.ofUInt8), c)

def token : Reader (Option Char) :=
  fun c => let c' := c.skipSpace; (.ok (c'.rest.head?.map Char.ofUInt8), c')

def advance : Reader Unit :=
  fun c => (.ok (), c.next)

/-- The rest of a word such as `null`, of which the first letter has been passed. -/
def word : List Char → Reader Unit
  | [] => pure ()
  | expected :: more => do
    match ← peek with
    | none => fail .endInValue
    | some found =>
      advance
      if found = expected then word more else fail .expectedIdent

/-! ### Numbers -/

def digitsOf (bytes : Bytes) : List Nat :=
  (bytes.takeWhile fun b => (Char.ofUInt8 b).isDigit).map fun b => b.toNat - 48

def digits : Reader (List Nat) :=
  fun c =>
    let ds := digitsOf c.rest
    (.ok ds, ⟨c.rest.drop ds.length, ⟨c.position.line, c.position.column + ds.length⟩⟩)

/-- Appends decimal digits as long as 64 bits hold the result, and counts them. -/
def absorb (significand : Nat) : List Nat → Nat × Nat
  | [] => (significand, 0)
  | d :: more =>
    if significand * 10 + d < 2 ^ 64 then
      let (n, taken) := absorb (significand * 10 + d) more
      (n, taken + 1)
    else (significand, 0)

def powerOfTen (n : Nat) : Float :=
  Float.ofScientific 1 false n

/-- `x` divided by the power of ten, in steps of at most `10 ^ 308`. -/
def scaleDown (x : Float) (n : Nat) : Float :=
  if n ≤ 308 then x / powerOfTen n
  else if x == 0 then x
  else scaleDown (x / powerOfTen 308) (n - 308)
termination_by n

/-- The significand scaled by one multiplication or division at a time; nothing if it outgrows
64 bits. -/
def scaled? (significand : Nat) (scale : Int) : Option Float :=
  let x := (UInt64.ofNat significand).toFloat
  if scale < 0 then some (scaleDown x (-scale).toNat)
  else if scale ≤ 308 then
    let y := x * powerOfTen scale.toNat
    if y.isInf then none else some y
  else if significand = 0 then some x
  else none

def signed (negative : Bool) (x : Float) : Number :=
  .fraction (.ofFloat (if negative then -x else x))

/-- A number with neither point nor exponent. Zero with a sign is a fraction. -/
def whole (negative : Bool) (n : Nat) (h : n < 2 ^ 64) : Number :=
  if h' : negative = true then
    if small : 0 < n ∧ n ≤ 2 ^ 63 then .integer (-n) (by omega)
    else signed true (UInt64.ofNat n).toFloat
  else .ofNat n h

theorem absorb_lt (ds : List Nat) (n : Nat) (h : n < 2 ^ 64) : (absorb n ds).1 < 2 ^ 64 := by
  induction ds generalizing n with
  | nil => simpa [absorb]
  | cons d more ih =>
    simp only [absorb]
    split
    · next fits => exact ih _ fits
    · exact h

def exponentLimit : Nat := 2 ^ 31 - 1

/-- An exponent's digits up to the first that takes it beyond the limit. -/
def exponentDigits (n : Nat) : List Nat → Nat → Nat × Option Nat
  | [], _ => (n, none)
  | d :: more, passed =>
    if n * 10 + d ≤ exponentLimit then exponentDigits (n * 10 + d) more (passed + 1)
    else (n, some (passed + 1))

def clamp (i : Int) : Int :=
  max (-2 ^ 31) (min i (2 ^ 31 - 1))

def finish (negative : Bool) (significand : Nat) (scale : Int) : Reader Number :=
  match scaled? significand scale with
  | some x => pure (signed negative x)
  | none => fail .numberOutOfRange

def exponentPart (negative : Bool) (significand : Nat) (scale : Int) : Reader Number := do
  advance
  let down ←
    match ← peek with
    | some '+' => advance; pure false
    | some '-' => advance; pure true
    | _ => pure false
  match ← peek with
  | none => fail .endInValue
  | some c =>
    if !c.isDigit then failNext .invalidNumber
    else
      let start ← cursor
      let ds ← digits
      match exponentDigits 0 ds 0 with
      | (n, none) =>
        finish negative significand (clamp (if down then scale - n else scale + n))
      | (_, some passed) =>
        if significand ≠ 0 ∧ !down then
          jump ⟨start.rest.drop passed, ⟨start.position.line, start.position.column + passed⟩⟩
          fail .numberOutOfRange
        else pure (signed negative 0)

def fractionPart (negative : Bool) (significand : Nat) (scale : Int) : Reader Number := do
  advance
  let ds ← digits
  if ds.isEmpty then
    match ← peek with
    | none => fail .endInValue
    | some _ => failNext .invalidNumber
  let (n, taken) := absorb significand ds
  let scale := scale - taken
  match ← peek with
  | some 'e' | some 'E' => exponentPart negative n scale
  | _ => finish negative n scale

/-- A number whose sign has been passed. Digits that 64 bits cannot hold are dropped. -/
def number (negative : Bool) : Reader Number := do
  match ← peek with
  | none => fail .endInValue
  | some first =>
    if !first.isDigit then failNext .invalidNumber
    else
      let ds ←
        if first = '0' then
          advance
          match ← peek with
          | some c => if c.isDigit then failNext .invalidNumber else pure [0]
          | none => pure [0]
        else digits
      have fits := absorb_lt ds 0 (by decide)
      let (n, taken) := absorb 0 ds
      let scale : Int := ds.length - taken
      match ← peek with
      | some '.' => fractionPart negative n scale
      | some 'e' | some 'E' => exponentPart negative n scale
      | _ =>
        if taken = ds.length then pure (whole negative (absorb 0 ds).1 fits)
        else finish negative n scale

/-! ### Strings -/

def hexValue? (b : UInt8) : Option Nat :=
  let n := b.toNat
  if 48 ≤ n ∧ n ≤ 57 then some (n - 48)
  else if 65 ≤ n ∧ n ≤ 70 then some (n - 55)
  else if 97 ≤ n ∧ n ≤ 102 then some (n - 87)
  else none

def hexNumber? (a b c d : UInt8) : Option Nat := do
  return (((← hexValue? a) * 16 + (← hexValue? b)) * 16 + (← hexValue? c)) * 16 + (← hexValue? d)

def hexEscape : Reader Nat := do
  let c ← cursor
  match c.rest with
  | a :: b :: c' :: d :: rest =>
    jump ⟨rest, c.position.advance [a, b, c', d]⟩
    match hexNumber? a b c' d with
    | some n => pure n
    | none => fail .invalidEscape
  | short =>
    jump ⟨[], c.position.advance short⟩
    fail .endInString

def surrogateSign (expected : Char) : Reader Unit := do
  match ← peek with
  | none => fail .endInString
  | some c => if c = expected then advance else failNext .unfinishedSurrogate

/-- The character of a `\u` escape whose `u` has been passed: one unit, or a pair of surrogates. -/
def unicodeEscape : Reader Char := do
  let n ← hexEscape
  if 0xDC00 ≤ n ∧ n ≤ 0xDFFF then fail .loneSurrogate
  else if n < 0xD800 ∨ 0xDBFF < n then pure (Char.ofNat n)
  else
    surrogateSign '\\'
    surrogateSign 'u'
    let low ← hexEscape
    if low < 0xDC00 ∨ 0xDFFF < low then fail .loneSurrogate
    else pure (Char.ofNat ((n - 0xD800) * 0x400 + (low - 0xDC00) + 0x10000))

def escapedChar : Reader Char := do
  match ← peek with
  | none => fail .endInString
  | some c =>
    match c with
    | '"' => advance; pure '"'
    | '\\' => advance; pure '\\'
    | '/' => advance; pure '/'
    | 'b' => advance; pure '\x08'
    | 'f' => advance; pure '\x0c'
    | 'n' => advance; pure '\n'
    | 'r' => advance; pure '\r'
    | 't' => advance; pure '\t'
    | 'u' => advance; unicodeEscape
    | _ => failNext .invalidEscape

/-- The characters up to the closing quote, which is passed. Each round passes a byte. -/
def stringChars : Nat → List Char → Reader String
  | 0, _ => fail .endInString
  | rounds + 1, seen => do
    let c ← cursor
    match c.rest with
    | [] => fail .endInString
    | b :: rest =>
      if b = '"'.toUInt8 then
        advance
        pure (String.ofList seen.reverse)
      else if b = '\\'.toUInt8 then
        advance
        let char ← escapedChar
        stringChars rounds (char :: seen)
      else if b < 0x20 then failNext .controlCharacter
      else
        match Utf8.front b rest with
        | .char char rest' =>
          jump ⟨rest', ⟨c.position.line, c.position.column + char.utf8Size⟩⟩
          stringChars rounds (char :: seen)
        | .broken _ => failNext .invalidCodePoint

/-- A string whose opening quote has been passed. -/
def string : Reader String := do
  stringChars ((← cursor).rest.length + 1) []

/-! ### Structure -/

/-- Whether another element follows in a list; the comma in front of it is passed. -/
def moreElements (first : Bool) : Reader Bool := do
  match ← token with
  | none => failNext .endInList
  | some ']' => pure false
  | some c =>
    if first then pure true
    else if c = ',' then
      advance
      match ← token with
      | some ']' => failNext .trailingComma
      | some _ => pure true
      | none => failNext .endInValue
    else failNext .expectedListEnd

def nextKey? (first : Bool) : Reader (Option String) := do
  match ← token with
  | none => failNext .endInObject
  | some '\x7d' => pure none
  | some c =>
    if first then
      if c = '"' then advance; some <$> string else failNext .keyNotString
    else if c = ',' then
      advance
      match ← token with
      | some '"' => advance; some <$> string
      | some '\x7d' => failNext .trailingComma
      | some _ => failNext .keyNotString
      | none => failNext .endInValue
    else failNext .expectedObjectEnd

def colon : Reader Unit := do
  match ← token with
  | some ':' => advance
  | some _ => failNext .expectedColon
  | none => failNext .endInObject

def endList : Reader Unit := do
  match ← token with
  | some ']' => advance
  | some ',' =>
    advance
    match ← token with
    | some ']' => failNext .trailingComma
    | _ => failNext .trailingCharacters
  | some _ => failNext .trailingCharacters
  | none => failNext .endInList

def endObject : Reader Unit := do
  match ← token with
  | some '\x7d' => advance
  | some ',' => failNext .trailingComma
  | some _ => failNext .trailingCharacters
  | none => failNext .endInObject

def endText : Reader Unit := do
  match ← token with
  | some _ => failNext .trailingCharacters
  | none => pure ()

/-- Enters a bracket that has been seen: `room` counts the levels still allowed. -/
def enter (room : Nat) : Reader Nat := do
  match room with
  | 0 => failNext .tooDeep
  | inner + 1 =>
    advance
    pure inner

/-- Reads a bracket's contents and then its end. Both are tried; a fault of the contents comes
first, and it is located after the end if it has no position of its own. -/
def bracketed (contents : Reader α) (close : Reader Unit) : Reader α := do
  let got ← attempt contents
  let closed ← attempt close
  located do
    match got, closed with
    | .ok a, .ok () => pure a
    | .error f, _ => throw f
    | .ok _, .error f => throw f

/-- A scalar stands where something else is wanted: it is read, and refused; so is a bracket. -/
def wrongType (wanted : String) : Reader α :=
  located do
    match ← peek with
    | some 'n' => advance; word ['u', 'l', 'l']; refuse (.wrongType .null wanted)
    | some 't' => advance; word ['r', 'u', 'e']; refuse (.wrongType (.bool true) wanted)
    | some 'f' => advance; word ['a', 'l', 's', 'e']; refuse (.wrongType (.bool false) wanted)
    | some '-' => do
      advance
      let n ← number true
      refuse (.wrongType (.number n) wanted)
    | some '"' => do
      advance
      let s ← string
      refuse (.wrongType (.string s) wanted)
    | some '[' => refuse (.wrongType .array wanted)
    | some '\x7b' => refuse (.wrongType .object wanted)
    | some c =>
      if c.isDigit then do
        let n ← number false
        refuse (.wrongType (.number n) wanted)
      else failNext .expectedValue
    | none => failNext .expectedValue

/-- The elements of a list that has been entered. Each round passes a byte. -/
def elementRounds (element : Reader α) : Nat → Bool → Reader (List α)
  | 0, _ => fail .endInList
  | rounds + 1, first => do
    if ← moreElements first then
      let a ← element
      return a :: (← elementRounds element rounds false)
    else return []

def elements (element : Reader α) : Reader (List α) := do
  elementRounds element ((← cursor).rest.length + 1) true

/-- The members of an object that has been entered; of a repeated key the last value counts. -/
def memberRounds (value : Reader α) : Nat → Bool → Dictionary α → Reader (Dictionary α)
  | 0, _, _ => fail .endInObject
  | rounds + 1, first, seen => do
    match ← nextKey? first with
    | none => return seen
    | some key =>
      colon
      let a ← value
      memberRounds value rounds false (seen.insert key a)

def members (value : Reader α) : Reader (Dictionary α) := do
  memberRounds value ((← cursor).rest.length + 1) true []

end Reader

def depthLimit : Nat := 127

namespace Value

def read (room : Nat) : Reader Value := do
  match ← Reader.token with
  | none => Reader.failNext .endInValue
  | some 'n' => Reader.advance; Reader.word ['u', 'l', 'l']; pure .null
  | some 't' => Reader.advance; Reader.word ['r', 'u', 'e']; pure (.bool true)
  | some 'f' => Reader.advance; Reader.word ['a', 'l', 's', 'e']; pure (.bool false)
  | some '-' => Reader.advance; .number <$> Reader.number true
  | some '"' => Reader.advance; .string <$> Reader.string
  | some '[' =>
    match room with
    | 0 => Reader.failNext .tooDeep
    | inner + 1 =>
      Reader.advance
      Reader.bracketed (.array <$> Reader.elements (read inner)) Reader.endList
  | some '\x7b' =>
    match room with
    | 0 => Reader.failNext .tooDeep
    | inner + 1 =>
      Reader.advance
      Reader.bracketed (.object <$> Reader.members (read inner)) Reader.endObject
  | some c =>
    if c.isDigit then .number <$> Reader.number false else Reader.failNext .expectedValue

end Value
end CloudProvider.Json
