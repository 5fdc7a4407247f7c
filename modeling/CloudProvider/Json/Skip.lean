import CloudProvider.Json.Reader

/-! Passing over a value that nobody wants. Its brackets, commas and words are checked, but a number
may be of any size, a string may hold bytes that form no character, and brackets may be nested
without limit. -/

namespace CloudProvider.Json

inductive Bracket
  | list
  | object
deriving DecidableEq

namespace Bracket

def close : Bracket → Char
  | .list => ']'
  | .object => '\x7d'

def cutShort : Bracket → Cause
  | .list => .endInList
  | .object => .endInObject

def unclosed : Bracket → Cause
  | .list => .expectedListEnd
  | .object => .expectedObjectEnd

end Bracket

namespace Reader

def skipDigits : Reader Unit := do
  discard digits

/-- The next byte, which is passed even if it is refused. -/
def skipDigit : Reader Char := do
  match ← peek with
  | none => fail .invalidNumber
  | some c =>
    advance
    if c.isDigit then pure c else fail .invalidNumber

def skipExponent : Reader Unit := do
  advance
  match ← peek with
  | some '+' | some '-' => advance
  | _ => pure ()
  discard skipDigit
  skipDigits

def skipFraction : Reader Unit := do
  advance
  if (← digits).isEmpty then failNext .invalidNumber
  match ← peek with
  | some 'e' | some 'E' => skipExponent
  | _ => pure ()

def skipNumber : Reader Unit := do
  if (← skipDigit) = '0' then
    match ← peek with
    | some c => if c.isDigit then failNext .invalidNumber
    | none => pure ()
  else skipDigits
  match ← peek with
  | some '.' => skipFraction
  | some 'e' | some 'E' => skipExponent
  | _ => pure ()

def skipEscape : Reader Unit := do
  match ← peek with
  | none => fail .endInString
  | some 'u' =>
    advance
    discard hexEscape
  | some c =>
    advance
    if c ∉ ['"', '\\', '/', 'b', 'f', 'n', 'r', 't'] then fail .invalidEscape

def skipStringRounds : Nat → Reader Unit
  | 0 => fail .endInString
  | rounds + 1 => do
    match ← peek with
    | none => fail .endInString
    | some '"' => advance
    | some '\\' =>
      advance
      skipEscape
      skipStringRounds rounds
    | some c =>
      if c < ' ' then fail .controlCharacter
      else
        advance
        skipStringRounds rounds

def skipString : Reader Unit := do
  skipStringRounds ((← cursor).rest.length + 1)

def skipKey : Reader Unit := do
  match ← token with
  | some '"' => advance
  | some _ => failNext .keyNotString
  | none => failNext .endInObject
  skipString
  colon

inductive Standing
  | before
  | opened
  | after

def skipScalar (first : Char) : Reader Unit := do
  match first with
  | 'n' => advance; word ['u', 'l', 'l']
  | 't' => advance; word ['r', 'u', 'e']
  | 'f' => advance; word ['a', 'l', 's', 'e']
  | '-' => advance; skipNumber
  | '"' => advance; skipString
  | c => if c.isDigit then skipNumber else failNext .expectedValue

/-- The innermost bracket comes first. Of two rounds at least one passes a byte. -/
def skipRounds : Nat → Standing → List Bracket → Reader Unit
  | 0, _, _ => fail .endInValue
  | rounds + 1, .before, outer => do
    match ← token with
    | none => failNext .endInValue
    | some '[' => advance; skipRounds rounds .opened (.list :: outer)
    | some '\x7b' => advance; skipRounds rounds .opened (.object :: outer)
    | some c => skipScalar c; skipRounds rounds .after outer
  | _ + 1, _, [] => pure ()
  | rounds + 1, standing, bracket :: outer => do
    let c ←
      match ← token with
      | none => failNext bracket.cutShort
      | some c => pure c
    if c = bracket.close then
      advance
      skipRounds rounds .after outer
    else
      match standing with
      | .after => if c = ',' then advance else failNext bracket.unclosed
      | _ => pure ()
      match bracket with
      | .list => pure ()
      | .object => skipKey
      skipRounds rounds .before (bracket :: outer)

def skip : Reader Unit := do
  skipRounds (2 * (← cursor).rest.length + 2) .before []

end Reader
end CloudProvider.Json
