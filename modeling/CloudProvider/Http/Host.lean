import CloudProvider.Exponent
import CloudProvider.Text.Casing
import CloudProvider.Text.Lowercase
import CloudProvider.Text.Percent
import CloudProvider.Text.Punycode

/-! Hosts as they stand in addresses: names, and numeric addresses of four and of sixteen bytes. One
host can be written in many ways and has one text.

Names of other scripts are treated more simply than IDNA demands: letters are folded and the label is
encoded, but nothing is composed, no character is turned down for being disallowed, and a label that is
encoded already is taken as it is. -/

namespace CloudProvider.Http

open Text (Percent.hexValue?)

inductive Host
  | name (text : String)
  | ipv4 (address : Nat)
  /-- Eight numbers of 16 bits. -/
  | ipv6 (pieces : List Nat)
deriving DecidableEq

namespace Host

/-- Digits of a base that a prefix tells: 0x for sixteen and 0 for eight. -/
def number? (s : List Char) : Option Nat :=
  match s with
  | [] => none
  | '0' :: 'x' :: rest | '0' :: 'X' :: rest => inBase 16 rest
  | '0' :: c :: rest => inBase 8 (c :: rest)
  | digits => inBase 10 digits
where
  inBase (base : Nat) (digits : List Char) : Option Nat :=
    digits.foldlM (fun n c => do
      let d ← Percent.hexValue? c
      if d < base then some (n * base + d) else none) 0

def labels (s : List Char) : List (List Char) :=
  s.splitOn '.'

/-- Without the empty label behind a last point. -/
def trimmed (ls : List (List Char)) : List (List Char) :=
  if ls.getLast? = some [] ∧ 1 < ls.length then ls.dropLast else ls

/-- A name whose last label is a number can only be an address. -/
def endsInNumber (s : List Char) : Bool :=
  match (trimmed (labels s)).getLast? with
  | some last => (!last.isEmpty && last.all Char.isDigit) || (number? last).isSome
  | none => false

/-- Up to four numbers. The last one fills the bytes that the others leave. -/
def parseIpv4 (s : List Char) : Option Host := do
  let numbers ← (trimmed (labels s)).mapM number?
  let front := numbers.dropLast
  let last ← numbers.getLast?
  if 3 < front.length ∨ front.any (255 < ·) then none
  else if 256 ^ (4 - front.length) ≤ last then none
  else
    let placed := front.mapIdx fun i n => n * 256 ^ (3 - i)
    some (.ipv4 (placed.foldl (· + ·) last))

def byte? (s : List Char) : Option Nat :=
  if s.isEmpty ∨ 3 < s.length ∨ (s.head? = some '0' ∧ 1 < s.length) then none
  else if s.all Char.isDigit then (number? s).filter (· < 256)
  else none

/-- Groups of up to four digits. Four bytes with points may stand for the last two. -/
def groups? : List (List Char) → Option (List Nat)
  | [] => some []
  | [last] =>
    if last.contains '.' then do
      let [a, b, c, d] ← (last.splitOn '.').mapM byte? | none
      some [a * 256 + b, c * 256 + d]
    else do some [← group? last]
  | g :: rest => do some ((← group? g) :: (← groups? rest))
where
  group? (s : List Char) : Option Nat :=
    if s.isEmpty ∨ 4 < s.length then none else number?.inBase 16 s

def side? (s : List Char) : Option (List Nat) :=
  if s.isEmpty then some [] else groups? (s.splitOn ':')

def splitGap : List Char → List Char × Option (List Char)
  | ':' :: ':' :: rest => ([], some rest)
  | c :: rest =>
    let (left, right) := splitGap rest
    (c :: left, right)
  | [] => ([], none)

/-- Two colons stand for as many zeros as are missing, of which there is at least one. -/
def parseIpv6 (s : List Char) : Option Host := do
  match splitGap s with
  | (whole, none) =>
    let pieces ← side? whole
    if pieces.length = 8 then some (.ipv6 pieces) else none
  | (left, some right) =>
    if left.contains '.' then none
    else
      let left ← side? left
      let right ← side? right
      let given := left.length + right.length
      if 7 < given then none
      else some (.ipv6 (left ++ List.replicate (8 - given) 0 ++ right))

def isForbidden (c : Char) : Bool :=
  c ≤ ' ' || c = '\x7f' || "#/:<>?@[\\]^|".toList.contains c

/-- Letters in lower case, full-width forms as narrow ones, and every full stop as a point. What is
never seen is left out. -/
def fold (c : Char) : List Char :=
  let n := c.toNat
  if n = 0x3002 ∨ n = 0xFF61 then ['.']
  else if 0xFF01 ≤ n ∧ n ≤ 0xFF5E then [Text.lowerChar (Char.ofNat (n - 0xFEE0))]
  else if n = 0xAD ∨ n = 0x200B ∨ n = 0x2060 ∨ n = 0xFEFF then []
  else [Text.lowerChar c]

def asciiLabel (label : List Char) : List Char :=
  if label.all (·.toNat < 128) then label
  else ['x', 'n', '-', '-'] ++ Text.Punycode.encode label

def parseName (s : List Char) : Option Host := do
  let decoded ← Text.Utf8.decode? (Text.Percent.decode s)
  let folded := decoded.toList.flatMap fold
  let ascii := ['.'].intercalate ((labels folded).map asciiLabel)
  if ascii.isEmpty ∨ ascii.any fun c => isForbidden c || c = '%' then none
  else if endsInNumber ascii then parseIpv4 ascii
  else some (.name (String.ofList ascii))

/-- The host of an address whose scheme is known. -/
def parse (s : List Char) : Option Host :=
  match s with
  | '[' :: inside => if inside.getLast? = some ']' then parseIpv6 inside.dropLast else none
  | _ => parseName s

/-- The host of any other address. It may be empty, and letters keep their case. -/
def parseOpen (s : List Char) : Option Host :=
  if s.head? = some '[' then parse s
  else if s.any isForbidden then none
  else some (.name (Text.Percent.encode (fun c => c < ' ' || c = '\x7f') s))

def hexText (n : Nat) : String :=
  String.ofList (Nat.toDigits 16 n)

/-- Where the longest run of zeros begins, and its length. Of equal ones the first counts. -/
def longestZeros (pieces : List Nat) : Nat × Nat :=
  (List.range pieces.length).foldl (fun best start =>
    let length := ((pieces.drop start).takeWhile (· = 0)).length
    if best.2 < length then (start, length) else best) (0, 0)

def ipv6Text (pieces : List Nat) : String :=
  let part (ps : List Nat) := ":".intercalate (ps.map hexText)
  let (start, length) := longestZeros pieces
  if length < 2 then part pieces
  else part (pieces.take start) ++ "::" ++ part (pieces.drop (start + length))

def text : Host → String
  | .name text => text
  | .ipv4 a =>
    s!"{a / 2 ^ 24 % 256}.{a / 2 ^ 16 % 256}.{a / 2 ^ 8 % 256}.{a % 256}"
  | .ipv6 pieces => "[" ++ ipv6Text pieces ++ "]"

end Host
end CloudProvider.Http
