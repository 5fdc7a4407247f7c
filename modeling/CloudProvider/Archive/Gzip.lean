import CloudProvider.Archive.Crc32
import CloudProvider.Archive.Inflate
import CloudProvider.Exponent

/-! One member of a gzip file: a header with optional parts, a deflate stream, and the checksum and
the length of what it holds. What follows the member is not looked at. -/

namespace CloudProvider.Archive.Gzip

/-- Reads the header; a fault is blamed on what is wrong first. -/
abbrev HeaderReader := StateT Bytes (Except Fault)

def fault {α : Type} (f : Fault) : HeaderReader α :=
  throw f

def takeMany (n : Nat) : HeaderReader Bytes := fun bytes =>
  if n ≤ bytes.length then .ok (bytes.take n, bytes.drop n) else .error .endOfFile

def textLimit : Nat := 65535

def takeText : HeaderReader Bytes := fun bytes =>
  let text := bytes.takeWhile (· ≠ 0)
  if textLimit < text.length then .error .headerFieldTooLong
  else if text.length = bytes.length then .error .endOfFile
  else .ok (text, bytes.drop (text.length + 1))

def littleEndian (bytes : Bytes) : Nat :=
  bytes.foldr (fun b n => b.toNat + 256 * n) 0

/-- What every header begins with; the fourth byte holds the flags. -/
def takeFixed : HeaderReader Bytes := do
  let fixed ← takeMany 10
  if fixed.take 3 = [0x1F, 0x8B, 8] ∧ (fixed.getD 3 0).toNat < 32 then return fixed
  else fault .invalidGzipHeader

def takeExtra : HeaderReader Bytes := do
  let size ← takeMany 2
  return size ++ (← takeMany (littleEndian size))

def takeLine : HeaderReader Bytes := do
  return (← takeText) ++ [0]

def takeCheck (before : Bytes) : HeaderReader Bytes := do
  let given ← takeMany 2
  if littleEndian given = (crc32 before).toNat % 65536 then return given else fault .gzipMismatch

def unlessSet (flags bit : Nat) (part : HeaderReader Bytes) : HeaderReader Bytes :=
  if flags.testBit bit then part else return []

/-- Flags tell which parts are there: extra bytes, a name, a comment, a checksum of the header. -/
def header : HeaderReader Unit := do
  let fixed ← takeFixed
  let flags := (fixed.getD 3 0).toNat
  let extra ← unlessSet flags 2 takeExtra
  let name ← unlessSet flags 3 takeLine
  let comment ← unlessSet flags 4 takeLine
  let _ ← unlessSet flags 1 (takeCheck (fixed ++ extra ++ name ++ comment))
  return

def checkTrailer (output : Bytes) (rest : Source) : Option Fault :=
  if rest.bytes.length < 8 then some (rest.exhausted .endOfFile)
  else if littleEndian (rest.bytes.take 4) ≠ (crc32 output).toNat then some .gzipMismatch
  else if littleEndian ((rest.bytes.drop 4).take 4) ≠ output.length % 2 ^ 32 then
    some .gzipMismatch
  else none

def unpack (s : Source) : Source :=
  match header s.bytes with
  | .error .endOfFile => .broken (s.exhausted .endOfFile)
  | .error f => .broken f
  | .ok ((), body) =>
    let inflated := inflate (s.bytes.length - body.length) body
    let ending :=
      match inflated.remainder with
      | .error .cut => some (s.exhausted .incompleteDeflate)
      | .error .corrupt => some .corruptDeflate
      | .ok rest => checkTrailer inflated.output ⟨rest, s.ending⟩
    ⟨inflated.output, ending⟩

end CloudProvider.Archive.Gzip
