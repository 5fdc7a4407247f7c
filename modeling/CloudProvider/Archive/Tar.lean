import CloudProvider.Archive.Source
import CloudProvider.Exponent
import CloudProvider.Text.Blank

/-! Tape archives: a header block for each entry, then its contents, filled up to whole blocks. Some
entries only describe the one that follows them; a block of zeros ends the archive. -/

namespace CloudProvider.Archive.Tar

def blockSize : Nat := 512

def upToZero (bytes : Bytes) : Bytes :=
  bytes.takeWhile (· ≠ 0)

def octalDigits? (n : Nat) : List Char → Option Nat
  | [] => some n
  | c :: rest =>
    if '0' ≤ c ∧ c ≤ '7' ∧ n * 8 < 2 ^ 64 then octalDigits? (n * 8 + (c.toNat - 48)) rest else none

def trimBlank (cs : List Char) : List Char :=
  ((cs.dropWhile Text.isBlank).reverse.dropWhile Text.isBlank).reverse

def octal? (text : String) : Option Nat :=
  match trimBlank text.toList with
  | [] => none
  | ['+'] => none
  | '+' :: digits => octalDigits? 0 digits
  | digits => octalDigits? 0 digits

def number (f : NumberField) (bytes : Bytes) : Except Fault Nat :=
  let text := upToZero bytes
  match Text.Utf8.decode? text with
  | none => .error (.numberNotText (Text.Utf8.lossy text) f)
  | some s =>
    match octal? s with
    | some n => .ok n
    | none => .error (.notANumber s f)

/-- A block of 512 bytes, whose parts are fields. -/
structure Header where
  block : Bytes

namespace Header

def field (h : Header) (start length : Nat) : Bytes :=
  (h.block.drop start).take length

def kind (h : Header) : Char :=
  Char.ofUInt8 (h.block.getD 156 0)

def mark (h : Header) : Bytes := h.field 257 8

def isUstar (h : Header) : Bool :=
  h.mark = Text.Utf8.encode "ustar\x0000"

def isGnu (h : Header) : Bool :=
  h.mark = Text.Utf8.encode "ustar  \x00"

def path (h : Header) : Bytes :=
  let name := upToZero (h.field 0 100)
  let leading := if h.isUstar then upToZero (h.field 345 155) else []
  if leading.isEmpty then name else leading ++ 47 :: name

/-- The low 64 bits of a number in base 256. -/
def binary (bytes : Bytes) : Nat :=
  bytes.foldl (fun n b => (n * 256 + b.toNat) % 2 ^ 64) 0

/-- In octal digits. A size may be binary, which its highest bit shows. -/
def size (h : Header) : Except Fault Nat :=
  let bytes := h.field 124 12
  if 0x80 ≤ bytes.headD 0 then .ok (binary (bytes.drop 4))
  else number (.size (Text.Utf8.lossy h.path)) bytes

/-- Of a file with holes: how long it is together with them. -/
def fullSize (h : Header) : Except Fault Nat :=
  let group := Text.Utf8.lossy (upToZero (h.field 297 32))
  let user := Text.Utf8.lossy (upToZero (h.field 265 32))
  number (.fullSize (group ++ ":" ++ user)) (h.field 483 12)

/-- The sum of all bytes, where those of the sum itself count as blanks. -/
def sum (h : Header) : Nat :=
  (h.field 0 148 ++ h.field 156 356).foldl (fun n b => n + b.toNat) (8 * 32)

def check (h : Header) : Except Fault Unit := do
  let given ← number (.checksum (Text.Utf8.lossy h.path)) (h.field 148 8)
  if h.sum = given % 2 ^ 32 then return else throw .headerChecksum

end Header

structure Entry where
  header : Header
  /-- As they are packed: if the file has holes, without these. -/
  contents : Source
  /-- What earlier entries say of this one. -/
  longPath : Option Bytes
  extensions : Option Bytes

namespace Entry

def lines (bytes : Bytes) : List Bytes :=
  bytes.splitOn 10

def decimal? (bytes : Bytes) : Option Nat := do
  let digits :=
    match (← Text.Utf8.decode? bytes).toList with
    | '+' :: digits => digits
    | digits => digits
  if digits.isEmpty || !digits.all Char.isDigit then none
  else some (digits.foldl (fun n c => n * 10 + (c.toNat - 48)) 0)

/-- Length, key and value of a line; the length counts the line itself. -/
def keyword? (line : Bytes) : Option (Bytes × Bytes) := do
  let length := line.takeWhile (· ≠ 32)
  if length.length = line.length then none
  else
    let body := line.drop (length.length + 1)
    let key := body.takeWhile (· ≠ 61)
    if (← decimal? length) ≠ line.length + 1 || key.length = body.length then none
    else some (key, body.drop (key.length + 1))

def keywords (extensions : Bytes) : List (Option (Bytes × Bytes)) :=
  ((lines extensions).takeWhile (!·.isEmpty)).map keyword?

def withoutFinalZero (bytes : Bytes) : Bytes :=
  if bytes.getLast? = some 0 then bytes.dropLast else bytes

/-- A long name counts more than an extension, and that more than the header. -/
def path (e : Entry) : Bytes :=
  match e.longPath with
  | some bytes => withoutFinalZero bytes
  | none =>
    let said := (e.extensions.getD []) |> keywords |>.filterMap id |>.find? fun (key, _) =>
      key = Text.Utf8.encode "path"
    match said with
    | some (_, value) => value
    | none => e.header.path

def isFile (e : Entry) : Bool :=
  e.header.kind = '0' || e.header.kind = '\x00'

/-- The size that extensions give to an entry whose header gives none. -/
def extendedSize? (extensions : Bytes) : Option Nat :=
  go (keywords extensions)
where
  go : List (Option (Bytes × Bytes)) → Option Nat
    | [] => none
    | none :: _ => none
    | some (key, value) :: rest =>
      if key = Text.Utf8.encode "size" then (decimal? value).filter (· < 2 ^ 64) else go rest

def sizeWith (h : Header) (extensions : Option Bytes) : Except Fault Nat := do
  let size ← h.size
  if size = 0 then return (extensions.bind extendedSize?).getD 0 else return size

end Entry

/-- The header at the front, if the archive does not end there. -/
def header? (s : Source) : Except Fault (Option Header) := do
  let block := s.bytes.take blockSize
  if block.length < blockSize then
    match s.ending with
    | some fault => throw fault
    | none => if block.isEmpty then return none else throw .partialBlock
  else if block.all (· = 0) then return none
  else return some ⟨block⟩

def skip (s : Source) (n : Nat) : Except Fault Source :=
  if n ≤ s.bytes.length then .ok (s.drop n) else .error (s.exhausted .endInSkip)

def padded (size : Nat) : Nat :=
  (size + (blockSize - 1)) / blockSize * blockSize

/-- What is known of a file with holes from the stretches of data between them: where the last one ends,
and how much of the packed data belongs to none so far. -/
structure Stretches where
  reached : Nat
  left : Nat

namespace Stretches

/-- A stretch says where it starts and how long it is. Its data fill up whole blocks if another one
follows. -/
def add (size : Nat) (m : Stretches) (stretch : Bytes) : Except Fault Stretches := do
  let start := stretch.take 12
  let length := stretch.drop 12
  if start.headD 0 = 0 || length.headD 0 = 0 then return m
  else
    let start ← number .stretchStart start
    let length ← number .stretchLength length
    if length ≠ 0 && (size - m.left) % blockSize ≠ 0 then throw .stretchUnaligned
    else if start < m.reached then throw .stretchTooEarly
    else if 2 ^ 64 ≤ start + length then throw .stretchTooFar
    else if m.left < length then throw .stretchTooLong
    else return ⟨start + length, m.left - length⟩

def addAll (size start count : Nat) (block : Bytes) (m : Stretches) : Except Fault Stretches :=
  (List.range count).foldlM (fun m i => m.add size ((block.drop (start + 24 * i)).take 24)) m

/-- The list may go on in further blocks, each of which says whether another one follows. -/
def goOn (size : Nat) (s : Source) : Nat → Bool → Stretches → Except Fault (Stretches × Source)
  | 0, _, m => .ok (m, s)
  | _ + 1, false, m => .ok (m, s)
  | rounds + 1, true, m => do
    let block := s.bytes.take blockSize
    if block.length < blockSize then
      match s.ending with
      | some fault => throw fault
      | none => throw (if block.isEmpty then .partialExtension else .partialBlock)
    else
      let m ← m.addAll size 0 21 block
      goOn size (s.drop blockSize) rounds (block.getD 504 0 = 1) m

end Stretches

/-- Goes past the list of stretches in a file with holes. The stretches have to end where the file does,
and to use up the packed data. -/
def passStretches (size : Nat) (h : Header) (s : Source) : Except Fault Source := do
  let listed ← Stretches.addAll size 386 4 h.block ⟨0, size⟩
  let (listed, behind) ← listed.goOn size s (s.bytes.length + 1) (h.block.getD 482 0 = 1)
  if listed.reached ≠ (← h.fullSize) then throw .fullSizeMismatch
  else if 0 < listed.left then throw .packedSizeMismatch
  else return behind

/-- What has been said so far of the entry to come. -/
structure Described where
  longPath : Option Bytes
  longLink : Bool
  extensions : Option Bytes

def Described.nothing : Described := ⟨none, false, none⟩

def Described.isNothing (d : Described) : Bool :=
  d.longPath.isNone && !d.longLink && d.extensions.isNone

inductive Next
  | ended
  /-- Something is said of the entry to come. -/
  | saying (said : Described) (rest : Source)
  /-- What is behind an entry is of interest only to those who go on. -/
  | entry (e : Entry) (rest : Except Fault Source)

/-- What is said of the entry to come if the header belongs to no entry of its own. -/
def describe (said : Described) (h : Header) (contents : Source) : Except Fault (Option Described) := do
  let known := h.isGnu || h.isUstar
  if known && h.kind = 'L' then
    if said.longPath.isSome then throw .secondLongName
    else
      let name ← contents.contents
      return some { said with longPath := some name }
  else if known && h.kind = 'K' then
    if said.longLink then throw .secondLongName
    else
      let _ ← contents.contents
      return some { said with longLink := true }
  else if known && h.kind = 'x' then
    if said.extensions.isSome then throw .secondExtension
    else
      let extensions ← contents.contents
      return some { said with extensions := some extensions }
  else return none

/-- Looks at the next header, in an archive that has `total` bytes before it ends or breaks off. The place
behind an entry must be a number of 64 bits. -/
def next (total : Nat) (said : Described) (s : Source) : Except Fault Next := do
  match ← header? s with
  | none => if said.isNothing then return .ended else throw .nothingDescribed
  | some h =>
    h.check
    let size ← Entry.sizeWith h said.extensions
    let body := s.drop blockSize
    if 2 ^ 64 ≤ total - body.bytes.length + padded size then throw .sizeOverflow
    else
      match ← describe said h (body.take size) with
      | some said => return .saying said (← skip body (padded size))
      | none =>
        if h.kind ≠ 'S' then
          return .entry ⟨h, body.take size, said.longPath, said.extensions⟩ (skip body (padded size))
        else if !h.isGnu then throw .sparseHeader
        else
          let behind ← passStretches size h body
          return .entry ⟨h, behind.take size, said.longPath, said.extensions⟩ (skip behind (padded size))

/-- Goes through the entries, in order, up to the first for which `f` has an answer. Every round
passes a block. -/
def findRounds {α : Type} (f : Entry → Option α) (total : Nat) :
    Nat → Described → Source → Except Fault (Option α)
  | 0, _, _ => return none
  | rounds + 1, said, s => do
    match ← next total said s with
    | .ended => return none
    | .saying said rest => findRounds f total rounds said rest
    | .entry e rest =>
      match f e with
      | some a => return some a
      | none => findRounds f total rounds .nothing (← rest)

/-- The first answer that `f` has for an entry. What comes after that entry is not looked at. -/
def find {α : Type} (f : Entry → Option α) (s : Source) : Except Fault (Option α) :=
  findRounds f s.bytes.length (s.bytes.length + 1) .nothing s

end CloudProvider.Archive.Tar
