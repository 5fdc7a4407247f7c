import CloudProvider.Archive.Huffman
import CloudProvider.Archive.Source

/-! Decompressing a deflate stream. The stream is read bit by bit; what it says is appended to the
output, bytes or copies of what the output holds already. Before the first byte the output counts as
filled with zeros.

A reader of the output gets it in portions. A stream that turns out corrupt gives nothing of the
portion at hand: portions end where the output or the input passes a multiple of the window. -/

namespace CloudProvider.Archive

namespace Inflate

def windowSize : Nat := 32768

inductive Stop
  /-- The input ends too early. -/
  | cut
  | corrupt
deriving DecidableEq

structure State where
  /-- What is left of the byte at hand, the lowest bit first. -/
  pending : List Bool
  rest : Bytes
  /-- How many bytes of the input have been taken. -/
  taken : Nat
  output : Array UInt8
  /-- The length of the output in full portions. -/
  settled : Nat

abbrev Inflater := ExceptT Stop (StateM State)

def stop {α : Type} (s : Stop) : Inflater α :=
  throw s

def bitsOf (b : UInt8) : List Bool :=
  (List.range 8).map fun i => b.toNat.testBit i

def takeByte : Inflater UInt8 := do
  let s ← get
  match s.rest with
  | [] => stop .cut
  | b :: rest =>
    let settled := if s.taken % windowSize = 0 then s.output.size else s.settled
    set { s with rest, taken := s.taken + 1, settled }
    return b

def takeBit : Inflater Bool := do
  let s ← get
  match s.pending with
  | bit :: pending =>
    set { s with pending }
    return bit
  | [] =>
    let b ← takeByte
    modify fun s => { s with pending := (bitsOf b).tail }
    return b.toNat.testBit 0

def takeBits : Nat → Inflater Nat
  | 0 => return 0
  | n + 1 => do
    let bit ← takeBit
    return bit.toNat + 2 * (← takeBits n)

/-- What is left of the byte at hand is passed over. -/
def align : Inflater Unit :=
  modify fun s => { s with pending := [] }

def put (b : UInt8) : Inflater Unit :=
  modify fun s =>
    let output := s.output.push b
    { s with output, settled := if output.size % windowSize = 0 then output.size else s.settled }

/-- Appends bytes from `distance` before the end, one after the other. -/
def copy (distance : Nat) : Nat → Inflater Unit
  | 0 => return
  | n + 1 => do
    let output := (← get).output
    put (if distance ≤ output.size then output.getD (output.size - distance) 0 else 0)
    copy distance n

def takeSymbol (h : Huffman) : Inflater Nat :=
  go (Huffman.maxLength + 1) 0 0 h.levels
where
  go : Nat → Nat → Nat → List (List Nat) → Inflater Nat
    | 0, _, _, _ => stop .corrupt
    | fuel + 1, code, first, levels => do
      match levels with
      | [] => stop .corrupt
      | _ =>
        match Huffman.walk (← takeBit) code first levels with
        | .symbol n => return n
        | .deeper code first levels => go fuel code first levels
        | .astray => stop .corrupt

/-- Least value and number of further bits, for each symbol from 257 on. -/
def lengthTable : List (Nat × Nat) :=
  [(3, 0), (4, 0), (5, 0), (6, 0), (7, 0), (8, 0), (9, 0), (10, 0), (11, 1), (13, 1), (15, 1),
    (17, 1), (19, 2), (23, 2), (27, 2), (31, 2), (35, 3), (43, 3), (51, 3), (59, 3), (67, 4),
    (83, 4), (99, 4), (115, 4), (131, 5), (163, 5), (195, 5), (227, 5), (258, 0)]

def distanceTable : List (Nat × Nat) :=
  [(1, 0), (2, 0), (3, 0), (4, 0), (5, 1), (7, 1), (9, 2), (13, 2), (17, 3), (25, 3), (33, 4),
    (49, 4), (65, 5), (97, 5), (129, 6), (193, 6), (257, 7), (385, 7), (513, 8), (769, 8),
    (1025, 9), (1537, 9), (2049, 10), (3073, 10), (4097, 11), (6145, 11), (8193, 12), (12289, 12),
    (16385, 13), (24577, 13)]

def takeFrom (table : List (Nat × Nat)) (symbol : Nat) : Inflater Nat := do
  match table[symbol]? with
  | none => stop .corrupt
  | some (least, further) => return least + (← takeBits further)

structure Codes where
  literals : Huffman
  distances : Huffman

def fixedCodes : Codes where
  literals := .ofLengths
    (List.replicate 144 8 ++ List.replicate 112 9 ++ List.replicate 24 7 ++ List.replicate 8 8)
  distances := .ofLengths (List.replicate 32 5)

/-- Each round takes a bit at least. -/
def symbols (codes : Codes) : Nat → Inflater Unit
  | 0 => stop .corrupt
  | rounds + 1 => do
    let symbol ← takeSymbol codes.literals
    if symbol < 256 then
      put (UInt8.ofNat symbol)
      symbols codes rounds
    else if symbol = 256 then return
    else
      let length ← takeFrom lengthTable (symbol - 257)
      let distance ← takeFrom distanceTable (← takeSymbol codes.distances)
      copy distance length
      symbols codes rounds

def storedBytes : Nat → Inflater Unit
  | 0 => return
  | n + 1 => do
    put (← takeByte)
    storedBytes n

def takeWord : Inflater Nat := do
  let low ← takeByte
  return low.toNat + 256 * (← takeByte).toNat

def storedBlock : Inflater Unit := do
  align
  let length ← takeWord
  if length + (← takeWord) = 65535 then storedBytes length else stop .corrupt

def lengthOrder : List Nat :=
  [16, 17, 18, 0, 8, 7, 9, 6, 10, 5, 11, 4, 12, 3, 13, 2, 14, 1, 15]

def takeMany (width : Nat) : Nat → Inflater (List Nat)
  | 0 => return []
  | n + 1 => do
    let first ← takeBits width
    return first :: (← takeMany width n)

/-- Code lengths that a symbol stands for: one, or a repetition. The latest of those before comes first
in `got`. -/
def takeRun (h : Huffman) (got : List Nat) : Inflater (List Nat) := do
  let symbol ← takeSymbol h
  if symbol < 16 then return [symbol]
  else if symbol = 16 then
    match got with
    | [] => stop .corrupt
    | latest :: _ => return List.replicate (3 + (← takeBits 2)) latest
  else if symbol = 17 then return List.replicate (3 + (← takeBits 3)) 0
  else return List.replicate (11 + (← takeBits 7)) 0

/-- Each round gives one code length at least. -/
def takeLengths (h : Huffman) (wanted : Nat) : Nat → List Nat → Inflater (List Nat)
  | 0, _ => stop .corrupt
  | rounds + 1, got => do
    if wanted ≤ got.length then
      if got.length = wanted then return got.reverse else stop .corrupt
    else takeLengths h wanted rounds ((← takeRun h got) ++ got)

def usable (h : Huffman) : Inflater Huffman :=
  if h.isUsable then return h else stop .corrupt

/-- The code of lengths, if its own lengths are given in that order; those that are not given are zero. -/
def arrange (widths : List Nat) : List Nat :=
  (List.range 19).map fun symbol => ((lengthOrder.zip widths).lookup symbol).getD 0

def takeCodes : Inflater Codes := do
  let literals := 257 + (← takeBits 5)
  let distances := 1 + (← takeBits 5)
  let given := 4 + (← takeBits 4)
  if 286 < literals ∨ 30 < distances then stop .corrupt
  else
    let h ← usable (.ofLengths (arrange (← takeMany 3 given)))
    let lengths ← takeLengths h (literals + distances) (literals + distances + 1) []
    return ⟨← usable (.ofLengths (lengths.take literals)),
      ← usable (.ofLengths (lengths.drop literals))⟩

def block (rounds : Nat) : Inflater Unit := do
  match ← takeBits 2 with
  | 0 => storedBlock
  | 1 => symbols fixedCodes rounds
  | 2 => symbols (← takeCodes) rounds
  | _ => stop .corrupt

/-- Each round takes a bit at least. -/
def blocks (rounds : Nat) : Nat → Inflater Unit
  | 0 => stop .corrupt
  | n + 1 => do
    let final ← takeBit
    block rounds
    if final then return else blocks rounds n

end Inflate

/-- What has come of a stream, and what follows it in the input, or why it did not come to an end. -/
structure Inflated where
  output : Bytes
  remainder : Except Inflate.Stop Bytes

/-- The input begins `taken` bytes after the start of what is read. -/
def inflate (taken : Nat) (input : Bytes) : Inflated :=
  let rounds := 8 * input.length + 1
  let start : Inflate.State :=
    { pending := [], rest := input, taken, output := #[], settled := 0 }
  match (Inflate.blocks rounds rounds).run start with
  | (.ok (), s) => ⟨s.output.toList, .ok s.rest⟩
  | (.error .cut, s) => ⟨s.output.toList, .error .cut⟩
  | (.error .corrupt, s) => ⟨(s.output.extract 0 s.settled).toList, .error .corrupt⟩

end CloudProvider.Archive
