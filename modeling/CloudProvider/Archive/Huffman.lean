import CloudProvider.Exponent

/-! Canonical prefix codes. A code is given by the length of each symbol's word; words of one length
follow each other in the order of the symbols, and shorter words come before longer ones. -/

namespace CloudProvider.Archive

/-- For each length from one on, the symbols with a word of that length, in order. -/
structure Huffman where
  levels : List (List Nat)
deriving DecidableEq, Repr

namespace Huffman

def maxLength : Nat := 15

/-- A length of zero means that the symbol has no word. -/
def ofLengths (lengths : List Nat) : Huffman :=
  ⟨(List.range maxLength).map fun n => (lengths.zipIdx.filter (·.1 = n + 1)).map (·.2)⟩

/-- The room that is left over when each word has taken its share, in words of the greatest length;
nothing if there are more words than there is room for. -/
def room? (h : Huffman) : Option Nat :=
  go 1 h.levels
where
  go (room : Nat) : List (List Nat) → Option Nat
    | [] => some room
    | symbols :: deeper =>
      if 2 * room < symbols.length then none else go (2 * room - symbols.length) deeper

def size (h : Huffman) : Nat :=
  h.levels.flatten.length

/-- Every sequence of bits begins with a word, or there is one word at most. -/
def isUsable (h : Huffman) : Bool :=
  h.room? = some 0 || h.size ≤ 1

/-- One more bit of a word: `code` is the word so far, `first` the first word of its length. -/
inductive Walk
  | symbol (n : Nat)
  | deeper (code first : Nat) (levels : List (List Nat))
  | astray

def walk (bit : Bool) (code first : Nat) : List (List Nat) → Walk
  | [] => .astray
  | symbols :: deeper =>
    let code := 2 * code + bit.toNat
    let first := 2 * first
    match symbols[code - first]? with
    | some n => .symbol n
    | none => .deeper code (first + symbols.length) deeper

end Huffman
end CloudProvider.Archive
