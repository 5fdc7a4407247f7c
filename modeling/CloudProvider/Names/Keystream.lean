import CloudProvider.Exponent

/-! A stream of random words: a block cipher on sixteen words, in twelve rounds, run over a counter.
The key is drawn from a seed of one word by a small generator of its own. -/

namespace CloudProvider.Names

abbrev Block := Vector UInt32 16

structure Key where
  words : Vector UInt32 8
deriving DecidableEq

private def rotateLeft (w : UInt32) (n : UInt32) : UInt32 :=
  (w <<< n) ||| (w >>> (32 - n))

private def quarterRound (b : Block) (i j k l : Fin 16) : Block :=
  let mix (b : Block) (x y z : Fin 16) (n : UInt32) : Block :=
    let sum := b[x] + b[y]
    (b.set x sum).set z (rotateLeft (b[z] ^^^ sum) n)
  mix (mix (mix (mix b i j l 16) k l j 12) i j l 8) k l j 7

/-- Four rounds on columns, and four on diagonals. -/
private def doubleRound (b : Block) : Block :=
  let b := quarterRound b 0 4 8 12
  let b := quarterRound b 1 5 9 13
  let b := quarterRound b 2 6 10 14
  let b := quarterRound b 3 7 11 15
  let b := quarterRound b 0 5 10 15
  let b := quarterRound b 1 6 11 12
  let b := quarterRound b 2 7 8 13
  quarterRound b 3 4 9 14

private def doubleRounds : Nat → Block → Block
  | 0, b => b
  | n + 1, b => doubleRounds n (doubleRound b)

def Key.block (key : Key) (n : Nat) : Block :=
  let start : Block :=
    #v[0x61707865, 0x3320646e, 0x79622d32, 0x6b206574,
      key.words[0], key.words[1], key.words[2], key.words[3],
      key.words[4], key.words[5], key.words[6], key.words[7],
      UInt32.ofNat (n % 2 ^ 32), UInt32.ofNat (n / 2 ^ 32), 0, 0]
  start.zipWith (· + ·) (doubleRounds 6 start)

def Key.word (key : Key) (n : Nat) : UInt32 :=
  (key.block (n / 16))[n % 16]

private def advanceSeed (state : UInt64) : UInt64 :=
  state * 6364136223846793005 + 11634580027462260723

/-- The word that a state stands for: some of its bits, rotated by others. -/
private def seedWord (state : UInt64) : UInt32 :=
  let folded := (((state >>> 18) ^^^ state) >>> 27).toUInt32
  let n := (state >>> 59).toUInt32
  (folded >>> n) ||| (folded <<< ((32 - n) % 32))

private def seedStates : Nat → UInt64 → List UInt64
  | 0, _ => []
  | n + 1, state => advanceSeed state :: seedStates n (advanceSeed state)

def Key.ofSeed (seed : UInt64) : Key :=
  let words := (seedStates 8 seed).map seedWord
  ⟨Vector.ofFn fun i => words.getD i 0⟩

/-- Numbers of 128 bits, four words each, the lowest first. -/
def Key.draw (key : Key) (n : Nat) : Nat :=
  (List.range 4).foldr (fun i rest => (key.word (4 * n + i)).toNat + 2 ^ 32 * rest) 0

end CloudProvider.Names
