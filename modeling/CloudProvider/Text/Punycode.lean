/-! Punycode: any characters written with letters, digits and hyphens. The ASCII characters come
first. The others are then put between them, in increasing order; what is written of each is how far
it is from the one before, as a number whose digits have varying weight. -/

namespace CloudProvider.Text.Punycode

/-- Letters stand for the digits below 26, and figures for the others. -/
def digit (n : Nat) : Char :=
  if n < 26 then Char.ofNat ('a'.toNat + n) else Char.ofNat ('0'.toNat + (n - 26))

/-- A digit below it is the last one of its number. Positions go by 36. -/
def threshold (bias position : Nat) : Nat :=
  max 1 (min 26 (position - bias))

theorem threshold_pos (bias position : Nat) : 0 < threshold bias position := by
  unfold threshold
  omega

/-- The digits of a number, the least first. -/
def digits (bias position n : Nat) : List Char :=
  let t := threshold bias position
  if n < t then [digit n]
  else digit (t + (n - t) % (36 - t)) :: digits bias (position + 36) ((n - t) / (36 - t))
termination_by n
decreasing_by
  have positive := threshold_pos bias position
  exact Nat.lt_of_le_of_lt (Nat.div_le_self _ _) (by omega)

def settle (delta position : Nat) : Nat :=
  if 455 < delta then settle (delta / 35) (position + 36)
  else position + 36 * delta / (delta + 38)
termination_by delta
decreasing_by omega

/-- The bias that suits numbers like this one, when there are so many characters. -/
def adapt (n characters : Nat) (first : Bool) : Nat :=
  let n := if first then n / 700 else n / 2
  settle (n + n / characters) 0

/-- Numbers one after the other. The bias of each is adapted to the one before it; `count` characters
are there already. -/
def numbers (bias count : Nat) (first : Bool) : List Nat → List Char
  | [] => []
  | n :: rest =>
    digits bias 36 n ++ numbers (adapt n (count + 1) first) (count + 1) false rest

/-- A character, and behind how many others it is put. -/
structure Insertion where
  code : Nat
  place : Nat
deriving DecidableEq

/-- What is put between the ASCII characters, in that order. By then all lesser characters are there,
and the equal ones that come earlier in the text. -/
def insertions (text : List Char) : List Insertion :=
  let codes := text.map Char.toNat
  let all := codes.mapIdx fun i code => Insertion.mk code ((codes.take i).countP (· ≤ code))
  (all.filter (128 ≤ ·.code)).mergeSort (·.code ≤ ·.code)

/-- How far each insertion is from the point that has been reached. To the next character it is as far
as there are places for it, one more than the characters that are there. -/
def distances (count : Nat) (reached : Insertion) : List Insertion → List Nat
  | [] => []
  | next :: rest =>
    ((next.code - reached.code) * (count + 1) + next.place - reached.place)
      :: distances (count + 1) ⟨next.code, next.place + 1⟩ rest

def encode (text : List Char) : List Char :=
  let ascii := text.filter (·.toNat < 128)
  ascii ++ (if ascii.isEmpty then [] else ['-'])
    ++ numbers 72 ascii.length true (distances ascii.length ⟨128, 0⟩ (insertions text))

end CloudProvider.Text.Punycode
