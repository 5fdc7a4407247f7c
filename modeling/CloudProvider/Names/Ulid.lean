import CloudProvider.Exponent
import CloudProvider.Time.Moment

/-! Identifiers of 128 bits: milliseconds since 1970 in the upper 48, random bits in the other 80.
As texts they are 26 digits to the base 32, so that later ones come later in order. -/

namespace CloudProvider.Names

structure Ulid where
  value : Nat
  fits : value < 2 ^ 128
deriving DecidableEq

namespace Ulid

/-- Both parts are cut to their width. -/
def ofParts (millis random : Nat) : Ulid :=
  ⟨millis % 2 ^ 48 * 2 ^ 80 + random % 2 ^ 80, by
    have := Nat.mod_lt millis (y := 2 ^ 48) (by decide)
    have := Nat.mod_lt random (y := 2 ^ 80) (by decide)
    omega⟩

def millis (u : Ulid) : Nat :=
  u.value / 2 ^ 80

def random (u : Ulid) : Nat :=
  u.value % 2 ^ 80

theorem millis_ofParts (millis random : Nat) : (ofParts millis random).millis = millis % 2 ^ 48 := by
  simp only [ofParts, Ulid.millis]
  omega

theorem random_ofParts (millis random : Nat) :
    (ofParts millis random).random = random % 2 ^ 80 := by
  simp only [ofParts, Ulid.random]
  omega

/-- Letters that could be taken for digits, and one more, are left out. -/
def digits : List Char := "0123456789ABCDEFGHJKMNPQRSTVWXYZ".toList

def digit (n : Nat) : Char :=
  digits.getD (n % 32) '0'

/-- The lowest digit comes last. -/
def chars (value : Nat) : Nat → List Char
  | 0 => []
  | n + 1 => chars (value / 32) n ++ [digit value]

def text (u : Ulid) : String :=
  String.ofList (chars u.value 26)

end Ulid
end CloudProvider.Names
