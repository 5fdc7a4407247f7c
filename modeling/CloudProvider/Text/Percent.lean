import CloudProvider.Text.Utf8

/-! Percent coding: a byte that must not stand for itself is written as a percent sign and two
hexadecimal digits. What is no ASCII character is always written so. -/

namespace CloudProvider.Text.Percent

def hexDigit (n : Nat) : Char :=
  (Nat.digitChar n).toUpper

def escaped (b : UInt8) : List Char :=
  ['%', hexDigit (b.toNat / 16), hexDigit (b.toNat % 16)]

def encodeChar (mustEscape : Char → Bool) (c : Char) : List Char :=
  if c.toNat < 128 && !mustEscape c then [c]
  else (Utf8.encode c.toString).flatMap escaped

def encode (mustEscape : Char → Bool) (cs : List Char) : String :=
  String.ofList (cs.flatMap (encodeChar mustEscape))

def hexValue? (c : Char) : Option Nat :=
  if '0' ≤ c ∧ c ≤ '9' then some (c.toNat - '0'.toNat)
  else if 'a' ≤ c ∧ c ≤ 'f' then some (c.toNat - 'a'.toNat + 10)
  else if 'A' ≤ c ∧ c ≤ 'F' then some (c.toNat - 'A'.toNat + 10)
  else none

/-- A percent sign without two digits behind it stands for itself. -/
def decode : List Char → Bytes
  | [] => []
  | '%' :: a :: b :: rest =>
    match hexValue? a, hexValue? b with
    | some high, some low => UInt8.ofNat (high * 16 + low) :: decode rest
    | _, _ => '%'.toUInt8 :: decode (a :: b :: rest)
  | c :: rest => Utf8.encode c.toString ++ decode rest

end CloudProvider.Text.Percent
