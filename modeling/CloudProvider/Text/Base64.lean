import CloudProvider.Exponent
import CloudProvider.Text.Utf8

/-! Base64: three bytes as four characters, of which the last ones are filled up with equals signs. -/

namespace CloudProvider.Text.Base64

def digit (n : Nat) : Char :=
  if n < 26 then Char.ofNat ('A'.toNat + n)
  else if n < 52 then Char.ofNat ('a'.toNat + (n - 26))
  else if n < 62 then Char.ofNat ('0'.toNat + (n - 52))
  else if n = 62 then '+'
  else '/'

private def digits (n : Nat) : List Char :=
  [digit (n / 2 ^ 18 % 64), digit (n / 2 ^ 12 % 64), digit (n / 2 ^ 6 % 64), digit (n % 64)]

def encode : Bytes → List Char
  | [] => []
  | [a] => (digits (a.toNat * 2 ^ 16)).take 2 ++ ['=', '=']
  | [a, b] => (digits (a.toNat * 2 ^ 16 + b.toNat * 2 ^ 8)).take 3 ++ ['=']
  | a :: b :: c :: rest =>
    digits (a.toNat * 2 ^ 16 + b.toNat * 2 ^ 8 + c.toNat) ++ encode rest

end CloudProvider.Text.Base64
