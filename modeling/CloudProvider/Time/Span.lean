import CloudProvider.Exponent

/-! Spans of time, to the nanosecond, and their short text: a number in the greatest unit in which
it is not below one, with as many decimals as it needs. -/

namespace CloudProvider.Time

structure Span where
  nanos : Nat
deriving DecidableEq, Repr

namespace Span

def ofSeconds (n : Nat) : Span := ⟨n * 10 ^ 9⟩

def ofMillis (n : Nat) : Span := ⟨n * 10 ^ 6⟩

def seconds (s : Span) : Nat :=
  s.nanos / 10 ^ 9

def subsecond (s : Span) : Nat :=
  s.nanos % 10 ^ 9

/-- The decimals of a remainder below `10 ^ places`, without trailing zeros. -/
def decimals (places rest : Nat) : List Char :=
  let digits := Nat.toDigits 10 rest
  let padded := List.replicate (places - digits.length) '0' ++ digits
  (padded.reverse.dropWhile (· = '0')).reverse

def inUnit (n places : Nat) : String :=
  let rest := n % 10 ^ places
  let whole := toString (n / 10 ^ places)
  if rest = 0 then whole else whole ++ "." ++ String.ofList (decimals places rest)

def text (s : Span) : String :=
  if 10 ^ 9 ≤ s.nanos then inUnit s.nanos 9 ++ "s"
  else if 10 ^ 6 ≤ s.nanos then inUnit s.nanos 6 ++ "ms"
  else if 10 ^ 3 ≤ s.nanos then inUnit s.nanos 3 ++ "µs"
  else inUnit s.nanos 0 ++ "ns"

end Span
end CloudProvider.Time
