import CloudProvider.Exponent

/-! Binary fractions of 64 bits, kept as their bits, and the decimal that stands for one: the fewest
digits that read back as the same fraction, and of those the nearest. The search is exact, on
natural numbers. -/

namespace CloudProvider.Decimal

structure Binary64 where
  bits : UInt64
deriving DecidableEq, Repr

namespace Binary64

def ofFloat (x : Float) : Binary64 :=
  ⟨x.toBits⟩

def isNegative (x : Binary64) : Bool :=
  x.bits.toNat ≥ 2 ^ 63

def exponentField (x : Binary64) : Nat :=
  x.bits.toNat / 2 ^ 52 % 2 ^ 11

def significandField (x : Binary64) : Nat :=
  x.bits.toNat % 2 ^ 52

def isFinite (x : Binary64) : Bool :=
  x.exponentField ≠ 2047

def isNaN (x : Binary64) : Bool :=
  x.exponentField = 2047 ∧ x.significandField ≠ 0

/-- The magnitude of a finite fraction is `significand * 2 ^ exponent`. -/
def significand (x : Binary64) : Nat :=
  if x.exponentField = 0 then x.significandField else 2 ^ 52 + x.significandField

def exponent (x : Binary64) : Int :=
  (if x.exponentField = 0 then 1 else (x.exponentField : Int)) - 1075

end Binary64

/-- The number `digits * 10 ^ scale`. -/
structure Scaled where
  digits : Nat
  scale : Int
deriving DecidableEq, Repr

namespace Scaled

def trim (d : Scaled) : Scaled :=
  go d.digits d.digits d.scale
where
  go : Nat → Nat → Int → Scaled
    | 0, digits, scale => ⟨digits, scale⟩
    | fuel + 1, digits, scale =>
      if digits ≠ 0 ∧ digits % 10 = 0 then go fuel (digits / 10) (scale + 1) else ⟨digits, scale⟩

def text (d : Scaled) : List Char :=
  Nat.toDigits 10 d.digits

def leading (d : Scaled) : Int :=
  d.scale + d.text.length - 1

end Scaled

/-- A quotient `num / den` with the ends of an interval around it over the same `den`. -/
structure Window where
  low : Nat
  num : Nat
  high : Nat
  den : Nat
  closed : Bool

namespace Window

/-- The numbers that round to `x`: half way to either neighbour, the ends included when the
significand of `x` is even. Below a power of two the lower neighbour is half as far. -/
def of (x : Binary64) : Window :=
  let m := x.significand
  let up := 2 ^ x.exponent.toNat
  let below := if x.significandField = 0 ∧ 1 < x.exponentField then 1 else 2
  { low := (4 * m - below) * up
    num := 4 * m * up
    high := (4 * m + 2) * up
    den := 4 * 2 ^ (-x.exponent).toNat
    closed := m % 2 = 0 }

def leading (w : Window) : Int :=
  if w.den ≤ w.num then (Nat.toDigits 10 (w.num / w.den)).length - 1
  else -(below 400 1 (w.num * 10))
where
  below : Nat → Nat → Nat → Nat
    | 0, k, _ => k
    | fuel + 1, k, n => if w.den ≤ n then k else below fuel (k + 1) (n * 10)

def inUnits (w : Window) (scale : Int) : Window :=
  let lift := 10 ^ (-scale).toNat
  { w with
    low := w.low * lift, num := w.num * lift, high := w.high * lift
    den := w.den * 10 ^ scale.toNat }

def admits (w : Window) (n : Nat) : Bool :=
  if w.closed then w.low ≤ n * w.den ∧ n * w.den ≤ w.high
  else w.low < n * w.den ∧ n * w.den < w.high

/-- The whole number in the window that is nearest to the quotient, if there is one: it is one of
the quotient's two neighbours. Of two at the same distance the even one is taken. -/
def nearest? (w : Window) : Option Nat :=
  let n := w.num / w.den
  let twice := 2 * (w.num % w.den)
  match w.admits n, w.admits (n + 1) with
  | true, true =>
    some (if twice < w.den ∨ (twice = w.den ∧ n % 2 = 0) then n else n + 1)
  | true, false => some n
  | false, true => some (n + 1)
  | false, false => none

def shortest (w : Window) : Nat → Nat → Scaled
  | 0, _ => ⟨w.num / w.den, 0⟩
  | fuel + 1, places =>
    let scale := w.leading - places
    match (w.inUnits scale).nearest? with
    | some n => Scaled.trim ⟨n, scale⟩
    | none => shortest w fuel (places + 1)

end Window

/-- The digits of a finite fraction other than zero. Seventeen always suffice. -/
def shortest (x : Binary64) : Scaled :=
  (Window.of x).shortest 18 0

/-- How a fraction is laid out: the powers of ten of the first digit for which it is written
positionally, and whether a positive exponent carries a sign. -/
structure Layout where
  least : Int
  most : Int
  plus : Bool

def zeros (n : Nat) : String :=
  String.ofList (List.replicate n '0')

def unsigned (layout : Layout) (d : Scaled) : String :=
  let text := d.text
  let lead := d.leading
  if layout.least ≤ lead ∧ lead ≤ layout.most then
    if lead < 0 then "0." ++ zeros (-lead - 1).toNat ++ String.ofList text
    else
      let whole := lead.toNat + 1
      if text.length ≤ whole then String.ofList text ++ zeros (whole - text.length) ++ ".0"
      else String.ofList (text.take whole) ++ "." ++ String.ofList (text.drop whole)
  else
    let mantissa :=
      match text with
      | [] => ""
      | [c] => c.toString
      | c :: more => c.toString ++ "." ++ String.ofList more
    let sign := if layout.plus ∧ 0 ≤ lead then "+" else ""
    mantissa ++ "e" ++ sign ++ toString lead

/-- A fraction as text: at least one digit on each side of the point, or an exponent. -/
def Binary64.render (layout : Layout) (x : Binary64) : String :=
  if x.isNaN then "NaN"
  else
    let sign := if x.isNegative then "-" else ""
    if !x.isFinite then sign ++ "inf"
    else if x.significand = 0 then sign ++ "0.0"
    else sign ++ unsigned layout (shortest x)

end CloudProvider.Decimal
