import CloudProvider.Exponent
import CloudProvider.Text.Blank
import CloudProvider.Text.Quoted
import CloudProvider.Time.Span

/-! Spans of time as people write them: numbers, each with a unit, which are added up ("1h 30m",
"2.5 days"). Blanks may stand between the parts and inside a number. Offsets in faults count the
bytes of the UTF-8 form. -/

namespace CloudProvider.Time

open Text

inductive PhraseFault
  | empty
  | numberExpected (offset : Nat)
  | invalidCharacter (offset : Nat)
  | unitNeeded (number : Nat)
  | unknownUnit (unit : String)
  /-- A number does not fit 64 bits, or it is no whole number of nanoseconds. -/
  | unrepresentable
  /-- The sum passes the greatest span by less than a second: nobody can go on from there. -/
  | exhausted
deriving DecidableEq

namespace PhraseFault

def message : PhraseFault → String
  | .empty => "value was empty"
  | .numberExpected offset => s!"expected number at {offset}"
  | .invalidCharacter offset => s!"invalid character at {offset}"
  | .unitNeeded number => s!"time unit needed, for example {number}sec or {number}ms"
  | .unknownUnit unit =>
    "unknown time unit " ++ quoted unit ++ ", supported units: ns, us/µs, ms, sec, min, hours, "
      ++ "days, weeks, months, years (and few variations)"
  | .unrepresentable =>
    "number is too large or cannot be represented without a lack of precision "
      ++ "(values below 1ns are not supported)"
  | .exhausted => "overflow in Duration::new"

end PhraseFault

inductive TimeUnit
  | nanosecond
  | microsecond
  | millisecond
  | second
  | minute
  | hour
  | day
  | week
  | month
  | year
deriving DecidableEq

namespace TimeUnit

def names : TimeUnit → List String
  | .nanosecond => ["nanos", "nsec", "ns"]
  | .microsecond => ["usec", "us", "µs"]
  | .millisecond => ["millis", "msec", "ms"]
  | .second => ["seconds", "second", "secs", "sec", "s"]
  | .minute => ["minutes", "minute", "min", "mins", "m"]
  | .hour => ["hours", "hour", "hrs", "hr", "h"]
  | .day => ["days", "day", "d"]
  | .week => ["weeks", "week", "wk", "wks", "w"]
  | .month => ["months", "month", "M"]
  | .year => ["years", "year", "yr", "yrs", "y"]

def all : List TimeUnit :=
  [.nanosecond, .microsecond, .millisecond, .second, .minute, .hour, .day, .week, .month, .year]

def named? (name : String) : Option TimeUnit :=
  all.find? fun unit => unit.names.contains name

/-- Seconds and nanoseconds in one unit. A month has 30.44 days and a year 365.25. -/
def size : TimeUnit → Nat × Nat
  | .nanosecond => (0, 1)
  | .microsecond => (0, 1000)
  | .millisecond => (0, 1000000)
  | .second => (1, 0)
  | .minute => (60, 0)
  | .hour => (3600, 0)
  | .day => (86400, 0)
  | .week => (7 * 86400, 0)
  | .month => (2630016, 0)
  | .year => (31557600, 0)

/-- The same for a fraction of the unit. Below an hour it may come to nanoseconds, above to whole
seconds only; a nanosecond has no fractions. -/
def fractionSize? : TimeUnit → Option (Nat × Nat)
  | .nanosecond => none
  | .second => some (0, 1000000000)
  | .minute => some (0, 60000000000)
  | unit => some unit.size

end TimeUnit

namespace Phrase

def wordLimit : Nat := 2 ^ 64

def bounded (n : Nat) : Except PhraseFault Nat :=
  if n < wordLimit then .ok n else .error .unrepresentable

structure Fraction where
  numerator : Nat
  denominator : Nat

/-- Nanoseconds move over to the seconds when there are more than a second of them. A second
exactly is moved last, and that may go past the limit. -/
def add (total : Span) (seconds nanos : Nat) : Except PhraseFault Span := do
  let nanos ← bounded (total.subsecond + nanos)
  let seconds ←
    if 10 ^ 9 < nanos then bounded (seconds + nanos / 10 ^ 9) else pure seconds
  let nanos := if 10 ^ 9 < nanos then nanos % 10 ^ 9 else nanos
  let seconds ← bounded (total.seconds + seconds)
  let sum : Span := ⟨seconds * 10 ^ 9 + nanos⟩
  if sum.seconds < wordLimit then return sum else throw .exhausted

def divide (n d : Nat) : Except PhraseFault Nat :=
  if n % d = 0 then .ok (n / d) else .error .unrepresentable

def addQuantity (total : Span) (n : Nat) (fraction : Option Fraction) (unit : String) :
    Except PhraseFault Span := do
  let some u := TimeUnit.named? unit
    | throw (if unit.isEmpty then .unitNeeded n else .unknownUnit unit)
  let (seconds, nanos) := u.size
  let total ← add total (← bounded (n * seconds)) (← bounded (n * nanos))
  let some f := fraction | return total
  let some (seconds, nanos) := u.fractionSize? | throw .unrepresentable
  let seconds ← divide (← bounded (f.numerator * seconds)) f.denominator
  let nanos ← divide (← bounded (f.numerator * nanos)) f.denominator
  add total seconds nanos

def isUnitChar (c : Char) : Bool :=
  c.isAlpha || c = 'µ'

def digit (c : Char) : Nat :=
  c.toNat - 48

/-- A number as it is read: the whole part, and the digits after the point with the value of the
last place. -/
inductive Standing
  /-- Before a number. -/
  | outside
  | whole (n : Nat)
  /-- `dot` is the offset that is blamed if no digit follows the point. -/
  | fraction (n : Nat) (f : Fraction) (blame : Nat)
  | unit (n : Nat) (f : Option Fraction) (name : String)

def started (f : Fraction) (blame : Nat) : Except PhraseFault (Option Fraction) :=
  if f.denominator = 1 then .error (.invalidCharacter blame) else .ok (some f)

def step (total : Span) (offset : Nat) (c : Char) :
    Standing → Except PhraseFault (Span × Standing)
  | .outside =>
    if c.isDigit then return (total, .whole (digit c))
    else if isBlank c then return (total, .outside)
    else throw (.numberExpected offset)
  | .whole n =>
    if c.isDigit then return (total, .whole (← bounded (n * 10 + digit c)))
    else if isBlank c then return (total, .whole n)
    else if isUnitChar c then return (total, .unit n none c.toString)
    else if c = '.' then return (total, .fraction n ⟨0, 1⟩ offset)
    else throw (.invalidCharacter offset)
  | .fraction n f blame =>
    if c.isDigit then do
      let denominator ← bounded (f.denominator * 10)
      let numerator ← bounded (f.numerator * 10 + digit c)
      return (total, .fraction n ⟨numerator, denominator⟩ (offset + c.utf8Size))
    else if isBlank c then return (total, .fraction n f (offset + c.utf8Size))
    else if isUnitChar c then return (total, .unit n (← started f blame) c.toString)
    else throw (.invalidCharacter blame)
  | .unit n f name =>
    if c.isDigit then return (← addQuantity total n f name, .whole (digit c))
    else if isBlank c then return (← addQuantity total n f name, .outside)
    else if isUnitChar c then return (total, .unit n f (name.push c))
    else throw (.invalidCharacter offset)

def finish (total : Span) : Standing → Except PhraseFault Span
  | .outside => return total
  | .whole n => addQuantity total n none ""
  | .fraction n f blame => do addQuantity total n (← started f blame) ""
  | .unit n f name => addQuantity total n f name

def run (total : Span) (offset : Nat) (standing : Standing) :
    List Char → Except PhraseFault Span
  | [] => finish total standing
  | c :: rest => do
    let (total, standing) ← step total offset c standing
    run total (offset + c.utf8Size) standing rest

/-- A zero needs no unit. -/
def parse (s : String) : Except PhraseFault Span :=
  if s = "0" then .ok ⟨0⟩
  else if isBlankText s then .error .empty
  else run ⟨0⟩ 0 .outside s.toList

end Phrase
end CloudProvider.Time
