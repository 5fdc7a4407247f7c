import CloudProvider.Json.Reader

/-! JSON texts as trees. A tree has everything that can be written in a text, down to the white space
and to the escapes of its strings, and one text; every JSON text is the text of a tree. Strings are more
liberal here than the format: besides characters they may hold bytes that belong to none, and escapes
that leave half of a pair. What a tree stands for is a value, unless it has such a string, or a number
that is too large, or too many brackets inside each other. -/

namespace CloudProvider.Json

open Text (Dictionary)

structure Space where
  bytes : Bytes
  blank : ∀ b ∈ bytes, Cursor.isSpace b = true

namespace Space

def none : Space := ⟨[], nofun⟩

def append (s t : Space) : Space where
  bytes := s.bytes ++ t.bytes
  blank b inside := (List.mem_append.mp inside).elim (s.blank b) (t.blank b)

end Space

def ascii (cs : List Char) : Bytes :=
  cs.map Char.toUInt8

/-! ### Numbers -/

abbrev Digit := Fin 10

def Digit.byte (d : Digit) : UInt8 :=
  UInt8.ofNat (48 + d)

def spellDigits (ds : List Digit) : Bytes :=
  ds.map Digit.byte

structure Power where
  /-- The letter in front of it. -/
  mark : Char
  known : mark = 'e' ∨ mark = 'E'
  /-- What it has for a sign, if anything. -/
  sign : Option Bool
  digits : List Digit
  given : digits ≠ []

namespace Power

def falls (p : Power) : Bool :=
  p.sign = some true

def signText (p : Power) : Bytes :=
  p.sign.elim [] fun minus => if minus then ['-'.toUInt8] else ['+'.toUInt8]

def text (p : Power) : Bytes :=
  p.mark.toUInt8 :: p.signText ++ spellDigits p.digits

theorem text_append (p : Power) (y : Bytes) :
    p.text ++ y = p.mark.toUInt8 :: (p.signText ++ (spellDigits p.digits ++ y)) := by
  simp [text]

/-- The significand scaled by the power and by what was known before. A power that is too large for
itself makes nothing of zero, and zero of anything if it falls. -/
def number? (p : Power) (negative : Bool) (significand : Nat) (scale : Int) : Option Number :=
  match Reader.exponentDigits 0 (p.digits.map Fin.val) 0 with
  | (n, Option.none) =>
    (Reader.scaled? significand (Reader.clamp (if p.falls then scale - n else scale + n))).map
      (Reader.signed negative)
  | (_, some _) =>
    if significand ≠ 0 ∧ !p.falls then Option.none else some (Reader.signed negative 0)

end Power

structure Numeral where
  negative : Bool
  whole : List Digit
  /-- Without digits there is no point either. -/
  fraction : List Digit
  power : Option Power
  given : whole ≠ []
  /-- Zero stands in front of nothing else. -/
  lean : whole.head? = some 0 → whole = [0]

namespace Numeral

def tail (n : Numeral) : Bytes :=
  (if n.fraction = [] then [] else '.'.toUInt8 :: spellDigits n.fraction)
    ++ n.power.elim [] Power.text

/-- Without the sign. -/
def size (n : Numeral) : Bytes :=
  spellDigits n.whole ++ n.tail

def text (n : Numeral) : Bytes :=
  (if n.negative then ['-'.toUInt8] else []) ++ n.size

def first (n : Numeral) : Char :=
  if n.negative then '-' else Char.ofUInt8 (n.whole.head n.given).byte

def scaled? (negative : Bool) (significand : Nat) (scale : Int) : Option Power → Option Number
  | Option.none => (Reader.scaled? significand scale).map (Reader.signed negative)
  | some p => p.number? negative significand scale

/-- The number that is meant, if it is not too large. Of the digits that 64 bits cannot hold only
their count matters. -/
def number? (n : Numeral) : Option Number :=
  let ds := n.whole.map Fin.val
  let read := Reader.absorb 0 ds
  if n.fraction = [] ∧ n.power.isNone ∧ read.2 = ds.length then
    some (Reader.whole n.negative read.1 (Reader.absorb_lt ds 0 (by decide)))
  else
    let more := Reader.absorb read.1 (n.fraction.map Fin.val)
    let scale : Int := ds.length - read.2 - more.2
    scaled? n.negative more.1 scale n.power

end Numeral

/-! ### Strings -/

structure Code where
  a : UInt8
  b : UInt8
  c : UInt8
  d : UInt8
  number : Nat
  spelled : Reader.hexNumber? a b c d = some number

namespace Code

def bytes (code : Code) : Bytes :=
  [code.a, code.b, code.c, code.d]

def isHigh (code : Code) : Bool :=
  0xD800 ≤ code.number && code.number ≤ 0xDBFF

def isLow (code : Code) : Bool :=
  0xDC00 ≤ code.number && code.number ≤ 0xDFFF

end Code

def shortForms : List (Char × Char) :=
  [('"', '"'), ('\\', '\\'), ('/', '/'), ('b', '\x08'), ('f', '\x0c'), ('n', '\n'), ('r', '\r'),
    ('t', '\t')]

inductive Piece
  /-- A character that stands for itself. -/
  | plain (c : Char) (free : 0x20 ≤ c.toNat ∧ c ≠ '"' ∧ c ≠ '\\')
  | short (letter c : Char) (known : (letter, c) ∈ shortForms)
  | escaped (code : Code)
  | pair (high low : Code) (first : high.isHigh = true) (second : low.isLow = true)
  /-- A byte by itself. -/
  | stray (b : UInt8) (free : 0x20 ≤ b ∧ b ≠ '"'.toUInt8 ∧ b ≠ '\\'.toUInt8)

namespace Piece

def text : Piece → Bytes
  | plain c _ => String.utf8EncodeChar c
  | short letter _ _ => ascii ['\\', letter]
  | escaped code => ascii ['\\', 'u'] ++ code.bytes
  | pair high low _ _ => ascii ['\\', 'u'] ++ high.bytes ++ (ascii ['\\', 'u'] ++ low.bytes)
  | stray b _ => [b]

def char? : Piece → Option Char
  | plain c _ => some c
  | short _ c _ => some c
  | escaped code => if code.isHigh || code.isLow then none else some (Char.ofNat code.number)
  | pair high low _ _ =>
    some (Char.ofNat ((high.number - 0xD800) * 0x400 + (low.number - 0xDC00) + 0x10000))
  | stray .. => none

end Piece

abbrev Literal := List Piece

namespace Literal

def inside (s : Literal) : Bytes :=
  s.flatMap Piece.text

theorem inside_append (s t : Literal) : (s ++ t).inside = s.inside ++ t.inside :=
  List.flatMap_append

theorem inside_cons (piece : Piece) (s : Literal) :
    Literal.inside (piece :: s) = piece.text ++ s.inside :=
  List.flatMap_cons

def text (s : Literal) : Bytes :=
  '"'.toUInt8 :: s.inside ++ ['"'.toUInt8]

theorem text_append (s : Literal) (y : Bytes) :
    s.text ++ y = '"'.toUInt8 :: (s.inside ++ '"'.toUInt8 :: y) := by
  simp [text]

def value? (s : Literal) : Option String :=
  (s.mapM Piece.char?).map String.ofList

end Literal

/-! ### Brackets -/

/-- What separates an element from the one in front of it. The first one has no comma. -/
structure Gap where
  before : Space
  after : Space

namespace Gap

def text (first : Bool) (g : Gap) : Bytes :=
  g.before.bytes ++ (if first then [] else [','.toUInt8]) ++ g.after.bytes

def join (g : Gap) : Space :=
  g.before.append g.after

theorem join_bytes (g : Gap) : g.join.bytes = g.text true := by
  simp [join, Space.append, text]

theorem true_append (g : Gap) (y : Bytes) :
    g.text true ++ y = g.before.bytes ++ (g.after.bytes ++ y) := by
  simp [text]

theorem false_append (g : Gap) (y : Bytes) :
    g.text false ++ y = g.before.bytes ++ ','.toUInt8 :: (g.after.bytes ++ y) := by
  simp [text]

theorem exists_wider (first : Bool) (g : Gap) (s : Space) (y : Bytes) :
    ∃ wider : Gap, g.text first ++ (s.bytes ++ y) = wider.text first ++ y :=
  ⟨⟨g.before, g.after.append s⟩, by simp [text, Space.append]⟩

end Gap

structure Heading where
  gap : Gap
  key : Literal
  before : Space
  after : Space

def Heading.text (first : Bool) (h : Heading) : Bytes :=
  h.gap.text first ++ h.key.text ++ h.before.bytes ++ ':'.toUInt8 :: h.after.bytes

inductive Tree
  | null
  | bool (b : Bool)
  | number (n : Numeral)
  | string (s : Literal)
  | array (items : List (Gap × Tree)) (last : Space)
  | object (members : List (Heading × Tree)) (last : Space)

namespace Tree

@[elab_as_elim]
theorem induction {P : Tree → Prop} (null : P null) (bool : ∀ b, P (bool b)) (number : ∀ n, P (number n))
    (string : ∀ s, P (string s))
    (array : ∀ items last, (∀ item ∈ items, P item.2) → P (array items last))
    (object : ∀ members last, (∀ member ∈ members, P member.2) → P (object members last))
    (t : Tree) : P t :=
  @Tree.rec P (fun items => ∀ item ∈ items, P item.2) (fun members => ∀ member ∈ members, P member.2)
    (fun item => P item.2) (fun member => P member.2) null bool number string array object nofun
    (fun _ _ first later => List.forall_mem_cons.mpr ⟨first, later⟩) nofun
    (fun _ _ first later => List.forall_mem_cons.mpr ⟨first, later⟩) (fun _ _ holds => holds)
    (fun _ _ holds => holds) t

mutual

def text : Tree → Bytes
  | null => ascii ['n', 'u', 'l', 'l']
  | bool true => ascii ['t', 'r', 'u', 'e']
  | bool false => ascii ['f', 'a', 'l', 's', 'e']
  | number n => n.text
  | string s => s.text
  | array items last => '['.toUInt8 :: itemsText true items ++ last.bytes ++ [']'.toUInt8]
  | object members last =>
    '\x7b'.toUInt8 :: membersText true members ++ last.bytes ++ ['\x7d'.toUInt8]

def itemsText : Bool → List (Gap × Tree) → Bytes
  | _, [] => []
  | first, (gap, t) :: rest => gap.text first ++ t.text ++ itemsText false rest

def membersText : Bool → List (Heading × Tree) → Bytes
  | _, [] => []
  | first, (heading, t) :: rest => heading.text first ++ t.text ++ membersText false rest

end

theorem array_text (items : List (Gap × Tree)) (last : Space) (y : Bytes) :
    (array items last).text ++ y =
      '['.toUInt8 :: (itemsText true items ++ (last.bytes ++ ']'.toUInt8 :: y)) := by
  simp [text]

theorem object_text (members : List (Heading × Tree)) (last : Space) (y : Bytes) :
    (object members last).text ++ y =
      '\x7b'.toUInt8 :: (membersText true members ++ (last.bytes ++ '\x7d'.toUInt8 :: y)) := by
  simp [text]

theorem members_text (first : Bool) (heading : Heading) (t : Tree) (members : List (Heading × Tree))
    (y : Bytes) : membersText first ((heading, t) :: members) ++ y =
      heading.gap.text first ++ (heading.key.text ++ (heading.before.bytes ++ ':'.toUInt8 ::
        (heading.after.bytes ++ (t.text ++ (membersText false members ++ y))))) := by
  simp [membersText, Heading.text]

mutual

/-- The value that is meant, if brackets are nested within the room. Of the members of an object that
have the same key the last one counts. -/
def value? : Nat → Tree → Option Value
  | _, null => some .null
  | _, bool b => some (.bool b)
  | _, number n => n.number?.map .number
  | _, string s => s.value?.map .string
  | 0, array .. => none
  | inner + 1, array items _ => (itemValues? inner items).map .array
  | 0, object .. => none
  | inner + 1, object members _ =>
    (entries? inner members).map fun entries => .object (Dictionary.ofList entries)

def itemValues? : Nat → List (Gap × Tree) → Option (List Value)
  | _, [] => some []
  | room, (_, t) :: rest => do
    let v ← value? room t
    let vs ← itemValues? room rest
    return v :: vs

def entries? : Nat → List (Heading × Tree) → Option (List (String × Value))
  | _, [] => some []
  | room, (heading, t) :: rest => do
    let key ← heading.key.value?
    let v ← value? room t
    let entries ← entries? room rest
    return (key, v) :: entries

end

def first : Tree → Char
  | null => 'n'
  | bool true => 't'
  | bool false => 'f'
  | number n => n.first
  | string _ => '"'
  | array .. => '['
  | object .. => '\x7b'

def isScalar : Tree → Bool
  | array .. | object .. => false
  | _ => true

/-- The tree with white space around it makes up the whole text. -/
def Writes (t : Tree) (text : Bytes) : Prop :=
  ∃ before after : Space, text = before.bytes ++ t.text ++ after.bytes

end Tree
end CloudProvider.Json
