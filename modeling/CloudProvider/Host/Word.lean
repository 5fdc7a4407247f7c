import CloudProvider.Text.Utf8

/-! Words of a shell's command line: what quotes and backslashes keep together, the parameters that
are put in, and what stands between the words. -/

namespace CloudProvider.Host

inductive Piece
  | text (s : String)
  /-- A parameter by its letter, and whether it stands in double quotes. -/
  | parameter (letter : Char) (quoted : Bool)
deriving DecidableEq

inductive Token
  | word (pieces : List Piece)
  /-- The next command follows: always, after success, or after failure. -/
  | always
  | onSuccess
  | onFailure
  /-- What goes to the first stream goes to the second. -/
  | redirect (source target : Nat)
deriving DecidableEq

inductive Quoting
  | bare
  | single
  | double
deriving DecidableEq

namespace Token

structure Scan where
  /-- The word that has been begun, its last piece first. -/
  word : Option (List Piece)
  /-- The last token first. -/
  tokens : List Token

namespace Scan

def start : Scan := ⟨none, []⟩

def add (s : Scan) (p : Piece) : Scan :=
  { s with word := some (p :: s.word.getD []) }

def endWord (s : Scan) : Scan :=
  match s.word with
  | none => s
  | some pieces => ⟨none, .word pieces.reverse :: s.tokens⟩

def put (s : Scan) (t : Token) : Scan :=
  let s := s.endWord
  { s with tokens := t :: s.tokens }

def addChar (s : Scan) (c : Char) : Scan :=
  s.add (.text c.toString)

def addDollar (s : Scan) (quoted : Bool) (c : Char) : Scan :=
  if c.isDigit || "@*#?$".toList.contains c then s.add (.parameter c quoted)
  else (s.addChar '$').addChar c

/-- A backslash in double quotes. It stays unless the character behind it needs one. -/
def addEscaped (s : Scan) (c : Char) : Scan :=
  if "$\x60\"\\".toList.contains c then s.addChar c else (s.addChar '\\').addChar c

/-- A stream that is redirected. The number in front of the sign is no word. -/
def redirect (s : Scan) (source : Char) (target : Char) : Scan :=
  let number (c : Char) : Nat := c.toNat - '0'.toNat
  if s.word.isNone then s.put (.redirect (number source) (number target))
  else (s.addChar source).put (.redirect 1 (number target))

end Scan

/-- Goes through a command line. There are no tokens if a quote stays open. -/
def scan (s : Scan) : Quoting → List Char → Option (List Token)
  | .bare, [] => some s.endWord.tokens.reverse
  | .single, [] | .double, [] => none
  | .single, '\'' :: rest => scan s .bare rest
  | .single, c :: rest => scan (s.addChar c) .single rest
  | .double, '"' :: rest => scan s .bare rest
  | .double, '\\' :: c :: rest => scan (s.addEscaped c) .double rest
  | .double, '$' :: '\x7b' :: c :: '\x7d' :: rest => scan (s.addDollar true c) .double rest
  | .double, '$' :: '"' :: rest => scan (s.addChar '$') .bare rest
  | .double, '$' :: c :: rest => scan (s.addDollar true c) .double rest
  | .double, c :: rest => scan (s.addChar c) .double rest
  | .bare, '\\' :: '\n' :: rest => scan s .bare rest
  | .bare, '\\' :: c :: rest => scan (s.addChar c) .bare rest
  | .bare, '\'' :: rest => scan (s.add (.text "")) .single rest
  -- Quoted on its own, an empty list of parameters is no word at all.
  | .bare, '"' :: '$' :: '@' :: '"' :: rest => scan (s.addDollar true '@') .bare rest
  | .bare, '"' :: rest => scan (s.add (.text "")) .double rest
  | .bare, '$' :: '\x7b' :: c :: '\x7d' :: rest => scan (s.addDollar false c) .bare rest
  | .bare, '$' :: c :: rest => scan (s.addDollar false c) .bare rest
  | .bare, ' ' :: rest => scan s.endWord .bare rest
  | .bare, '\t' :: rest => scan s.endWord .bare rest
  | .bare, '\n' :: rest => scan (s.put .always) .bare rest
  | .bare, ';' :: rest => scan (s.put .always) .bare rest
  | .bare, '&' :: '&' :: rest => scan (s.put .onSuccess) .bare rest
  | .bare, '|' :: '|' :: rest => scan (s.put .onFailure) .bare rest
  | .bare, '>' :: '&' :: c :: rest => scan (s.put (.redirect 1 (c.toNat - '0'.toNat))) .bare rest
  | .bare, c :: '>' :: '&' :: d :: rest =>
    if c = '1' ∨ c = '2' then scan (s.redirect c d) .bare rest
    else scan ((s.addChar c).put (.redirect 1 (d.toNat - '0'.toNat))) .bare rest
  | .bare, c :: rest => scan (s.addChar c) .bare rest

def ofLine (line : String) : Option (List Token) :=
  scan .start .bare line.toList

end Token
end CloudProvider.Host
