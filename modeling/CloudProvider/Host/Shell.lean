import CloudProvider.Host.Word

/-! A small shell: commands in a row, each with words, parameters and redirected streams. The commands
are those that a shell has of its own; there are no others. -/

namespace CloudProvider.Host.Shell

structure State where
  /-- The name of the shell, which begins its complaints. -/
  name : String
  parameters : List String
  status : Nat
  stdout : Bytes
  stderr : Bytes
  ended : Bool

namespace State

def parameter (s : State) : Char → List String
  | '@' | '*' => s.parameters
  | '#' => [toString s.parameters.length]
  | '?' => [toString s.status]
  | '$' => ["1"]
  | '0' => [s.name]
  | c => [s.parameters.getD (c.toNat - '1'.toNat) ""]

def write (s : State) (stream : Nat) (b : Bytes) : State :=
  if stream = 2 then { s with stderr := s.stderr ++ b } else { s with stdout := s.stdout ++ b }

end State

/-- Words in the making: those that are complete, the last first, and the one that is begun. -/
structure Fields where
  complete : List String
  begun : Option String

namespace Fields

def add (f : Fields) (s : String) : Fields :=
  { f with begun := some (f.begun.getD "" ++ s) }

def next (f : Fields) : Fields :=
  match f.begun with
  | none => f
  | some word => ⟨word :: f.complete, none⟩

/-- Each of the texts is a word, of which the first goes on with the word that is begun. -/
def addAll (f : Fields) : List String → Fields
  | [] => f
  | [s] => f.add s
  | s :: rest => (f.add s).next.addAll rest

def all (f : Fields) : List String :=
  f.next.complete.reverse

end Fields

private def blankWords (s : String) : List String :=
  ((s.split fun c => c = ' ' || c = '\t' || c = '\n').map (·.toString)).toList.filter (!·.isEmpty)

private def addPiece (s : State) (f : Fields) : Piece → Fields
  | .text t => f.add t
  | .parameter '@' true => f.addAll (s.parameter '@')
  | .parameter c true => f.add (" ".intercalate (s.parameter c))
  | .parameter c false => f.addAll ((s.parameter c).flatMap blankWords)

def expand (s : State) (pieces : List Piece) : List String :=
  (pieces.foldl (addPiece s) ⟨[], none⟩).all

private def octal? (c : Char) : Option Nat :=
  if '0' ≤ c ∧ c ≤ '7' then some (c.toNat - '0'.toNat) else none

private def letter? : Char → Option UInt8
  | 'n' => some 10
  | 't' => some 9
  | 'r' => some 13
  | 'a' => some 7
  | 'b' => some 8
  | 'f' => some 12
  | 'v' => some 11
  | '\\' => some 92
  | _ => none

def escape? : List Char → Option (UInt8 × List Char)
  | c :: rest =>
    match letter? c, octal? c with
    | some b, _ => some (b, rest)
    | none, none => none
    | none, some n =>
      match rest with
      | d :: more =>
        match octal? d with
        | none => some (UInt8.ofNat n, rest)
        | some m =>
          match more with
          | e :: last =>
            match octal? e with
            | none => some (UInt8.ofNat (n * 8 + m), more)
            | some k => some (UInt8.ofNat (n * 64 + m * 8 + k), last)
          | [] => some (UInt8.ofNat (n * 8 + m), more)
      | [] => some (UInt8.ofNat n, rest)
  | [] => none

theorem escape?_length {cs rest : List Char} {b : UInt8} (h : escape? cs = some (b, rest)) :
    rest.length < cs.length := by
  unfold escape? at h
  repeat' split at h
  all_goals simp_all
  all_goals grind

def unescaped : List Char → Bytes
  | [] => []
  | '\\' :: rest =>
    match h : escape? rest with
    | some (b, rest') =>
      have := escape?_length h
      b :: unescaped rest'
    | none => 92 :: unescaped rest
  | c :: rest => Text.Utf8.encode c.toString ++ unescaped rest
termination_by cs => cs.length

/-- A format is made of bytes and of places for arguments, each with the letter of a conversion. -/
inductive Directive
  | literal (b : Bytes)
  | argument (letter : Char)

def directives : List Char → List Directive
  | [] => []
  | '%' :: '%' :: rest => .literal [37] :: directives rest
  | '%' :: c :: rest => .argument c :: directives rest
  | '\\' :: rest =>
    match h : escape? rest with
    | some (b, rest') =>
      have := escape?_length h
      .literal [b] :: directives rest'
    | none => .literal [92] :: directives rest
  | c :: rest => .literal (Text.Utf8.encode c.toString) :: directives rest
termination_by cs => cs.length

private def converted (letter : Char) (argument : String) : Bytes :=
  if letter = 's' then Text.Utf8.encode argument
  else if letter = 'b' then unescaped argument.toList
  else if letter = 'c' then Text.Utf8.encode (String.ofList (argument.toList.take 1))
  else Text.Utf8.encode (toString (argument.toInt?.getD 0))

/-- One pass over a format: what is written, and what is left of the arguments. -/
def pass (arguments : List String) : List Directive → Bytes × List String
  | [] => ([], arguments)
  | .literal b :: rest =>
    let (more, left) := pass arguments rest
    (b ++ more, left)
  | .argument letter :: rest =>
    let (more, left) := pass arguments.tail rest
    (converted letter (arguments.headD "") ++ more, left)

def Directive.takesArgument : Directive → Bool
  | .literal _ => false
  | .argument _ => true

/-- The format again and again, until no argument is left. `rounds` bounds how often. -/
def printed (ds : List Directive) : Nat → List String → Bytes
  | 0, _ => []
  | rounds + 1, arguments =>
    let (b, left) := pass arguments ds
    if ds.any Directive.takesArgument && !left.isEmpty then b ++ printed ds rounds left else b

private def echoed (arguments : List String) : Bytes :=
  let text (words : List String) := unescaped (" ".intercalate words).toList
  match arguments with
  | "-n" :: rest => text rest
  | words => text words ++ [10]

def run (s : State) (stdout stderr : Nat) (name : String) (arguments : List String) : State :=
  match name, arguments with
  | ":", _ | "true", _ => { s with status := 0 }
  | "false", _ => { s with status := 1 }
  | "exit", arguments =>
    let status := (arguments.head?.bind String.toNat?).getD s.status
    { s with status := status % 256, ended := true }
  | "kill", _ => { s with status := 137, ended := true }
  | "echo", arguments => { s.write stdout (echoed arguments) with status := 0 }
  | "printf", text :: arguments =>
    { s.write stdout (printed (directives text.toList) (arguments.length + 1) arguments) with status := 0 }
  | "printf", [] =>
    let complaint := s!"{s.name}: 1: printf: usage: printf format [arg ...]\n"
    { s.write stderr (Text.Utf8.encode complaint) with status := 2 }
  | name, _ =>
    let complaint := s!"{s.name}: 1: {name}: not found\n"
    { s.write stderr (Text.Utf8.encode complaint) with status := 127 }

/-- A command in the making: its words, and where its two streams go. -/
structure Line where
  words : List (List Piece)
  stdout : Nat
  stderr : Nat

def Line.blank : Line := ⟨[], 1, 2⟩

def Line.redirect (l : Line) (source target : Nat) : Line :=
  let target := if target = 1 then l.stdout else if target = 2 then l.stderr else target
  if source = 2 then { l with stderr := target } else { l with stdout := target }

/-- Runs the command unless the shell has ended, or the command is not due. -/
def Line.run (l : Line) (due : Bool) (s : State) : State :=
  if !due || s.ended then s
  else
    match l.words.flatMap (expand s) with
    | [] => s
    | name :: arguments => Shell.run s l.stdout l.stderr name arguments

def runAll (s : State) (l : Line) (due : Bool) : List Token → State
  | [] => l.run due s
  | .word pieces :: rest => runAll s { l with words := l.words ++ [pieces] } due rest
  | .redirect source target :: rest => runAll s (l.redirect source target) due rest
  | .always :: rest => runAll (l.run due s) .blank true rest
  | .onSuccess :: rest =>
    let s := l.run due s
    runAll s .blank (s.status = 0) rest
  | .onFailure :: rest =>
    let s := l.run due s
    runAll s .blank (s.status ≠ 0) rest

def execute (line name : String) (parameters : List String) : State :=
  let start : State := ⟨name, parameters, 0, [], [], false⟩
  match Token.ofLine line with
  | some tokens => runAll start .blank true tokens
  | none =>
    let complaint := s!"{name}: 1: Syntax error: Unterminated quoted string\n"
    { start.write 2 (Text.Utf8.encode complaint) with status := 2 }

end CloudProvider.Host.Shell
