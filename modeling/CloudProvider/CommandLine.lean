import CloudProvider.Text.Similarity

/-! The command line. There is one option, the path of the configuration file, and it has to be
given; a variable of the environment may give it instead. Questions for help and for the version end
the reading. -/

namespace CloudProvider.CommandLine

structure Options where
  configPath : String
deriving DecidableEq

inductive Question
  | help
  | version
deriving DecidableEq

inductive Fault
  | missing
  | withoutValue
  | repeated
  | unexpected (argument : String) (similar : Option String)
  /-- Questions take no value. -/
  | unexpectedValue (flag value : String)
deriving DecidableEq

inductive Outcome
  | accepted (options : Options)
  | asked (question : Question)
  | refused (fault : Fault)
deriving DecidableEq

def program : String := "esxcpi"

def configName : String := "config-path"

def presetName : String := "ESXCPI_CONFIG_PATH"

def names : List String := [configName, "help", "version"]

def Question.ofName? : String → Option Question
  | "help" => some .help
  | "version" => some .version
  | _ => none

def option : String := "--" ++ configName ++ " <CONFIG_PATH>"

def usage (extra : List String) : String :=
  "Usage: " ++ " ".intercalate (program :: option :: extra)

private def closing : String := "\n\nFor more information, try '--help'.\n"

namespace Fault

private def extras (name : String) : List String :=
  if name = configName then [] else ["--" ++ name]

def message : Fault → String
  | .missing =>
    "error: the following required arguments were not provided:\n  " ++ option ++ "\n\n"
      ++ usage [] ++ closing
  | .withoutValue =>
    "error: a value is required for '" ++ option ++ "' but none was supplied" ++ closing
  | .repeated =>
    "error: the argument '" ++ option ++ "' cannot be used multiple times\n\n" ++ usage [] ++ closing
  | .unexpected argument none =>
    "error: unexpected argument '" ++ argument ++ "' found\n\n" ++ usage [] ++ closing
  | .unexpected argument (some name) =>
    "error: unexpected argument '" ++ argument ++ "' found\n\n"
      ++ "  tip: a similar argument exists: '--" ++ name ++ "'\n\n" ++ usage (extras name) ++ closing
  | .unexpectedValue flag value =>
    "error: unexpected value '" ++ value ++ "' for '--" ++ flag
      ++ "' found; no more were expected\n\n" ++ usage (extras flag) ++ closing

end Fault

namespace Question

/-- `preset` is what the environment gives for the option. -/
def answer (preset : Option String) : Question → String
  | .help =>
    "esxcloud CPI for BOSH\n\n" ++ usage [] ++ "\n\nOptions:\n"
      ++ "      " ++ option ++ "  JSON 設定ファイルのパス [env: " ++ presetName ++ "="
      ++ preset.getD "" ++ "]\n"
      ++ "  -h, --help                       Print help\n"
      ++ "  -V, --version                    Print version\n"
  | .version => program ++ " 0.1.0\n"

end Question

/-- An option whose value is still to be looked at: the value may be missing. -/
inductive Pending
  | nothing
  | option (value : Option String)

structure Progress where
  path : Option String
  pending : Pending

namespace Progress

def accept (path : Option String) (value : String) : Except Fault Progress :=
  if path.isSome then .error .repeated
  else if value.isEmpty then .error .withoutValue
  else .ok ⟨some value, .nothing⟩

def settle (p : Progress) : Except Fault Progress :=
  match p.pending with
  | .nothing => .ok p
  | .option none => .error .withoutValue
  | .option (some value) => accept p.path value

end Progress

private def splitLong (body : String) : String × Option String :=
  match body.toList.span (· ≠ '=') with
  | (_, []) => (body, none)
  | (name, _ :: value) => (String.ofList name, some (String.ofList value))

private def settled (p : Progress) : Except Outcome Progress :=
  p.settle.mapError .refused

private def ask {α : Type} (p : Progress) (question : Question) : Except Outcome α := do
  let _ ← settled p
  throw (.asked question)

/-- An argument that nobody knows is refused before anything that is pending. -/
private def refuse {α : Type} (argument : String) (similar : Option String) : Except Outcome α :=
  throw (.refused (.unexpected argument similar))

private def readLong (p : Progress) (body : String) : Except Outcome Progress := do
  let (name, value) := splitLong body
  if name = configName then
    let p ← settled p
    match value with
    | some value => (Progress.accept p.path value).mapError .refused
    | none => return { p with pending := .option none }
  else
    match Question.ofName? name, value with
    | some question, none => ask p question
    | some _, some value => throw (.refused (.unexpectedValue name value))
    | none, _ => refuse ("--" ++ name) (Text.Similarity.nearest name names)

private def readShort (p : Progress) (letter : Char) : Except Outcome Progress :=
  if letter = 'h' then ask p .help
  else if letter = 'V' then ask p .version
  else refuse ("-" ++ letter.toString) none

private def read (p : Progress) (argument : String) : Except Outcome Progress :=
  match argument.toList, p.pending with
  | '-' :: '-' :: c :: rest, _ => readLong p (String.ofList (c :: rest))
  | '-' :: letter :: _, _ => readShort p letter
  | _, .option none => return { p with pending := .option (some argument) }
  | _, _ => refuse argument none

/-- After two bare hyphens nothing is an option any more. -/
private def readAll (p : Progress) : List String → Except Outcome Progress
  | [] => return p
  | ["--"] => return p
  | "--" :: argument :: _ => refuse argument none
  | argument :: rest => do readAll (← read p argument) rest

private def parsed (preset : Option String) (arguments : List String) :
    Except Outcome Options := do
  let p ← settled (← readAll ⟨none, .nothing⟩ arguments)
  match p.path <|> preset with
  | none => throw (.refused .missing)
  | some path => if path.isEmpty then throw (.refused .withoutValue) else return ⟨path⟩

/-- Reads the arguments. `preset` is what the environment gives for the option, if it does. -/
def parse (preset : Option String) (arguments : List String) : Outcome :=
  match parsed preset arguments with
  | .ok options => .accepted options
  | .error outcome => outcome

end CloudProvider.CommandLine
