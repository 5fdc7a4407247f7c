import CloudProvider.Command
import CloudProvider.Files.Tree
import CloudProvider.Host.Shell

/-! A host on which commands are run: its files, and the programs among them. A program is named by a
path; names without a slash are looked for nowhere. -/

namespace CloudProvider.Host

structure Result where
  status : Nat
  stdout : Bytes
  stderr : Bytes

def Result.output (r : Result) : CommandOutput :=
  ⟨r.status = 0, Text.Utf8.lossy r.stdout, Text.Utf8.lossy r.stderr⟩

abbrev Behaviour := (name : String) → (arguments : List String) → Result

structure Machine where
  files : Files.Tree
  programs : List (Files.Place × Behaviour)

namespace Machine

def run (m : Machine) (c : Command) : Except Files.Fault CommandOutput := do
  if (c.program :: c.arguments).any (·.contains '\x00') then throw .nulInCommand
  if !c.program.contains '/' then throw .notFound
  let place ← m.files.locate [] c.program
  match m.programs.lookup place, m.files.node? place with
  | some program, _ => return (program c.program c.arguments).output
  | none, some _ => throw .notPermitted
  | none, none => throw .notFound

end Machine

namespace Behaviour

def ended (status : Nat) : Behaviour := fun _ _ => ⟨status, [], []⟩

def shell : Behaviour
  | name, "-c" :: line :: rest =>
    let s := Shell.execute line (rest.headD name) rest.tail
    ⟨s.status, s.stdout, s.stderr⟩
  | _, _ => ⟨0, [], []⟩

/-- Unlike the shell's own, this one takes backslashes for what they are. -/
def echo : Behaviour
  | _, "-n" :: words => ⟨0, Text.Utf8.encode (" ".intercalate words), []⟩
  | _, words => ⟨0, Text.Utf8.encode (" ".intercalate words ++ "\n"), []⟩

def printf : Behaviour
  | _, text :: arguments =>
    ⟨0, Shell.printed (Shell.directives text.toList) (arguments.length + 1) arguments, []⟩
  | name, [] => ⟨1, [], Text.Utf8.encode (name ++ ": missing operand\n")⟩

end Behaviour

def Machine.small : Machine :=
  let named : List (String × Behaviour) :=
    [("sh", .shell), ("dash", .shell), ("true", .ended 0), ("false", .ended 1), ("echo", .echo),
      ("printf", .printf)]
  let programs := named.flatMap fun (name, program) =>
    [(["bin", name], program), (["usr", "bin", name], program)]
  let folders : List Files.Place :=
    [["bin"], ["usr"], ["usr", "bin"], ["etc"], ["tmp"], ["dev"], ["home"], ["root"], ["var"]]
  let plain : List Files.Place := [["etc", "passwd"], ["etc", "hosts"], ["dev", "null"]]
  let tree := folders.foldl (fun t p => t.put p .directory) .empty
  ⟨(plain ++ programs.map (·.1)).foldl (fun t p => t.put p (.file [])) tree, programs⟩

end CloudProvider.Host
