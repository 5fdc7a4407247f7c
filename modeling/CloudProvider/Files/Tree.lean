import CloudProvider.Files.Fault
import CloudProvider.Text.Utf8

/-! A tree of files. Paths are texts: absolute ones begin with a slash, the others start from a
directory that is given with them. A place in the tree is the list of names that leads to it. -/

namespace CloudProvider.Files

inductive Node
  | file (contents : Bytes)
  | directory
deriving DecidableEq

abbrev Place := List String

def names (path : String) : List String :=
  (path.toList.splitOn '/').map String.ofList

/-- The name with which a path ends. There is none if the path goes up, or nowhere. -/
def lastName? (path : String) : Option String :=
  let last := ((names path).filter fun name => !name.isEmpty && name ≠ ".").getLast?
  last.filter (· ≠ "..")

/-- Every place once. The root is a directory and is not listed. -/
structure Tree where
  nodes : List (Place × Node)

namespace Tree

def empty : Tree := ⟨[]⟩

def node? (t : Tree) (p : Place) : Option Node :=
  if p.isEmpty then some .directory else t.nodes.lookup p

def put (t : Tree) (p : Place) (n : Node) : Tree :=
  ⟨(p, n) :: t.nodes.filter (·.1 ≠ p)⟩

def remove (t : Tree) (p : Place) : Tree :=
  ⟨t.nodes.filter fun (q, _) => !p.isPrefixOf q⟩

/-- The least length, in bytes, at which a whole path is too long. -/
def pathLimit : Nat := 4096

def nameLimit : Nat := 255

/-- Goes down by one name, which need not exist. -/
def descend (t : Tree) (here : Place) (name : String) : Except Fault Place :=
  match t.node? here with
  | none => .error .notFound
  | some (.file _) => .error .notDirectory
  | some .directory =>
    if name.isEmpty || name = "." then .ok here
    else if name = ".." then .ok here.dropLast
    else if nameLimit < name.utf8ByteSize then .error .nameTooLong
    else .ok (here ++ [name])

/-- The place that a path names. It need not exist, but the directory in which it lies does. -/
def locate (t : Tree) (start : Place) (path : String) : Except Fault Place :=
  if '\x00' ∈ path.toList then .error .nulInPath
  else if path.isEmpty then .error .notFound
  else if pathLimit ≤ path.utf8ByteSize then .error .nameTooLong
  else
    let root := if path.toList.head? = some '/' then [] else start
    (names path).foldlM t.descend root

def read (t : Tree) (start : Place) (path : String) : Except Fault Bytes := do
  match t.node? (← t.locate start path) with
  | none => .error .notFound
  | some .directory => .error .isDirectory
  | some (.file contents) => .ok contents

def write (t : Tree) (start : Place) (path : String) (contents : Bytes) : Except Fault Tree := do
  let place ← t.locate start path
  match t.node? place with
  | some .directory => .error .isDirectory
  | _ => .ok (t.put place (.file contents))

def makeDirectory (t : Tree) (start : Place) (path : String) : Except Fault Tree := do
  let place ← t.locate start path
  match t.node? place with
  | some _ => .error .alreadyExists
  | none => .ok (t.put place .directory)

end Tree
end CloudProvider.Files
