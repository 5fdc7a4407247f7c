import CloudProvider.Archive.Gzip
import CloudProvider.Archive.Tar

/-! Stemcells: compressed archives with a disk image among their entries, which is compressed once
more. -/

namespace CloudProvider.Archive.Stemcell

def imageName : String := "image"

/-- The names of a path. Repeated slashes and single dots mean nothing, but for a dot at the start. -/
def components (path : Bytes) : List Bytes :=
  let parts := path.splitOn 47
  match parts with
  | first :: rest => first :: rest.filter fun p => !p.isEmpty && p ≠ [46]
  | [] => []

/-- The image may lie in the archive's own directory, written as a dot. -/
def isImagePath (path : Bytes) : Bool :=
  let image := Text.Utf8.encode imageName
  components path = [image] || components path = [[46], image]

def isImage (e : Tar.Entry) : Bool :=
  e.isFile && isImagePath e.path

def image? (file : Source) : Except Fault (Option Bytes) := do
  match ← Tar.find (fun e => if isImage e then some e.contents else none) (Gzip.unpack file) with
  | none => return none
  | some packed => return some (← (Gzip.unpack packed).contents)

end CloudProvider.Archive.Stemcell
