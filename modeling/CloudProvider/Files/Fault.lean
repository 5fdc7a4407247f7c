/-! What can go wrong with a file, in the words of the operating system. -/

namespace CloudProvider.Files

inductive Fault
  | notFound
  | notPermitted
  | alreadyExists
  | notDirectory
  | isDirectory
  | nameTooLong
  /-- A path cannot hold the character NUL. -/
  | nulInPath
  /-- Neither can a command. -/
  | nulInCommand
  | notUtf8
  | stated (message : String)
deriving DecidableEq

namespace Fault

def message : Fault → String
  | .notFound => "No such file or directory (os error 2)"
  | .notPermitted => "Permission denied (os error 13)"
  | .alreadyExists => "File exists (os error 17)"
  | .notDirectory => "Not a directory (os error 20)"
  | .isDirectory => "Is a directory (os error 21)"
  | .nameTooLong => "File name too long (os error 36)"
  | .nulInPath => "file name contained an unexpected NUL byte"
  | .nulInCommand => "nul byte found in provided data"
  | .notUtf8 => "stream did not contain valid UTF-8"
  | .stated message => message

/-- A directory can be opened like a file, and what a file holds shows after opening it. -/
def preventsOpening : Fault → Bool
  | .isDirectory | .notUtf8 => false
  | _ => true

end Fault
end CloudProvider.Files
