/-! Commands of the host, and what is left of one that has ended. -/

namespace CloudProvider

structure Command where
  program : String
  arguments : List String
deriving DecidableEq

structure CommandOutput where
  success : Bool
  stdout : String
  stderr : String
deriving DecidableEq

/-- Both streams. A line break stands between them if neither is empty. -/
def CommandOutput.combined (o : CommandOutput) : String :=
  if o.stdout.isEmpty then o.stderr
  else if o.stderr.isEmpty then o.stdout
  else o.stdout ++ "\n" ++ o.stderr

end CloudProvider
