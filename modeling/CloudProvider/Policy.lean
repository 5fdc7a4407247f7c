import CloudProvider.Time.Span

/-! How long, and how patiently, to wait for a task. -/

namespace CloudProvider

open Time (Span)

structure Policy where
  /-- From one poll to the next, whether it failed or not. -/
  interval : Span
  /-- How many polls in a row may fail. -/
  maxRetries : UInt32
  timeout : Span
deriving DecidableEq

def Policy.standard : Policy :=
  ⟨.ofMillis 100, 3, .ofSeconds 1800⟩

end CloudProvider
