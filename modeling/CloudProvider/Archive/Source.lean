import CloudProvider.Archive.Fault
import CloudProvider.Text.Utf8

/-! Bytes that are read to their end or up to a fault. An archive that lies inside of another one
meets the outer one's faults only when it has used up what comes before them. -/

namespace CloudProvider.Archive

structure Source where
  bytes : Bytes
  /-- What is found after the bytes, if it is not a proper end. -/
  ending : Option Fault

namespace Source

def ofBytes (bytes : Bytes) : Source := ⟨bytes, none⟩

def broken (fault : Fault) : Source := ⟨[], some fault⟩

def drop (s : Source) (n : Nat) : Source :=
  { s with bytes := s.bytes.drop n }

def take (s : Source) (n : Nat) : Source :=
  if n ≤ s.bytes.length then ⟨s.bytes.take n, none⟩ else s

/-- What goes wrong at the end when more is wanted; a proper end is then the fault `early`. -/
def exhausted (s : Source) (early : Fault) : Fault :=
  s.ending.getD early

def contents (s : Source) : Except Fault Bytes :=
  match s.ending with
  | none => .ok s.bytes
  | some fault => .error fault

theorem eq_ofBytes {s : Source} {bytes : Bytes} (whole : s.contents = .ok bytes) : s = ofBytes bytes := by
  obtain ⟨held, _ | fault⟩ := s
  · obtain rfl := Except.ok.inj whole
    rfl
  · cases whole

end Source
end CloudProvider.Archive
