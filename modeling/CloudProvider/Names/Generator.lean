import CloudProvider.Names.Keystream
import CloudProvider.Names.Ulid

/-! Names that nobody else gives: a word for what is named, and an identifier with the time and a
random draw. -/

namespace CloudProvider.Names

open Time (Moment)

/-- Time before 1970 counts as the start of 1970. -/
def nameAt (kind : String) (moment : Moment) (draw : Nat) : String :=
  kind ++ "-" ++ (Ulid.ofParts moment.millis.toNat draw).text

structure Generator where
  key : Key
  drawn : Nat

namespace Generator

def ofSeed (seed : UInt64) : Generator :=
  ⟨.ofSeed seed, 0⟩

def next (g : Generator) (kind : String) (moment : Moment) : String × Generator :=
  (nameAt kind moment (g.key.draw g.drawn), { g with drawn := g.drawn + 1 })

def names (g : Generator) (moment : Moment) : List String → List String
  | [] => []
  | kind :: rest =>
    let (name, g) := g.next kind moment
    name :: g.names moment rest

end Generator
end CloudProvider.Names
