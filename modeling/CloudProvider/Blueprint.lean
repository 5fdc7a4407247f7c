import CloudProvider.Pipeline.Step

/-! Putting together what pipelines share. The cloud and the project have to be given; for the rest
there are usual values. -/

namespace CloudProvider

inductive MissingPart
  | cloud
  | project
deriving DecidableEq

def MissingPart.message : MissingPart → String
  | .cloud => "missing remote API: set it on the builder before build()"
  | .project => "missing project: set it on the builder before build()"

structure Blueprint (ρ : Type) where
  cloud : Option ρ
  project : Option String
  agent : AgentSettings
  policy : Policy

namespace Blueprint

variable {ρ : Type}

def blank : Blueprint ρ := ⟨none, none, .blank, .standard⟩

/-- An empty project counts as none. -/
def build (b : Blueprint ρ) : Except MissingPart (ρ × Settings) := do
  let some cloud := b.cloud | throw .cloud
  let some project := b.project.filter (!·.isEmpty) | throw .project
  return (cloud, ⟨project, b.agent, b.policy⟩)

end Blueprint
end CloudProvider
