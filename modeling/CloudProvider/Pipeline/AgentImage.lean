import CloudProvider.Pipeline.Step

/-! Packing an agent's environment into an ISO image. The environment is written to a file whose name
fits every ISO file system, and a command of the host makes the image from it. -/

namespace CloudProvider.Pipeline

def imageMaker : String := "mkisofs"

/-- Makes the image in a directory of its own, and works with its path while it is there. -/
def withAgentImage {α : Type} (environment : AgentEnvironment) (work : String → Pipeline α) :
    Pipeline α :=
  withScratch "agent-env" fun name directory => do
    let source := directory ++ "/env-dir"
    orFault (← perform (.makeDirectory source))
    let file := source ++ "/env"
    let text := AgentEnvironment.codec.encode environment
    orFault (← perform (.writeFile file (Text.Utf8.encode text)))
    let image := directory ++ "/" ++ name ++ ".iso"
    let output ← orFault (← perform (.run ⟨imageMaker, ["-o", image, file]⟩))
    if !output.success then
      fail (.command imageMaker ("Failed to generate ISO for agent settings: " ++ output.combined))
    else
      emit (.info "packaged agent env" [("vm", .text environment.vm.id.text)])
      work image

end CloudProvider.Pipeline
