import CloudProvider.Proofs.SetupAnswers

/-! In which order a call can fail before its request is dispatched. There are four stages. What is wrong
at one of them is said here without a look at the others, and the first stage with something wrong
decides the answer: a defect of a later one never shows. Until then the one thing touched is the
configuration file, which is read. -/

namespace CloudProvider

namespace Config

/-- What is wrong with what has been read of the file at `path`, and how this is told. Each kind of fault
presupposes that there is none of those before it. -/
inductive Unfit (path : String) : Except Files.Fault Bytes → String → Prop
  | unreadable (fault : Files.Fault) :
      Unfit path (.error fault) ("failed to read config file " ++ path ++ ": " ++ fault.message)
  | garbled {bytes : Bytes} (garbled : Text.Utf8.decode? bytes = none) :
      Unfit path (.ok bytes) ("failed to read config file " ++ path ++ ": " ++
        "stream did not contain valid UTF-8")
  | blank {bytes : Bytes} {text : String} (decoded : Text.Utf8.decode? bytes = some text)
      (blank : Text.isBlankText text = true) :
      Unfit path (.ok bytes) ("config file " ++ path ++ " is empty")
  | malformed {bytes : Bytes} {text : String} {fault : Json.Fault}
      (decoded : Text.Utf8.decode? bytes = some text) (filled : Text.isBlankText text = false)
      (undecoded : codec.decode (Text.Utf8.encode text) = .error fault)
      (sound : ∀ reason, fault.cause ≠ .collapsed reason) :
      Unfit path (.ok bytes) ("invalid config: " ++ fault.message)
  | targetless {bytes : Bytes} {text : String} {config : Config}
      (decoded : Text.Utf8.decode? bytes = some text) (filled : Text.isBlankText text = false)
      (read : codec.decode (Text.Utf8.encode text) = .ok config)
      (blank : Text.isBlankText config.cloud.target = true) :
      Unfit path (.ok bytes) "invalid config: 'esxcloud.target' must not be empty"
  | projectless {bytes : Bytes} {text : String} {config : Config}
      (decoded : Text.Utf8.decode? bytes = some text) (filled : Text.isBlankText text = false)
      (read : codec.decode (Text.Utf8.encode text) = .ok config)
      (targeted : Text.isBlankText config.cloud.target = false)
      (blank : Text.isBlankText config.cloud.project = true) :
      Unfit path (.ok bytes) "invalid config: 'esxcloud.project' must not be empty"

end Config

namespace Setup

inductive Stage
  | input
  | request
  | line
  | file

namespace Stage

def before : Stage → List Stage
  | .input => []
  | .request => [.input]
  | .line => [.input, .request]
  | .file => [.input, .request, .line]

def context : Stage → String
  | .input => "Error reading from stdin"
  | .request => "Error parsing args"
  | .line => "Unable to load esxcloud config"
  | .file => "Error loading config file"

end Stage

/-- All that preparing a call may look at. -/
structure Circumstances where
  preset : Option String
  line : CommandLine.Outcome
  input : Except Files.Fault String
  /-- What reading a file comes to. -/
  file : String → Except Files.Fault Bytes

namespace Circumstances

inductive FailsAt (c : Circumstances) : Stage → String → Prop
  | input {fault : Files.Fault} (unread : c.input = .error fault) : FailsAt c .input fault.message
  | request {text : String} {fault : Json.Fault} (read : c.input = .ok text)
      (undecoded : Request.codec.decode (Text.Utf8.encode text) = .error fault) :
      FailsAt c .request fault.message
  | line {cause : String} (refused : lineCause c.preset c.line = .error cause) :
      FailsAt c .line cause
  | file {options : CommandLine.Options} {cause : String}
      (chosen : lineCause c.preset c.line = .ok options)
      (unfit : Config.Unfit options.configPath (c.file options.configPath) cause) :
      FailsAt c .file cause

def FailsFirstAt (c : Circumstances) (stage : Stage) (cause : String) : Prop :=
  c.FailsAt stage cause ∧ ∀ earlier ∈ stage.before, ∀ other, ¬ c.FailsAt earlier other

structure Reaches (c : Circumstances) (request : Request) (options : CommandLine.Options) : Prop where
  decoded : ∃ text, c.input = .ok text ∧
    Request.codec.decode (Text.Utf8.encode text) = .ok request
  chosen : lineCause c.preset c.line = .ok options

structure Passes (c : Circumstances) (request : Request) (options : CommandLine.Options)
    (config : Config) : Prop extends c.Reaches request options where
  loaded : Config.load options.configPath (c.file options.configPath) = .accepted config

theorem FailsFirstAt.reaches {c : Circumstances} {cause : String}
    (fails : c.FailsFirstAt .file cause) : ∃ request options, c.Reaches request options ∧
      Config.Unfit options.configPath (c.file options.configPath) cause := by
  obtain ⟨_ | _ | _ | ⟨chosen, unfit⟩, first⟩ := fails
  rcases read : c.input with fault | text
  · exact absurd (.input read) (first .input (by simp [Stage.before]) _)
  rcases decoded : Request.codec.decode (Text.Utf8.encode text) with fault | request
  · exact absurd (.request read decoded) (first .request (by simp [Stage.before]) _)
  exact ⟨request, _, ⟨⟨text, read, decoded⟩, chosen⟩, unfit⟩

end Circumstances

section Respond

open Circumstances

variable {σ : Type} {host : String → (e : Effect) → StateM σ e.Reply} {preset : Option String}
  {line : CommandLine.Outcome} {text : String} {request : Request} {options : CommandLine.Options}
  {s : σ}

end Respond

end Setup
end CloudProvider
