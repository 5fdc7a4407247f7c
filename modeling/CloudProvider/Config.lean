import CloudProvider.Agent.Environment
import CloudProvider.Files.Fault
import CloudProvider.Policy
import CloudProvider.Text.Utf8
import CloudProvider.Time.Phrase

/-! The configuration file: which cloud to talk to, what agents are told, and how long to wait for
tasks. -/

namespace CloudProvider

open Json (Codec Record)
open Text (isBlankText)
open Time (Span)

structure CloudSettings where
  target : String
  project : String
  tenant : String
  ignoreCertificate : Bool
deriving DecidableEq

namespace CloudSettings

def record : Record CloudSettings where
  name := "EsxCloudConfig"
  fields :=
    .cons (.required "target" .string) <|
    .cons (.required "project" .string) <|
    .cons (.withDefault "tenant" .string "") <|
    .cons (.withDefault "ignore_cert" .bool false) .nil
  build := fun (target, project, tenant, ignore, ()) => ⟨target, project, tenant, ignore⟩
  parts s := (s.target, s.project, s.tenant, s.ignoreCertificate, ())

def codec : Codec CloudSettings := record.codec

end CloudSettings

structure TaskSettings where
  interval : Option Span
  maxRetries : Option UInt32
  timeout : Option Span
deriving DecidableEq

namespace TaskSettings

def parseSpan (s : String) : Except Json.Cause Span :=
  match Time.Phrase.parse s with
  | .ok span => .ok span
  | .error .exhausted => .error (.collapsed Time.PhraseFault.exhausted.message)
  | .error fault => .error (.rejected ("invalid duration '" ++ s ++ "': " ++ fault.message))

def parseOptional : Option String → Except Json.Cause (Option Span)
  | none => .ok none
  | some s => some <$> parseSpan s

def phrase (s : Span) : String :=
  s!"{s.seconds}s {s.subsecond}ns"

def span : Codec (Option Span) :=
  Codec.string.option.refine parseOptional (Option.map phrase)

def blank : TaskSettings := ⟨none, none, none⟩

def record : Record TaskSettings where
  name := "TaskConfig"
  fields :=
    .cons (.withDefault "poll_interval" span none) <|
    .cons (.withDefault "max_retries" Codec.word32.option none) <|
    .cons (.withDefault "timeout" span none) .nil
  build := fun (interval, maxRetries, timeout, ()) => ⟨interval, maxRetries, timeout⟩
  parts s := (s.interval, s.maxRetries, s.timeout, ())

def codec : Codec TaskSettings := record.codec

/-- What is not said is as in the standard policy. -/
def policy (s : TaskSettings) : Policy :=
  ⟨s.interval.getD Policy.standard.interval, s.maxRetries.getD Policy.standard.maxRetries,
    s.timeout.getD Policy.standard.timeout⟩

end TaskSettings

structure Config where
  cloud : CloudSettings
  agent : AgentSettings
  tasks : TaskSettings

inductive ConfigFault
  | unreadable (path : String) (fault : Files.Fault)
  | empty (path : String)
  | malformed (fault : Json.Fault)
  | blankMember (name : String)

def ConfigFault.message : ConfigFault → String
  | .unreadable path fault => "failed to read config file " ++ path ++ ": " ++ fault.message
  | .empty path => "config file " ++ path ++ " is empty"
  | .malformed fault => "invalid config: " ++ fault.message
  | .blankMember name => "invalid config: '" ++ name ++ "' must not be empty"

namespace Config

def record : Record Config where
  name := "CpiConfig"
  fields :=
    .cons (.required "esxcloud" CloudSettings.codec) <|
    .cons (.required "agent" AgentSettings.codec) <|
    .cons (.withDefault "tasks" TaskSettings.codec .blank) .nil
  build := fun (cloud, agent, tasks, ()) => ⟨cloud, agent, tasks⟩
  parts c := (c.cloud, c.agent, c.tasks, ())

def codec : Codec Config := record.codec

inductive Outcome
  | accepted (config : Config)
  | refused (fault : ConfigFault)
  /-- Reading broke down: there is neither a configuration nor a fault to report. -/
  | panicked (message : String)

def parse (text : String) : Outcome :=
  match codec.decode (Text.Utf8.encode text) with
  | .error ⟨.collapsed message, _⟩ => .panicked message
  | .error fault => .refused (.malformed fault)
  | .ok config =>
    if isBlankText config.cloud.target then .refused (.blankMember "esxcloud.target")
    else if isBlankText config.cloud.project then .refused (.blankMember "esxcloud.project")
    else .accepted config

/-- What reading the file at `path` has come to. -/
def load (path : String) : Except Files.Fault Bytes → Outcome
  | .error fault => .refused (.unreadable path fault)
  | .ok bytes =>
    match Text.Utf8.decode? bytes with
    | none => .refused (.unreadable path .notUtf8)
    | some text => if isBlankText text then .refused (.empty path) else parse text

end Config
end CloudProvider
