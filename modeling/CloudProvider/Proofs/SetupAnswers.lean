import CloudProvider.Proofs.Characters
import CloudProvider.Proofs.CodecReadings
import CloudProvider.Proofs.Failures
import CloudProvider.Setup

/-! Whether everything that can go wrong before a request is dispatched is answered. A configuration is
read, and then it is accepted, or there is a fault to be told. There is one way out of this: a span of
time that comes to just as much as the seconds of a word cannot hold, for which reading breaks down. -/

namespace CloudProvider

open Json (Codec Reader)
open Time (Span PhraseFault)

namespace Time.Phrase

theorem bounded_bind_eq_exhausted_iff {α : Type} {n : Nat} {k : Nat → Except PhraseFault α} :
    (bounded n >>= k) = .error .exhausted ↔ n < wordLimit ∧ k n = .error .exhausted := by
  unfold bounded
  by_cases fits : n < wordLimit
  · rw [if_pos fits]
    exact (and_iff_right fits).symm
  · rw [if_neg fits]
    exact iff_of_false nofun fun both => fits both.1

theorem checked_eq_exhausted_iff {sum : Span} :
    (if sum.seconds < wordLimit then return sum else throw .exhausted : Except PhraseFault Span) =
      .error .exhausted ↔ wordLimit ≤ sum.seconds := by
  split
  · next fits => exact iff_of_false nofun (Nat.not_le_of_lt fits)
  · next large => exact iff_of_true rfl (Nat.le_of_not_lt large)

/-- The one boundary: the nanoseconds fill up a second exactly, and it is the first that the word cannot
hold. -/
theorem add_eq_exhausted_iff (total : Span) (seconds nanos : Nat) :
    add total seconds nanos = .error .exhausted ↔
      total.subsecond + nanos = 10 ^ 9 ∧ total.seconds + seconds + 1 = 2 ^ 64 := by
  have limit : wordLimit = 2 ^ 64 := rfl
  unfold add
  rw [bounded_bind_eq_exhausted_iff]
  by_cases carries : 10 ^ 9 < total.subsecond + nanos
  · simp only [if_pos carries, bounded_bind_eq_exhausted_iff, checked_eq_exhausted_iff]
    simp only [Span.seconds]
    omega
  · simp only [if_neg carries, pure_bind, bounded_bind_eq_exhausted_iff, checked_eq_exhausted_iff]
    simp only [Span.seconds]
    omega

/-- Somewhere in the text a string is spelled that comes to such a sum. -/
def Exhausts (text : Bytes) : Prop :=
  ∃ c c' s, c.rest <:+ text ∧ Reader.string c = (.ok s, c') ∧ parse s = .error .exhausted

end Time.Phrase

namespace Config

def Collapses (text : Bytes) (reason : String) : Prop :=
  reason = PhraseFault.exhausted.message ∧ Time.Phrase.Exhausts text

section Reading

variable {text : Bytes} {room : Nat}

theorem gives_span :
    Reader.Gives text (TaskSettings.span.read room) (fun _ => True) (Collapses text) := by
  refine Codec.gives_refine (Codec.gives_option (Codec.gives_text _)) (fun _ _ _ _ => trivial) ?_
  intro spelled reason known collapsed
  rcases spelled with _ | s
  · cases collapsed
  · obtain ⟨c, c', inside, read⟩ := known s rfl
    simp only [TaskSettings.parseOptional, TaskSettings.parseSpan] at collapsed
    rcases parsed : Time.Phrase.parse s with fault | span <;> rw [parsed] at collapsed
    · cases fault with
      | exhausted =>
        obtain rfl := Json.Cause.collapsed.inj (Except.error.inj collapsed)
        exact ⟨rfl, c, c', s, inside, read, parsed⟩
      | _ => cases Except.error.inj collapsed
    · cases collapsed

theorem gives_tasks :
    Reader.Gives text (TaskSettings.codec.read room) (fun _ => True) (Collapses text) := by
  refine (Json.Record.gives_codec (Q := fun _ _ => True) fun inner _ => ?_).mono
    fun _ _ => trivial
  have retries : Reader.Gives text (Codec.word32.option.read inner) (fun _ => True)
      (Collapses text) :=
    (Codec.gives_option (Codec.gives_integer _ _ _)).mono fun _ _ => trivial
  exact ⟨⟨gives_span, fun _ _ => trivial⟩, ⟨retries, fun _ _ => trivial⟩,
    ⟨gives_span, fun _ _ => trivial⟩, trivial⟩

variable {B : String → Prop}

theorem gives_cloud : Reader.Gives text (CloudSettings.codec.read room) (fun _ => True) B := by
  refine (Json.Record.gives_codec (Q := fun _ _ => True) fun inner _ => ?_).mono
    fun _ _ => trivial
  exact ⟨⟨Codec.gives_string, fun _ _ => trivial⟩, ⟨Codec.gives_string, fun _ _ => trivial⟩,
    ⟨Codec.gives_string, fun _ _ => trivial⟩, ⟨Codec.gives_bool, fun _ _ => trivial⟩, trivial⟩

theorem gives_blobstore : Reader.Gives text (Blobstore.codec.read room) (fun _ => True) B := by
  refine (Json.Record.gives_codec (Q := fun _ _ => True) fun inner _ => ?_).mono
    fun _ _ => trivial
  have options : Reader.Gives text (Codec.value.dictionary.read inner) (fun _ => True) B :=
    (Codec.gives_dictionary fun _ _ => Codec.gives_value).mono fun _ _ => trivial
  exact ⟨⟨Codec.gives_string, fun _ _ => trivial⟩, ⟨options, fun _ _ => trivial⟩, trivial⟩

theorem gives_agent : Reader.Gives text (AgentSettings.codec.read room) (fun _ => True) B := by
  refine (Json.Record.gives_codec (Q := fun _ _ => True) fun inner _ => ?_).mono
    fun _ _ => trivial
  have ntp : Reader.Gives text (Codec.string.list.read inner) (fun _ => True) B :=
    (Codec.gives_list fun _ _ => Codec.gives_string).mono fun _ _ => trivial
  exact ⟨⟨Codec.gives_string, fun _ _ => trivial⟩, ⟨ntp, fun _ _ => trivial⟩,
    ⟨gives_blobstore, fun _ _ => trivial⟩, trivial⟩

theorem gives_config :
    Reader.Gives text (Config.codec.read room) (fun _ => True) (Collapses text) := by
  refine (Json.Record.gives_codec (Q := fun _ _ => True) fun inner _ => ?_).mono
    fun _ _ => trivial
  exact ⟨⟨gives_cloud, fun _ _ => trivial⟩, ⟨gives_agent, fun _ _ => trivial⟩,
    ⟨gives_tasks, fun _ _ => trivial⟩, trivial⟩

end Reading

theorem collapses_of_panicked {text : String} {message : String}
    (panicked : parse text = .panicked message) :
    Collapses (Text.Utf8.encode text) message := by
  have known : Reader.Settles (fun _ => True) (Collapses (Text.Utf8.encode text))
      (codec.decode (Text.Utf8.encode text)) :=
    Codec.gives_decode gives_config
  unfold parse at panicked
  split at panicked
  · next reason position failed =>
    rw [failed] at known
    obtain rfl := Outcome.panicked.inj panicked
    exact known reason rfl
  · cases panicked
  · split at panicked
    · cases panicked
    · split at panicked <;> cases panicked

def Outcome.panic? : Outcome → Option String
  | .panicked message => some message
  | _ => none

theorem Outcome.eq_panicked {outcome : Outcome} {message : String}
    (panics : outcome.panic? = some message) : outcome = .panicked message := by
  cases outcome with
  | panicked message => rw [Option.some.inj panics]
  | _ => cases panics

def sample (tasks : String) : String :=
  "\x7b\"esxcloud\":\x7b\"target\":\"http://h:9000\",\"project\":\"p1\"\x7d," ++
    "\"agent\":\x7b\"mbus\":\"m\"\x7d,\"tasks\":" ++ tasks ++ "\x7d"

theorem collapses_of_load {path message : String} {contents : Except Files.Fault Bytes}
    (panicked : load path contents = .panicked message) :
    ∃ bytes text, contents = .ok bytes ∧ Text.Utf8.decode? bytes = some text ∧
      Collapses (Text.Utf8.encode text) message := by
  rcases contents with fault | bytes
  · cases panicked
  rcases decoded : Text.Utf8.decode? bytes with _ | text <;> rw [load, decoded] at panicked
  · cases panicked
  · dsimp only at panicked
    split at panicked
    · cases panicked
    · exact ⟨bytes, text, rfl, decoded, collapses_of_panicked panicked⟩

end Config

theorem Mishap.halt_ne_severe (m : Mishap) (reason : String) :
    m.halt ≠ .panicked (.severe reason) := by
  cases m <;> exact nofun

namespace Setup

/-- What is wrong with a call that is answered before any request is dispatched. -/
def contexts : List String :=
  ["Error reading from stdin", "Error parsing args", "Unable to load esxcloud config",
    "Error loading config file", "Error creating esxcloud client"]

def Tells (envelope : Envelope) : Prop :=
  ∃ context ∈ contexts, ∃ cause, envelope =
    ⟨.null, some ⟨.cpiError, "CPI error: '" ++ context ++ "' | Caused by: '" ++ cause ++ "'", false⟩, ""⟩

theorem tells_failed {context : String} (known : context ∈ contexts) (cause : String) :
    Tells (failed (.setup context cause)) :=
  ⟨context, known, cause, rfl⟩

variable {preset : Option String} {line : CommandLine.Outcome} {w : Surroundings}

theorem answer_of_standard {job : Job} (standard : Table.standard = .ok job.table)
    (unhurried : w.IsUnhurried) :
    (∃ envelope, (job.answer.play w []).1 = .answered envelope) ∨
      (job.answer.play w []).1 = .unfinished := by
  obtain ⟨-, -, only⟩ := Table.get?_of_registerAll standard
  unfold Job.answer
  cases found : job.table.get? job.request.method with
  | none =>
    left
    rw [play_dispatch, Dispatch.play_call_of_missing found]
    exact ⟨_, rfl⟩
  | some action =>
    have member : action ∈ Action.standard := by
      rcases only _ action found with none | member
      · cases none
      · exact member
    obtain ⟨result, trail, ended, accounts⟩ := exists_accounted unhurried found member
    rw [ended]
    match result, accounts with
    | .ok value, _ => exact .inl ⟨_, rfl⟩
    | .error (.failed e), _ => exact .inl ⟨_, rfl⟩
    | .error (.panicked (.text message)), _ => exact .inl ⟨_, rfl⟩
    | .error (.panicked .other), _ => exact .inl ⟨_, rfl⟩
    | .error (.panicked (.severe reason)), .inr ⟨m, _, same⟩ =>
      exact absurd same.symm (m.halt_ne_severe reason)
    | .error .unfinished, _ => exact .inr rfl

def Outcome.Accounted (line : CommandLine.Outcome) (preset : Option String) (w : Surroundings) :
    Outcome → Prop
  | .ready job => ∀ surroundings : Surroundings, surroundings.IsUnhurried →
    (∃ envelope, (job.answer.play surroundings []).1 = .answered envelope) ∨
      (job.answer.play surroundings []).1 = .unfinished
  | .failed e => Tells (Setup.failed e)
  | .panicked message => ∃ options bytes text, lineCause preset line = .ok options ∧
    w [] (.readFile options.configPath) = .ok bytes ∧ Text.Utf8.decode? bytes = some text ∧
    Config.Collapses (Text.Utf8.encode text) message

theorem assemble_eq (config : Config) (request : Request) :
    (∃ cause, assemble config request =
      .error (.setup "Error creating esxcloud client" cause)) ∨
    ∃ job, assemble config request = .ok job ∧ Table.standard = .ok job.table := by
  obtain ⟨t, built⟩ := Table.exists_standard
  unfold assemble
  extract_lets blueprint
  rcases blueprint.build with part | ⟨target, settings⟩
  · exact .inl ⟨part.message, rfl⟩
  · rw [built]
    exact .inr ⟨_, rfl, rfl⟩

theorem accounted_prepare (preset : Option String) (line : CommandLine.Outcome)
    (input : Except Files.Fault String) (w : Surroundings) :
    ((prepare preset line input).play w []).1.Accounted line preset w := by
  unfold prepare
  rcases input with fault | text
  · exact tells_failed (by decide) _
  dsimp only
  split
  · exact tells_failed (by decide) _
  next request _ =>
  split
  · exact tells_failed (by decide) _
  next options found =>
  rw [Program.perform, Program.bind_eq, Program.play_bind, Program.play_step, Program.play_done]
  dsimp only
  rcases loaded : Config.load options.configPath (w [] (.readFile options.configPath)) with
    config | fault | message
  · dsimp only
    rcases assemble_eq config request with ⟨cause, failed⟩ | ⟨job, ready, standard⟩
    · rw [failed]
      exact tells_failed (by decide) cause
    · rw [ready]
      exact fun _ unhurried => answer_of_standard standard unhurried
  · exact tells_failed (by decide) _
  · obtain ⟨bytes, text, read, decoded, collapses⟩ := Config.collapses_of_load loaded
    exact ⟨options, bytes, text, found, read, decoded, collapses⟩

/-- Every call is answered, but for one: whatever has been read, whatever stands in the command line
and in the configuration file, either there is an envelope that tells in which context the call has
failed, or the request is dispatched, and then it is answered or waits still. Reading a configuration
breaks down only for a span of time that comes to exactly as many seconds as a word has numbers. -/
theorem setup_answers (preset : Option String) (line : CommandLine.Outcome)
    (input : Except Files.Fault String) (w : Surroundings) :
    ((prepare preset line input).play w []).1.Accounted line preset w ∧
    (∀ text message, Config.parse text = .panicked message →
      Config.Collapses (Text.Utf8.encode text) message) ∧
    ∀ (total : Span) (seconds nanos : Nat),
      Time.Phrase.add total seconds nanos = .error .exhausted ↔
        total.subsecond + nanos = 10 ^ 9 ∧ total.seconds + seconds + 1 = 2 ^ 64 :=
  ⟨accounted_prepare preset line input w, fun _ _ panicked => Config.collapses_of_panicked panicked,
    Time.Phrase.add_eq_exhausted_iff⟩

theorem play_prepare_of_panicked {text message : String} {request : Request}
    {options : CommandLine.Options} (parsed : Request.codec.decode (Text.Utf8.encode text) = .ok request)
    (chosen : lineCause preset line = .ok options)
    (panicked : Config.load options.configPath (w [] (.readFile options.configPath)) =
      .panicked message) :
    ((prepare preset line (.ok text)).play w []).1 = .panicked message := by
  simp only [prepare, parsed, chosen]
  rw [Program.perform, Program.bind_eq, Program.play_bind, Program.play_step, Program.play_done]
  dsimp only
  rw [panicked]
  rfl

def holding (text : String) : Surroundings := fun past e =>
  match e with
  | .readFile _ => .ok (Text.Utf8.encode text)
  | e => Surroundings.polling 0 ⟨""⟩ (fun _ => .error (.transport none "")) past e

/-- A limit of just as many seconds as a word has numbers. -/
def brimming : String :=
  Config.sample "\x7b\"timeout\":\"18446744073709551615s 999999999ns 1ns\"\x7d"

/-- For such a limit there is no answer, though the call is in order. -/
theorem brimming_unanswered :
    Config.parse brimming = .panicked "overflow in Duration::new" ∧
    ((prepare none (.accepted ⟨"cpi.json"⟩) (.ok "\x7b\"method\":\"ping\"\x7d")).play
      (holding brimming) []).1 = .panicked "overflow in Duration::new" := by
  have parsed : Config.parse brimming = .panicked "overflow in Duration::new" := by
    have panics : (Config.parse brimming).panic? = some "overflow in Duration::new" := by
      decide +kernel
    exact Config.Outcome.eq_panicked panics
  refine ⟨parsed, ?_⟩
  have loaded : Config.load "cpi.json" (.ok (Text.Utf8.encode brimming)) =
      .panicked "overflow in Duration::new" := by
    have filled : Text.isBlankText brimming = false := by decide +kernel
    rw [Config.load, Text.Utf8.decode?_encode]
    simpa [filled] using parsed
  have accepted : (Request.codec.decode (Text.Utf8.encode "\x7b\"method\":\"ping\"\x7d")).isOk := by
    decide +kernel
  rcases request : Request.codec.decode (Text.Utf8.encode "\x7b\"method\":\"ping\"\x7d") with
    fault | r
  · rw [request] at accepted
    cases accepted
  · exact play_prepare_of_panicked request rfl loaded

end Setup
end CloudProvider
