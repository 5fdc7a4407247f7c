import CloudProvider.Dispatch
import CloudProvider.Proofs.Recording

/-! What the caller of a dispatched request gets. Whatever the action does and however it ends, there
is one envelope, unless the panic is a severe one, and its log has the loud events of this call and of
no other. -/

namespace CloudProvider

open Json (Value)
open Time (Moment)

/-- The message of an event and its details, with blanks between them. If there is no message, the
details begin the text. -/
def Event.wording (e : Event) : String :=
  let words := " ".intercalate (e.message :: e.details.map fun (name, d) => name ++ "=" ++ d.render)
  if e.message = "" then Text.trimStart words else words

def Event.lineAt (m : Moment) (e : Event) : String :=
  let level :=
    match e.level with
    | .error => "ERROR"
    | .warn => "WARN"
    | _ => "INFO"
  m.stamp ++ " " ++ level ++ " " ++ e.wording ++ "\n"

theorem Text.intercalate_cons (sep s : String) (rest : List String) :
    sep.intercalate (s :: rest) = s ++ String.join (rest.map (sep ++ ·)) := by
  induction rest generalizing s with
  | nil => simp
  | cons next rest ih =>
    rw [String.intercalate_cons_cons, ih, List.map_cons, String.join_cons, String.append_assoc,
      String.append_assoc]

theorem Event.line_eq_wording (e : Event) : e.line = e.wording := by
  have words : " ".intercalate (e.message :: e.details.map fun (name, d) => name ++ "=" ++ d.render) =
      e.message ++ e.detailsText := by
    rw [Text.intercalate_cons, List.map_map, detailsText]
    simp [Function.comp_def, String.append_assoc]
  unfold line wording
  rw [words]
  by_cases silent : e.message = ""
  · rcases details : e.details with _ | ⟨d, rest⟩
    · simp [silent, detailsText, details]
      rfl
    · simp [silent]
  · rcases details : e.details with _ | ⟨d, rest⟩
    · simp [silent, detailsText, details]
    · simp [silent]

theorem Entry.text_eq_lineAt {e : Entry} (loud : e.event.level.isRecorded) :
    e.text = e.event.lineAt e.moment := by
  obtain ⟨moment, level, message, details⟩ := e
  rw [Entry.text, Event.lineAt, Event.line_eq_wording]
  cases level with
  | error | warn | info => rfl
  | debug | trace => cases loud

theorem Trail.text_eq_lines {t : Trail} (loud : ∀ e ∈ t, e.event.level.isRecorded) :
    t.text = String.join ((t.map (·.moment)).zipWith Event.lineAt (t.map (·.event))) := by
  rw [Trail.text, List.filter_eq_self.mpr loud, List.zipWith_map, List.zipWith_self]
  exact congrArg String.join (List.map_congr_left fun e mem => Entry.text_eq_lineAt (loud e mem))

namespace Dispatch

def opening (method : String) (arguments : List Value) : List Event :=
  [⟨.info, "Starting " ++ method, []⟩,
    ⟨.info, "Arguments: " ++ (Value.array arguments).render, []⟩]

def closing (method : String) : Except Halt Value → List Event
  | .ok value => [⟨.info, "Result: " ++ value.render, []⟩, ⟨.info, "Ending " ++ method, []⟩]
  | .error (.failed e) => [⟨.error, method ++ " failed: " ++ e.message, []⟩]
  | .error (.panicked (.severe _)) => []
  | .error (.panicked (.text message)) => [⟨.error, method ++ " panicked: " ++ message, []⟩]
  | .error (.panicked .other) => [⟨.error, method ++ " panicked: " ++ "unknown panic", []⟩]
  | .error .unfinished => []

def recovered (method text : String) : Failure :=
  ⟨.cpiError, "Recovered panic in " ++ method ++ ": " ++ text, false⟩

def absent (method : String) : Failure :=
  ⟨.notImplemented, "Method " ++ method ++ " not implemented in esxcloud CPI.", false⟩

def endingOf (method : String) : Except Halt Value → Ending
  | .ok value => .result value
  | .error (.failed e) => .failure e.failure
  | .error (.panicked (.severe reason)) => .raised reason
  | .error (.panicked (.text message)) => .failure (recovered method message)
  | .error (.panicked .other) => .failure (recovered method "unknown panic")
  | .error .unfinished => .unfinished

def Ending.outcome (trail : Trail) : Ending → Outcome
  | .result value => .answered ⟨value, none, trail.text⟩
  | .failure f => .answered ⟨.null, some f, trail.text⟩
  | .raised reason => .raised reason
  | .unfinished => .unfinished

/-- The answer is an envelope whose log has one line for each of these events, in their order, and
nothing else. -/
def Outcome.Logs (outcome : Outcome) (result : Value) (failure : Option Failure)
    (events : List Event) : Prop :=
  ∃ moments : List Moment, moments.length = events.length ∧
    outcome = .answered
      ⟨result, failure, String.join (moments.zipWith Event.lineAt events)⟩

theorem Outcome.logs_of_trail {outcome : Outcome} {result : Value} {failure : Option Failure}
    {events : List Event} {trail : Trail} (kept : trail.map (·.event) = events)
    (loud : ∀ e ∈ trail, e.event.level.isRecorded)
    (answered : outcome = .answered ⟨result, failure, trail.text⟩) :
    outcome.Logs result failure events := by
  refine ⟨trail.map (·.moment), ?_, ?_⟩
  · rw [← kept, List.length_map, List.length_map]
  · rw [answered, Trail.text_eq_lines loud, kept]

section Endings

variable {method : String} {result : Except Halt Value} {trail : Trail}

theorem outcome_eq_raised_iff {reason : String} :
    (endingOf method result).outcome trail = .raised reason ↔
      result = .error (.panicked (.severe reason)) := by
  match result with
  | .ok value | .error (.failed e) | .error (.panicked (.text message))
  | .error (.panicked .other) | .error .unfinished => simp [endingOf, Ending.outcome]
  | .error (.panicked (.severe other)) => simp [endingOf, Ending.outcome]

theorem failure_eq_none_iff {envelope : Envelope}
    (answered : (endingOf method result).outcome trail = .answered envelope) :
    (envelope.failure = none ↔ ∃ value, result = .ok value) ∧
      (envelope.failure ≠ none → envelope.result = .null) := by
  match result with
  | .ok value =>
    obtain rfl := Outcome.answered.inj answered
    simp
  | .error (.failed e) | .error (.panicked (.text message)) | .error (.panicked .other) =>
    obtain rfl := Outcome.answered.inj answered
    simp
  | .error (.panicked (.severe reason)) | .error .unfinished => cases answered

end Endings

section Plays

variable {α : Type} {w : Surroundings} {past : History}

theorem play_emit_bind (event : Event) (k : Unit → Program α) :
    (emit event >>= k).play w past = (k ()).play w (past ++ .told [event]) := rfl

theorem play_conclude (method : String) (result : Except Halt Value) :
    (conclude method result).play w past =
      (endingOf method result, past ++ .told (closing method result)) := by
  match result with
  | .ok value =>
    rw [conclude, play_emit_bind, play_emit_bind, List.append_assoc]
    rfl
  | .error (.failed e) => rfl
  | .error (.panicked (.severe reason)) => simp [conclude, closing, endingOf, History.told, pure]
  | .error (.panicked (.text message)) => rfl
  | .error (.panicked .other) => rfl
  | .error .unfinished => simp [conclude, closing, endingOf, History.told, pure]

theorem play_call_of_missing {t : Table} {method : String} (missing : t.get? method = none)
    (s : Settings) (arguments : List Value) :
    (call t s method arguments).play w past =
      (.failure (ActionError.notImplemented method).failure,
        past ++ .told (opening method arguments) ++
          .told [.error (ActionError.notImplemented method).message]) := by
  rw [call, play_emit_bind, play_emit_bind, missing, List.append_assoc]
  rfl

theorem play_call_of_found {t : Table} {method : String} {action : Action}
    (found : t.get? method = some action) (s : Settings) (arguments : List Value) :
    (call t s method arguments).play w past =
      match (action.invoke s ⟨arguments⟩).play w (past ++ .told (opening method arguments)) with
      | (result, acted) => (endingOf method result, acted ++ .told (closing method result)) := by
  rw [call, play_emit_bind, play_emit_bind, found, List.append_assoc]
  dsimp only
  rw [Program.bind_eq, Program.play_bind, play_conclude]
  rfl

end Plays
end Dispatch

section Dispatch

variable (t : Table) (s : Settings) (method : String) (arguments : List Value) (w : Surroundings)
  (past : History)

theorem play_dispatch :
    (dispatch t s method arguments).play w past =
      match (Dispatch.call t s method arguments).play (w.behind past) [] with
      | (ending, h) => (ending.outcome (w.overhear past h).1, (w.overhear past h).2) := by
  rw [dispatch, Program.bind_eq, Program.play_bind, Program.play_recorded]
  rcases (Dispatch.call t s method arguments).play (w.behind past) [] with ⟨_ | _ | _ | _, h⟩ <;> rfl

def Dispatch.invoked (action : Action) : Except Halt Value × History :=
  (action.invoke s ⟨arguments⟩).play (w.behind past) (.told (opening method arguments))

theorem play_dispatch_of_found {action : Action} (found : t.get? method = some action) :
    (dispatch t s method arguments).play w past =
      match Dispatch.invoked s method arguments w past action with
      | (result, acted) =>
        let h := acted ++ .told (Dispatch.closing method result)
        ((Dispatch.endingOf method result).outcome (w.overhear past h).1, (w.overhear past h).2) := by
  rw [play_dispatch, Dispatch.play_call_of_found found]
  rfl

theorem logs_of_missing {t : Table} {method : String} (missing : t.get? method = none) :
    (((dispatch t s method arguments).play w past).1).Logs .null (some (Dispatch.absent method))
      (Dispatch.opening method arguments ++
        [⟨.error, "Method " ++ method ++ " not implemented in esxcloud CPI.", []⟩]) := by
  rw [play_dispatch, Dispatch.play_call_of_missing missing]
  refine Dispatch.Outcome.logs_of_trail ?_ (fun e => Surroundings.isRecorded_of_mem_overhear) rfl
  rw [Surroundings.events_overhear, History.loud_append, History.loud_append, History.loud_told,
    History.loud_told]
  rfl

theorem exists_trail_of_found {t : Table} {method : String} {action : Action}
    (found : t.get? method = some action) :
    let invoked := Dispatch.invoked s method arguments w past action
    let opening := Dispatch.opening method arguments
    ∃ own trail, invoked.2 = .told opening ++ own ∧
      trail.map (·.event) = opening ++ own.loud ++ Dispatch.closing method invoked.1 ∧
      (∀ e ∈ trail, e.event.level.isRecorded) ∧
      ((dispatch t s method arguments).play w past).1 =
        (Dispatch.endingOf method invoked.1).outcome trail := by
  intro invoked opening
  have grown : ∃ own, invoked.2 = .told opening ++ own := Program.exists_play_eq ..
  obtain ⟨own, grown⟩ := grown
  rw [play_dispatch_of_found t s method arguments w past found]
  refine ⟨own, _, grown, ?_, fun e => Surroundings.isRecorded_of_mem_overhear, rfl⟩
  have loud : (Dispatch.closing method invoked.1).filter (·.level.isRecorded) =
      Dispatch.closing method invoked.1 := by
    rcases invoked.1 with (e | (message | _ | reason) | _) | value <;> rfl
  rw [Surroundings.events_overhear, History.loud_append, History.loud_told, loud]
  change History.loud invoked.2 ++ _ = _
  rw [grown, History.loud_append, History.loud_told]
  rfl

/-- One envelope for each dispatched request. Of the surroundings and of what has happened before
nothing is known, and the action may be any: its own part of the history begins behind the opening. -/
theorem dispatch_enveloped :
    let outcome := ((dispatch t s method arguments).play w past).1
    let opening := Dispatch.opening method arguments
    let invoked := Dispatch.invoked s method arguments w past
    (∀ reason, outcome = .raised reason ↔ ∃ action, t.get? method = some action ∧
      (invoked action).1 = .error (.panicked (.severe reason))) ∧
    (∀ envelope, outcome = .answered envelope →
      (envelope.failure = none ↔ ∃ action value, t.get? method = some action ∧
        (invoked action).1 = .ok value) ∧
      (envelope.failure ≠ none → envelope.result = .null)) ∧
    match t.get? method with
    | none =>
      outcome.Logs .null (some (Dispatch.absent method))
        (opening ++ [⟨.error, "Method " ++ method ++ " not implemented in esxcloud CPI.", []⟩])
    | some action =>
      ∃ own, (invoked action).2 = .told opening ++ own ∧
      match (invoked action).1 with
      | .ok value =>
        outcome.Logs value none
          (opening ++ own.loud ++
            [⟨.info, "Result: " ++ value.render, []⟩, ⟨.info, "Ending " ++ method, []⟩])
      | .error (.failed e) =>
        outcome.Logs .null (some e.failure)
          (opening ++ own.loud ++ [⟨.error, method ++ " failed: " ++ e.message, []⟩])
      | .error (.panicked (.text message)) =>
        outcome.Logs .null (some (Dispatch.recovered method message))
          (opening ++ own.loud ++ [⟨.error, method ++ " panicked: " ++ message, []⟩])
      | .error (.panicked .other) =>
        outcome.Logs .null (some (Dispatch.recovered method "unknown panic"))
          (opening ++ own.loud ++ [⟨.error, method ++ " panicked: " ++ "unknown panic", []⟩])
      | .error (.panicked (.severe reason)) => outcome = .raised reason
      | .error .unfinished => outcome = .unfinished := by
  intro outcome opening invoked
  rcases found : t.get? method with _ | action
  · have logs := logs_of_missing s arguments w past found
    refine ⟨fun reason => ?_, fun envelope same => ?_, logs⟩
    · obtain ⟨moments, -, answered⟩ := logs
      simp [outcome, answered]
    · obtain ⟨moments, -, answered⟩ := logs
      obtain rfl := Dispatch.Outcome.answered.inj (answered.symm.trans same)
      simp
  · obtain ⟨own, trail, grown, events, loud, ended⟩ :=
      exists_trail_of_found s arguments w past found
    change (invoked action).2 = .told opening ++ own at grown
    change trail.map (·.event) = opening ++ own.loud ++ Dispatch.closing method (invoked action).1
      at events
    change outcome = (Dispatch.endingOf method (invoked action).1).outcome trail at ended
    refine ⟨fun reason => ?_, fun envelope answered => ?_, own, grown, ?_⟩
    · rw [ended, Dispatch.outcome_eq_raised_iff]
      simp
    · obtain ⟨free, void⟩ := Dispatch.failure_eq_none_iff (ended ▸ answered)
      exact ⟨by simpa using free, void⟩
    · generalize (invoked action).1 = result at events ended ⊢
      match result with
      | .ok value | .error (.failed e) | .error (.panicked (.text message))
      | .error (.panicked .other) => exact Dispatch.Outcome.logs_of_trail events loud ended
      | .error (.panicked (.severe reason)) | .error .unfinished => exact ended

end Dispatch
end CloudProvider
