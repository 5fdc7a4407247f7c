import CloudProvider.Proofs.Cancellation
import CloudProvider.Proofs.Mishaps

/-! What a wait says. Every failed poll after which it goes on is warned of, with the number of failures
in a row that there are by then, and its last words are those of its ending. So what is said is a
property of the answers to the polls and of the ending alone: the counter that is shown is the length
of the latest run of failures, and each ending is told of once, by its own words. Time may go forward
as it likes here, and a signal may be given whenever it is heeded. -/

namespace CloudProvider

/-- The least that the clock shows from now on. A rest that is not cut short lasts until its deadline,
if not longer. -/
def Exchange.reachedAfter (reached : Nat) : Exchange → Nat
  | ⟨.now, now⟩ => max reached now
  | ⟨.pause deadline _, false⟩ => max reached deadline
  | _ => reached

def History.reached (h : History) : Nat :=
  h.foldl Exchange.reachedAfter 0

/-- The clock does not go back, and no rest is cut short but by a signal that it heeds. Everything may
take time. -/
structure Surroundings.GoesForward (w : Surroundings) : Prop where
  now : ∀ past, past.reached ≤ w past .now
  rests : w.IsUnhurried

namespace History

theorem reached_concat (h : History) (x : Exchange) :
    reached (h ++ [x]) = x.reachedAfter h.reached :=
  List.foldl_append

theorem le_reached_concat (h : History) (x : Exchange) : h.reached ≤ reached (h ++ [x]) := by
  rw [reached_concat]
  unfold Exchange.reachedAfter
  split <;> omega

theorem reached_told (h : History) (events : List Event) :
    reached (h ++ told events) = h.reached := by
  induction events generalizing h with
  | nil => rw [told, List.map_nil, List.append_nil]
  | cons event rest ih =>
    have one : told (event :: rest) = [⟨.emit event, ()⟩] ++ told rest := rfl
    rw [one, ← List.append_assoc, ih, reached_concat]
    rfl

theorem pollAnswers_append_told (h : History) (events : List Event) :
    pollAnswers (h ++ told events) = h.pollAnswers := by
  simp [pollAnswers, told, Exchange.pollAnswer?]

theorem pollAnswers_concat_of_none {x : Exchange} (unpolled : x.pollAnswer? = none) (h : History) :
    pollAnswers (h ++ [x]) = h.pollAnswers := by
  simp [pollAnswers, unpolled]

theorem pollAnswers_dealings (h : History) : pollAnswers h.dealings = h.pollAnswers := by
  rw [pollAnswers, pollAnswers, dealings, List.filterMap_filter]
  refine List.filterMap_congr fun x _ => ?_
  obtain ⟨e, reply⟩ := x
  cases e <;> rfl

theorem loud_concat_of_isDealing {x : Exchange} (deals : x.effect.isDealing) (h : History) :
    loud (h ++ [x]) = h.loud := by
  obtain ⟨e, reply⟩ := x
  have silent : loud [⟨e, reply⟩] = [] := by
    cases e <;> first | rfl | cases deals
  rw [loud_append, silent, List.append_nil]

theorem dealings_concat_of_isDealing {x : Exchange} (deals : x.effect.isDealing) (h : History) :
    dealings (h ++ [x]) = h.dealings ++ [x] := by
  rw [dealings_append]
  exact congrArg (h.dealings ++ ·) (List.filter_cons_of_pos deals)

theorem dealings_append_told (h : History) (events : List Event) :
    dealings (h ++ told events) = h.dealings := by
  rw [dealings_append, dealings_told, List.append_nil]

theorem loud_append_told (h : History) (events : List Event) :
    loud (h ++ told events) = h.loud ++ events.filter (·.level.isRecorded) := by
  rw [loud_append, loud_told]

end History

namespace Wait

def retrying (policy : Policy) (id : TaskId) (failures : Nat) (e : CloudError) : Event :=
  .warn "poll failed, retrying"
    [subject id, ("failures", .integer failures),
      ("max_retries", .integer policy.maxRetries.toNat), ("error", .text e.message)]

/-- The warning after the answer at this place, if it is a failure that is tolerated: no refusal, and
no more failures in a row by then than may be retried. -/
def warning? (policy : Policy) (id : TaskId) (answers : List (Except CloudError Task)) (k : Nat) :
    Option Event :=
  match answers[k]? with
  | some (.error e) =>
    let failures := failuresInRow (answers.take (k + 1))
    if e.isRefusal = false ∧ failures ≤ policy.maxRetries.toNat then
      some (retrying policy id failures e)
    else none
  | _ => none

def warnings (policy : Policy) (id : TaskId) (answers : List (Except CloudError Task)) :
    List Event :=
  (List.range answers.length).filterMap (warning? policy id answers)

def WarnsOf (policy : Policy) (id : TaskId) (answers : List (Except CloudError Task)) (n : Nat) :
    Prop :=
  ∀ k < n, ∀ e, answers[k]? = some (.error e) → (warning? policy id answers k).isSome

inductive Ending
  | completed (task : Task)
  | failed (task : Task)
  | refused (e : CloudError)
  /-- A poll has failed, and it is one more in a row than may be retried. -/
  | exhausted (e : CloudError)
  | late
  /-- A signal has cut a rest short. -/
  | cut
  /-- The signal has been given before the first poll. -/
  | forestalled
  /-- The clock cannot show the deadline of a rest. -/
  | unshowable

namespace Ending

def result (id : TaskId) : Ending → Except Halt Task
  | .completed task => .ok task
  | .failed task => .error (.failed (.cloud (.taskFailed task)))
  | .refused e | .exhausted e => .error (.failed (.cloud e))
  | .late | .cut | .forestalled => .error (.failed (.cloud (.taskTimeout id)))
  | .unshowable => .error (.panicked (.text "overflow when adding duration to instant"))

def closing (policy : Policy) (id : TaskId) : Ending → List Event
  | .completed task => [.info "task completed" [subject id, ("operation", .text task.operation)]]
  | .failed task =>
    .error "task failed" [subject id, ("operation", .text task.operation)] ::
      task.steps.flatMap fun step =>
        step.errors.map fun r => .error r.message [subject id, ("code", .text r.code)]
  | .exhausted e =>
    [.error "giving up on task"
      [subject id, ("failures", .integer (policy.maxRetries.toNat + 1 : Nat)),
        ("error", .text e.message)]]
  | .late => [ranOut policy id]
  | .cut => [cancelled id]
  | .refused _ | .forestalled | .unshowable => []

/-- How the dealings of a wait show its ending, which is the last of them. -/
def IsShownBy (policy : Policy) (id : TaskId) (dealings : History) : Ending → Prop
  | .completed task =>
    dealings.getLast? = some ⟨.call (.poll id), .ok task⟩ ∧ task.state = .completed
  | .failed task => dealings.getLast? = some ⟨.call (.poll id), .ok task⟩ ∧ task.state = .error
  | .refused e =>
    dealings.getLast? = some ⟨.call (.poll id), .error e⟩ ∧ e.isRefusal = true
  | .exhausted e =>
    dealings.getLast? = some ⟨.call (.poll id), .error e⟩ ∧ e.isRefusal = false ∧
      failuresInRow dealings.pollAnswers = policy.maxRetries.toNat + 1
  | .late => ∃ started now, dealings.head? = some ⟨.now, started⟩ ∧
      dealings.getLast? = some ⟨.now, now⟩ ∧ policy.timeout.nanos ≤ now - started
  | .cut => ∃ deadline, dealings.getLast? = some ⟨.pause deadline true, true⟩
  | .forestalled => ∃ started, dealings = [⟨.now, started⟩, ⟨.signalled, true⟩]
  | .unshowable => ∃ now, dealings.getLast? = some ⟨.now, now⟩ ∧
      clockLimit * 10 ^ 9 ≤ now + policy.interval.nanos

end Ending

section Events

variable {policy : Policy} {id : TaskId} {answer : Except CloudError Task}
  {earlier : List (Except CloudError Task)}

theorem warning?_append {answers more : List (Except CloudError Task)} {k : Nat}
    (within : k < answers.length) :
    warning? policy id (answers ++ more) k = warning? policy id answers k := by
  rw [warning?, warning?, List.getElem?_append_left within, List.take_append_of_le_length within]

theorem warning?_last (answer : Except CloudError Task) :
    warning? policy id (earlier ++ [answer]) earlier.length =
      match answer with
      | .error e =>
        let failures := failuresInRow (earlier ++ [.error e])
        if e.isRefusal = false ∧ failures ≤ policy.maxRetries.toNat then
          some (retrying policy id failures e)
        else none
      | .ok _ => none := by
  have all : (earlier ++ [answer]).take (earlier.length + 1) = earlier ++ [answer] :=
    List.take_of_length_le (by simp)
  rw [warning?, List.getElem?_concat_length, all]
  cases answer <;> rfl

/-- One more answer adds its own warning, and changes none before. -/
theorem warnings_concat (answer : Except CloudError Task) :
    warnings policy id (earlier ++ [answer]) =
      warnings policy id earlier ++
        (warning? policy id (earlier ++ [answer]) earlier.length).toList := by
  have same : (List.range earlier.length).filterMap (warning? policy id (earlier ++ [answer])) =
      warnings policy id earlier :=
    List.filterMap_congr fun k mem => warning?_append (List.mem_range.mp mem)
  rw [warnings, List.length_append, List.length_singleton, List.range_succ, List.filterMap_append,
    same]
  cases last : warning? policy id (earlier ++ [answer]) earlier.length <;> simp [last]

theorem WarnsOf.mono {m n : Nat} (warns : WarnsOf policy id earlier n) (fewer : m ≤ n) :
    WarnsOf policy id earlier m :=
  fun k before => warns k (before.trans_le fewer)

theorem WarnsOf.append {n : Nat} (warns : WarnsOf policy id earlier n) (within : n ≤ earlier.length)
    (more : List (Except CloudError Task)) : WarnsOf policy id (earlier ++ more) n := by
  intro k before e given
  have place : k < earlier.length := before.trans_le within
  rw [List.getElem?_append_left place] at given
  rw [warning?_append place]
  exact warns k before e given

theorem WarnsOf.concat (warns : WarnsOf policy id earlier earlier.length)
    (last : ∀ e, answer = .error e →
      (warning? policy id (earlier ++ [answer]) earlier.length).isSome) :
    WarnsOf policy id (earlier ++ [answer]) (earlier ++ [answer]).length := by
  intro k before e given
  rw [List.length_append, List.length_singleton] at before
  rcases Nat.lt_succ_iff_lt_or_eq.mp before with before | rfl
  · exact warns.append le_rfl [answer] k before e given
  · exact last e (Option.some.inj (List.getElem?_concat_length.symm.trans given))

theorem failuresInRow_take_succ {answers : List (Except CloudError Task)} {k : Nat}
    (given : answers[k]? = some answer) :
    failuresInRow (answers.take (k + 1)) =
      if isTransient answer then failuresInRow (answers.take k) + 1 else 0 := by
  rw [List.take_add_one, given, Option.toList_some, failuresInRow_concat]

/-- The number in a warning is that of a run of failures which ends there, and so it begins at one
behind every poll that has not failed. -/
theorem exists_retrying {answers : List (Except CloudError Task)} {k : Nat} {event : Event}
    (warned : warning? policy id answers k = some event) :
    ∃ e failures, answers[k]? = some (.error e) ∧ e.isRefusal = false ∧
      event = retrying policy id failures e ∧
      failures = failuresInRow (answers.take (k + 1)) ∧ 1 ≤ failures ∧
      failures ≤ policy.maxRetries.toNat ∧
      ((k = 0 ∨ ∃ task, answers[k - 1]? = some (.ok task)) → failures = 1) := by
  unfold warning? at warned
  split at warned
  case h_2 => cases warned
  case h_1 e given =>
    obtain ⟨⟨transient, within⟩, same⟩ := Option.ite_none_right_eq_some.mp warned
    have counted : failuresInRow (answers.take (k + 1)) = failuresInRow (answers.take k) + 1 := by
      rw [failuresInRow_take_succ given, if_pos (by simp [isTransient, transient])]
    refine ⟨e, _, given, transient, (Option.some.inj same).symm, rfl, by omega, within, ?_⟩
    rintro (rfl | ⟨task, before⟩)
    · rw [counted]
      rfl
    · cases k with
      | zero =>
        rw [counted]
        rfl
      | succ k =>
        rw [Nat.add_sub_cancel] at before
        rw [counted, failuresInRow_take_succ before, if_neg (by simp [isTransient])]

end Events

/-- What a verdict on the latest answer means, and what is said with it. -/
def Verdict.Tells (policy : Policy) (id : TaskId) (earlier : List (Except CloudError Task))
    (dealings : History) (said : List Event) : Verdict → Prop
  | .over outcome => ∃ ending : Ending, concluded outcome = ending.result id ∧
      ending.IsShownBy policy id dealings ∧
      warnings policy id dealings.pollAnswers = warnings policy id earlier ∧
      said.filter (·.level.isRecorded) = ending.closing policy id
  | .overflow => False
  | .again failures => failures = failuresInRow dealings.pollAnswers ∧
      failures ≤ policy.maxRetries.toNat ∧
      (WarnsOf policy id earlier earlier.length →
        WarnsOf policy id dealings.pollAnswers dealings.pollAnswers.length) ∧
      warnings policy id dealings.pollAnswers =
        warnings policy id earlier ++ said.filter (·.level.isRecorded)

section Verdicts

variable {policy : Policy} {id : TaskId} {answer : Except CloudError Task}
  {earlier : List (Except CloudError Task)} {dealings : History}

theorem judgeSnapshot_tells {task : Task}
    (answered : dealings.pollAnswers = earlier ++ [.ok task])
    (last : dealings.getLast? = some ⟨.call (.poll id), .ok task⟩) :
    (judgeSnapshot id task).2.Tells policy id earlier dealings (judgeSnapshot id task).1 := by
  have quiet : warnings policy id dealings.pollAnswers = warnings policy id earlier := by
    rw [answered, warnings_concat, warning?_last]
    exact List.append_nil _
  have reset : failuresInRow dealings.pollAnswers = 0 := by
    rw [answered, failuresInRow_concat]
    rfl
  unfold judgeSnapshot
  cases state : task.state with
  | completed => exact ⟨.completed task, rfl, ⟨last, state⟩, quiet, rfl⟩
  | error =>
    refine ⟨.failed task, rfl, ⟨last, state⟩, quiet, ?_⟩
    rw [Ending.closing, Task.stepErrors, List.map_flatMap]
    refine List.filter_eq_self.mpr fun event mem => ?_
    rcases List.mem_cons.mp mem with rfl | mem
    · rfl
    · obtain ⟨step, -, mem⟩ := List.mem_flatMap.mp mem
      obtain ⟨r, -, rfl⟩ := List.mem_map.mp mem
      rfl
  | queued | started | other =>
    refine ⟨reset.symm, Nat.zero_le _, fun warns => ?_, quiet.trans (List.append_nil _).symm⟩
    rw [answered]
    exact warns.concat fun e other => nomatch other

theorem judgeFailure_tells {e : CloudError} (retries : policy.maxRetries.toNat < failureLimit - 1)
    (within : failuresInRow earlier ≤ policy.maxRetries.toNat)
    (answered : dealings.pollAnswers = earlier ++ [.error e])
    (last : dealings.getLast? = some ⟨.call (.poll id), .error e⟩) :
    let judged := judgeFailure policy id (failuresInRow earlier) e
    judged.2.Tells policy id earlier dealings judged.1 := by
  unfold judgeFailure
  by_cases refusal : e.isRefusal
  · have quiet : warnings policy id dealings.pollAnswers = warnings policy id earlier := by
      rw [answered, warnings_concat, warning?_last]
      simp [refusal]
    rw [if_pos refusal]
    exact ⟨.refused e, rfl, ⟨last, refusal⟩, quiet, rfl⟩
  have transient : e.isRefusal = false := by simpa using refusal
  have counted : failuresInRow dealings.pollAnswers = failuresInRow earlier + 1 := by
    rw [answered, failuresInRow_concat, if_pos (by simp [isTransient, transient])]
  -- While there are fewer retries than the word of the counter holds, no count overflows.
  have fits : ¬ failureLimit ≤ failuresInRow dealings.pollAnswers := by omega
  have warned : warnings policy id dealings.pollAnswers = warnings policy id earlier ++
      if failuresInRow dealings.pollAnswers ≤ policy.maxRetries.toNat then
        [retrying policy id (failuresInRow dealings.pollAnswers) e] else [] := by
    rw [answered, warnings_concat, warning?_last]
    simp only [transient, true_and]
    split <;> rfl
  rw [if_neg refusal]
  dsimp only
  rw [← counted, if_neg fits]
  by_cases many : policy.maxRetries.toNat < failuresInRow dealings.pollAnswers
  · have exceeded : failuresInRow dealings.pollAnswers = policy.maxRetries.toNat + 1 := by omega
    rw [if_neg (Nat.not_le_of_lt many), List.append_nil] at warned
    rw [if_pos many, exceeded]
    exact ⟨.exhausted e, rfl, ⟨last, transient, exceeded⟩, warned, rfl⟩
  · rw [if_pos (Nat.le_of_not_lt many)] at warned
    rw [if_neg many]
    refine ⟨rfl, Nat.le_of_not_lt many, fun warns => ?_, warned⟩
    rw [answered] at many ⊢
    refine warns.concat fun e' same => ?_
    rw [warning?_last]
    simp [transient, Nat.le_of_not_lt many]

theorem judge_tells (retries : policy.maxRetries.toNat < failureLimit - 1)
    (within : failuresInRow earlier ≤ policy.maxRetries.toNat)
    (answered : dealings.pollAnswers = earlier ++ [answer])
    (last : dealings.getLast? = some ⟨.call (.poll id), answer⟩) :
    let judged := judge policy id (failuresInRow earlier) answer
    judged.2.Tells policy id earlier dealings judged.1 := by
  cases answer with
  | ok task => exact judgeSnapshot_tells answered last
  | error e => exact judgeFailure_tells retries within answered last

end Verdicts

section Rounds

variable {policy : Policy} {id : TaskId} {heeding : Bool} {started rounds failures : Nat}
  {w : Surroundings} {past : History}

def onward (policy : Policy) (id : TaskId) (heeding : Bool) (started rounds failures : Nat) :
    Pipeline Task := do
  if ← rest policy heeding then
    Pipeline.emit (cancelled id)
    timeout id
  else poll policy id heeding started rounds failures

theorem play_poll :
    (poll policy id heeding started (rounds + 1) failures).play w past =
      let read := past ++ [⟨.now, w past .now⟩]
      if policy.timeout.nanos ≤ w past .now - started then
        (.error (.failed (.cloud (.taskTimeout id))), read ++ History.told [ranOut policy id])
      else
        let answer := w read (.call (.poll id))
        let judged := judge policy id failures answer
        let polled := read ++ [⟨.call (.poll id), answer⟩] ++ History.told judged.1
        match judged.2 with
        | .over outcome => (concluded outcome, polled)
        | .overflow => (.error (.panicked (.text "attempt to add with overflow")), polled)
        | .again failures => (onward policy id heeding started rounds failures).play w polled := by
  rw [poll, Pipeline.play_perform_bind]
  by_cases late : policy.timeout.nanos ≤ w past .now - started
  · rw [if_pos late]
    dsimp only
    rw [if_pos late]
    rfl
  rw [if_neg late]
  dsimp only
  rw [if_neg late, Pipeline.play_perform_bind, Pipeline.play_bind, Pipeline.play_emitAll]
  dsimp only
  rcases (judge policy id failures _).2 with ⟨⟨e⟩ | ⟨task⟩⟩ | failures | _ <;> rfl

theorem play_onward :
    (onward policy id heeding started rounds failures).play w past =
      let read := past ++ [⟨.now, w past .now⟩]
      let deadline := w past .now + policy.interval.nanos
      let cut := w read (.pause deadline heeding)
      let rested := read ++ [⟨.pause deadline heeding, cut⟩]
      if clockLimit * 10 ^ 9 ≤ deadline then
        (.error (.panicked (.text "overflow when adding duration to instant")), read)
      else if cut then
        (.error (.failed (.cloud (.taskTimeout id))), rested ++ History.told [cancelled id])
      else (poll policy id heeding started rounds failures).play w rested := by
  rw [onward, Wait.rest, bind_assoc, Pipeline.play_perform_bind]
  by_cases far : clockLimit * 10 ^ 9 ≤ w past .now + policy.interval.nanos
  · rw [if_pos far]
    dsimp only
    rw [if_pos far]
    rfl
  rw [if_neg far]
  dsimp only
  rw [if_neg far, Pipeline.play_perform_bind]
  cases w (past ++ [⟨.now, w past .now⟩])
    (.pause (w past .now + policy.interval.nanos) heeding) <;> rfl

/-- The run of a wait that is begun after `past` has come to an ending and has told of it. -/
def Concludes (policy : Policy) (id : TaskId) (past : History) (run : Except Halt Task × History) :
    Prop :=
  ∃ (own : History) (ending : Ending), run.2 = past ++ own ∧ run.1 = ending.result id ∧
    ending.IsShownBy policy id own.dealings ∧
    own.loud = warnings policy id own.pollAnswers ++ ending.closing policy id ∧
    WarnsOf policy id own.pollAnswers (own.pollAnswers.length - 1)

/-- The invariant of a wait, at the head of the round `k` and after its poll: so far nothing but
warnings has been said, the counter holds the latest run of failures, and in each round before one
interval at least has gone by. -/
structure Unbroken (policy : Policy) (id : TaskId) (past : History) (started k failures : Nat)
    (own : History) : Prop where
  begun : own.dealings.head? = some ⟨.now, started⟩
  counted : failures = failuresInRow own.pollAnswers
  within : failures ≤ policy.maxRetries.toNat
  said : own.loud = warnings policy id own.pollAnswers
  warns : WarnsOf policy id own.pollAnswers own.pollAnswers.length
  reached : started + k * policy.interval.nanos ≤ History.reached (past ++ own)

variable {k : Nat} {own : History}

theorem Unbroken.begun_append (unbroken : Unbroken policy id past started k failures own)
    (more : History) : (own.dealings ++ more).head? = some ⟨.now, started⟩ := by
  rw [List.head?_append, unbroken.begun]
  rfl

theorem Unbroken.le_now (unbroken : Unbroken policy id past started k failures own)
    (forward : w.GoesForward) :
    started + k * policy.interval.nanos ≤ w (past ++ own) .now :=
  unbroken.reached.trans (forward.now _)

theorem Unbroken.pass (unbroken : Unbroken policy id past started k failures own) (x : Exchange)
    (deals : x.effect.isDealing) (unpolled : x.pollAnswer? = none) :
    Unbroken policy id past started k failures (own ++ [x]) := by
  have heard : History.pollAnswers (own ++ [x]) = own.pollAnswers :=
    History.pollAnswers_concat_of_none unpolled own
  refine ⟨?_, ?_, unbroken.within, ?_, ?_, ?_⟩
  · rw [History.dealings_concat_of_isDealing deals]
    exact unbroken.begun_append [x]
  · rw [heard]
    exact unbroken.counted
  · rw [History.loud_concat_of_isDealing deals, heard]
    exact unbroken.said
  · rw [heard]
    exact unbroken.warns
  · rw [← List.append_assoc]
    exact unbroken.reached.trans (History.le_reached_concat ..)

theorem Unbroken.concludes (unbroken : Unbroken policy id past started k failures own)
    (ending : Ending) (events : List Event)
    (words : events.filter (·.level.isRecorded) = ending.closing policy id)
    (shown : ending.IsShownBy policy id own.dealings) :
    Concludes policy id past (ending.result id, past ++ own ++ .told events) := by
  refine ⟨own ++ .told events, ending, List.append_assoc .., rfl, ?_, ?_, ?_⟩
  · rwa [History.dealings_append_told]
  · rw [History.loud_append_told, History.pollAnswers_append_told, unbroken.said, words]
  · rw [History.pollAnswers_append_told]
    exact unbroken.warns.mono (Nat.sub_le ..)

theorem Unbroken.concludes_silently (unbroken : Unbroken policy id past started k failures own)
    (ending : Ending) (silent : ending.closing policy id = [])
    (shown : ending.IsShownBy policy id own.dealings) :
    Concludes policy id past (ending.result id, past ++ own) := by
  have ended := unbroken.concludes ending [] silent.symm shown
  rwa [History.told, List.map_nil, List.append_nil] at ended

theorem concludes_late (unbroken : Unbroken policy id past started k failures own)
    (late : policy.timeout.nanos ≤ w (past ++ own) .now - started) :
    Concludes policy id past
      ((poll policy id heeding started (rounds + 1) failures).play w (past ++ own)) := by
  have read := unbroken.pass ⟨.now, w (past ++ own) .now⟩ rfl rfl
  rw [play_poll]
  dsimp only
  rw [if_pos late, List.append_assoc past]
  refine read.concludes .late [ranOut policy id] rfl ⟨started, _, read.begun, ?_, late⟩
  rw [History.dealings_concat_of_isDealing rfl]
  exact List.getLast?_concat ..

theorem Unbroken.judged (retries : policy.maxRetries.toNat < failureLimit - 1)
    (unbroken : Unbroken policy id past started k failures own)
    (answer : Except CloudError Task) :
    let judged := judge policy id failures answer
    let polled : History := own ++ [⟨.call (.poll id), answer⟩] ++ .told judged.1
    match judged.2 with
    | .over outcome => Concludes policy id past (concluded outcome, past ++ polled)
    | .overflow => False
    | .again failures' => Unbroken policy id past started k failures' polled := by
  let asked : History := own ++ [⟨.call (.poll id), answer⟩]
  have dealt : asked.dealings = own.dealings ++ [⟨.call (.poll id), answer⟩] :=
    History.dealings_concat_of_isDealing rfl own
  have answered : asked.pollAnswers = own.pollAnswers ++ [answer] :=
    History.pollAnswers_append own [⟨.call (.poll id), answer⟩]
  have last : asked.dealings.getLast? = some ⟨.call (.poll id), answer⟩ := by
    rw [dealt]
    exact List.getLast?_concat ..
  have tells := judge_tells retries (unbroken.counted ▸ unbroken.within)
    ((History.pollAnswers_dealings asked).trans answered) last
  rw [← unbroken.counted] at tells
  dsimp only at tells ⊢
  generalize judge policy id failures answer = judged at tells ⊢
  obtain ⟨events, verdict⟩ := judged
  let polled : History := asked ++ .told events
  have told : polled.dealings = asked.dealings := History.dealings_append_told ..
  have heard : polled.pollAnswers = asked.pollAnswers := History.pollAnswers_append_told ..
  have said : polled.loud =
      warnings policy id own.pollAnswers ++ events.filter (·.level.isRecorded) := by
    rw [History.loud_append_told, History.loud_concat_of_isDealing rfl, unbroken.said]
  match verdict, tells with
  | .over outcome, ⟨ending, result, shown, quiet, words⟩ =>
    rw [History.pollAnswers_dealings] at quiet
    refine ⟨polled, ending, rfl, result, told ▸ shown, ?_, ?_⟩
    · rw [said, heard, quiet, words]
    · rw [heard, answered, List.length_append, List.length_singleton, Nat.add_sub_cancel]
      exact unbroken.warns.append le_rfl [answer]
  | .again failures', ⟨counted, within, warns, warned⟩ =>
    rw [History.pollAnswers_dealings] at counted warns warned
    refine ⟨?_, heard ▸ counted, within, heard ▸ said.trans warned.symm,
      heard ▸ warns unbroken.warns, ?_⟩
    · rw [told, dealt]
      exact unbroken.begun_append _
    · rw [← List.append_assoc, History.reached_told, ← List.append_assoc]
      exact unbroken.reached.trans (History.le_reached_concat ..)

variable (heeding rounds) in
theorem concludes_or_polled (retries : policy.maxRetries.toNat < failureLimit - 1)
    (unbroken : Unbroken policy id past started k failures own)
    (early : ¬ policy.timeout.nanos ≤ w (past ++ own) .now - started) :
    Concludes policy id past
        ((poll policy id heeding started (rounds + 1) failures).play w (past ++ own)) ∨
      ∃ failures' polled, Unbroken policy id past started k failures' polled ∧
        (poll policy id heeding started (rounds + 1) failures).play w (past ++ own) =
          (onward policy id heeding started rounds failures').play w (past ++ polled) := by
  have read := unbroken.pass ⟨.now, w (past ++ own) .now⟩ rfl rfl
  rw [play_poll]
  dsimp only
  rw [if_neg early, List.append_assoc past]
  generalize w (past ++ (own ++ [⟨.now, w (past ++ own) .now⟩])) (.call (.poll id)) = answer
  have judged := read.judged retries answer
  rw [List.append_assoc past, List.append_assoc past]
  dsimp only at judged
  split at judged
  case h_1 => exact .inl judged
  case h_2 => exact judged.elim
  case h_3 failures' _ => exact .inr ⟨failures', _, judged, rfl⟩

variable (heeding rounds) in
theorem concludes_or_rested (forward : w.GoesForward)
    (unbroken : Unbroken policy id past started k failures own) :
    Concludes policy id past
        ((onward policy id heeding started rounds failures).play w (past ++ own)) ∨
      ∃ rested, Unbroken policy id past started (k + 1) failures rested ∧
        (onward policy id heeding started rounds failures).play w (past ++ own) =
          (poll policy id heeding started rounds failures).play w (past ++ rested) := by
  have goes := unbroken.le_now forward
  rw [play_onward]
  dsimp only
  generalize w (past ++ own) .now = now at goes
  have heeds : w (past ++ own ++ [⟨.now, now⟩]) (.pause (now + policy.interval.nanos) heeding) =
      true → heeding = true := by
    intro cut
    cases heeding with
    | true => rfl
    | false => exact (forward.rests ..).symm.trans cut
  have read := unbroken.pass ⟨.now, now⟩ rfl rfl
  by_cases far : clockLimit * 10 ^ 9 ≤ now + policy.interval.nanos
  · rw [if_pos far, List.append_assoc]
    refine .inl (read.concludes_silently .unshowable rfl ⟨now, ?_, far⟩)
    rw [History.dealings_concat_of_isDealing rfl]
    exact List.getLast?_concat ..
  rw [if_neg far]
  generalize w (past ++ own ++ [⟨.now, now⟩]) (.pause (now + policy.interval.nanos) heeding) = cut
    at heeds
  have rested := read.pass ⟨.pause (now + policy.interval.nanos) heeding, cut⟩ rfl rfl
  rw [List.append_assoc past, List.append_assoc past]
  cases cut with
  | true =>
    obtain rfl := heeds rfl
    rw [if_pos rfl]
    refine .inl (rested.concludes .cut [cancelled id] rfl ⟨now + policy.interval.nanos, ?_⟩)
    rw [History.dealings_concat_of_isDealing rfl]
    exact List.getLast?_concat ..
  | false =>
    have later : started + (k + 1) * policy.interval.nanos ≤ History.reached
        (past ++ (own ++ [⟨.now, now⟩] ++
          [⟨.pause (now + policy.interval.nanos) heeding, false⟩])) := by
      rw [← List.append_assoc, History.reached_concat, Nat.succ_mul, ← Nat.add_assoc]
      exact (Nat.add_le_add_right goes _).trans (Nat.le_max_right ..)
    exact .inr ⟨_, { rested with reached := later }, rfl⟩

/-- From an unbroken round on a wait concludes, if enough rounds are left for the time to be up. -/
theorem concludes_of_unbroken (retries : policy.maxRetries.toNat < failureLimit - 1)
    (forward : w.GoesForward) (unbroken : Unbroken policy id past started k failures own)
    (enough : policy.timeout.nanos ≤ (k + rounds) * policy.interval.nanos) :
    Concludes policy id past
      ((poll policy id heeding started (rounds + 1) failures).play w (past ++ own)) := by
  induction rounds generalizing k failures own with
  | zero =>
    have goes := unbroken.le_now forward
    rw [Nat.add_zero] at enough
    exact concludes_late unbroken (by omega)
  | succ rounds ih =>
    by_cases late : policy.timeout.nanos ≤ w (past ++ own) .now - started
    · exact concludes_late unbroken late
    rcases concludes_or_polled heeding (rounds + 1) retries unbroken late with
      ended | ⟨failures', polled, unbroken, polls⟩
    · exact ended
    rcases concludes_or_rested heeding (rounds + 1) forward unbroken with
      ended | ⟨rested, unbroken, rests⟩
    · rwa [polls]
    · rw [polls, rests]
      exact ih unbroken (by rwa [Nat.add_assoc, Nat.add_comm 1])

theorem unbroken_begun (policy : Policy) (id : TaskId) (past : History) (started : Nat) :
    Unbroken policy id past started 0 0 [⟨.now, started⟩] where
  begun := rfl
  counted := rfl
  within := Nat.zero_le _
  said := rfl
  warns := fun _ before => absurd before (Nat.not_lt_zero _)
  reached := by
    rw [History.reached_concat, Nat.zero_mul, Nat.add_zero]
    exact Nat.le_max_right ..

theorem play_begin (heeding : Bool) :
    (if heeding then untilSignalled policy id else track policy id).play w past =
      let started := past ++ [⟨.now, w past .now⟩]
      let given := w started .signalled
      if heeding then
        if given then
          (.error (.failed (.cloud (.taskTimeout id))), started ++ [⟨.signalled, given⟩])
        else (poll policy id true (w past .now) (roundLimit policy) 0).play w
          (started ++ [⟨.signalled, given⟩])
      else (poll policy id false (w past .now) (roundLimit policy) 0).play w started := by
  cases heeding with
  | false => rfl
  | true =>
    rw [if_pos rfl, untilSignalled, Pipeline.play_perform_bind, Pipeline.play_perform_bind]
    dsimp only
    cases w (past ++ [⟨.now, w past .now⟩]) .signalled <;> rfl

theorem concludes (policy : Policy) (id : TaskId) (heeding : Bool) (w : Surroundings)
    (past : History) (interval : 0 < policy.interval.nanos)
    (retries : policy.maxRetries.toNat < failureLimit - 1) (forward : w.GoesForward) :
    Concludes policy id past
      ((if heeding then untilSignalled policy id else track policy id).play w past) := by
  obtain ⟨rounds, limit, enough⟩ := exists_roundLimit_eq interval
  have goes {heeding : Bool} {own : History}
      (unbroken : Unbroken policy id past (w past .now) 0 0 own) :
      Concludes policy id past
        ((poll policy id heeding (w past .now) (rounds + 1) 0).play w (past ++ own)) :=
    concludes_of_unbroken retries forward unbroken (by rwa [Nat.zero_add])
  have begun := unbroken_begun policy id past (w past .now)
  rw [play_begin, limit]
  dsimp only
  cases heeding with
  | false => exact goes begun
  | true =>
    rw [if_pos rfl, List.append_assoc]
    generalize w (past ++ [⟨.now, w past .now⟩]) .signalled = given
    cases given with
    | false => exact goes (begun.pass ⟨.signalled, false⟩ rfl rfl)
    | true =>
      have given := begun.pass ⟨.signalled, true⟩ rfl rfl
      exact given.concludes_silently .forestalled rfl ⟨_, rfl⟩

end Rounds

/-- What a wait says, whatever its polls are answered and whenever a signal is given: a warning for
each failed poll after which it goes on, with the number of failures in a row that there are by then,
and behind the warnings the words of its ending, which belong to its result. -/
theorem events_told (policy : Policy) (id : TaskId) (heeding : Bool) (w : Surroundings)
    (past : History) (interval : 0 < policy.interval.nanos)
    (retries : policy.maxRetries.toNat < 2 ^ 32 - 1) (forward : w.GoesForward) :
    let run := (if heeding then untilSignalled policy id else track policy id).play w past
    ∃ (own : History) (ending : Ending), run.2 = past ++ own ∧ run.1 = ending.result id ∧
      ending.IsShownBy policy id own.dealings ∧
      own.loud = warnings policy id own.pollAnswers ++ ending.closing policy id ∧
      (∀ k < own.pollAnswers.length - 1, ∀ e, own.pollAnswers[k]? = some (.error e) →
        (warning? policy id own.pollAnswers k).isSome) ∧
      ∀ k event, warning? policy id own.pollAnswers k = some event →
        ∃ e failures, own.pollAnswers[k]? = some (.error e) ∧ e.isRefusal = false ∧
          event = retrying policy id failures e ∧
          failures = failuresInRow (own.pollAnswers.take (k + 1)) ∧ 1 ≤ failures ∧
          failures ≤ policy.maxRetries.toNat ∧
          ((k = 0 ∨ ∃ task, own.pollAnswers[k - 1]? = some (.ok task)) → failures = 1) := by
  obtain ⟨own, ending, behind, result, shown, said, warns⟩ :=
    concludes policy id heeding w past interval retries forward
  exact ⟨own, ending, behind, result, shown, said, warns, fun _ _ => exists_retrying⟩

def dawdling : Surroundings := fun past e =>
  match e with
  | .now => past.reached
  | e => Surroundings.polling 0 ⟨"t1"⟩ recovering past e

theorem dawdling_goesForward : dawdling.GoesForward :=
  ⟨fun _ => le_rfl, fun _ _ => rfl⟩

theorem events_told_recovering :
    let run := (untilSignalled brief ⟨"t1"⟩).play dawdling []
    run.1 = .ok (Task.new ⟨"t1"⟩ "CREATE_VM" .completed) ∧
      run.2.loud = [retrying brief ⟨"t1"⟩ 1 (.transport (some 503) "unavailable"),
        .info "task completed" [subject ⟨"t1"⟩, ("operation", .text "CREATE_VM")]] := by
  obtain ⟨own, ending, behind, result, -, said, -⟩ := events_told brief ⟨"t1"⟩ true dawdling []
    (by decide) (by decide) dawdling_goesForward
  have completed : ((untilSignalled brief ⟨"t1"⟩).play dawdling []).1 =
      .ok (Task.new ⟨"t1"⟩ "CREATE_VM" .completed) := rfl
  have polled : ((untilSignalled brief ⟨"t1"⟩).play dawdling []).2.pollAnswers =
      [recovering 0, recovering 1, recovering 2] := rfl
  have warned : warnings brief ⟨"t1"⟩ [recovering 0, recovering 1, recovering 2] =
      [retrying brief ⟨"t1"⟩ 1 (.transport (some 503) "unavailable")] := rfl
  rw [if_pos rfl] at behind result
  generalize (untilSignalled brief ⟨"t1"⟩).play dawdling [] = run at *
  obtain rfl : run.2 = own := behind
  refine ⟨completed, ?_⟩
  rw [completed] at result
  rw [polled, warned] at said
  cases ending with
  | completed task =>
    obtain rfl := Except.ok.inj result
    exact said
  | failed | refused | exhausted | late | cut | forestalled | unshowable => cases result

end Wait
end CloudProvider
