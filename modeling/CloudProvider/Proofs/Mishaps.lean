import CloudProvider.Proofs.Dealings
import CloudProvider.Proofs.Discipline
import CloudProvider.Proofs.WaitOutcome

/-! Mishaps: what can be the first thing to go wrong in a run, and how the dealings of a wait show it.
They are the clock, the rests and the answers to the polls, and there is no wait whose dealings leave
it open how it has ended. -/

namespace CloudProvider

inductive Mishap
  | argument (fault : ArgumentFault)
  | file (fault : Files.Fault)
  | archive (fault : Archive.Fault)
  /-- The stemcell at this path has no image in it. -/
  | noImage (path : String)
  | command (output : CommandOutput)
  /-- A submission or a reading, and not a poll. -/
  | declined (c : Call) (e : CloudError)
  /-- A poll is declined by the cloud. -/
  | refused (refusal : Refusal) (status : UInt16)
  | failed (task : Task)
  /-- A poll has failed, and it is one more in a row than may be retried. -/
  | exhausted (e : CloudError)
  | late (id : TaskId)
  | nameless (id : TaskId) (wanted : String)
  | panicked (text : String)

def Mishap.halt : Mishap → Halt
  | .argument fault => .failed (.invalidArgument fault)
  | .file fault => .failed (.io (.file fault))
  | .archive fault => .failed (.io (.archive fault))
  | .noImage path => .failed (.invalidArgument (.noImage path))
  | .command output => .failed (.command Pipeline.imageMaker
      ("Failed to generate ISO for agent settings: " ++ output.combined))
  | .declined _ e | .exhausted e => .failed (.cloud e)
  | .refused refusal status => .failed (.cloud (.refused refusal status))
  | .failed task => .failed (.cloud (.taskFailed task))
  | .late id => .failed (.cloud (.taskTimeout id))
  | .nameless id wanted => .failed (.cloud (.internal (.nameless id wanted)))
  | .panicked text => .panicked (.text text)

def Exchange.pollAnswer? : Exchange → Option (Except CloudError Task)
  | ⟨.call (.poll _), answer⟩ => some answer
  | _ => none

def Exchange.reading? : Exchange → Option Nat
  | ⟨.now, now⟩ => some now
  | _ => none

namespace History

def pollAnswers (h : History) : List (Except CloudError Task) :=
  h.filterMap Exchange.pollAnswer?

def readings (h : History) : List Nat :=
  h.filterMap Exchange.reading?

def endsInPoll (h : History) : Bool :=
  h.getLast?.any (·.pollAnswer?.isSome)

variable (a b : History)

@[simp] theorem pollAnswers_append : pollAnswers (a ++ b) = pollAnswers a ++ pollAnswers b :=
  List.filterMap_append ..

@[simp] theorem readings_append : readings (a ++ b) = readings a ++ readings b :=
  List.filterMap_append ..

theorem endsInPoll_concat (x : Exchange) : endsInPoll (a ++ [x]) = x.pollAnswer?.isSome := by
  simp [endsInPoll]

end History

namespace Wait

def failuresInRow (answers : List (Except CloudError Task)) : Nat :=
  (answers.reverse.takeWhile isTransient).length

theorem failuresInRow_concat (answers : List (Except CloudError Task))
    (answer : Except CloudError Task) :
    failuresInRow (answers ++ [answer]) =
      if isTransient answer then failuresInRow answers + 1 else 0 := by
  by_cases transient : isTransient answer <;> simp [failuresInRow, transient]

inductive Undecided (policy : Policy) : List (Except CloudError Task) → Prop
  | nil : Undecided policy []
  | working {answers : List (Except CloudError Task)} {task : Task}
      (undecided : Undecided policy answers) (working : task.state.isTerminal = false) :
      Undecided policy (answers ++ [.ok task])
  | retried {answers : List (Except CloudError Task)} {e : CloudError}
      (undecided : Undecided policy answers) (transient : e.isRefusal = false)
      (within : failuresInRow (answers ++ [.error e]) ≤ policy.maxRetries.toNat) :
      Undecided policy (answers ++ [.error e])

def IsWaiting (id : TaskId) : Exchange → Prop
  | ⟨.now, _⟩ | ⟨.pause _ false, _⟩ => True
  | ⟨.call (.poll other), _⟩ => other = id
  | _ => False

/-- The answer with which a wait is over, other than by a snapshot of the completed task. -/
inductive GivesUp (policy : Policy) (earlier : List (Except CloudError Task)) :
    Except CloudError Task → Mishap → Prop
  | failed {task : Task} (error : task.state = .error) :
      GivesUp policy earlier (.ok task) (.failed task)
  | refused {refusal : Refusal} {status : UInt16} :
      GivesUp policy earlier (.error (.refused refusal status)) (.refused refusal status)
  | exhausted {e : CloudError} (transient : e.isRefusal = false)
      (many : policy.maxRetries.toNat < failuresInRow (earlier ++ [.error e]))
      (fits : failuresInRow (earlier ++ [.error e]) < failureLimit) :
      GivesUp policy earlier (.error e) (.exhausted e)
  | overflow {e : CloudError} (transient : e.isRefusal = false)
      (many : failureLimit ≤ failuresInRow (earlier ++ [.error e])) :
      GivesUp policy earlier (.error e) (.panicked "attempt to add with overflow")

/-- The last answer is the snapshot with which the task completes. -/
structure Completes (policy : Policy) (id : TaskId) (wait : History) (task : Task) : Prop where
  waiting : ∀ x ∈ wait, IsWaiting id x
  answered : ∃ earlier : History, Undecided policy earlier.pollAnswers ∧
    wait = earlier ++ [⟨.call (.poll id), .ok task⟩]
  completed : task.state = .completed

/-- How a wait ends otherwise: by an answer, or by what the clock shows before a poll or after one. -/
inductive BreaksOff (policy : Policy) (id : TaskId) : History → Mishap → Prop
  | answered {earlier : History} {answer : Except CloudError Task} {m : Mishap}
      (undecided : Undecided policy earlier.pollAnswers)
      (gives : GivesUp policy earlier.pollAnswers answer m) :
      BreaksOff policy id (earlier ++ [⟨.call (.poll id), answer⟩]) m
  | late {earlier : History} {started now : Nat} (undecided : Undecided policy earlier.pollAnswers)
      (first : earlier.readings.head? = some started) (rested : earlier.endsInPoll = false)
      (up : policy.timeout.nanos ≤ now - started) :
      BreaksOff policy id (earlier ++ [⟨.now, now⟩]) (.late id)
  | unshowable {earlier : History} {now : Nat} (undecided : Undecided policy earlier.pollAnswers)
      (polled : earlier.endsInPoll) (far : clockLimit * 10 ^ 9 ≤ now + policy.interval.nanos) :
      BreaksOff policy id (earlier ++ [⟨.now, now⟩])
        (.panicked "overflow when adding duration to instant")

/-- How the result of a wait is shown by its dealings. One without an end is not looked into. -/
def EndsSo (policy : Policy) (id : TaskId) (wait : History) : Except Halt Task → Prop
  | .ok task => Completes policy id wait task
  | .error halt => halt = .unfinished ∨
    (∀ x ∈ wait, IsWaiting id x) ∧ ∃ m, BreaksOff policy id wait m ∧ halt = m.halt

/-- The invariant of a wait, at the head of each round and after a poll. -/
structure Ongoing (policy : Policy) (id : TaskId) (started failures : Nat) (polled : Bool)
    (wait : History) : Prop where
  waiting : ∀ x ∈ wait, IsWaiting id x
  begun : wait.readings.head? = some started
  undecided : Undecided policy wait.pollAnswers
  counted : failures = failuresInRow wait.pollAnswers
  polled : wait.endsInPoll = polled

variable {policy : Policy} {id : TaskId} {wait : History}
  {earlier : List (Except CloudError Task)} {answer : Except CloudError Task} {m m' : Mishap}

section Uniqueness

theorem GivesUp.unique (gives : GivesUp policy earlier answer m)
    (also : GivesUp policy earlier answer m') : m = m' := by
  cases gives with
  | failed _ => cases also; rfl
  | refused =>
    cases also with
    | refused => rfl
    | exhausted transient => cases transient
    | overflow transient => cases transient
  | exhausted transient _ fits =>
    cases also with
    | refused => cases transient
    | exhausted => rfl
    | overflow _ many => exact absurd many (Nat.not_le_of_lt fits)
  | overflow transient many =>
    cases also with
    | refused => cases transient
    | exhausted _ _ fits => exact absurd many (Nat.not_le_of_lt fits)
    | overflow => rfl

theorem BreaksOff.unique (breaks : BreaksOff policy id wait m)
    (also : BreaksOff policy id wait m') : m = m' := by
  generalize same : wait = wait' at also
  cases breaks <;> cases also <;> obtain ⟨rfl, last⟩ := List.append_inj' same rfl <;>
    cases last
  case answered.answered.refl _ gives _ also => exact gives.unique also
  case late.late.refl => rfl
  case late.unshowable.refl rested _ _ polled _ => exact absurd polled (by simp [rested])
  case unshowable.late.refl polled _ _ _ _ rested _ => exact absurd polled (by simp [rested])
  case unshowable.unshowable.refl => rfl

theorem Completes.unique {task task' : Task} (completes : Completes policy id wait task)
    (also : Completes policy id wait task') : task = task' := by
  obtain ⟨_, -, rfl⟩ := completes.answered
  obtain ⟨_, -, same⟩ := also.answered
  cases (List.append_inj' same rfl).2
  rfl

theorem Completes.not_breaksOff {task : Task} (completes : Completes policy id wait task) :
    ¬ BreaksOff policy id wait m := by
  intro breaks
  obtain ⟨_, -, same⟩ := completes.answered
  cases breaks <;> cases (List.append_inj' same rfl).2
  case answered.refl _ gives =>
    cases gives with
    | failed error => cases error.symm.trans completes.completed

end Uniqueness

/-- What a verdict says of the last answer and of all so far. -/
def Verdict.Shown (policy : Policy) (earlier : List (Except CloudError Task))
    (answer : Except CloudError Task) : Verdict → Prop
  | .over (.ok task) => answer = .ok task ∧ task.state = .completed
  | .over (.error e) => ∃ m, GivesUp policy earlier answer m ∧ .failed (.cloud e) = m.halt
  | .overflow => ∃ m, GivesUp policy earlier answer m ∧
    .panicked (.text "attempt to add with overflow") = m.halt
  | .again failures =>
    Undecided policy (earlier ++ [answer]) ∧ failures = failuresInRow (earlier ++ [answer])

theorem judgeSnapshot_shown (id : TaskId) (task : Task) (undecided : Undecided policy earlier) :
    (judgeSnapshot id task).2.Shown policy earlier (.ok task) := by
  have working (goes : task.state.isTerminal = false) :
      Undecided policy (earlier ++ [.ok task]) ∧ 0 = failuresInRow (earlier ++ [.ok task]) := by
    rw [failuresInRow_concat]
    exact ⟨undecided.working goes, rfl⟩
  unfold judgeSnapshot
  cases state : task.state with
  | completed => exact ⟨rfl, state⟩
  | error => exact ⟨_, .failed state, rfl⟩
  | queued => exact working (by rw [state]; rfl)
  | started => exact working (by rw [state]; rfl)
  | other name unknown => exact working (by rw [state]; rfl)

theorem judgeFailure_shown (id : TaskId) (e : CloudError) (undecided : Undecided policy earlier) :
    (judgeFailure policy id (failuresInRow earlier) e).2.Shown policy earlier (.error e) := by
  unfold judgeFailure
  by_cases refusal : e.isRefusal
  · rw [if_pos refusal]
    cases e with
    | refused r status => exact ⟨_, .refused, rfl⟩
    | _ => cases refusal
  · have transient : e.isRefusal = false := by simpa using refusal
    have counted : failuresInRow (earlier ++ [.error e]) = failuresInRow earlier + 1 := by
      rw [failuresInRow_concat, if_pos (by simp [isTransient, transient])]
    rw [if_neg refusal]
    dsimp only
    rw [← counted]
    by_cases overflow : failureLimit ≤ failuresInRow (earlier ++ [.error e])
    · rw [if_pos overflow]
      exact ⟨_, .overflow transient overflow, rfl⟩
    rw [if_neg overflow]
    by_cases many : policy.maxRetries.toNat < failuresInRow (earlier ++ [.error e])
    · rw [if_pos many]
      exact ⟨_, .exhausted transient many (Nat.lt_of_not_le overflow), rfl⟩
    · rw [if_neg many]
      exact ⟨undecided.retried transient (Nat.le_of_not_lt many), rfl⟩

/-- After one more answer the verdict tells how all of them stand. -/
theorem judge_shown (id : TaskId) (answer : Except CloudError Task)
    (undecided : Undecided policy earlier) :
    (judge policy id (failuresInRow earlier) answer).2.Shown policy earlier answer := by
  cases answer with
  | ok task => exact judgeSnapshot_shown id task undecided
  | error e => exact judgeFailure_shown id e undecided

section Waiting

variable {started failures : Nat} {polled : Bool} {before : History}

theorem forall_waiting_concat {x : Exchange} (waiting : ∀ y ∈ wait, IsWaiting id y)
    (waits : IsWaiting id x) : ∀ y ∈ wait ++ [x], IsWaiting id y := by
  intro y mem
  rcases List.mem_append.mp mem with mem | mem
  · exact waiting y mem
  · rwa [List.mem_singleton.mp mem]

theorem begun_append (begun : wait.readings.head? = some started) (more : History) :
    (History.readings (wait ++ more)).head? = some started := by
  rw [History.readings_append, List.head?_append, begun]
  rfl

theorem Ongoing.concat {x : Exchange} (ongoing : Ongoing policy id started failures polled wait)
    (waits : IsWaiting id x) (unpolled : x.pollAnswer? = none) :
    Ongoing policy id started failures false (wait ++ [x]) := by
  have same : History.pollAnswers (wait ++ [x]) = wait.pollAnswers := by
    simp [History.pollAnswers, unpolled]
  exact {
    waiting := forall_waiting_concat ongoing.waiting waits
    begun := begun_append ongoing.begun [x]
    undecided := same ▸ ongoing.undecided
    counted := same ▸ ongoing.counted
    polled := by rw [History.endsInPoll_concat, unpolled]; rfl }

/-- The post-condition of a wait that is begun after the dealings `before`. -/
def Shown (policy : Policy) (id : TaskId) (before h : History) (result : Except Halt Task) : Prop :=
  ∃ wait, h = before ++ wait ∧ EndsSo policy id wait result

theorem ensures_rest (ongoing : Ongoing policy id started failures true wait) :
    (rest policy false).Ensures (before ++ wait) fun h result =>
      ∃ wait, h = before ++ wait ∧
        match result with
        | .ok cut => cut = false ∧ Ongoing policy id started failures false wait
        | .error halt => EndsSo policy id wait (.error halt) := by
  refine Pipeline.ensures_perform_bind fun now _ => ?_
  have read := ongoing.concat (x := ⟨.now, now⟩) trivial rfl
  rw [List.append_assoc]
  dsimp only
  split
  · next far =>
    exact Pipeline.ensures_throw ⟨_, rfl, .inr ⟨read.waiting, _,
      .unshowable ongoing.undecided ongoing.polled far, rfl⟩⟩
  · refine Pipeline.ensures_perform_bind fun cut uncut => ?_
    obtain rfl : cut = false := uncut
    rw [List.append_assoc]
    exact Pipeline.ensures_pure ⟨_, rfl, rfl, read.concat trivial rfl⟩

theorem ensures_poll (rounds : Nat) (ongoing : Ongoing policy id started failures false wait) :
    (poll policy id false started rounds failures).Ensures (before ++ wait)
      (Shown policy id before) := by
  induction rounds generalizing failures wait with
  | zero => exact Pipeline.ensures_throw ⟨wait, rfl, .inl rfl⟩
  | succ rounds ih =>
    refine Pipeline.ensures_perform_bind fun now _ => ?_
    have read := ongoing.concat (x := ⟨.now, now⟩) trivial rfl
    rw [List.append_assoc]
    dsimp only
    split
    · next late =>
      exact Pipeline.ensures_emit_bind (Pipeline.ensures_fail ⟨_, rfl, .inr ⟨read.waiting, _,
        .late ongoing.undecided ongoing.begun ongoing.polled late, rfl⟩⟩)
    refine Pipeline.ensures_perform_bind fun answer _ => Pipeline.ensures_emitAll_bind ?_
    rw [List.append_assoc, read.counted]
    have waiting := forall_waiting_concat read.waiting (x := ⟨.call (.poll id), answer⟩) rfl
    have shown := judge_shown id answer read.undecided
    generalize (judge policy id _ answer).2 = verdict at shown ⊢
    match verdict with
    | .over (.ok task) =>
      obtain ⟨rfl, completed⟩ := shown
      exact Pipeline.ensures_pure ⟨_, rfl, waiting, ⟨_, read.undecided, rfl⟩, completed⟩
    | .over (.error e) =>
      obtain ⟨m, gives, same⟩ := shown
      exact Pipeline.ensures_fail
        ⟨_, rfl, .inr ⟨waiting, m, .answered read.undecided gives, same⟩⟩
    | .overflow =>
      obtain ⟨m, gives, same⟩ := shown
      exact Pipeline.ensures_throw
        ⟨_, rfl, .inr ⟨waiting, m, .answered read.undecided gives, same⟩⟩
    | .again failures =>
      have answers := History.pollAnswers_append (wait ++ [⟨.now, now⟩])
        [⟨.call (.poll id), answer⟩]
      have ongoing : Ongoing policy id started failures true
          (wait ++ [⟨.now, now⟩] ++ [⟨.call (.poll id), answer⟩]) := {
        waiting
        begun := begun_append read.begun _
        undecided := answers ▸ shown.1
        counted := answers ▸ shown.2
        polled := History.endsInPoll_concat .. }
      refine (ensures_rest ongoing).bind ?_ ?_
      · rintro _ _ ⟨wait, rfl, rfl, ongoing⟩
        exact ih ongoing
      · rintro _ halt ⟨wait, rfl, ends⟩
        exact ⟨wait, rfl, ends⟩

theorem ensures_track (policy : Policy) (id : TaskId) (before : History) :
    (track policy id).Ensures before (Shown policy id before) := by
  refine Pipeline.ensures_perform_bind fun started _ => ?_
  have begun : Ongoing policy id started 0 false [⟨.now, started⟩] :=
    ⟨by simp [IsWaiting], rfl, .nil, rfl, rfl⟩
  exact ensures_poll (roundLimit policy) begun

end Waiting

end Wait
end CloudProvider
