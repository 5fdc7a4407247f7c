import CloudProvider.Pipeline.Step
import CloudProvider.Proofs.Deeds

/-! Changes: one submission each, with the polls of the task that it was answered by. A change is
completed if its last poll found the task completed, and a step of a pipeline succeeds with just that
snapshot. Changes that follow each other stop at the first that is not completed. -/

namespace CloudProvider

def pollOf (id : TaskId) (answer : Except CloudError Task) : Exchange :=
  ⟨.call (.poll id), answer⟩

theorem pollOf_inj (id : TaskId) (a b : Except CloudError Task)
    (same : pollOf id a = pollOf id b) : a = b := by
  simpa [pollOf] using same

def lastCompleted (polls : List (Except CloudError Task)) : Option Task :=
  match polls.getLast? with
  | some (.ok task) => if task.state = .completed then some task else none
  | _ => none

theorem lastCompleted_cons {answer : Except CloudError Task} (pending : lastCompleted [answer] = none)
    (polls : List (Except CloudError Task)) :
    lastCompleted (answer :: polls) = lastCompleted polls := by
  cases polls with
  | nil => exact pending
  | cons next rest => rw [lastCompleted, List.getLast?_cons_cons, ← lastCompleted]

theorem state_of_lastCompleted {polls : List (Except CloudError Task)} {task : Task}
    (completed : lastCompleted polls = some task) :
    polls.getLast? = some (.ok task) ∧ task.state = .completed := by
  unfold lastCompleted at completed
  split at completed
  · split at completed
    · next last state =>
      obtain rfl := Option.some.inj completed
      exact ⟨last, state⟩
    · cases completed
  · cases completed

namespace Wait

def Verdict.accepted : Verdict → Option Task
  | .over outcome => outcome.toOption
  | _ => none

theorem judge_accepted (policy : Policy) (id : TaskId) (failures : Nat)
    (answer : Except CloudError Task) :
    (judge policy id failures answer).2.accepted = lastCompleted [answer] := by
  cases answer with
  | ok task => cases state : task.state <;> simp [judge, judgeSnapshot, state, lastCompleted] <;> rfl
  | error e =>
    simp only [judge, judgeFailure]
    repeat' split
    all_goals rfl

theorem does_timeout_iff {id : TaskId} {deeds : History} {result : Except Halt Task} :
    (timeout id : Pipeline Task).Does deeds result ↔
      deeds = [] ∧ result = .error (.failed (.cloud (.taskTimeout id))) := Iff.rfl

theorem does_rest {policy : Policy} {heeding : Bool} {deeds : History} {result : Except Halt Bool}
    (does : (rest policy heeding).Does deeds result) : deeds = [] := by
  rw [rest, Pipeline.does_perform_bind_iff] at does
  obtain ⟨now, later, does, rfl⟩ := does
  dsimp only at does
  split at does
  · exact does.1
  · obtain ⟨_, _, ⟨rfl, -⟩, rfl⟩ := does
    rfl

theorem does_poll {policy : Policy} {id : TaskId} {heeding : Bool} {started rounds failures : Nat}
    {deeds : History} {result : Except Halt Task}
    (does : (poll policy id heeding started rounds failures).Does deeds result) :
    ∃ polls, deeds = polls.map (pollOf id) ∧ result.toOption = lastCompleted polls := by
  induction rounds generalizing failures deeds result with
  | zero =>
    obtain ⟨rfl, rfl⟩ := does
    exact ⟨[], rfl, rfl⟩
  | succ rounds ih =>
    rw [poll, Pipeline.does_perform_bind_iff] at does
    obtain ⟨now, deeds, does, rfl⟩ := does
    split at does
    · rw [Pipeline.does_emit_bind_iff, does_timeout_iff] at does
      obtain ⟨rfl, rfl⟩ := does
      exact ⟨[], rfl, rfl⟩
    rw [Pipeline.does_perform_bind_iff] at does
    obtain ⟨answer, deeds, does, rfl⟩ := does
    suffices later : ∃ polls, deeds = polls.map (pollOf id) ∧
        result.toOption = lastCompleted (answer :: polls) by
      obtain ⟨polls, rfl, same⟩ := later
      exact ⟨answer :: polls, rfl, same⟩
    have accepted := judge_accepted policy id failures answer
    rw [Pipeline.does_emitAll_bind_iff] at does
    split at does
    -- In three verdicts the wait is over: an outcome, an error, and a counter that overflows.
    iterate 3
      next verdict =>
        obtain ⟨rfl, rfl⟩ := does
        exact ⟨[], rfl, by rw [← accepted, verdict]; rfl⟩
    · next failures verdict =>
      have pending : lastCompleted [answer] = none := by rw [← accepted, verdict]; rfl
      rcases Pipeline.does_bind_iff.mp does with
        ⟨halt, rests, rfl⟩ | ⟨cut, first, second, rests, later, rfl⟩
      · exact ⟨[], does_rest rests, pending.symm⟩
      · rw [does_rest rests, List.nil_append]
        split at later
        · rw [Pipeline.does_emit_bind_iff, does_timeout_iff] at later
          obtain ⟨rfl, rfl⟩ := later
          exact ⟨[], rfl, pending.symm⟩
        · obtain ⟨polls, rfl, same⟩ := ih later
          exact ⟨polls, rfl, same.trans (lastCompleted_cons pending polls).symm⟩

theorem does_track {policy : Policy} {id : TaskId} {deeds : History} {result : Except Halt Task}
    (does : (track policy id).Does deeds result) :
    ∃ polls, deeds = polls.map (pollOf id) ∧ result.toOption = lastCompleted polls := by
  rw [track, Pipeline.does_perform_bind_iff] at does
  obtain ⟨now, deeds, does, rfl⟩ := does
  exact does_poll does

end Wait

/-- One submission and what has come of it. -/
inductive Change
  | declined (submission : Submission) (error : CloudError)
  | followed (submission : Submission) (task : Task) (polls : List (Except CloudError Task))

namespace Change

def submission : Change → Submission
  | .declined submission _ => submission
  | .followed submission _ _ => submission

/-- The polls are polls of the very task that the submission was answered by. -/
def deeds : Change → History
  | .declined submission error => [⟨.call (.submit submission), .error error⟩]
  | .followed submission task polls =>
    ⟨.call (.submit submission), .ok task⟩ :: polls.map (pollOf task.id)

def completed? : Change → Option Task
  | .declined .. => none
  | .followed _ _ polls => lastCompleted polls

variable (c : Change)

theorem calls_deeds : c.deeds.calls = c.deeds := by
  refine List.filter_eq_self.mpr fun x mem => ?_
  cases c with
  | declined submission error =>
    obtain rfl := List.mem_singleton.mp mem
    rfl
  | followed submission task polls =>
    rcases List.mem_cons.mp mem with rfl | mem
    · rfl
    · obtain ⟨answer, -, rfl⟩ := List.mem_map.mp mem
      rfl

theorem isCall_of_mem {x : Exchange} (mem : x ∈ c.deeds) : x.effect.isCall := by
  rw [← c.calls_deeds] at mem
  exact (List.mem_filter.mp mem).2

theorem deeds_eq_cons : ∃ answer rest, c.deeds = ⟨.call (.submit c.submission), answer⟩ :: rest := by
  cases c <;> exact ⟨_, _, rfl⟩

/-- What the step comes to: the error that the submission was answered by, or what the wait for the
task ends with after these polls. -/
def Yields (policy : Policy) : Change → Except Halt Task → Prop
  | .declined _ error, result => result = .error (.failed (.cloud error))
  | .followed _ task polls, result =>
    (Wait.track policy task.id).Does (polls.map (pollOf task.id)) result

theorem Yields.completed?_eq {policy : Policy} {c : Change} {result : Except Halt Task}
    (yields : c.Yields policy result) : c.completed? = result.toOption := by
  cases c with
  | declined submission error =>
    rw [Yields] at yields
    rw [yields]
    rfl
  | followed submission task polls =>
    obtain ⟨others, same, accepted⟩ := Wait.does_track yields
    obtain rfl := (List.map_inj_right (pollOf_inj task.id)).mp same
    exact accepted.symm

end Change

/-- How the changes of a plan follow each other: the next is begun when the one before is completed,
and the first that fails is the last. -/
inductive Succession (policy : Policy) : List Submission → List Change → Except Halt Unit → Prop
  | nil : Succession policy [] [] (.ok ())
  | stopped {plan : List Submission} (c : Change) (halt : Halt)
      (yields : c.Yields policy (.error halt)) :
      Succession policy (c.submission :: plan) [c] (.error halt)
  | cons {plan : List Submission} {changes : List Change} {result : Except Halt Unit} (c : Change)
      (task : Task) (yields : c.Yields policy (.ok task))
      (later : Succession policy plan changes result) :
      Succession policy (c.submission :: plan) (c :: changes) result

namespace Succession

variable {policy : Policy} {plan : List Submission} {changes : List Change}
  {result : Except Halt Unit}

theorem submissions_prefix (h : Succession policy plan changes result) :
    changes.map Change.submission <+: plan := by
  induction h with
  | nil => exact List.prefix_rfl
  | stopped c halt yields => exact ⟨_, rfl⟩
  | cons c task yields later ih => exact List.cons_prefix_cons.mpr ⟨rfl, ih⟩

theorem ok_iff (h : Succession policy plan changes result) :
    result = .ok () ↔
      changes.length = plan.length ∧ ∀ c ∈ changes, c.completed?.isSome := by
  induction h with
  | nil => simp
  | stopped c halt yields => simp [yields.completed?_eq, Except.toOption]
  | cons c task yields later ih => simp [ih, yields.completed?_eq, Except.toOption]

theorem lt_length_iff (h : Succession policy plan changes result) {k : Nat}
    (within : k < plan.length) :
    k < changes.length ↔
      k ≤ changes.length ∧ ∀ c ∈ changes.take k, c.completed?.isSome := by
  induction h generalizing k with
  | nil => exact absurd within (Nat.not_lt_zero k)
  | stopped c halt yields =>
    cases k with
    | zero => simp
    | succ k => simp [yields.completed?_eq, Except.toOption]
  | cons c task yields later ih =>
    cases k with
    | zero => simp
    | succ k =>
      have step := ih (Nat.lt_of_succ_lt_succ within)
      simp [step, yields.completed?_eq, Except.toOption]

theorem completed_before (h : Succession policy plan changes result) {before after : List Change}
    {c : Change} (parted : changes = before ++ c :: after) :
    ∀ b ∈ before, b.completed?.isSome := by
  have len := congrArg List.length parted
  have short := h.submissions_prefix.length_le
  rw [List.length_append, List.length_cons] at len
  rw [List.length_map] at short
  have reached := (h.lt_length_iff (k := before.length) (by omega)).mp (by omega)
  rw [parted, List.take_left] at reached
  exact reached.2

theorem completed_of_ne_nil (h : Succession policy plan changes result)
    {before after : List Change} {c : Change} (parted : changes = before ++ c :: after)
    (more : after ≠ []) : c.completed?.isSome := by
  obtain ⟨next, after, rfl⟩ := List.exists_cons_of_ne_nil more
  have opened : changes = (before ++ [c]) ++ next :: after := by simp [parted]
  exact h.completed_before opened c (by simp)

theorem last_of_error (h : Succession policy plan changes result) {halt : Halt}
    (failed : result = .error halt) :
    ∃ before c, changes = before ++ [c] ∧ c.Yields policy (.error halt) ∧
      ∀ b ∈ before, b.completed?.isSome := by
  induction h with
  | nil => cases failed
  | stopped c other yields =>
    obtain rfl := Except.error.inj failed
    exact ⟨[], c, rfl, yields, by simp⟩
  | cons c task yields later ih =>
    obtain ⟨before, last, rfl, ends, completed⟩ := ih failed
    refine ⟨c :: before, last, rfl, ends, fun b mem => ?_⟩
    rcases List.mem_cons.mp mem with rfl | mem
    · rw [yields.completed?_eq]
      rfl
    · exact completed b mem

end Succession

namespace Pipeline

theorem does_step_iff {s : Settings} {name : String} {submission : Submission} {deeds : History}
    {result : Except Halt Task} :
    (step s name submission).Does deeds result ↔
      ∃ c : Change, c.submission = submission ∧ c.Yields s.policy result ∧ deeds = c.deeds := by
  rw [step, does_call_bind_iff]
  constructor
  · rintro (⟨e, rfl, rfl⟩ | ⟨task, rest, does, rfl⟩)
    · exact ⟨.declined submission e, rfl, rfl, rfl⟩
    · rw [does_emit_bind_iff] at does
      rcases does_bind_iff.mp does with ⟨halt, waits, rfl⟩ | ⟨done, first, second, waits, ends, rfl⟩
      · obtain ⟨polls, rfl, -⟩ := Wait.does_track waits
        exact ⟨.followed submission task polls, rfl, waits, rfl⟩
      · rw [does_emit_bind_iff] at ends
        obtain ⟨rfl, rfl⟩ := ends
        obtain ⟨polls, rfl, -⟩ := Wait.does_track waits
        exact ⟨.followed submission task polls, rfl, waits, by rw [List.append_nil]; rfl⟩
  · rintro ⟨c, rfl, yields, rfl⟩
    cases c with
    | declined submission e => exact .inl ⟨e, rfl, yields⟩
    | followed submission task polls =>
      refine .inr ⟨task, _, ?_, rfl⟩
      rw [does_emit_bind_iff, does_bind_iff]
      cases result with
      | error halt => exact .inl ⟨halt, yields, rfl⟩
      | ok done =>
        refine .inr ⟨done, _, [], yields, ?_, (List.append_nil _).symm⟩
        rw [does_emit_bind_iff]
        exact ⟨rfl, rfl⟩

theorem does_change_bind_iff {α : Type} {s : Settings} {name : String} {submission : Submission}
    {k : Unit → Pipeline α} {deeds : History} {result : Except Halt α} :
    (change s name submission >>= k).Does deeds result ↔
      ∃ c : Change, c.submission = submission ∧
        ((∃ halt, c.Yields s.policy (.error halt) ∧ deeds = c.deeds ∧ result = .error halt) ∨
        ∃ task rest, c.Yields s.policy (.ok task) ∧ (k ()).Does rest result ∧
          deeds = c.deeds ++ rest) := by
  have opened : change s name submission = step s name submission >>= fun _ => pure () := rfl
  rw [opened, bind_assoc, does_bind_iff]
  simp only [pure_bind, does_step_iff]
  constructor
  · rintro (⟨halt, ⟨c, same, yields, rfl⟩, rfl⟩ | ⟨task, _, rest, ⟨c, same, yields, rfl⟩, does, rfl⟩)
    · exact ⟨c, same, .inl ⟨halt, yields, rfl, rfl⟩⟩
    · exact ⟨c, same, .inr ⟨task, rest, yields, does, rfl⟩⟩
  · rintro ⟨c, same, ⟨halt, yields, rfl, rfl⟩ | ⟨task, rest, yields, does, rfl⟩⟩
    · exact .inl ⟨halt, ⟨c, same, yields, rfl⟩, rfl⟩
    · exact .inr ⟨task, _, rest, ⟨c, same, yields, rfl⟩, does, rfl⟩

theorem does_change_iff {s : Settings} {name : String} {submission : Submission} {deeds : History}
    {result : Except Halt Unit} :
    (change s name submission).Does deeds result ↔
      ∃ c : Change, c.submission = submission ∧ deeds = c.deeds ∧
        ((∃ halt, c.Yields s.policy (.error halt) ∧ result = .error halt) ∨
        ∃ task, c.Yields s.policy (.ok task) ∧ result = .ok ()) := by
  rw [← bind_pure (change s name submission), does_change_bind_iff]
  constructor
  · rintro ⟨c, same, ⟨halt, yields, rfl, rfl⟩ | ⟨task, _, yields, ⟨rfl, rfl⟩, rfl⟩⟩
    · exact ⟨c, same, rfl, .inl ⟨halt, yields, rfl⟩⟩
    · exact ⟨c, same, List.append_nil _, .inr ⟨task, yields, rfl⟩⟩
  · rintro ⟨c, same, rfl, ⟨halt, yields, rfl⟩ | ⟨task, yields, rfl⟩⟩
    · exact ⟨c, same, .inl ⟨halt, yields, rfl, rfl⟩⟩
    · exact ⟨c, same, .inr ⟨task, [], yields, ⟨rfl, rfl⟩, (List.append_nil _).symm⟩⟩

theorem change_of_does_make {s : Settings} {kind : Kind} {name wanted : String}
    {submission : Submission} {deeds : History} {result : Except Halt (Id kind)}
    (does : (make s name wanted kind submission).Does deeds result) :
    ∃ c : Change, c.submission = submission ∧ deeds = c.deeds ∧
      ((∃ halt, c.Yields s.policy (.error halt) ∧ result = .error halt) ∨
      ∃ task, c.Yields s.policy (.ok task) ∧
        ((task.entity.id = "" ∧ result = .error (.failed (.cloud (.internal (.nameless task.id wanted))))) ∨
        (task.entity.id ≠ "" ∧ result = .ok ⟨task.entity.id⟩))) := by
  rcases does_bind_iff.mp does with ⟨halt, steps, rfl⟩ | ⟨task, _, _, steps, ends, rfl⟩
  · obtain ⟨c, same, yields, rfl⟩ := does_step_iff.mp steps
    exact ⟨c, same, rfl, .inl ⟨halt, yields, rfl⟩⟩
  · obtain ⟨c, same, yields, rfl⟩ := does_step_iff.mp steps
    split at ends
    · next empty =>
      obtain ⟨rfl, rfl⟩ := ends
      exact ⟨c, same, List.append_nil _, .inr ⟨task, yields, .inl ⟨by simpa using empty, rfl⟩⟩⟩
    · next filled =>
      obtain ⟨rfl, rfl⟩ := ends
      exact ⟨c, same, List.append_nil _, .inr ⟨task, yields, .inr ⟨by simpa using filled, rfl⟩⟩⟩

theorem succession_of_does_change {s : Settings} {name : String} {submission : Submission}
    {deeds : History} {result : Except Halt Unit}
    (does : (change s name submission).Does deeds result) :
    ∃ c, Succession s.policy [submission] [c] result ∧ deeds = c.deeds := by
  obtain ⟨c, rfl, rfl, ⟨halt, yields, rfl⟩ | ⟨task, yields, rfl⟩⟩ := does_change_iff.mp does
  · exact ⟨c, .stopped c halt yields, rfl⟩
  · exact ⟨c, .cons c task yields .nil, rfl⟩

end Pipeline
end CloudProvider
