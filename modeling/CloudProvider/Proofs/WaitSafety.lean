import CloudProvider.Proofs.SetupAnswers
import CloudProvider.Proofs.WaitOutcome

/-! Which policies make every wait safe. A wait is safe if it comes to an answer after finitely many
polls, whatever the polls are answered. Three numbers can prevent that: an interval of nothing, with
which time stands still, a deadline that the clock cannot show, and a count of failures that leaves its
word. Time moves by rests alone, so a wait that nothing decides makes its polls at whole numbers of
intervals, and it begins as many of these as the limit takes to be over. -/

namespace CloudProvider.Wait

/-- A task, or an error that tells why there is none. -/
def Answered : Except Halt Task → Prop
  | .ok _ => True
  | .error halt => ∃ e, halt = .failed e

theorem not_answered_panicked (panic : Panic) : ¬ Answered (.error (.panicked panic)) :=
  fun ⟨_, same⟩ => nomatch same

theorem not_answered_unfinished : ¬ Answered (.error .unfinished) :=
  fun ⟨_, same⟩ => nomatch same

/-- Whatever the polls are answered, the wait comes to an answer within some number of rounds, each of
which polls once. -/
def Safe (policy : Policy) (start : Nat) : Prop :=
  ∀ (id : TaskId) (answers : Nat → Except CloudError Task) (w : Surroundings),
    w.KeepsTime start → w.Answers id answers →
      ∃ rounds, Answered ((poll policy id false start rounds 0).play w [⟨.now, start⟩]).1

section Safety

variable {policy : Policy} {id : TaskId} {answers : Nat → Except CloudError Task} {start k : Nat}
  {w : Surroundings} {past : History}

theorem play_track (time : w.KeepsTime start) :
    (track policy id).play w [] =
      (poll policy id false start (roundLimit policy) 0).play w [⟨.now, start⟩] := by
  have started : w [] .now = start := time.now []
  rw [track, Pipeline.play_perform_bind, started]
  rfl

/-! ### Waits that come to an answer -/

theorem EndsAt.answered {m : Nat} {run : Except Halt Task × History}
    (ends : EndsAt policy id start answers m run) : Answered run.1 := by
  rcases ends.ending with ⟨_, _, result, _⟩ | ⟨_, result, _⟩
  · rw [result]
    rcases settled (answers m) with e | task
    · exact ⟨.cloud e, rfl⟩
    · exact trivial
  · rw [result]
    exact ⟨_, rfl⟩

theorem lt_ceilDiv (interval : 0 < policy.interval.nanos) :
    k < policy.timeout.nanos ⌈/⌉ policy.interval.nanos ↔
      k * policy.interval.nanos < policy.timeout.nanos := by
  rw [← Nat.not_le, ← Nat.not_le, ceilDiv_le_iff_le_mul interval, Nat.mul_comm]

theorem streak_le_self (answers : Nat → Except CloudError Task) (k : Nat) : streak answers k ≤ k :=
  ((le_streak_iff answers _ k).mp le_rfl).1

/-- The numbers are small enough: no deadline and no count of failures leaves its range. -/
structure Fits (policy : Policy) (start : Nat) : Prop where
  interval : 0 < policy.interval.nanos
  deadlines : start + policy.timeout.nanos ⌈/⌉ policy.interval.nanos * policy.interval.nanos <
    clockLimit * 10 ^ 9
  counts : policy.maxRetries.toNat < failureLimit - 1 ∨
    policy.timeout.nanos ⌈/⌉ policy.interval.nanos < failureLimit

namespace Fits

theorem iff (policy : Policy) (start : Nat) :
    Fits policy start ↔ 0 < policy.interval.nanos ∧
      start + policy.timeout.nanos ⌈/⌉ policy.interval.nanos * policy.interval.nanos <
        2 ^ 63 * 10 ^ 9 ∧
      (policy.maxRetries.toNat < 2 ^ 32 - 1 ∨
        policy.timeout.nanos ⌈/⌉ policy.interval.nanos < 2 ^ 32) :=
  ⟨fun fits => ⟨fits.interval, fits.deadlines, fits.counts⟩,
    fun ⟨interval, deadlines, counts⟩ => ⟨interval, deadlines, counts⟩⟩

instance (policy : Policy) (start : Nat) : Decidable (Fits policy start) :=
  decidable_of_iff _ (iff policy start).symm

theorem patient (fits : Fits policy start) (pending : Pending policy answers k)
    (early : k * policy.interval.nanos < policy.timeout.nanos) :
    streak answers k < failureLimit - 1 := by
  rcases fits.counts with retries | few
  · exact pending.streak_lt retries
  · have before := (lt_ceilDiv fits.interval).mpr early
    have := streak_le_self answers k
    omega

theorem representable (fits : Fits policy start) (pending : Pending policy answers k) :
    start + k * policy.interval.nanos < clockLimit * 10 ^ 9 :=
  calc start + k * policy.interval.nanos
      ≤ start + policy.timeout.nanos ⌈/⌉ policy.interval.nanos * policy.interval.nanos := by
        gcongr
        exact pending.le_ceilDiv fits.interval
    _ < clockLimit * 10 ^ 9 := fits.deadlines

theorem exists_endsAt (fits : Fits policy start) (time : w.KeepsTime start)
    (told : w.Answers id answers) :
    ∃ m, EndsAt policy id start answers m ((track policy id).play w []) := by
  obtain ⟨rounds, limit, enough⟩ := exists_roundLimit_eq fits.interval
  have run := Wait.exists_endsAt time told (fun _ pending early => fits.patient pending early)
    (fun _ pending => fits.representable pending) (underway_zero policy id start answers)
    (by rwa [Nat.zero_add])
  rw [play_track time, limit]
  exact run

end Fits

theorem endsAt_zero (id : TaskId) (answers : Nat → Except CloudError Task)
    (brief : policy.timeout.nanos = 0) (time : w.KeepsTime start) (rounds : Nat) :
    EndsAt policy id start answers 0
      ((poll policy id false start (rounds + 1) 0).play w [⟨.now, start⟩]) :=
  play_poll_late 0 time (underway_zero policy id start answers) (by omega)

theorem roundLimit_pos (policy : Policy) : 0 < roundLimit policy := by
  unfold roundLimit
  split
  · decide
  · exact Nat.succ_pos _

/-! ### Waits that come to none -/

theorem play_rest_beyond (beyond : clockLimit * 10 ^ 9 ≤ w past .now + policy.interval.nanos) :
    (rest policy false).play w past =
      (.error (.panicked (.text "overflow when adding duration to instant")),
        past ++ [⟨.now, w past .now⟩]) := by
  rw [rest, Pipeline.play_perform_bind]
  simp only [if_pos beyond]
  rfl

theorem play_poll_beyond (rounds : Nat) (time : w.KeepsTime start) (told : w.Answers id answers)
    (patient : streak answers k < failureLimit - 1)
    (underway : Underway policy id start answers k past)
    (early : k * policy.interval.nanos < policy.timeout.nanos)
    (undecided : ¬ Decides policy answers k)
    (beyond : clockLimit * 10 ^ 9 ≤ start + (k + 1) * policy.interval.nanos) :
    ((poll policy id false start (rounds + 1) (streak answers k)).play w past).1 =
      .error (.panicked (.text "overflow when adding duration to instant")) := by
  have verdict := judge_of_not_decides id patient undecided
  have shown : w (polled policy id answers start k past) .now =
      start + k * policy.interval.nanos := by
    rw [time.now, instant_polled underway]
  have deadline : clockLimit * 10 ^ 9 ≤
      w (polled policy id answers start k past) .now + policy.interval.nanos := by
    rw [shown]
    rwa [Nat.succ_mul, ← Nat.add_assoc] at beyond
  rw [play_poll_early time told underway early, verdict]
  simp only [Pipeline.play_bind, play_rest_beyond deadline]

theorem play_poll_overcounted (rounds : Nat) (time : w.KeepsTime start)
    (told : w.Answers id answers) (full : streak answers k = failureLimit - 1)
    (transient : isTransient (answers k)) (underway : Underway policy id start answers k past)
    (early : k * policy.interval.nanos < policy.timeout.nanos) :
    ((poll policy id false start (rounds + 1) (streak answers k)).play w past).1 =
      .error (.panicked (.text "attempt to add with overflow")) := by
  have verdict : (judge policy id (streak answers k) (answers k)).2 = .overflow := by
    rcases answer : answers k with e | task
    · have retried : e.isRefusal = false := by simpa [isTransient, answer] using transient
      have reached : failureLimit ≤ streak answers k + 1 := by omega
      simp [judge, judgeFailure, retried, reached]
    · simp [isTransient, answer] at transient
  rw [play_poll_early time told underway early, verdict]
  rfl

/-- The instants of which `lost` holds are before the time is up, and none of them ends the wait in
order: either the counter overflows there, or the wait goes on to the next such instant, if the clock
can show it. -/
def Hopeless (policy : Policy) (answers : Nat → Except CloudError Task) (start : Nat)
    (lost : Nat → Prop) : Prop :=
  ∀ k, lost k → k * policy.interval.nanos < policy.timeout.nanos ∧
    (streak answers k = failureLimit - 1 ∧ isTransient (answers k) ∨
      streak answers k < failureLimit - 1 ∧ ¬ Decides policy answers k ∧
        (start + (k + 1) * policy.interval.nanos < clockLimit * 10 ^ 9 → lost (k + 1)))

theorem Hopeless.not_answered {lost : Nat → Prop} (hopeless : Hopeless policy answers start lost)
    (time : w.KeepsTime start) (told : w.Answers id answers) (rounds : Nat) (here : lost k)
    (underway : Underway policy id start answers k past) :
    ¬ Answered ((poll policy id false start rounds (streak answers k)).play w past).1 := by
  induction rounds generalizing k past with
  | zero => exact not_answered_unfinished
  | succ rounds ih =>
    obtain ⟨early, ⟨full, transient⟩ | ⟨patient, undecided, onward⟩⟩ := hopeless k here
    · rw [play_poll_overcounted rounds time told full transient underway early]
      exact not_answered_panicked _
    · by_cases fits : start + (k + 1) * policy.interval.nanos < clockLimit * 10 ^ 9
      · obtain ⟨next, later, run⟩ :=
          play_poll_undecided rounds time told patient underway early undecided fits
        rw [run]
        exact ih (onward fits) later
      · rw [play_poll_beyond rounds time told patient underway early undecided
          (Nat.le_of_not_lt fits)]
        exact not_answered_panicked _

theorem Hopeless.not_safe {lost : Nat → Prop} (hopeless : Hopeless policy answers start lost)
    (here : lost 0) : ¬ Safe policy start := by
  intro safe
  obtain ⟨rounds, answered⟩ := safe ⟨""⟩ answers (.polling start ⟨""⟩ answers)
    (Surroundings.polling_keepsTime start ⟨""⟩ answers)
    (Surroundings.polling_answers start ⟨""⟩ answers)
  exact hopeless.not_answered (Surroundings.polling_keepsTime start ⟨""⟩ answers)
    (Surroundings.polling_answers start ⟨""⟩ answers) rounds here
    (underway_zero policy ⟨""⟩ start answers) answered

def atWork : Nat → Except CloudError Task :=
  fun _ => .ok (Task.new ⟨""⟩ "" .started)

theorem streak_atWork (k : Nat) : streak atWork k = 0 := by
  cases k <;> simp [streak, atWork, isTransient]

theorem not_decides_atWork (policy : Policy) (k : Nat) : ¬ Decides policy atWork k := by
  simp [Decides, atWork, Task.new, TaskState.isTerminal]

theorem hopeless_atWork (start : Nat)
    (endless : ∀ k, k * policy.interval.nanos < policy.timeout.nanos →
      start + (k + 1) * policy.interval.nanos < clockLimit * 10 ^ 9 →
        (k + 1) * policy.interval.nanos < policy.timeout.nanos) :
    Hopeless policy atWork start fun k => k * policy.interval.nanos < policy.timeout.nanos := by
  intro k early
  refine ⟨early, .inr ⟨?_, not_decides_atWork policy k, endless k early⟩⟩
  rw [streak_atWork]
  decide

def unreachable : Nat → Except CloudError Task :=
  fun _ => .error (.transport none "")

theorem streak_unreachable (k : Nat) : streak unreachable k = k := by
  induction k with
  | zero => rfl
  | succ k ih =>
    have transient : isTransient (unreachable k) = true := rfl
    rw [streak, if_pos transient, ih]

theorem hopeless_unreachable (start : Nat) (retries : failureLimit - 1 ≤ policy.maxRetries.toNat)
    (long : ∀ k, k < failureLimit → k * policy.interval.nanos < policy.timeout.nanos) :
    Hopeless policy unreachable start (· < failureLimit) := by
  intro k here
  refine ⟨long k here, ?_⟩
  by_cases full : k = failureLimit - 1
  -- One more failure than the counter can hold.
  · exact .inl ⟨by rw [streak_unreachable, full], rfl⟩
  · have more : k + 1 < failureLimit := by omega
    refine .inr ⟨by rw [streak_unreachable]; omega, ?_, fun _ => more⟩
    rintro (refusal | exceeded)
    · exact Bool.false_ne_true refusal
    · rw [streak_unreachable] at exceeded
      omega

/-! ### The safe policies -/

theorem Fits.of_safe (safe : Safe policy start) (long : 0 < policy.timeout.nanos) :
    Fits policy start := by
  have early : 0 * policy.interval.nanos < policy.timeout.nanos := by omega
  have interval : 0 < policy.interval.nanos := by
    by_contra none
    refine (hopeless_atWork start fun k _ _ => ?_).not_safe early safe
    rw [Nat.eq_zero_of_not_pos none]
    omega
  refine ⟨interval, ?_, ?_⟩
  · by_contra beyond
    refine (hopeless_atWork start fun k before shown => ?_).not_safe early safe
    by_contra late
    have last : policy.timeout.nanos ⌈/⌉ policy.interval.nanos ≤ k + 1 :=
      Nat.le_of_not_lt fun more => late ((lt_ceilDiv interval).mp more)
    have reached := Nat.mul_le_mul_right policy.interval.nanos last
    omega
  · by_contra neither
    obtain ⟨retries, many⟩ := not_or.mp neither
    refine (hopeless_unreachable start (by omega) fun k before => ?_).not_safe
      (by decide) safe
    exact (lt_ceilDiv interval).mp (by omega)

/-- Exactly these policies are safe: those that leave no time at all, and those that fit. -/
theorem safe_iff (policy : Policy) (start : Nat) :
    Safe policy start ↔ policy.timeout.nanos = 0 ∨ Fits policy start := by
  constructor
  · intro safe
    exact (Nat.eq_zero_or_pos _).imp_right (Fits.of_safe safe)
  · rintro (brief | fits) id answers w time told
    · exact ⟨1, (endsAt_zero id answers brief time 0).answered⟩
    · obtain ⟨m, ends⟩ := fits.exists_endsAt time told
      rw [play_track time] at ends
      exact ⟨roundLimit policy, ends.answered⟩

theorem EndsAt.calls_le {m : Nat} {run : Except Halt Task × History}
    (ends : EndsAt policy id start answers m run) (interval : 0 < policy.interval.nanos) :
    (run.2.timedCalls start).length ≤ policy.timeout.nanos ⌈/⌉ policy.interval.nanos := by
  rcases ends.ending with ⟨early, _, _, calls⟩ | ⟨_, _, calls⟩
  · simpa [calls, pollsAt, Nat.succ_le_iff] using (lt_ceilDiv interval).mpr early
  · simpa [calls, pollsAt] using ends.pending.le_ceilDiv interval

theorem Safe.track_answered (safe : Safe policy start) (time : w.KeepsTime start)
    (told : w.Answers id answers) :
    Answered ((track policy id).play w []).1 ∧
      (((track policy id).play w []).2.timedCalls start).length ≤
        policy.timeout.nanos ⌈/⌉ policy.interval.nanos := by
  rcases (safe_iff policy start).mp safe with brief | fits
  · obtain ⟨rounds, more⟩ := Nat.exists_eq_add_of_lt (roundLimit_pos policy)
    have ends := endsAt_zero id answers brief time rounds
    rw [Nat.zero_add] at more
    rw [play_track time, more]
    refine ⟨ends.answered, ?_⟩
    rcases ends.ending with ⟨early, _⟩ | ⟨_, _, calls⟩
    · omega
    · simp [calls, pollsAt]
  · obtain ⟨m, ends⟩ := fits.exists_endsAt time told
    exact ⟨ends.answered, ends.calls_le fits.interval⟩

end Safety
end CloudProvider.Wait

namespace CloudProvider.Config

open Wait (Safe Fits Answered)

def Outcome.tasks? : Outcome → Option TaskSettings
  | .accepted config => some config.tasks
  | _ => none

theorem Outcome.exists_accepted {outcome : Outcome} {tasks : TaskSettings}
    (found : outcome.tasks? = some tasks) :
    ∃ config, outcome = .accepted config ∧ config.tasks = tasks := by
  cases outcome with
  | accepted config => exact ⟨config, rfl, Option.some.inj found⟩
  | _ => exact nomatch found

/-- Which of the configurations that are accepted make every wait safe, and how a safe wait ends: it is
answered, with no more polls than the intervals that it takes for the time to be up. -/
theorem parse_safe_iff (text : String) (config : Config) (start : Nat) :
    parse text = .accepted config →
    let policy := config.tasks.policy
    (Safe policy start ↔
      policy.timeout.nanos = 0 ∨
        0 < policy.interval.nanos ∧
        start + policy.timeout.nanos ⌈/⌉ policy.interval.nanos * policy.interval.nanos <
          2 ^ 63 * 10 ^ 9 ∧
        (policy.maxRetries.toNat < 2 ^ 32 - 1 ∨
          policy.timeout.nanos ⌈/⌉ policy.interval.nanos < 2 ^ 32)) ∧
    (Safe policy start → ∀ (id : TaskId) (answers : Nat → Except CloudError Task)
      (w : Surroundings), w.KeepsTime start → w.Answers id answers →
        let run := (Wait.track policy id).play w []
        Answered run.1 ∧ (run.2.timedCalls start).length ≤
          policy.timeout.nanos ⌈/⌉ policy.interval.nanos) := by
  intro _ policy
  exact ⟨(Wait.safe_iff policy start).trans (or_congr_right (Fits.iff policy start)),
    fun safe id answers w time told => safe.track_answered time told⟩

theorem parse_safe_iff_standard :
    ∃ config, parse (sample "\x7b\x7d") = .accepted config ∧ Safe config.tasks.policy 0 := by
  have found : (parse (sample "\x7b\x7d")).tasks? = some .blank := by decide +kernel
  obtain ⟨config, accepted, tasks⟩ := Outcome.exists_accepted found
  refine ⟨config, accepted, (parse_safe_iff (sample "\x7b\x7d") config 0 accepted).1.mpr (.inr ?_)⟩
  rw [tasks]
  decide

theorem exists_not_safe {text : String} (tasks : TaskSettings)
    (found : (parse text).tasks? = some tasks)
    (reckless : ¬ (tasks.policy.timeout.nanos = 0 ∨ Fits tasks.policy 0)) :
    ∃ config, parse text = .accepted config ∧ ¬ Safe config.tasks.policy 0 := by
  obtain ⟨config, accepted, same⟩ := Outcome.exists_accepted found
  refine ⟨config, accepted, ?_⟩
  rwa [Wait.safe_iff, same]

/-- An interval that can be added to no instant of the clock. -/
def distant : String := "\x7b\"poll_interval\":\"10000000000000000000s\"\x7d"

def still : String := "\x7b\"poll_interval\":\"0s\"\x7d"

/-- As many retries as the counter has numbers, and time for all of them. -/
def tireless : String := "\x7b\"poll_interval\":\"1ns\",\"max_retries\":4294967295\x7d"

/-- Nothing is asked of the three numbers: each of them can be such that a wait comes to no answer. -/
theorem parse_not_safe :
    (∃ config, parse (sample distant) = .accepted config ∧ ¬ Safe config.tasks.policy 0) ∧
    (∃ config, parse (sample still) = .accepted config ∧ ¬ Safe config.tasks.policy 0) ∧
    (∃ config, parse (sample tireless) = .accepted config ∧ ¬ Safe config.tasks.policy 0) := by
  refine ⟨exists_not_safe ⟨some (.ofSeconds (10 ^ 19)), none, none⟩ ?_ ?_,
    exists_not_safe ⟨some ⟨0⟩, none, none⟩ ?_ ?_,
    exists_not_safe ⟨some ⟨1⟩, some 4294967295, none⟩ ?_ ?_⟩
  all_goals decide +kernel

end CloudProvider.Config
