import CloudProvider.Proofs.Clock
import CloudProvider.Wait
import Mathlib.Algebra.Order.Floor.Div
import Mathlib.Order.Bounds.Basic

/-! How a wait ends. Against any sequence of answers the polls are made at whole numbers of intervals,
and the first answer that decides ends the wait at its own instant, unless the time is up before. The
loop carries the number of failures since the last answer that was none; that number is a property of
the answers alone, and so is the end. -/

namespace CloudProvider.Wait

/-- A failure of the poll, and not of the task: asking again may help. -/
def isTransient : Except CloudError Task → Bool
  | .ok _ => false
  | .error e => !e.isRefusal

def streak (answers : Nat → Except CloudError Task) : Nat → Nat
  | 0 => 0
  | k + 1 => if isTransient (answers k) then streak answers k + 1 else 0

/-- Whether the answer ends a wait: the task has ended, the cloud declines, or one more failure in a
row than may be retried. -/
def Decides (policy : Policy) (answers : Nat → Except CloudError Task) (j : Nat) : Prop :=
  match answers j with
  | .ok task => task.state.isTerminal
  | .error e => e.isRefusal ∨ policy.maxRetries.toNat < streak answers (j + 1)

def settled : Except CloudError Task → Except CloudError Task
  | .ok task => if task.state = .error then .error (.taskFailed task) else .ok task
  | .error e => .error e

theorem le_streak_iff (answers : Nat → Except CloudError Task) (n k : Nat) :
    n ≤ streak answers k ↔ n ≤ k ∧ ∀ i, k - n ≤ i → i < k → isTransient (answers i) := by
  induction k generalizing n with
  | zero => simp [streak]
  | succ k ih =>
    cases n with
    | zero =>
      refine ⟨fun _ => ⟨Nat.zero_le _, fun i low high => ?_⟩, fun _ => Nat.zero_le _⟩
      exact absurd high (by omega)
    | succ n =>
      by_cases transient : isTransient (answers k)
      · simp only [streak, transient, if_true, Nat.add_le_add_iff_right, ih, Nat.add_sub_add_right]
        refine and_congr_right fun _ =>
          ⟨fun h i low high => ?_, fun h i low high => h i low (by omega)⟩
        rcases Nat.lt_succ_iff_lt_or_eq.mp high with high | rfl
        · exact h i low high
        · exact transient
      · simp only [streak, transient, Bool.false_eq_true, if_false]
        refine ⟨fun h => absurd h (by omega), fun ⟨le, h⟩ => ?_⟩
        exact absurd (h k (by omega) (by omega)) transient

section Outcome

variable {policy : Policy} {id : TaskId} {answers : Nat → Except CloudError Task}

theorem judge_of_decides (id : TaskId) {j : Nat} (patient : streak answers j < failureLimit - 1)
    (decides : Decides policy answers j) :
    (judge policy id (streak answers j) (answers j)).2 = .over (settled (answers j)) := by
  unfold Decides at decides
  rcases answer : answers j with e | task
  · simp only [answer] at decides
    by_cases refusal : e.isRefusal
    · simp [judge, judgeFailure, settled, refusal]
    · have reached : policy.maxRetries.toNat < streak answers j + 1 := by
        simpa [refusal, streak, isTransient, answer] using decides
      have fits : ¬ failureLimit ≤ streak answers j + 1 := by omega
      simp [judge, judgeFailure, settled, refusal, fits, reached]
  · simp only [answer] at decides
    cases state : task.state <;>
      simp_all [judge, judgeSnapshot, settled, TaskState.isTerminal]

theorem judge_of_not_decides (id : TaskId) {j : Nat} (patient : streak answers j < failureLimit - 1)
    (undecided : ¬ Decides policy answers j) :
    (judge policy id (streak answers j) (answers j)).2 = .again (streak answers (j + 1)) := by
  unfold Decides at undecided
  rcases answer : answers j with e | task
  · simp only [answer, not_or] at undecided
    obtain ⟨refusal, within⟩ := undecided
    have next : streak answers (j + 1) = streak answers j + 1 := by
      simp [streak, isTransient, answer, refusal]
    have fits : ¬ failureLimit ≤ streak answers j + 1 := by omega
    rw [next] at within
    simp [judge, judgeFailure, refusal, fits, within, next]
  · simp only [answer] at undecided
    have next : streak answers (j + 1) = 0 := by simp [streak, isTransient, answer]
    cases state : task.state <;>
      simp_all [judge, judgeSnapshot, TaskState.isTerminal]

/-- Neither an answer nor the time has ended the wait before its instant `k`. -/
def Pending (policy : Policy) (answers : Nat → Except CloudError Task) (k : Nat) : Prop :=
  ∀ i < k, i * policy.interval.nanos < policy.timeout.nanos ∧ ¬ Decides policy answers i

theorem Pending.succ {k : Nat} (pending : Pending policy answers k)
    (early : k * policy.interval.nanos < policy.timeout.nanos)
    (undecided : ¬ Decides policy answers k) : Pending policy answers (k + 1) := by
  intro i before
  rcases Nat.lt_succ_iff_lt_or_eq.mp before with before | rfl
  · exact pending i before
  · exact ⟨early, undecided⟩

theorem Pending.streak_le {k : Nat} (pending : Pending policy answers k) :
    streak answers k ≤ policy.maxRetries.toNat := by
  cases k with
  | zero => exact Nat.zero_le _
  | succ k =>
    have undecided := (pending k (by omega)).2
    unfold Decides at undecided
    rcases answer : answers k with e | task
    · simp only [answer, not_or, Nat.not_lt] at undecided
      exact undecided.2
    · simp [streak, isTransient, answer]

def pollsAt (policy : Policy) (id : TaskId) (start n : Nat) : List (Nat × Call) :=
  (List.range n).map fun i => (start + i * policy.interval.nanos, .poll id)

/-- The invariant of the loop, at the head of its round `k`. -/
structure Underway (policy : Policy) (id : TaskId) (start : Nat)
    (answers : Nat → Except CloudError Task) (k : Nat) (past : History) : Prop where
  instant : past.instant start = start + k * policy.interval.nanos
  polls : past.polls id = k
  calls : past.timedCalls start = pollsAt policy id start k
  pending : Pending policy answers k

def concluded (outcome : Except CloudError Task) : Except Halt Task :=
  outcome.mapError fun e => .failed (.cloud e)

/-- The wait ends at its instant `m`: by the answer given there, or because the time is up. -/
structure EndsAt (policy : Policy) (id : TaskId) (start : Nat)
    (answers : Nat → Except CloudError Task) (m : Nat) (run : Except Halt Task × History) :
    Prop where
  pending : Pending policy answers m
  instant : run.2.instant start = start + m * policy.interval.nanos
  ending :
    (m * policy.interval.nanos < policy.timeout.nanos ∧ Decides policy answers m ∧
      run.1 = concluded (settled (answers m)) ∧
      run.2.timedCalls start = pollsAt policy id start (m + 1)) ∨
    (policy.timeout.nanos ≤ m * policy.interval.nanos ∧
      run.1 = .error (.failed (.cloud (.taskTimeout id))) ∧
      run.2.timedCalls start = pollsAt policy id start m)

variable {start k rounds : Nat} {w : Surroundings} {past : History}

theorem pollsAt_succ (n : Nat) :
    pollsAt policy id start (n + 1) =
      pollsAt policy id start n ++ [(start + n * policy.interval.nanos, .poll id)] := by
  simp [pollsAt, List.range_succ]

theorem play_rest (fits : ¬ clockLimit * 10 ^ 9 ≤ w past .now + policy.interval.nanos) :
    (rest policy false).play w past =
      (.ok (w (past ++ [⟨.now, w past .now⟩])
          (.pause (w past .now + policy.interval.nanos) false)),
        past ++ [⟨.now, w past .now⟩] ++
          [⟨.pause (w past .now + policy.interval.nanos) false,
            w (past ++ [⟨.now, w past .now⟩])
              (.pause (w past .now + policy.interval.nanos) false)⟩]) := by
  rw [rest, Pipeline.play_perform_bind]
  simp only [if_neg fits]
  rfl

theorem play_poll_late (failures : Nat) (time : w.KeepsTime start)
    (underway : Underway policy id start answers k past)
    (late : policy.timeout.nanos ≤ k * policy.interval.nanos) :
    EndsAt policy id start answers k
      ((poll policy id false start (rounds + 1) failures).play w past) := by
  have now : w past .now = start + k * policy.interval.nanos := by
    rw [time.now, underway.instant]
  have up : policy.timeout.nanos ≤ w past .now - start := by
    rwa [now, Nat.add_sub_cancel_left]
  rw [poll, Pipeline.play_perform_bind, if_pos up, Pipeline.emit, Pipeline.play_perform_bind,
    timeout, Pipeline.play_fail]
  exact {
    pending := underway.pending
    instant := by simp [underway.instant, Exchange.instantAfter]
    ending := .inr ⟨late, rfl, by simp [underway.calls, History.timedCalls]⟩ }

def polled (policy : Policy) (id : TaskId) (answers : Nat → Except CloudError Task)
    (start k : Nat) (past : History) : History :=
  past ++ [⟨.now, start + k * policy.interval.nanos⟩] ++ [⟨.call (.poll id), answers k⟩] ++
    .told (judge policy id (streak answers k) (answers k)).1

theorem play_poll_early (time : w.KeepsTime start) (told : w.Answers id answers)
    (underway : Underway policy id start answers k past)
    (early : k * policy.interval.nanos < policy.timeout.nanos) :
    (poll policy id false start (rounds + 1) (streak answers k)).play w past =
      Pipeline.play (match (judge policy id (streak answers k) (answers k)).2 with
        | .over (.ok task) => return task
        | .over (.error e) => Pipeline.fail (.cloud e)
        | .overflow => Pipeline.panic "attempt to add with overflow"
        | .again failures => do
          if ← rest policy false then
            Pipeline.emit (.warn "wait cancelled" [subject id])
            timeout id
          else poll policy id false start rounds failures) w
        (polled policy id answers start k past) := by
  have now : w past .now = start + k * policy.interval.nanos := by
    rw [time.now, underway.instant]
  have inTime : ¬ policy.timeout.nanos ≤ w past .now - start := by
    rw [now, Nat.add_sub_cancel_left]
    omega
  have answer (reply : Nat) : w (past ++ [⟨.now, reply⟩]) (.call (.poll id)) = answers k := by
    rw [told]
    simp [underway.polls, History.isPollOf]
  rw [poll, Pipeline.play_perform_bind, if_neg inTime, Pipeline.play_perform_bind,
    Pipeline.play_bind, Pipeline.play_emitAll, answer, now]
  rfl

theorem instant_polled (underway : Underway policy id start answers k past) :
    (polled policy id answers start k past).instant start =
      start + k * policy.interval.nanos := by
  simp [polled, underway.instant, Exchange.instantAfter]

theorem timedCalls_polled (underway : Underway policy id start answers k past) :
    (polled policy id answers start k past).timedCalls start =
      pollsAt policy id start (k + 1) := by
  simp [polled, underway.calls, underway.instant, History.timedCalls, pollsAt_succ,
    Exchange.instantAfter]

theorem polls_polled (underway : Underway policy id start answers k past) :
    (polled policy id answers start k past).polls id = k + 1 := by
  simp [polled, underway.polls, History.isPollOf]

theorem Pending.streak_lt (pending : Pending policy answers k)
    (retries : policy.maxRetries.toNat < failureLimit - 1) :
    streak answers k < failureLimit - 1 :=
  Nat.lt_of_le_of_lt pending.streak_le retries

theorem play_poll_decided (time : w.KeepsTime start) (told : w.Answers id answers)
    (patient : streak answers k < failureLimit - 1)
    (underway : Underway policy id start answers k past)
    (early : k * policy.interval.nanos < policy.timeout.nanos)
    (decides : Decides policy answers k) :
    EndsAt policy id start answers k
      ((poll policy id false start (rounds + 1) (streak answers k)).play w past) := by
  have verdict := judge_of_decides id patient decides
  have run : (poll policy id false start (rounds + 1) (streak answers k)).play w past =
      (concluded (settled (answers k)), polled policy id answers start k past) := by
    rw [play_poll_early time told underway early, verdict]
    rcases settled (answers k) with e | task <;> rfl
  rw [run]
  exact ⟨underway.pending, instant_polled underway,
    .inl ⟨early, decides, rfl, timedCalls_polled underway⟩⟩

/-- An undecided round rests for one interval, and the invariant holds at the next one. -/
theorem play_poll_undecided (rounds : Nat) (time : w.KeepsTime start) (told : w.Answers id answers)
    (patient : streak answers k < failureLimit - 1)
    (underway : Underway policy id start answers k past)
    (early : k * policy.interval.nanos < policy.timeout.nanos)
    (undecided : ¬ Decides policy answers k)
    (representable : start + (k + 1) * policy.interval.nanos < clockLimit * 10 ^ 9) :
    ∃ next, Underway policy id start answers (k + 1) next ∧
      (poll policy id false start (rounds + 1) (streak answers k)).play w past =
        (poll policy id false start rounds (streak answers (k + 1))).play w next := by
  have verdict := judge_of_not_decides id patient undecided
  set now := start + k * policy.interval.nanos with now_eq
  have deadline : now + policy.interval.nanos = start + (k + 1) * policy.interval.nanos := by
    rw [now_eq, Nat.succ_mul, Nat.add_assoc]
  have fits : ¬ clockLimit * 10 ^ 9 ≤ now + policy.interval.nanos := by omega
  refine ⟨polled policy id answers start k past ++ [⟨.now, now⟩] ++
    [⟨.pause (now + policy.interval.nanos) false, false⟩], ?_, ?_⟩
  · exact {
      instant := by
        simp [instant_polled underway, Exchange.instantAfter, deadline]
      polls := by simp [polls_polled underway, History.isPollOf]
      calls := by simp [timedCalls_polled underway, History.timedCalls]
      pending := underway.pending.succ early undecided }
  · rw [play_poll_early time told underway early, verdict]
    have shown : w (polled policy id answers start k past) .now = now := by
      rw [time.now, instant_polled underway]
    rw [Pipeline.play_bind, play_rest (by rwa [shown]), time.rests, shown]
    rfl

theorem Pending.le_ceilDiv {m : Nat} (pending : Pending policy answers m)
    (interval : 0 < policy.interval.nanos) :
    m ≤ policy.timeout.nanos ⌈/⌉ policy.interval.nanos := by
  by_contra more
  have reached := le_smul_ceilDiv (b := policy.timeout.nanos) interval
  have early := (pending _ (Nat.lt_of_not_le more)).1
  rw [smul_eq_mul, Nat.mul_comm] at reached
  omega

theorem Pending.eq_ceilDiv {m : Nat} (pending : Pending policy answers m)
    (interval : 0 < policy.interval.nanos)
    (late : policy.timeout.nanos ≤ m * policy.interval.nanos) :
    m = policy.timeout.nanos ⌈/⌉ policy.interval.nanos := by
  apply Nat.le_antisymm (pending.le_ceilDiv interval)
  rw [ceilDiv_le_iff_le_mul interval, Nat.mul_comm]
  exact late

theorem Pending.instant_lt {m : Nat} (pending : Pending policy answers m)
    (interval : 0 < policy.interval.nanos) :
    start + m * policy.interval.nanos <
      start + policy.timeout.nanos + policy.interval.nanos := by
  cases m with
  | zero => omega
  | succ m =>
    have early := (pending m (by omega)).1
    rw [Nat.succ_mul]
    omega

theorem early_of_mem_pollsAt {n : Nat} {call : Nat × Call}
    (early : ∀ i < n, i * policy.interval.nanos < policy.timeout.nanos)
    (made : call ∈ pollsAt policy id start n) : call.1 < start + policy.timeout.nanos := by
  obtain ⟨i, before, rfl⟩ := List.mem_map.mp made
  exact Nat.add_lt_add_left (early i (List.mem_range.mp before)) start

theorem underway_zero (policy : Policy) (id : TaskId) (start : Nat)
    (answers : Nat → Except CloudError Task) :
    Underway policy id start answers 0 [⟨.now, start⟩] where
  instant := by simp [Exchange.instantAfter]
  polls := by simp [History.isPollOf]
  calls := by simp [History.timedCalls, pollsAt]
  pending := fun i before => absurd before (Nat.not_lt_zero i)

theorem exists_endsAt (time : w.KeepsTime start) (told : w.Answers id answers)
    (patient : ∀ k, Pending policy answers k → k * policy.interval.nanos < policy.timeout.nanos →
      streak answers k < failureLimit - 1)
    (representable : ∀ k, Pending policy answers k →
      start + k * policy.interval.nanos < clockLimit * 10 ^ 9)
    (underway : Underway policy id start answers k past)
    (enough : policy.timeout.nanos ≤ (k + rounds) * policy.interval.nanos) :
    ∃ m, EndsAt policy id start answers m
      ((poll policy id false start (rounds + 1) (streak answers k)).play w past) := by
  induction rounds generalizing k past with
  | zero => exact ⟨k, play_poll_late _ time underway enough⟩
  | succ rounds ih =>
    by_cases late : policy.timeout.nanos ≤ k * policy.interval.nanos
    · exact ⟨k, play_poll_late _ time underway late⟩
    have early := Nat.lt_of_not_le late
    by_cases decides : Decides policy answers k
    · exact ⟨k, play_poll_decided time told (patient k underway.pending early) underway early
        decides⟩
    obtain ⟨next, later, run⟩ := play_poll_undecided (rounds + 1) time told
      (patient k underway.pending early) underway early decides
      (representable _ (underway.pending.succ early decides))
    rw [run]
    exact ih later (by rwa [Nat.add_assoc, Nat.add_comm 1])

theorem exists_roundLimit_eq (interval : 0 < policy.interval.nanos) :
    ∃ rounds, roundLimit policy = rounds + 1 ∧
      policy.timeout.nanos ≤ rounds * policy.interval.nanos := by
  refine ⟨policy.timeout.nanos / policy.interval.nanos + 1, ?_, ?_⟩
  · rw [roundLimit, if_neg interval.ne']
  · rw [Nat.mul_comm]
    exact (Nat.lt_mul_div_succ _ interval).le

theorem track_endsAt (time : w.KeepsTime start) (told : w.Answers id answers)
    (interval : 0 < policy.interval.nanos)
    (retries : policy.maxRetries.toNat < failureLimit - 1)
    (representable : ∀ k, Pending policy answers k →
      start + k * policy.interval.nanos < clockLimit * 10 ^ 9) :
    ∃ m, EndsAt policy id start answers m ((track policy id).play w []) := by
  have started : w [] .now = start := time.now []
  obtain ⟨rounds, limit, enough⟩ := exists_roundLimit_eq interval
  have run := exists_endsAt time told (fun _ pending _ => pending.streak_lt retries) representable
    (underway_zero policy id start answers) (by rwa [Nat.zero_add])
  rw [track, Pipeline.play_perform_bind, started, limit]
  exact run

/-- The exact end of a wait. The first answer that decides ends it, at its own instant, if that is
before the time is up; otherwise it ends with the first interval at whose end the time is up. -/
theorem track_outcome (policy : Policy) (id : TaskId) (start : Nat)
    (answers : Nat → Except CloudError Task) (w : Surroundings)
    (millis : Nat) (positive : 0 < millis) (interval : policy.interval = .ofMillis millis)
    (retries : policy.maxRetries.toNat < 2 ^ 32 - 1)
    (time : w.KeepsTime start) (told : w.Answers id answers)
    (representable : ∀ k, Pending policy answers k →
      start + k * policy.interval.nanos < clockLimit * 10 ^ 9) :
    let run := (track policy id).play w []
    let calls := run.2.timedCalls start
    (∀ j, IsLeast {j | Decides policy answers j} j →
      j * policy.interval.nanos < policy.timeout.nanos →
      run.1 = concluded (settled (answers j)) ∧
      calls = (List.range (j + 1)).map (fun k => (start + k * policy.interval.nanos, .poll id)) ∧
      run.2.instant start = start + j * policy.interval.nanos) ∧
    ((¬ ∃ j, IsLeast {j | Decides policy answers j} j ∧
      j * policy.interval.nanos < policy.timeout.nanos) →
      run.1 = .error (.failed (.cloud (.taskTimeout id))) ∧
      calls = (List.range (policy.timeout.nanos ⌈/⌉ policy.interval.nanos)).map
        (fun k => (start + k * policy.interval.nanos, .poll id)) ∧
      run.2.instant start =
        start + policy.timeout.nanos ⌈/⌉ policy.interval.nanos * policy.interval.nanos) ∧
    (∀ call ∈ calls, call.1 < start + policy.timeout.nanos) ∧
    run.2.instant start < start + policy.timeout.nanos + policy.interval.nanos := by
  have long : 0 < policy.interval.nanos := by
    rw [interval]
    exact Nat.mul_pos positive (by decide)
  obtain ⟨m, pending, instant, ending⟩ := track_endsAt time told long retries representable
  refine ⟨fun j ⟨decides, least⟩ before => ?_, fun undecided => ?_, fun call made => ?_,
    instant ▸ pending.instant_lt long⟩
  · rcases ending with ⟨_, decidesHere, result, calls⟩ | ⟨late, _, _⟩
    · obtain rfl : m = j := Nat.le_antisymm
        (Nat.le_of_not_lt fun later => (pending j later).2 decides) (least decidesHere)
      exact ⟨result, calls, instant⟩
    · have after : j < m := Nat.lt_of_mul_lt_mul_right (before.trans_le late)
      exact absurd decides (pending j after).2
  · rcases ending with ⟨early, decidesHere, _, _⟩ | ⟨late, result, calls⟩
    · have least : IsLeast {j | Decides policy answers j} m :=
        ⟨decidesHere, fun i decides => Nat.le_of_not_lt fun sooner => (pending i sooner).2 decides⟩
      exact absurd ⟨m, least, early⟩ undecided
    · have rounds : m = policy.timeout.nanos ⌈/⌉ policy.interval.nanos :=
        pending.eq_ceilDiv long late
      exact rounds ▸ ⟨result, calls, instant⟩
  · rcases ending with ⟨early, _, _, calls⟩ | ⟨_, _, calls⟩
    · refine early_of_mem_pollsAt (fun i before => ?_) (calls ▸ made)
      rcases Nat.lt_succ_iff_lt_or_eq.mp before with before | rfl
      · exact (pending i before).1
      · exact early
    · exact early_of_mem_pollsAt (fun i before => (pending i before).1) (calls ▸ made)

def recovering : Nat → Except CloudError Task
  | 0 => .error (.transport (some 503) "unavailable")
  | 1 => .ok (Task.new ⟨"t1"⟩ "CREATE_VM" .started)
  | _ => .ok (Task.new ⟨"t1"⟩ "CREATE_VM" .completed)

/-- The limit is no whole number of intervals: the third poll is the last that it leaves time for. -/
def brief : Policy := ⟨.ofMillis 100, 1, .ofMillis 250⟩

theorem recovering_isLeast : IsLeast {j | Decides brief recovering j} 2 := by
  refine ⟨rfl, fun j here => ?_⟩
  match j, here with
  | 0, here => exact absurd here (by simp [Decides, recovering, streak, isTransient, brief,
      CloudError.isRefusal])
  | 1, here => exact absurd here (by simp [Decides, recovering, Task.new, TaskState.isTerminal])
  | j + 2, _ => omega

theorem track_outcome_recovering :
    let run := (track brief ⟨"t1"⟩).play (.polling 0 ⟨"t1"⟩ recovering) []
    run.1 = .ok (Task.new ⟨"t1"⟩ "CREATE_VM" .completed) ∧
      run.2.timedCalls 0 = [(0, .poll ⟨"t1"⟩), (100000000, .poll ⟨"t1"⟩),
        (200000000, .poll ⟨"t1"⟩)] ∧
      run.2.instant 0 = 200000000 := by
  have representable : ∀ k, Pending brief recovering k →
      0 + k * brief.interval.nanos < clockLimit * 10 ^ 9 := by
    intro k pending
    have few : k ≤ 2 := Nat.le_of_not_lt fun more =>
      (pending 2 more).2 recovering_isLeast.1
    calc 0 + k * brief.interval.nanos ≤ 0 + 2 * brief.interval.nanos := by gcongr
      _ < clockLimit * 10 ^ 9 := by simp [brief, Time.Span.ofMillis, clockLimit]
  have early : 2 * brief.interval.nanos < brief.timeout.nanos := by
    simp [brief, Time.Span.ofMillis]
  have ended := (track_outcome brief ⟨"t1"⟩ 0 recovering (.polling 0 ⟨"t1"⟩ recovering) 100
    (by decide) rfl (by simp [brief]) (Surroundings.polling_keepsTime 0 ⟨"t1"⟩ recovering)
    (Surroundings.polling_answers 0 ⟨"t1"⟩ recovering) representable).1 2 recovering_isLeast early
  simpa [recovering, concluded, settled, Task.new, Except.mapError, brief, Time.Span.ofMillis,
    List.range_succ] using ended

end Outcome
end CloudProvider.Wait
