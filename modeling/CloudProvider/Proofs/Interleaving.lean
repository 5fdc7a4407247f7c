import CloudProvider.Proofs.Cancellation
import CloudProvider.Script
import Mathlib.Logic.Function.Basic

/-! Waits that go on side by side. The parties share one scripted cloud, and whoever has the turn
performs one effect; any order of turns is allowed. The rest is a party's own: the clock, which goes on
by its own rests alone, the signal and the record. A party that asks the cloud for nothing but its own
task is answered as if nobody else were there. -/

namespace CloudProvider

def Call.heard (c : Call) : Option (Except CloudError Json.Value) → Except CloudError c.Answer
  | none => .error (.internal (.unscripted c.key))
  | some (.error e) => .error e
  | some (.ok value) =>
    match c.codec.ofValue value with
    | .ok answer => .ok answer
    | .error cause => .error (.internal (.malformed ⟨cause, none⟩))

namespace Script

variable {s t : Script} {key other : String}

theorem answer_eq (c : Call) (s : Script) :
    answer c s = (c.heard (s.next c.key).1,
      { (s.next c.key).2 with past := (c.key, c.body?) :: (s.next c.key).2.past }) := by
  unfold answer Call.heard
  generalize s.next c.key = response
  rcases response with ⟨_ | e | value, s⟩
  · rfl
  · rfl
  · dsimp only
    rcases c.codec.ofValue value with cause | a <;> rfl

theorem queue_next_of_ne (apart : other ≠ key) : (s.next key).2.queue other = s.queue other := by
  unfold next
  split
  · rfl
  · rfl
  · rw [queue, Text.Dictionary.get?_insert_of_ne apart]
    rfl

theorem next_congr (same : s.queue key = t.queue key) :
    (s.next key).1 = (t.next key).1 ∧ (s.next key).2.queue key = (t.next key).2.queue key := by
  unfold next
  rw [same]
  split
  · exact ⟨rfl, same⟩
  · exact ⟨rfl, same⟩
  · rw [queue, queue, Text.Dictionary.get?_insert_self, Text.Dictionary.get?_insert_self]
    exact ⟨rfl, rfl⟩

theorem queue_answer_of_ne {c : Call} (apart : other ≠ c.key) :
    (answer c s).2.queue other = s.queue other := by
  rw [answer_eq]
  exact queue_next_of_ne apart

theorem answer_congr {c : Call} (same : s.queue c.key = t.queue c.key) :
    (answer c s).1 = (answer c t).1 ∧ (answer c s).2.queue c.key = (answer c t).2.queue c.key := by
  obtain ⟨response, left⟩ := next_congr same
  rw [answer_eq, answer_eq]
  exact ⟨congrArg c.heard response, left⟩

end Script

namespace Program

variable {α β : Type} {key : String}

/-- Whatever the replies, no call has any other key. -/
def Asks (key : String) : Program α → Prop
  | .done _ => True
  | .step e next => (∀ c, e = .call c → c.key = key) ∧ ∀ reply, (next reply).Asks key

theorem Asks.bind {p : Program α} {k : α → Program β} (asks : p.Asks key)
    (later : ∀ a, (k a).Asks key) : (p.bind k).Asks key := by
  induction p with
  | done a => exact later a
  | step e next ih => exact ⟨asks.1, fun reply => ih reply (asks.2 reply)⟩

end Program

namespace Pipeline

variable {α β : Type} {key : String}

def Asks (key : String) (p : Pipeline α) : Prop :=
  Program.Asks key p.run

theorem asks_pure (a : α) : (pure a : Pipeline α).Asks key := trivial

theorem asks_throw (halt : Halt) : (throw halt : Pipeline α).Asks key := trivial

theorem Asks.bind {p : Pipeline α} {k : α → Pipeline β} (asks : p.Asks key)
    (later : ∀ a, (k a).Asks key) : (p >>= k).Asks key := by
  rw [Asks, ExceptT.run_bind]
  refine Program.Asks.bind asks fun result => ?_
  rcases result with halt | a
  · trivial
  · exact later a

theorem asks_perform_bind {e : Effect} {k : e.Reply → Pipeline α}
    (own : ∀ c, e = .call c → c.key = key) (later : ∀ reply, (k reply).Asks key) :
    (perform e >>= k).Asks key :=
  ⟨own, later⟩

theorem asks_emitAll (events : List Event) : (emitAll events).Asks key := by
  induction events with
  | nil => trivial
  | cons event rest ih => exact asks_perform_bind nofun fun _ => ih

end Pipeline

namespace Wait

open Pipeline

variable {policy : Policy} {id : TaskId} {heeding : Bool}

theorem asks_rest {key : String} : (rest policy heeding).Asks key := by
  refine asks_perform_bind nofun fun now => ?_
  dsimp only
  split
  · exact asks_throw _
  · exact asks_perform_bind nofun asks_pure

theorem asks_poll (started rounds failures : Nat) :
    (poll policy id heeding started rounds failures).Asks (Call.poll id).key := by
  induction rounds generalizing failures with
  | zero => trivial
  | succ rounds ih =>
    rw [poll]
    refine asks_perform_bind (by rintro _ ⟨⟩) fun now => ?_
    split
    · exact asks_perform_bind (by rintro _ ⟨⟩) fun _ => asks_throw _
    refine asks_perform_bind (by rintro _ ⟨⟩; rfl) fun answer => ?_
    dsimp only
    refine (asks_emitAll _).bind fun _ => ?_
    split
    · exact asks_pure _
    · exact asks_throw _
    · exact asks_throw _
    · refine asks_rest.bind fun cut => ?_
      split
      · exact asks_perform_bind (by rintro _ ⟨⟩) fun _ => asks_throw _
      · exact ih _

theorem asks_track : (track policy id).Asks (Call.poll id).key :=
  asks_perform_bind nofun fun started => asks_poll started _ _

theorem asks_untilSignalled : (untilSignalled policy id).Asks (Call.poll id).key := by
  refine asks_perform_bind nofun fun started => asks_perform_bind nofun fun signalled => ?_
  split
  · exact asks_throw _
  · exact asks_poll started _ _

end Wait

namespace Rehearsal

def State.facing {ρ σ : Type} (s : State ρ) (remote : σ) : State σ :=
  { s with remote := remote }

variable {ρ : Type} {cloud : (c : Call) → StateM ρ (Except CloudError c.Answer)}

variable (cloud) in
theorem handle_facing {e : Effect} (uncalled : e.isCall = false) (s : State ρ) (remote : ρ) :
    handle cloud e (s.facing remote) =
      ((handle cloud e s).1, (handle cloud e s).2.facing remote) := by
  cases e with
  | call c => cases uncalled
  | pause deadline heeding =>
    dsimp only [handle, rest, State.facing]
    split
    · split
      · rfl
      · split <;> rfl
    · rfl
  | makeScratch name =>
    dsimp only [handle, State.facing]
    split <;> rfl
  | discardScratch path =>
    dsimp only [handle, State.facing]
    split <;> rfl
  | makeDirectory path =>
    dsimp only [handle, changeFiles, State.facing]
    split <;> rfl
  | writeFile path contents =>
    dsimp only [handle, changeFiles, State.facing]
    split <;> rfl
  | run command =>
    dsimp only [handle, runCommand, State.facing]
    split <;> rfl
  | _ => rfl

theorem remote_handle {e : Effect} (uncalled : e.isCall = false) (s : State ρ) :
    (handle cloud e s).2.remote = s.remote :=
  congrArg (·.2.remote) (handle_facing cloud uncalled s s.remote)

/-- Somebody with a program to go on with, and all that is nobody else's. -/
structure Party (α : Type) where
  left : Program α
  own : State Unit
  record : Record

namespace Party

variable {α : Type}

/-- One effect, with the script that is shared. Who has come to the end does nothing. -/
def turn (p : Party α) (script : Script) : Party α × Script :=
  match p.left with
  | .done _ => (p, script)
  | .step e next =>
    let (reply, state, record) := noting Script.answer e (p.own.facing script, p.record)
    (⟨next reply, state.facing (), record⟩, state.remote)

def alone : Nat → Party α → Script → Party α × Script
  | 0, p, script => (p, script)
  | turns + 1, p, script => alone turns (p.turn script).1 (p.turn script).2

def outcome (p : Party α) (script : Script) : α × State Script × Record :=
  p.left.interpret (noting Script.answer) (p.own.facing script, p.record)

variable {p : Party α} {key other : String} {s t : Script}

theorem turn_step {e : Effect} {next : e.Reply → Program α} {own : State Unit} {record : Record} :
    (Party.mk (.step e next) own record).turn s =
      match handle Script.answer e (own.facing s) with
      | (reply, state) =>
        (⟨next reply, state.facing (), record ++ noted own.now ⟨e, reply⟩⟩, state.remote) := rfl

theorem turn_asks (asks : p.left.Asks key) : (p.turn s).1.left.Asks key := by
  obtain ⟨left, own, record⟩ := p
  cases left with
  | done a => trivial
  | step e next => exact asks.2 _

theorem queue_turn_of_ne (asks : p.left.Asks key) (apart : other ≠ key) :
    (p.turn s).2.queue other = s.queue other := by
  obtain ⟨left, own, record⟩ := p
  cases left with
  | done a => rfl
  | step e next =>
    by_cases uncalled : e.isCall = false
    · have still : (handle Script.answer e (own.facing s)).2.remote = s := remote_handle uncalled _
      exact congrArg (Script.queue · other) still
    · match e, uncalled with
      | .call c, _ =>
        obtain rfl := asks.1 c rfl
        exact Script.queue_answer_of_ne apart

theorem turn_congr (asks : p.left.Asks key) (same : s.queue key = t.queue key) :
    (p.turn s).1 = (p.turn t).1 ∧ (p.turn s).2.queue key = (p.turn t).2.queue key := by
  obtain ⟨left, own, record⟩ := p
  cases left with
  | done a => exact ⟨rfl, same⟩
  | step e next =>
    by_cases uncalled : e.isCall = false
    · have alike := handle_facing Script.answer uncalled (own.facing t) s
      have facing : (own.facing t).facing s = own.facing s := rfl
      have still : (handle Script.answer e (own.facing t)).2.remote = t := remote_handle uncalled _
      rw [turn_step, turn_step, ← facing, alike]
      refine ⟨rfl, ?_⟩
      change s.queue key = (handle Script.answer e (own.facing t)).2.remote.queue key
      rw [still, same]
    · match e, uncalled with
      | .call c, _ =>
        obtain rfl := asks.1 c rfl
        obtain ⟨answer, queue⟩ := Script.answer_congr same
        refine ⟨?_, queue⟩
        change Party.mk (next (Script.answer c s).1) own
            (record ++ noted own.now ⟨.call c, (Script.answer c s).1⟩) = _
        rw [answer]
        rfl

theorem outcome_turn : (p.turn s).1.outcome (p.turn s).2 = p.outcome s := by
  obtain ⟨left, own, record⟩ := p
  cases left <;> rfl

theorem outcome_alone (turns : Nat) :
    (alone turns p s).1.outcome (alone turns p s).2 = p.outcome s := by
  induction turns generalizing p s with
  | zero => rfl
  | succ turns ih => exact ih.trans outcome_turn

theorem exists_turns (p : Party α) (s : Script) :
    ∃ turns, ∀ n, turns ≤ n ↔ ∃ a, (alone n p s).1.left = .done a := by
  obtain ⟨left, own, record⟩ := p
  induction left generalizing own record s with
  | done a =>
    refine ⟨0, fun n => iff_of_true (Nat.zero_le n) ?_⟩
    induction n with
    | zero => exact ⟨a, rfl⟩
    | succ n ih => exact ih
  | step e next ih =>
    obtain ⟨turns, ends⟩ := ih (noting Script.answer e (own.facing s, record)).1
      (noting Script.answer e (own.facing s, record)).2.1.remote
      ((noting Script.answer e (own.facing s, record)).2.1.facing ())
      (noting Script.answer e (own.facing s, record)).2.2
    refine ⟨turns + 1, fun n => ?_⟩
    cases n with
    | zero => exact ⟨nofun, fun ⟨a, same⟩ => nomatch same⟩
    | succ n => exact Nat.succ_le_succ_iff.trans (ends n)

end Party

structure Company (ι α : Type) where
  parties : ι → Party α
  script : Script

namespace Company

variable {ι α : Type} [DecidableEq ι]

def turn (c : Company ι α) (i : ι) : Company ι α :=
  ⟨Function.update c.parties i ((c.parties i).turn c.script).1, ((c.parties i).turn c.script).2⟩

def run (c : Company ι α) (schedule : List ι) : Company ι α :=
  schedule.foldl turn c

/-- If everybody asks under a key of their own, it makes no difference when the others have had their
turns. -/
theorem parties_run {key : ι → String} (distinct : Function.Injective key) {c : Company ι α}
    (asks : ∀ i, (c.parties i).left.Asks (key i)) (i : ι) {script : Script}
    (same : c.script.queue (key i) = script.queue (key i)) (schedule : List ι) :
    (c.run schedule).parties i = ((c.parties i).alone (schedule.count i) script).1 := by
  -- Kept from turn to turn: the party meets the queue under its own key that it would meet alone.
  induction schedule generalizing c script with
  | nil => rfl
  | cons j rest ih =>
    have asks' (i : ι) : ((c.turn j).parties i).left.Asks (key i) := by
      dsimp only [turn]
      by_cases here : i = j
      · subst here
        rw [Function.update_self]
        exact Party.turn_asks (asks i)
      · rw [Function.update_of_ne here]
        exact asks i
    by_cases here : j = i
    · subst here
      obtain ⟨party, queue⟩ := Party.turn_congr (asks j) same
      have moved : (c.turn j).parties j = ((c.parties j).turn script).1 :=
        (Function.update_self ..).trans party
      rw [List.count_cons_self, Party.alone, ← moved]
      exact ih asks' queue
    · have apart : key i ≠ key j := fun equal => here (distinct equal).symm
      have queue : (c.turn j).script.queue (key i) = script.queue (key i) :=
        (Party.queue_turn_of_ne (asks j) apart).trans same
      have party : (c.turn j).parties i = c.parties i := Function.update_of_ne (Ne.symm here) _ _
      rw [List.count_cons_of_ne here, ← party]
      exact ih asks' queue

end Company
end Rehearsal

/-- A wait: for which task, how patiently, and whether a signal is heeded. -/
structure Watch where
  id : TaskId
  policy : Policy
  heeding : Bool

namespace Watch

open Rehearsal

def pipeline (w : Watch) : Pipeline Task :=
  if w.heeding then Wait.untilSignalled w.policy w.id else Wait.track w.policy w.id

theorem asks_pipeline (w : Watch) : w.pipeline.Asks (Call.poll w.id).key := by
  unfold pipeline
  split
  · exact Wait.asks_untilSignalled
  · exact Wait.asks_track

def company {n : Nat} (waits : Fin n → Watch) (own : Fin n → State Unit) (script : Script) :
    Company (Fin n) (Except Halt Task) :=
  ⟨fun i => ⟨(waits i).pipeline.run, own i, []⟩, script⟩

/-- Whatever the order of turns, each wait ends after just as many turns of its own as if it were
alone, with the same result, at the same instant, and with the same polls, answers and events, each at
the same instant. -/
theorem company_undisturbed {n : Nat} {waits : Fin n → Watch}
    (distinct : Function.Injective fun i => (waits i).id) (own : Fin n → State Unit)
    (script : Script) (i : Fin n) :
    ∃ turns, ∀ schedule : List (Fin n),
      let party := ((company waits own script).run schedule).parties i
      let alone := rehearse Script.answer (waits i).pipeline ((own i).facing script)
      (turns ≤ schedule.count i →
        party.left = .done alone.1 ∧ party.own.now = alone.2.1.now ∧ party.record = alone.2.2) ∧
      (schedule.count i < turns → ∀ result, party.left ≠ .done result) := by
  have keys : Function.Injective fun i => (Call.poll (waits i).id).key := by
    intro i j same
    refine distinct ?_
    dsimp only [Call.key] at same ⊢
    rw [String.append_right_inj] at same
    exact congrArg Id.mk same
  let first : Party (Except Halt Task) := ⟨(waits i).pipeline.run, own i, []⟩
  obtain ⟨turns, ends⟩ := first.exists_turns script
  refine ⟨turns, fun schedule => ?_⟩
  intro party alone
  have asks (i : Fin n) :
      ((company waits own script).parties i).left.Asks (Call.poll (waits i).id).key :=
    (waits i).asks_pipeline
  have met : party = (first.alone (schedule.count i) script).1 :=
    Company.parties_run keys asks i rfl schedule
  constructor
  · intro enough
    obtain ⟨result, ended⟩ := (ends _).mp enough
    have outcome : _ = alone := first.outcome_alone (schedule.count i)
    rw [Party.outcome, ended] at outcome
    rw [← outcome, met, ended]
    exact ⟨rfl, rfl, rfl⟩
  · intro few result ended
    rw [met] at ended
    exact absurd ((ends _).mpr ⟨result, ended⟩) (Nat.not_le_of_lt few)

def pair : Fin 2 → Watch
  | 0 => ⟨⟨"t1"⟩, Wait.brief, false⟩
  | 1 => ⟨⟨"t2"⟩, Wait.brief, true⟩

def sparse : Script :=
  Script.empty.push "get_task t1" (.error (.transport none "no answer"))

theorem company_undisturbed_pair :
    ∃ turns, ∀ schedule : List (Fin 2), turns ≤ schedule.count 0 →
      let party := ((company pair (fun _ => .start () ⟨0, 0⟩) sparse).run schedule).parties 0
      party.left = .done (.error (.failed (.cloud (.transport none "no answer")))) ∧
        party.own.now = 100000000 ∧ party.record.calls.map (·.1) = [0, 100000000] := by
  have distinct : Function.Injective fun i => (pair i).id := by decide
  obtain ⟨turns, undisturbed⟩ := company_undisturbed distinct (fun _ => .start () ⟨0, 0⟩) sparse 0
  refine ⟨turns, fun schedule enough => ?_⟩
  obtain ⟨left, now, record⟩ := (undisturbed schedule).1 enough
  refine ⟨left.trans rfl, now.trans rfl, ?_⟩
  rw [record]
  rfl

end Watch
end CloudProvider
