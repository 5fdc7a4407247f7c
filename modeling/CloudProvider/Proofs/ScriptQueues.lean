import CloudProvider.Proofs.Interleaving

/-! What a script makes of all that is done with it, in any order and under any keys. The responses put
under a key are those that its calls have used up, and then its queue; a call is answered by the head of
the queue, which stays there as long as nothing stands behind it. So no response is lost or given out of
order, and the last one is given for ever. -/

namespace CloudProvider.Script

open Json (Value)
open Text (Dictionary)

abbrev Response := Except CloudError Value

inductive Use
  | respond (key : String) (value : Value)
  /-- A value that cannot be written comes to this, too. -/
  | fail (key : String) (e : CloudError)
  /-- Both responses in one go. If something comes between them, they are two of the first kind. -/
  | task (key : String) (id : TaskId) (entity : String) (final : TaskState)
  | call (c : Call)

def snapshot (id : TaskId) (entity : String) (state : TaskState) : Value :=
  (Task.codec.toValue { Task.new id "SCRIPTED" state with entity := ⟨entity, ""⟩ }).sorted

namespace Use

def pushes : Use → List (String × Response)
  | .respond key value => [(key, .ok value)]
  | .fail key e => [(key, .error e)]
  | .task key id entity final =>
    [(key, .ok (snapshot id entity .queued)),
      ((Call.poll id).key, .ok (snapshot id entity final))]
  | .call _ => []

def called? : Use → Option Call
  | .call c => some c
  | _ => none

def asks (key : String) (use : Use) : Bool :=
  use.called?.any (·.key = key)

end Use

def called (uses : List Use) : List Call :=
  uses.filterMap Use.called?

def perform (s : Script) : Use → Script
  | .respond key value => s.respond key value
  | .fail key e => s.fail key e
  | .task key id entity final => s.task key id entity final
  | .call c => (answer c s).2

def after (s : Script) (uses : List Use) : Script :=
  uses.foldl perform s

variable {s t : Script} {key other : String} {uses : List Use}

section Pushing

def pushAll (s : Script) (pushes : List (String × Response)) : Script :=
  pushes.foldl (fun s (key, response) => s.push key response) s

theorem perform_of_not_called {use : Use} (uncalled : use.called? = none) (s : Script) :
    s.perform use = s.pushAll use.pushes := by
  cases use with
  | call c => cases uncalled
  | _ => rfl

end Pushing

section Calling

end Calling

def Filled (s : Script) : Prop :=
  ∀ key, s.queues.get? key ≠ some []

namespace Filled

theorem insert {responses : List Response} (filled : s.Filled) (some : responses ≠ [])
    (key : String) : ({ s with queues := s.queues.insert key responses } : Script).Filled := by
  intro other
  by_cases same : other = key
  · subst same
    simpa [Dictionary.get?_insert_self] using some
  · rw [Dictionary.get?_insert_of_ne same]
    exact filled other

theorem push (filled : s.Filled) (key : String) (response : Response) :
    (s.push key response).Filled :=
  filled.insert (by simp) key

theorem pushAll (filled : s.Filled) (pushes : List (String × Response)) :
    (s.pushAll pushes).Filled := by
  induction pushes generalizing s with
  | nil => exact filled
  | cons first rest ih => exact ih (filled.push first.1 first.2)

theorem next (filled : s.Filled) (key : String) : (s.next key).2.Filled := by
  unfold Script.next
  split
  · exact filled
  · exact filled
  case h_3 more _ => exact filled.insert more key

theorem perform (filled : s.Filled) (use : Use) : (s.perform use).Filled := by
  cases use with
  | call c =>
    have left : (s.perform (.call c)).queues = (s.next c.key).2.queues := by
      simp [Script.perform, answer_eq]
    rw [Filled, left]
    exact filled.next c.key
  | _ =>
    rw [perform_of_not_called rfl]
    exact filled.pushAll _

theorem after (filled : s.Filled) (uses : List Use) : (s.after uses).Filled := by
  induction uses generalizing s with
  | nil => exact filled
  | cons use rest ih => exact ih (filled.perform use)

end Filled

end CloudProvider.Script
