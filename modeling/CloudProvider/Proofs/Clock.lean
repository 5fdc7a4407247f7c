import CloudProvider.Proofs.History

/-! Time in a history, for surroundings whose clock is moved by rests alone and where no rest is cut
short unless it heeds a signal. Calls take no time, so each is made at the instant that the rests
before it add up to. -/

namespace CloudProvider

/-- A rest lasts until its deadline, and everything else takes no time. -/
def Exchange.instantAfter (now : Nat) : Exchange → Nat
  | ⟨.pause deadline _, _⟩ => max deadline now
  | _ => now

namespace History

def instant (start : Nat) (h : History) : Nat :=
  h.foldl Exchange.instantAfter start

def timedCalls (start : Nat) : History → List (Nat × Call)
  | [] => []
  | ⟨.call c, _⟩ :: rest => (start, c) :: timedCalls start rest
  | x :: rest => timedCalls (x.instantAfter start) rest

def isPollOf (id : TaskId) : Effect → Bool
  | .call (.poll other) => other = id
  | _ => false

def polls (id : TaskId) (h : History) : Nat :=
  h.countP fun x => isPollOf id x.effect

variable (start : Nat) (a b : History) (events : List Event) (id : TaskId)

@[simp] theorem instant_append : instant start (a ++ b) = instant (instant start a) b :=
  List.foldl_append

@[simp] theorem instant_cons (x : Exchange) :
    instant start (x :: a) = instant (x.instantAfter start) a := rfl

@[simp] theorem instant_nil : instant start [] = start := rfl

@[simp] theorem timedCalls_append :
    timedCalls start (a ++ b) = timedCalls start a ++ timedCalls (instant start a) b := by
  fun_induction timedCalls start a with
  | case1 start => rfl
  | case2 start c reply rest ih =>
    simp only [List.cons_append, timedCalls, ih]
    rfl
  | case3 start x rest other ih =>
    rw [List.cons_append, timedCalls, ih]
    · rfl
    · exact other

@[simp] theorem polls_append : polls id (a ++ b) = polls id a + polls id b :=
  List.countP_append

@[simp] theorem polls_cons (x : Exchange) :
    polls id (x :: a) = polls id a + if isPollOf id x.effect then 1 else 0 :=
  List.countP_cons

@[simp] theorem polls_nil : polls id [] = 0 := rfl

@[simp] theorem instant_told : instant start (told events) = start := by
  induction events with
  | nil => rfl
  | cons event rest ih => exact ih

@[simp] theorem timedCalls_told : timedCalls start (told events) = [] := by
  induction events with
  | nil => rfl
  | cons event rest ih => exact ih

@[simp] theorem polls_told : polls id (told events) = 0 := by
  induction events with
  | nil => rfl
  | cons event rest ih => simp [told, polls, isPollOf]

end History

/-- Time is moved by rests alone. -/
structure Surroundings.KeepsTime (w : Surroundings) (start : Nat) : Prop where
  now : ∀ past, w past .now = past.instant start
  rests : ∀ past deadline, w past (.pause deadline false) = false

/-- The polls of a task get these answers, one after the other. -/
def Surroundings.Answers (w : Surroundings) (id : TaskId)
    (answers : Nat → Except CloudError Task) : Prop :=
  ∀ past, w past (.call (.poll id)) = answers (past.polls id)

namespace Surroundings

def polling (start : Nat) (id : TaskId) (answers : Nat → Except CloudError Task) :
    Surroundings := fun past e =>
  match e with
  | .emit _ | .discardScratch _ => ()
  | .call (.poll other) =>
    if other = id then answers (past.polls id) else .error (.transport none "no such task")
  | .call _ => .error (.transport none "no answer")
  | .now => past.instant start
  | .pause _ _ | .signalled => false
  | .clock => ⟨0, 0⟩
  | .freshName kind => kind
  | .makeScratch name => .ok name
  | .makeDirectory _ | .writeFile _ _ => .ok ()
  | .readFile _ => .ok []
  | .run _ => .ok ⟨true, "", ""⟩

variable (start : Nat) (id : TaskId) (answers : Nat → Except CloudError Task)

theorem polling_keepsTime : (polling start id answers).KeepsTime start :=
  ⟨fun _ => rfl, fun _ _ => rfl⟩

theorem polling_answers : (polling start id answers).Answers id answers :=
  fun _ => if_pos rfl

end Surroundings
end CloudProvider
