import CloudProvider.Proofs.Mishaps

/-! The parts of a run: a step on this host or a reading by itself, or a submission with the wait for
its task. What a part has come to is shown by its dealings alone, and the dealings of a run are read
into parts in one way only. So it is, too, with the first part that fails and what goes wrong in it. -/

namespace CloudProvider

namespace Submission

def wanted? : Submission → Option String
  | .createVm _ _ => some "a VM id"
  | .createDisk _ _ => some "a disk id"
  | .createImage _ _ => some "an image id"
  | _ => none

/-- The file that is to be sent along is read right before, and what comes of that is sent, too. -/
def reads (submission : Submission) : History :=
  match submission.upload? with
  | some u => [⟨.readFile u.path, u.contents⟩]
  | none => []

end Submission

def Effect.standsAlone : Effect → Bool
  | .call c => c.isReading
  | e => e.isDeed

/-- What goes wrong in such a part. Whether a resource exists is answered by its absence, too. -/
def Exchange.mishap? : Exchange → Option Mishap
  | ⟨.makeScratch _, .error fault⟩ => some (.file fault)
  | ⟨.makeDirectory _, .error fault⟩ => some (.file fault)
  | ⟨.writeFile _ _, .error fault⟩ => some (.file fault)
  | ⟨.readFile _, .error fault⟩ => some (.file fault)
  | ⟨.readFile path, .ok bytes⟩ =>
    match Archive.Stemcell.image? (.ofBytes bytes) with
    | .error fault => some (.archive fault)
    | .ok none => some (.noImage path)
    | .ok (some _) => none
  | ⟨.run _, .error fault⟩ => some (.file fault)
  | ⟨.run _, .ok output⟩ => if output.success then none else some (.command output)
  | ⟨.call (.listDisks project), .error e⟩ => some (.declined (.listDisks project) e)
  | ⟨.call c, .error e⟩ => if e.isNotFound then none else some (.declined c e)
  | _ => none

def Exchange.isClearing : Exchange → Bool
  | ⟨.discardScratch _, _⟩ => true
  | _ => false

def Exchange.opensPart : Exchange → Bool
  | ⟨.call (.submit submission), _⟩ => submission.upload?.isNone
  | x => x.effect.standsAlone

def History.Opens (h : History) : Prop :=
  ∀ x ∈ h.head?, x.opensPart

theorem Exchange.not_isWaiting_of_opensPart {x : Exchange} (opens : x.opensPart) (id : TaskId) :
    ¬ Wait.IsWaiting id x := by
  intro waits
  obtain ⟨e, reply⟩ := x
  cases e with
  | now => cases opens
  | pause _ _ => cases opens
  | call c =>
    cases c with
    | poll _ => exact Bool.false_ne_true opens
    | _ => exact waits
  | _ => cases waits

theorem Exchange.opensPart_of_standsAlone {x : Exchange} (lone : x.effect.standsAlone) :
    x.opensPart := by
  obtain ⟨e, reply⟩ := x
  cases e with
  | call c => cases c <;> first | exact lone | cases lone
  | _ => exact lone

inductive Part
  | alone (x : Exchange)
  | change (submission : Submission) (answer : Except CloudError Task) (wait : History)

namespace Part

def dealings : Part → History
  | alone x => [x]
  | change submission answer wait =>
    submission.reads ++ ⟨.call (.submit submission), answer⟩ :: wait

inductive Succeeds (policy : Policy) : Part → Prop
  | alone {x : Exchange} (lone : x.effect.standsAlone) (fine : x.mishap? = none) :
      Succeeds policy (.alone x)
  | change {submission : Submission} {task done : Task} {wait : History}
      (completes : Wait.Completes policy task.id wait done)
      (named : submission.wanted?.isSome → done.entity.id.isEmpty = false) :
      Succeeds policy (.change submission (.ok task) wait)

/-- A part that has not, and what has gone wrong in it. -/
inductive Fails (policy : Policy) : Part → Mishap → Prop
  | alone {x : Exchange} {m : Mishap} (lone : x.effect.standsAlone) (shown : x.mishap? = some m) :
      Fails policy (.alone x) m
  | declined {submission : Submission} {e : CloudError} :
      Fails policy (.change submission (.error e) []) (.declined (.submit submission) e)
  | waiting {submission : Submission} {task : Task} {wait : History} {m : Mishap}
      (waiting : ∀ x ∈ wait, Wait.IsWaiting task.id x)
      (breaks : Wait.BreaksOff policy task.id wait m) :
      Fails policy (.change submission (.ok task) wait) m
  | nameless {submission : Submission} {task done : Task} {wait : History} {wanted : String}
      (completes : Wait.Completes policy task.id wait done)
      (makes : submission.wanted? = some wanted) (unnamed : done.entity.id.isEmpty) :
      Fails policy (.change submission (.ok task) wait) (.nameless done.id wanted)

variable {policy : Policy} {part other : Part} {m m' : Mishap} {a b r s : History}

theorem Fails.unique (fails : part.Fails policy m) (also : part.Fails policy m') : m = m' := by
  cases fails with
  | alone _ shown =>
    obtain ⟨_, shown'⟩ := also
    exact Option.some.inj (shown.symm.trans shown')
  | declined =>
    cases also
    rfl
  | waiting _ breaks =>
    cases also with
    | waiting _ breaks' => exact breaks.unique breaks'
    | nameless completes => exact absurd breaks completes.not_breaksOff
  | nameless completes makes =>
    cases also with
    | waiting _ breaks => exact absurd breaks completes.not_breaksOff
    | nameless completes' makes' =>
      obtain rfl := completes.unique completes'
      obtain rfl := Option.some.inj (makes.symm.trans makes')
      rfl

theorem Succeeds.not_fails (succeeds : part.Succeeds policy) : ¬ part.Fails policy m := by
  intro fails
  cases succeeds with
  | alone _ fine =>
    obtain ⟨_, shown⟩ := fails
    cases fine.symm.trans shown
  | change completes named =>
    cases fails with
    | waiting _ breaks => exact completes.not_breaksOff breaks
    | nameless completes' makes unnamed =>
      obtain rfl := completes.unique completes'
      exact absurd unnamed (by simp [named (by simp [makes])])

/-- Nothing of another part is in it. -/
def IsWhole : Part → Prop
  | alone x => x.effect.standsAlone
  | change _ _ wait => ∀ x ∈ wait, ∃ id, Wait.IsWaiting id x

theorem Succeeds.isWhole (succeeds : part.Succeeds policy) : part.IsWhole := by
  cases succeeds with
  | alone lone => exact lone
  | change completes => exact fun x mem => ⟨_, completes.waiting x mem⟩

theorem Fails.isWhole (fails : part.Fails policy m) : part.IsWhole := by
  cases fails with
  | alone lone => exact lone
  | declined => exact fun x mem => by cases mem
  | waiting waiting => exact fun x mem => ⟨_, waiting x mem⟩
  | nameless completes => exact fun x mem => ⟨_, completes.waiting x mem⟩

theorem IsWhole.opens (whole : part.IsWhole) (r : History) :
    History.Opens (part.dealings ++ r) := by
  rintro x first
  cases part with
  | alone y =>
    obtain rfl := Option.some.inj first
    exact Exchange.opensPart_of_standsAlone whole
  | change submission answer wait =>
    rw [dealings, Submission.reads] at first
    cases accompanied : submission.upload? with
    | none =>
      rw [accompanied] at first
      obtain rfl := Option.some.inj first
      simp [Exchange.opensPart, accompanied]
    | some u =>
      rw [accompanied] at first
      obtain rfl := Option.some.inj first
      rfl

theorem append_inj_of_waiting (waits : ∀ x ∈ a, ∃ id, Wait.IsWaiting id x)
    (waits' : ∀ x ∈ b, ∃ id, Wait.IsWaiting id x) (opens : r.Opens) (opens' : s.Opens)
    (same : a ++ r = b ++ s) : a = b ∧ r = s := by
  -- A wait reaches until something that is none of it, on either side.
  induction a generalizing b with
  | nil =>
    cases b with
    | nil => exact ⟨rfl, same⟩
    | cons y b =>
      obtain rfl : r = y :: b ++ s := same
      obtain ⟨id, waiting⟩ := waits' y List.mem_cons_self
      exact absurd waiting (Exchange.not_isWaiting_of_opensPart (opens y rfl) id)
  | cons x a ih =>
    cases b with
    | nil =>
      obtain rfl : x :: a ++ r = s := same
      obtain ⟨id, waiting⟩ := waits x List.mem_cons_self
      exact absurd waiting (Exchange.not_isWaiting_of_opensPart (opens' x rfl) id)
    | cons y b =>
      obtain ⟨rfl, tails⟩ := List.cons.inj same
      obtain ⟨rfl, rfl⟩ := ih (fun x mem => waits x (List.mem_cons_of_mem _ mem))
        (fun x mem => waits' x (List.mem_cons_of_mem _ mem)) tails
      exact ⟨rfl, rfl⟩

theorem alone_dealings_ne {x : Exchange} {submission : Submission}
    {answer : Except CloudError Task} {wait : History} (lone : x.effect.standsAlone)
    (opens : r.Opens) :
    (alone x).dealings ++ r ≠ (change submission answer wait).dealings ++ s := by
  intro same
  rw [dealings, dealings, Submission.reads] at same
  cases accompanied : submission.upload? with
  | none =>
    rw [accompanied] at same
    obtain ⟨rfl, -⟩ := List.cons.inj same
    cases lone
  | some u =>
    rw [accompanied] at same
    obtain ⟨-, rfl⟩ := List.cons.inj same
    have unaccompanied : submission.upload?.isNone := opens _ rfl
    cases accompanied ▸ unaccompanied

theorem reads_append_injective {submission submission' : Submission}
    {answer answer' : Except CloudError Task}
    (same : submission.reads ++ ⟨.call (.submit submission), answer⟩ :: a =
      submission'.reads ++ ⟨.call (.submit submission'), answer'⟩ :: b) :
    submission = submission' ∧ answer = answer' ∧ a = b := by
  rw [Submission.reads, Submission.reads] at same
  cases first : submission.upload? <;> cases second : submission'.upload? <;>
    rw [first, second] at same
  case none.none =>
    cases same
    exact ⟨rfl, rfl, rfl⟩
  case some.some =>
    cases (List.cons.inj same).2
    exact ⟨rfl, rfl, rfl⟩
  all_goals cases same

/-- A part that stands before others is known from the dealings of all of them. -/
theorem dealings_append_injective (whole : part.IsWhole) (whole' : other.IsWhole)
    (opens : r.Opens) (opens' : s.Opens) (same : part.dealings ++ r = other.dealings ++ s) :
    part = other ∧ r = s := by
  cases part with
  | alone x =>
    cases other with
    | alone y =>
      obtain ⟨rfl, rfl⟩ := List.cons.inj same
      exact ⟨rfl, rfl⟩
    | change _ _ _ => exact absurd same (alone_dealings_ne whole opens)
  | change submission answer wait =>
    cases other with
    | alone y => exact absurd same.symm (alone_dealings_ne whole' opens')
    | change _ _ _ =>
      rw [dealings, dealings, List.append_assoc, List.append_assoc] at same
      obtain ⟨rfl, rfl, tails⟩ := reads_append_injective same
      obtain ⟨rfl, rfl⟩ := append_inj_of_waiting whole whole' opens opens' tails
      exact ⟨rfl, rfl⟩

theorem Fails.dealings_append_ne (fails : part.Fails policy m) (succeeds : other.Succeeds policy)
    (opens : r.Opens) (opens' : s.Opens) : part.dealings ++ r ≠ other.dealings ++ s := by
  intro same
  obtain ⟨rfl, -⟩ :=
    dealings_append_injective fails.isWhole succeeds.isWhole opens opens' same
  exact succeeds.not_fails fails

end Part
end CloudProvider
