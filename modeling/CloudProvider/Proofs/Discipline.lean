import CloudProvider.Action.Standard
import CloudProvider.Proofs.Changes

/-! The discipline of calls. One request reads at most once, and then makes its changes one after the
other. Whatever fails, a reading, a change or a step on this host, is followed by no further call, and
so no two tasks are in progress at once, and nothing is submitted again. -/

namespace CloudProvider

open Json (Value)

def Call.isReading : Call → Bool
  | .getVm _ | .getDisk _ | .listDisks _ => true
  | .poll _ | .submit _ => false

def Submission.upload? : Submission → Option Upload
  | .attachIso _ iso => some iso
  | .createImage image _ => some image
  | _ => none

def History.Uploads (h : History) (u : Upload) : Prop :=
  ∃ submission answer rest,
    h = ⟨.call (.submit submission), answer⟩ :: rest ∧ submission.upload? = some u

namespace Exchange

/-- A step on this host that has failed. What is read to be sent along is the submission's matter. -/
def FailsBefore : Exchange → History → Prop
  | ⟨.makeScratch _, .error _⟩, _ => True
  | ⟨.makeDirectory _, .error _⟩, _ => True
  | ⟨.writeFile _ _, .error _⟩, _ => True
  | ⟨.run _, .error _⟩, _ => True
  | ⟨.run _, .ok output⟩, _ => output.success = false
  | ⟨.readFile path, contents⟩, after =>
    (∃ e, Pipeline.unpackedImage path contents = .error e) ∧ ¬ after.Uploads ⟨path, contents⟩
  | _, _ => False

def IsReading : Exchange → Prop
  | ⟨.call c, _⟩ => c.isReading
  | _ => False

def IsRefused : Exchange → Prop
  | ⟨.call _, .error _⟩ => True
  | _ => False

theorem IsReading.isCall {x : Exchange} (reading : x.IsReading) : x.effect.isCall := by
  obtain ⟨effect, reply⟩ := x
  cases effect <;> first | rfl | cases reading

theorem not_failsBefore_of_call {x : Exchange} (call : x.effect.isCall) (after : History) :
    ¬ x.FailsBefore after := by
  obtain ⟨effect, reply⟩ := x
  cases effect <;> simp_all [Effect.isCall, FailsBefore]

theorem FailsBefore.of_append {x : Exchange} {a b : History} (fails : x.FailsBefore (a ++ b)) :
    x.FailsBefore a := by
  obtain ⟨effect, reply⟩ := x
  cases effect with
  | readFile path =>
    refine ⟨fails.1, fun ⟨submission, answer, rest, same, sent⟩ => fails.2 ?_⟩
    exact ⟨submission, answer, rest ++ b, by rw [same, List.cons_append], sent⟩
  | run command => cases reply <;> exact fails
  | makeScratch name => cases reply <;> exact fails
  | makeDirectory path => cases reply <;> exact fails
  | writeFile path contents => cases reply <;> exact fails
  | _ => exact fails

end Exchange

theorem append_eq_parted {α : Type} {a b before after : List α} {x : α}
    (parted : a ++ b = before ++ x :: after) :
    (∃ mid, before = a ++ mid ∧ b = mid ++ x :: after) ∨
      ∃ mid, a = before ++ x :: mid ∧ after = mid ++ b := by
  rcases List.append_eq_append_iff.mp parted with ⟨mid, rfl, rest⟩ | ⟨mid, rest, tail⟩
  · exact .inl ⟨mid, rfl, rest⟩
  · cases mid with
    | nil => exact .inl ⟨[], by simpa using rest.symm, tail.symm⟩
    | cons y mid =>
      obtain ⟨rfl, same⟩ := List.cons_eq_cons.mp tail
      exact .inr ⟨mid, rest, same⟩

/-- Between two submissions the task of the first is found completed, so that no two tasks are in
progress at once. -/
def History.OneByOne (calls : History) : Prop :=
  ∀ (past between future : History) (earlier later : Submission)
    (reply answer : Except CloudError Task),
    calls = past ++ ⟨.call (.submit earlier), reply⟩ :: between ++
      ⟨.call (.submit later), answer⟩ :: future →
    ∃ task snapshot, reply = .ok task ∧ pollOf task.id (.ok snapshot) ∈ between ∧
      snapshot.state = .completed

namespace Change

variable (c : Change)

theorem eq_nil_of_submitted {before after : History} {submission : Submission}
    {answer : Except CloudError Task}
    (parted : c.deeds = before ++ ⟨.call (.submit submission), answer⟩ :: after) : before = [] := by
  cases before with
  | nil => rfl
  | cons first before =>
    have polled : ⟨.call (.submit submission), answer⟩ ∈ c.deeds.tail := by
      rw [parted]
      simp
    cases c with
    | declined submission error => cases polled
    | followed submission task polls => simp [deeds, pollOf] at polled

theorem eq_followed_of_completed (completed : c.completed?.isSome) :
    ∃ submission task polls snapshot, c = .followed submission task polls ∧
      .ok snapshot ∈ polls ∧ snapshot.state = .completed := by
  cases c with
  | declined submission error => cases completed
  | followed submission task polls =>
    obtain ⟨snapshot, last⟩ := Option.isSome_iff_exists.mp completed
    obtain ⟨last, state⟩ := state_of_lastCompleted last
    exact ⟨submission, task, polls, snapshot, rfl, List.mem_of_getLast? last, state⟩

theorem exists_parted_of_submitted {changes : List Change} {before after : History}
    {submission : Submission} {answer : Except CloudError Task}
    (parted : changes.flatMap deeds = before ++ ⟨.call (.submit submission), answer⟩ :: after) :
    ∃ former c latter, changes = former ++ c :: latter ∧ before = former.flatMap deeds ∧
      ⟨.call (.submit submission), answer⟩ :: after = c.deeds ++ latter.flatMap deeds := by
  induction changes generalizing before with
  | nil => simp at parted
  | cons c rest ih =>
    rw [List.flatMap_cons] at parted
    rcases append_eq_parted parted with ⟨mid, rfl, later⟩ | ⟨mid, first, rfl⟩
    · obtain ⟨former, d, latter, rfl, rfl, same⟩ := ih later
      exact ⟨c :: former, d, latter, rfl, rfl, same⟩
    · obtain rfl := c.eq_nil_of_submitted first
      exact ⟨[], c, rest, rfl, rfl, by rw [first]; rfl⟩

end Change

/-- What a pipeline that reads nothing does: changes, each begun when the one before is completed, and
steps on this host. None of it is followed by a call if it fails, and success is a success of all. -/
structure Course (deeds : History) (changes : List Change) (ok : Bool) : Prop where
  calls : deeds.calls = changes.flatMap Change.deeds
  completed : ∀ before c after, changes = before ++ c :: after →
    ok = true ∨ after ≠ [] → c.completed?.isSome
  halted : ∀ (before : History) x (after : History), deeds = before ++ x :: after →
    x.FailsBefore after → after.calls = [] ∧ ok = false

namespace Course

variable {deeds more : History} {changes others : List Change} {ok : Bool}

theorem nil (ok : Bool) : Course [] [] ok where
  calls := rfl
  completed before c after parted := by simp at parted
  halted before x after parted := by simp at parted

theorem append (first : Course deeds changes true) (second : Course more others ok) :
    Course (deeds ++ more) (changes ++ others) ok where
  calls := by
    rw [History.calls_append, first.calls, second.calls, List.flatMap_append]
  completed before c after parted last := by
    rcases append_eq_parted parted with ⟨mid, -, rest⟩ | ⟨mid, rest, -⟩
    · exact second.completed mid c after rest last
    · exact first.completed before c mid rest (.inl rfl)
  halted before x after parted fails := by
    rcases append_eq_parted parted with ⟨mid, -, rest⟩ | ⟨mid, rest, rfl⟩
    · exact second.halted mid x after rest fails
    · cases (first.halted before x mid rest fails.of_append).2

theorem cons {x : Exchange} (uncalled : x.effect.isCall = false)
    (halts : x.FailsBefore deeds → deeds.calls = [] ∧ ok = false)
    (rest : Course deeds changes ok) : Course (x :: deeds) changes ok where
  calls := by rw [History.calls_cons_of_not _ uncalled, rest.calls]
  completed := rest.completed
  halted before y after parted fails := by
    cases before with
    | nil =>
      obtain ⟨rfl, rfl⟩ := List.cons_eq_cons.mp parted
      exact halts fails
    | cons z before =>
      obtain ⟨rfl, rfl⟩ := List.cons_eq_cons.mp parted
      exact rest.halted before y after rfl fails

theorem change (c : Change) : Course c.deeds [c] c.completed?.isSome where
  calls := by rw [c.calls_deeds, List.flatMap_singleton]
  completed before d after parted last := by
    obtain ⟨rfl, rfl, rfl⟩ : before = [] ∧ d = c ∧ after = [] := by
      cases before <;> simp_all
    simpa using last
  halted before x after parted fails := by
    have mem : x ∈ c.deeds := by
      rw [parted]
      exact List.mem_append_right _ List.mem_cons_self
    exact absurd fails (Exchange.not_failsBefore_of_call (c.isCall_of_mem mem) after)

theorem cleared (rest : Course deeds changes ok) (tail : Course more [] true) :
    Course (deeds ++ more) changes ok where
  calls := by
    rw [History.calls_append, rest.calls, tail.calls, List.flatMap_nil, List.append_nil]
  completed := rest.completed
  halted before x after parted fails := by
    rcases append_eq_parted parted with ⟨mid, -, same⟩ | ⟨mid, same, rfl⟩
    · cases (tail.halted mid x after same fails).2
    · obtain ⟨uncalled, failed⟩ := rest.halted before x mid same fails.of_append
      refine ⟨?_, failed⟩
      rw [History.calls_append, uncalled, tail.calls, List.flatMap_nil, List.append_nil]

end Course

/-- What one request does: it reads at most once and then makes changes, and whatever fails, be it the
reading, a change or a step on this host, is followed by no call. -/
structure Discipline (deeds : History) (reading : Option Exchange) (changes : List Change) : Prop where
  calls : deeds.calls = reading.toList ++ changes.flatMap Change.deeds
  read : ∀ x ∈ reading, x.IsReading ∧ (x.IsRefused → changes = [])
  completed : ∀ former c latter, changes = former ++ c :: latter → latter ≠ [] →
    c.completed?.isSome
  halted : ∀ (before : History) x (after : History), deeds = before ++ x :: after →
    x.FailsBefore after → after.calls = []

namespace Discipline

variable {deeds rest : History} {reading : Option Exchange} {changes : List Change} {ok : Bool}

theorem of_course (opened : deeds = reading.toList ++ rest) (course : Course rest changes ok)
    (read : ∀ x ∈ reading, x.IsReading ∧ (x.IsRefused → rest = [])) :
    Discipline deeds reading changes where
  calls := by
    have all : History.calls reading.toList = reading.toList := by
      refine List.filter_eq_self.mpr fun x mem => ?_
      exact (read x (Option.mem_toList.mp mem)).1.isCall
    rw [opened, History.calls_append, course.calls, all]
  read x mem := by
    refine ⟨(read x mem).1, fun refused => ?_⟩
    have none := course.calls
    rw [(read x mem).2 refused, History.calls_nil, eq_comm, List.flatMap_eq_nil_iff] at none
    refine List.eq_nil_iff_forall_not_mem.mpr fun c mem => ?_
    obtain ⟨answer, polls, same⟩ := c.deeds_eq_cons
    rw [none c mem] at same
    cases same
  completed former c latter parted more := course.completed former c latter parted (.inr more)
  halted before x after parted fails := by
    rcases append_eq_parted (opened.symm.trans parted) with ⟨mid, -, later⟩ | ⟨mid, same, rfl⟩
    · exact (course.halted mid x after later fails).1
    · have mem : x ∈ reading := Option.mem_toList.mp (by simp [same])
      exact absurd fails (Exchange.not_failsBefore_of_call (read x mem).1.isCall _)

theorem oneByOne (h : Discipline deeds reading changes) : deeds.calls.OneByOne := by
  intro past between future earlier later reply answer parted
  rw [h.calls] at parted
  have unread (submission : Submission) (answer : Except CloudError Task) :
      ⟨.call (.submit submission), answer⟩ ∉ reading.toList := by
    intro mem
    cases (h.read _ (Option.mem_toList.mp mem)).1
  rcases append_eq_parted parted with ⟨mid, start, ending⟩ | ⟨mid, start, -⟩
  · obtain ⟨former, c, latter, rfl, rfl, -⟩ := Change.exists_parted_of_submitted ending
    rcases append_eq_parted start.symm with ⟨mid, -, begun⟩ | ⟨mid, begun, -⟩
    · obtain ⟨others, first, rest, rfl, -, same⟩ := Change.exists_parted_of_submitted begun
      obtain ⟨submission, task, polls, snapshot, rfl, polled, state⟩ :=
        first.eq_followed_of_completed
          (h.completed others first (rest ++ c :: latter) (by simp) (by simp))
      rw [Change.deeds, List.cons_append] at same
      obtain ⟨same, rfl⟩ := List.cons_eq_cons.mp same
      cases same
      exact ⟨task, snapshot, rfl, List.mem_append_left _ (List.mem_map_of_mem polled), state⟩
    · exact absurd (by simp [begun]) (unread earlier reply)
  · exact absurd (by simp [start]) (unread later answer)

end Discipline

namespace Pipeline

variable {α β : Type}

/-- Whatever the replies, the pipeline reads nothing and takes a course. -/
def Orderly (p : Pipeline α) : Prop :=
  ∀ deeds result, p.Does deeds result → ∃ changes, Course deeds changes result.isOk

theorem orderly_pure (a : α) : (pure a : Pipeline α).Orderly := by
  rintro _ _ ⟨rfl, rfl⟩
  exact ⟨[], .nil true⟩

theorem orderly_throw (halt : Halt) : (throw halt : Pipeline α).Orderly := by
  rintro _ _ ⟨rfl, rfl⟩
  exact ⟨[], .nil false⟩

theorem orderly_fail (e : ActionError) : (fail e : Pipeline α).Orderly :=
  orderly_throw (.failed e)

theorem Orderly.bind {p : Pipeline α} {k : α → Pipeline β} (first : p.Orderly)
    (second : ∀ a, (k a).Orderly) : (p >>= k).Orderly := by
  intro deeds result does
  rcases does_bind_iff.mp does with ⟨halt, former, rfl⟩ | ⟨a, _, _, former, later, rfl⟩
  · exact first deeds (.error halt) former
  · obtain ⟨changes, course⟩ := first _ (.ok a) former
    obtain ⟨others, further⟩ := second a _ result later
    exact ⟨changes ++ others, course.append further⟩

theorem orderly_emit_bind {event : Event} {k : Unit → Pipeline α} (rest : (k ()).Orderly) :
    (emit event >>= k).Orderly :=
  fun deeds result does => rest deeds result (does_emit_bind_iff.mp does)

theorem orderly_step {s : Settings} {name : String} {submission : Submission} :
    (step s name submission).Orderly := by
  intro deeds result does
  obtain ⟨c, -, yields, rfl⟩ := does_step_iff.mp does
  have course := Course.change c
  rw [yields.completed?_eq] at course
  refine ⟨[c], ?_⟩
  cases result <;> exact course

theorem orderly_change {s : Settings} {name : String} {submission : Submission} :
    (change s name submission).Orderly :=
  orderly_step.bind fun _ => orderly_pure ()

theorem orderly_named {kind : Kind} (wanted : String) (done : Task) :
    (if done.entity.id.isEmpty then fail (.cloud (.internal (.nameless done.id wanted)))
      else pure ⟨done.entity.id⟩ : Pipeline (Id kind)).Orderly := by
  split
  · exact orderly_fail _
  · exact orderly_pure _

theorem orderly_make {s : Settings} {name wanted : String} {kind : Kind}
    {submission : Submission} : (make s name wanted kind submission).Orderly :=
  orderly_step.bind (orderly_named wanted)

theorem orderly_perform_bind {e : Effect} {k : e.Reply → Pipeline α} (uncalled : e.isCall = false)
    (goes : ∀ reply, (∃ halt, k reply = throw halt) ∨
      (k reply).Orderly ∧ ∀ after, ¬ Exchange.FailsBefore ⟨e, reply⟩ after) :
    (perform e >>= k).Orderly := by
  intro deeds result does
  rw [does_perform_bind_iff] at does
  obtain ⟨reply, rest, does, rfl⟩ := does
  have opened : History.deeds [⟨e, reply⟩] = [⟨e, reply⟩] ∨ History.deeds [⟨e, reply⟩] = [] := by
    by_cases deed : e.isDeed <;> simp [History.deeds, deed]
  rcases goes reply with ⟨halt, same⟩ | ⟨orderly, sound⟩
  · rw [same] at does
    obtain ⟨rfl, rfl⟩ := does
    refine ⟨[], ?_⟩
    rcases opened with same | same <;> rw [same]
    · exact .cons uncalled (fun _ => ⟨rfl, rfl⟩) (.nil false)
    · exact .nil false
  · obtain ⟨changes, course⟩ := orderly rest result does
    refine ⟨changes, ?_⟩
    rcases opened with same | same <;> rw [same]
    · exact .cons uncalled (fun fails => absurd fails (sound rest)) course
    · exact course

theorem uploads_of_does_step {s : Settings} {name : String} {submission : Submission} {u : Upload}
    (sent : submission.upload? = some u) {k : Task → Pipeline α} {deeds : History}
    {result : Except Halt α} (does : (step s name submission >>= k).Does deeds result) :
    deeds.Uploads u := by
  have began : ∃ c after, c.submission = submission ∧ deeds = Change.deeds c ++ after := by
    rcases does_bind_iff.mp does with ⟨halt, first, -⟩ | ⟨done, _, after, first, -, rfl⟩
    · obtain ⟨c, same, -, rfl⟩ := does_step_iff.mp first
      exact ⟨c, [], same, (List.append_nil _).symm⟩
    · obtain ⟨c, same, -, rfl⟩ := does_step_iff.mp first
      exact ⟨c, after, same, rfl⟩
  obtain ⟨c, after, rfl, rfl⟩ := began
  obtain ⟨answer, polls, opened⟩ := c.deeds_eq_cons
  exact ⟨c.submission, answer, polls ++ after, by rw [opened, List.cons_append], sent⟩

theorem orderly_upload_bind {s : Settings} {name path : String}
    {submission : Except Files.Fault Bytes → Submission} {k : Task → Pipeline α}
    (sent : ∀ contents, (submission contents).upload? = some ⟨path, contents⟩)
    (rest : ∀ done, (k done).Orderly) :
    (perform (.readFile path) >>= fun contents =>
      step s name (submission contents) >>= k).Orderly := by
  intro deeds result does
  rw [does_perform_bind_iff] at does
  obtain ⟨contents, deeds, does, rfl⟩ := does
  obtain ⟨changes, course⟩ := orderly_step.bind rest deeds result does
  have sending := uploads_of_does_step (sent contents) does
  exact ⟨changes, .cons rfl (fun fails => absurd sending fails.2) course⟩

theorem orderly_withScratch {kind : String} {work : (name directory : String) → Pipeline α}
    (orderly : ∀ name directory, (work name directory).Orderly) :
    (withScratch kind work).Orderly := by
  intro deeds result does
  obtain ⟨name, ⟨fault, rfl, rfl⟩ | ⟨directory, inner, works, rfl⟩⟩ := does_withScratch_iff.mp does
  · exact ⟨[], .cons rfl False.elim (.cons rfl (fun _ => ⟨rfl, rfl⟩) (.nil false))⟩
  · obtain ⟨changes, course⟩ := orderly name directory inner result works
    have tail : Course [⟨.discardScratch directory, ()⟩] [] true :=
      .cons rfl False.elim (.nil true)
    exact ⟨changes, .cons rfl False.elim (.cons rfl False.elim (course.cleared tail))⟩

theorem orderly_withAgentImage {environment : AgentEnvironment} {work : String → Pipeline α}
    (orderly : ∀ image, (work image).Orderly) : (withAgentImage environment work).Orderly := by
  refine orderly_withScratch fun name directory => ?_
  refine orderly_perform_bind rfl fun made => ?_
  rcases made with fault | _
  · exact .inl ⟨_, rfl⟩
  refine .inr ⟨orderly_perform_bind rfl fun written => ?_, fun _ => id⟩
  rcases written with fault | _
  · exact .inl ⟨_, rfl⟩
  refine .inr ⟨orderly_perform_bind rfl fun ran => ?_, fun _ => id⟩
  rcases ran with fault | ⟨_ | _, stdout, stderr⟩
  · exact .inl ⟨_, rfl⟩
  · exact .inl ⟨_, rfl⟩
  · exact .inr ⟨orderly_emit_bind (orderly _), fun _ => Bool.noConfusion⟩

theorem orderly_createStemcell {s : Settings} {path : String} :
    (createStemcell s path).Orderly := by
  refine orderly_withScratch fun _ directory => ?_
  refine orderly_perform_bind rfl fun archive => ?_
  rcases unpacked : unpackedImage path archive with e | image
  · exact .inl ⟨.failed e, rfl⟩
  refine .inr ⟨orderly_perform_bind rfl fun written => ?_, fun after fails => ?_⟩
  · rcases written with fault | _
    · exact .inl ⟨_, rfl⟩
    · refine .inr ⟨orderly_emit_bind ?_, fun _ => id⟩
      exact orderly_upload_bind (fun _ => rfl) (orderly_named _)
  · obtain ⟨⟨e, failed⟩, -⟩ := fails
    rw [unpacked] at failed
    cases failed

theorem orderly_createVm {s : Settings} {o : VmOrder} : (createVm s o).Orderly := by
  refine orderly_make.bind fun vm => ?_
  refine (orderly_withAgentImage fun image => ?_).bind fun _ => ?_
  · exact orderly_upload_bind (fun _ => rfl) fun _ => orderly_pure ()
  · exact orderly_change.bind fun _ => orderly_pure vm

theorem orderly_createDisk {s : Settings} {megabytes : UInt64} {properties : DiskProperties}
    {vm : Option VmId} : (createDisk s megabytes properties vm).Orderly := by
  rw [createDisk]
  split
  · exact orderly_fail _
  · exact orderly_make

theorem orderly_detachAll {s : Settings} {vm : VmId} {disks : List DiskId} :
    (detachAll s vm disks).Orderly := by
  induction disks with
  | nil => exact orderly_pure ()
  | cons disk rest ih => exact orderly_change.bind fun _ => ih

def Disciplined (p : Pipeline α) : Prop :=
  ∀ deeds result, p.Does deeds result → ∃ reading changes, Discipline deeds reading changes

theorem Orderly.disciplined {p : Pipeline α} (orderly : p.Orderly) : p.Disciplined := by
  intro deeds result does
  obtain ⟨changes, course⟩ := orderly deeds result does
  exact ⟨none, changes, .of_course rfl course (by simp)⟩

theorem disciplined_call_bind {c : Call} (reading : c.isReading) {k : c.Answer → Pipeline α}
    (rest : ∀ answer, (k answer).Orderly) : (call c >>= k).Disciplined := by
  intro deeds result does
  rcases does_call_bind_iff.mp does with ⟨e, rfl, rfl⟩ | ⟨answer, more, later, rfl⟩
  · refine ⟨some ⟨.call c, .error e⟩, [], .of_course rfl (.nil false) ?_⟩
    simp [Exchange.IsReading, reading]
  · obtain ⟨changes, course⟩ := rest answer more result later
    refine ⟨some ⟨.call c, .ok answer⟩, changes, .of_course rfl course ?_⟩
    simp [Exchange.IsReading, reading, Exchange.IsRefused]

theorem disciplined_isThere (c : Call) (reading : c.isReading) : (isThere c).Disciplined := by
  intro deeds result does
  rw [isThere, does_perform_bind_iff] at does
  obtain ⟨reply, rest, does, rfl⟩ := does
  suffices rest = [] by
    subst this
    refine ⟨some ⟨.call c, reply⟩, [], .of_course rfl (.nil true) ?_⟩
    simp [Exchange.IsReading, reading]
  rcases reply with e | answer
  · dsimp only at does
    split at does <;> exact does.1
  · exact does.1

theorem disciplined_disksOf {s : Settings} {vm : VmId} : (disksOf s vm).Disciplined :=
  disciplined_call_bind rfl fun _ => orderly_pure _

theorem disciplined_deleteVm {s : Settings} {vm : VmId} : (deleteVm s vm).Disciplined := by
  rw [deleteVm, disksOf, bind_assoc]
  refine disciplined_call_bind rfl fun listing => ?_
  rw [pure_bind]
  exact orderly_emit_bind (orderly_detachAll.bind fun _ => orderly_change)

theorem Disciplined.map {p : Pipeline α} (disciplined : p.Disciplined) (f : α → β) :
    (p >>= fun a => pure (f a)).Disciplined := by
  intro deeds result does
  rcases does_bind_iff.mp does with ⟨halt, first, rfl⟩ | ⟨a, _, _, first, ⟨rfl, rfl⟩, rfl⟩
  · exact disciplined deeds (.error halt) first
  · rw [List.append_nil]
    exact disciplined _ (.ok a) first

theorem disciplined_decoded {r : Except ArgumentFault α} {k : α → Pipeline β}
    (rest : ∀ a, (k a).Disciplined) : (Action.decoded r >>= k).Disciplined := by
  rcases r with fault | a
  · exact (orderly_fail _).disciplined
  · exact rest a

end Pipeline

namespace Action

open Pipeline

theorem disciplined_of_mem {action : Action} (mem : action ∈ standard) (s : Settings)
    (a : Arguments) : (action.invoke s a).Disciplined := by
  simp only [standard, List.mem_cons, List.not_mem_nil, or_false] at mem
  rcases mem with rfl | rfl | rfl | rfl | rfl | rfl | rfl | rfl | rfl | rfl | rfl | rfl | rfl
  · exact disciplined_decoded fun path => orderly_createStemcell.disciplined.map _
  · exact disciplined_decoded fun image => orderly_change.disciplined.map _
  · exact disciplined_decoded fun order => orderly_createDisk.disciplined.map _
  · exact disciplined_decoded fun disk => orderly_change.disciplined.map _
  · exact disciplined_decoded fun disk => (disciplined_isThere (.getDisk disk) rfl).map _
  · exact disciplined_decoded fun _ => orderly_change.disciplined.map _
  · exact disciplined_decoded fun _ => orderly_change.disciplined.map _
  · exact disciplined_decoded fun vm => disciplined_disksOf.map _
  · exact disciplined_decoded fun order => orderly_createVm.disciplined.map _
  · exact disciplined_decoded fun vm => disciplined_deleteVm.map _
  · exact disciplined_decoded fun vm => (disciplined_isThere (.getVm vm) rfl).map _
  · exact disciplined_decoded fun vm => orderly_change.disciplined.map _
  · exact disciplined_decoded fun vm => (orderly_emit_bind (orderly_pure Value.null)).disciplined

end Action
end CloudProvider
