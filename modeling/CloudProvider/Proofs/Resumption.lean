import CloudProvider.Proofs.Clock
import CloudProvider.Proofs.Teardown
import Mathlib.Data.List.Nodup

/-! Tearing a machine down in several attempts. An attempt may be cut off anywhere. What it has seen
detached, the next listing does not give to the machine any more, and so the attempts together carry
out the plan that the first listing makes: no disk is detached twice, none is left out, and none that
is not the machine's own is touched. -/

namespace CloudProvider

namespace History

/-- The answers to the polls of a task, up to the first other call. -/
def answers (id : TaskId) : History → List (Except CloudError Task)
  | [] => []
  | ⟨.call (.poll other), answer⟩ :: rest => if other = id then answer :: answers id rest else []
  | ⟨.call _, _⟩ :: _ => []
  | _ :: rest => answers id rest

def changes : History → List Change
  | [] => []
  | ⟨.call (.submit submission), .error e⟩ :: rest => .declined submission e :: changes rest
  | ⟨.call (.submit submission), .ok task⟩ :: rest =>
    .followed submission task (answers task.id rest) :: changes rest
  | _ :: rest => changes rest

def listing? : History → Option DiskList
  | [] => none
  | ⟨.call (.listDisks _), .ok listing⟩ :: _ => some listing
  | _ :: rest => listing? rest

variable (h : History)

theorem answers_calls (id : TaskId) : answers id h.calls = answers id h := by
  induction h with
  | nil => rfl
  | cons x rest ih =>
    obtain ⟨effect, reply⟩ := x
    cases effect with
    | call c =>
      rw [calls_cons_call]
      cases c with
      | poll other => rw [answers, answers, ih]
      | _ => rfl
    | _ =>
      rw [calls_cons_of_not _ rfl, ih]
      rfl

theorem changes_calls : changes h.calls = changes h := by
  induction h with
  | nil => rfl
  | cons x rest ih =>
    obtain ⟨effect, reply⟩ := x
    cases effect with
    | call c =>
      rw [calls_cons_call]
      cases c with
      | submit submission =>
        rcases reply with e | task
        · rw [changes, changes, ih]
        · rw [changes, changes, ih, answers_calls]
      | _ => exact ih
    | _ =>
      rw [calls_cons_of_not _ rfl, ih]
      rfl

theorem listing?_calls : listing? h.calls = listing? h := by
  induction h with
  | nil => rfl
  | cons x rest ih =>
    obtain ⟨effect, reply⟩ := x
    cases effect with
    | call c =>
      rw [calls_cons_call]
      cases c with
      | listDisks project =>
        rcases reply with e | listing
        · exact ih
        · rfl
      | _ => exact ih
    | _ =>
      rw [calls_cons_of_not _ rfl, ih]
      rfl

theorem changes_deeds : changes h.deeds = changes h := by
  rw [← changes_calls, calls_deeds, changes_calls]

theorem listing?_deeds : listing? h.deeds = listing? h := by
  rw [← listing?_calls, calls_deeds, listing?_calls]

theorem answers_polls (id : TaskId) (polls : List (Except CloudError Task)) (changes : List Change) :
    answers id (polls.map (pollOf id) ++ changes.flatMap Change.deeds) = polls := by
  induction polls with
  | nil =>
    cases changes with
    | nil => rfl
    | cons c rest =>
      obtain ⟨answer, polls, opened⟩ := c.deeds_eq_cons
      rw [List.flatMap_cons, opened]
      rfl
  | cons answer rest ih =>
    rw [List.map_cons, List.cons_append, pollOf, answers, if_pos rfl, ih]

theorem changes_polls_append (id : TaskId) (polls : List (Except CloudError Task)) :
    changes (polls.map (pollOf id) ++ h) = changes h := by
  induction polls with
  | nil => rfl
  | cons answer rest ih => exact ih

theorem changes_flatMap_deeds (cs : List Change) : changes (cs.flatMap Change.deeds) = cs := by
  induction cs with
  | nil => rfl
  | cons c rest ih =>
    rw [List.flatMap_cons]
    cases c with
    | declined submission e =>
      rw [Change.deeds, List.singleton_append, changes, ih]
    | followed submission task polls =>
      rw [Change.deeds, List.cons_append, changes, answers_polls, changes_polls_append, ih]

end History

/-- The disk that is asked to be detached from the machine. -/
def Submission.detaches? (vm : VmId) : Submission → Option DiskId
  | .detachDisk other operation => if other = vm then some operation.disk else none
  | _ => none

namespace Change

def detached? (vm : VmId) (c : Change) : Option DiskId :=
  if c.completed?.isSome then c.submission.detaches? vm else none

/-- What has been seen detached is not detached again, and nothing is behind the deletion. -/
structure MayPrecede (vm : VmId) (c later : Change) : Prop where
  once : ∀ disk, c.detached? vm = some disk → later.submission.detaches? vm ≠ some disk
  deletion : c.submission = .deleteVm vm → later.submission.detaches? vm = none

end Change

namespace Disk

variable (vm : VmId) (disks : List DiskId) (d : Disk)

def released : Disk :=
  if d.id ∈ disks then { d with vms := d.vms.filter (· ≠ vm) } else d

@[simp] theorem released_id : (d.released vm disks).id = d.id := by
  unfold released
  split <;> rfl

@[simp] theorem mem_released_vms : vm ∈ (d.released vm disks).vms ↔ vm ∈ d.vms ∧ d.id ∉ disks := by
  unfold released
  split <;> simp_all

end Disk

/-- The same list, but these disks do not name the machine any more. -/
def DiskList.released (l : DiskList) (vm : VmId) (disks : List DiskId) : DiskList where
  items := l.items.map (Disk.released vm disks)

namespace Pipeline

def detached (vm : VmId) (changes : List Change) : List DiskId :=
  changes.filterMap (·.detached? vm)

section Plan

variable {policy : Policy} {vm : VmId} {listing : DiskList} {disk : DiskId} {disks : List DiskId}
  {changes : List Change} {result : Except Halt Unit}

@[simp] theorem detaches?_detachment : (detachment vm disk).detaches? vm = some disk :=
  if_pos rfl

theorem detachment_inj {other : DiskId} : detachment vm disk = detachment vm other ↔ disk = other := by
  simp [detachment]

theorem membersOf_released (listing : DiskList) (vm : VmId) (disks : List DiskId) :
    membersOf (listing.released vm disks) vm = (membersOf listing vm).filter (· ∉ disks) := by
  have ids : Disk.id ∘ Disk.released vm disks = Disk.id := by
    funext d
    exact d.released_id vm disks
  simp only [membersOf, DiskList.released, List.filter_map, List.map_map, ids, List.filter_filter]
  congr 2
  funext d
  simp [and_comm]

theorem membersOf_nodup (distinct : (listing.items.map Disk.id).Nodup) :
    (membersOf listing vm).Nodup :=
  distinct.sublist (List.filter_sublist.map Disk.id)

theorem exists_undetached
    (h : Succession policy (disks.map (detachment vm) ++ [.deleteVm vm]) changes result) :
    ∃ rest, detached vm changes ++ rest = disks ∧
      ((∃ c ∈ changes, c.submission = .deleteVm vm) → rest = []) := by
  generalize same : disks.map (detachment vm) ++ [.deleteVm vm] = plan at h
  induction h generalizing disks with
  | nil => simp at same
  | stopped c halt yields =>
    have unseen : c.detached? vm = none := by
      simp [Change.detached?, yields.completed?_eq, Except.toOption]
    refine ⟨disks, by simp [detached, unseen], ?_⟩
    rintro ⟨d, mem, deletion⟩
    obtain rfl := List.mem_singleton.mp mem
    cases disks with
    | nil => rfl
    | cons disk rest =>
      rw [List.map_cons, List.cons_append, deletion] at same
      cases (List.cons_eq_cons.mp same).1
  | @cons plan changes result c task yields later ih =>
    have seen : c.completed?.isSome := by
      rw [yields.completed?_eq]
      rfl
    cases disks with
    | nil =>
      obtain ⟨deletion, rfl⟩ := List.cons_eq_cons.mp same
      have none : changes = [] := List.map_eq_nil_iff.mp (List.prefix_nil.mp later.submissions_prefix)
      refine ⟨[], ?_, fun _ => rfl⟩
      simp [detached, Change.detached?, ← deletion, Submission.detaches?, none]
    | cons disk rest =>
      rw [List.map_cons, List.cons_append] at same
      obtain ⟨detaches, same⟩ := List.cons_eq_cons.mp same
      obtain ⟨left, parted, deleted⟩ := ih same
      have first : c.detached? vm = some disk := by
        rw [Change.detached?, if_pos seen, ← detaches, detaches?_detachment]
      refine ⟨left, by simpa [detached, first] using parted, ?_⟩
      rintro ⟨d, mem, deletion⟩
      rcases List.mem_cons.mp mem with rfl | mem
      · rw [← detaches] at deletion
        cases deletion
      · exact deleted ⟨d, mem, deletion⟩

theorem teardownPlan_pairwise (distinct : (membersOf listing vm).Nodup) :
    (teardownPlan listing vm).Pairwise fun a b => a ≠ .deleteVm vm ∧ a ≠ b := by
  rw [teardownPlan, List.pairwise_append, List.pairwise_map]
  refine ⟨distinct.imp fun apart => ?_, List.pairwise_singleton .., fun a mem b _ => ?_⟩
  · exact ⟨by simp [detachment], fun same => apart (detachment_inj.mp same)⟩
  · obtain ⟨disk, -, rfl⟩ := List.mem_map.mp mem
    simp_all [detachment]

theorem mem_teardownPlan {submission : Submission} (mem : submission ∈ teardownPlan listing vm) :
    submission = .deleteVm vm ∨ ∃ disk ∈ membersOf listing vm, submission = detachment vm disk := by
  rcases List.mem_append.mp mem with mem | mem
  · obtain ⟨disk, member, rfl⟩ := List.mem_map.mp mem
    exact .inr ⟨disk, member, rfl⟩
  · exact .inl (List.mem_singleton.mp mem)

theorem eq_detachment_of_detaches? {submission : Submission}
    (mem : submission ∈ teardownPlan listing vm) (detaches : submission.detaches? vm = some disk) :
    disk ∈ membersOf listing vm ∧ submission = detachment vm disk := by
  rcases mem_teardownPlan mem with rfl | ⟨other, member, rfl⟩
  · cases detaches
  · rw [detaches?_detachment] at detaches
    obtain rfl := Option.some.inj detaches
    exact ⟨member, rfl⟩

theorem Succession.mem_plan {plan : List Submission} {c : Change}
    (h : Succession policy plan changes result) (mem : c ∈ changes) : c.submission ∈ plan :=
  h.submissions_prefix.subset (List.mem_map_of_mem mem)

/-- What attempts have done of a teardown by now: they have detached some of the disks, in the order
of the listing, and the others are left. -/
structure Progress (vm : VmId) (listing : DiskList) (changes : List Change) (left : List DiskId) :
    Prop where
  parted : detached vm changes ++ left = membersOf listing vm
  planned : ∀ c ∈ changes, c.submission ∈ teardownPlan listing vm
  ordered : changes.Pairwise (Change.MayPrecede vm)
  deleted : (∃ c ∈ changes, c.submission = .deleteVm vm) → left = []

namespace Progress

variable {left : List DiskId}

theorem nil : Progress vm listing [] (membersOf listing vm) where
  parted := rfl
  planned c mem := absurd mem List.not_mem_nil
  ordered := .nil
  deleted := by simp

theorem of_succession (distinct : (membersOf listing vm).Nodup)
    (h : Succession policy (teardownPlan listing vm) changes result) :
    ∃ left, Progress vm listing changes left := by
  obtain ⟨left, parted, deleted⟩ := exists_undetached h
  refine ⟨left, parted, fun c => Succession.mem_plan h, ?_, deleted⟩
  have planned : (changes.map Change.submission).Pairwise fun a b => a ≠ .deleteVm vm ∧ a ≠ b :=
    (teardownPlan_pairwise distinct).sublist h.submissions_prefix.sublist
  refine (List.pairwise_map.mp planned).imp_of_mem fun {c later} mem more apart => ?_
  refine ⟨fun disk seen again => apart.2 ?_, fun deletion => absurd deletion apart.1⟩
  have detaches : c.submission.detaches? vm = some disk := by
    rw [Change.detached?] at seen
    split at seen
    · exact seen
    · cases seen
  rw [(eq_detachment_of_detaches? (Succession.mem_plan h mem) detaches).2,
    (eq_detachment_of_detaches? (Succession.mem_plan h more) again).2]

/-- What is left is what a listing gives to the machine in which the disks seen detached are free. -/
theorem membersOf_released_eq (distinct : (membersOf listing vm).Nodup)
    (h : Progress vm listing changes left) :
    membersOf (listing.released vm (detached vm changes)) vm = left := by
  rw [← h.parted] at distinct
  rw [membersOf_released, ← h.parted, List.filter_append]
  have gone : (detached vm changes).filter (· ∉ detached vm changes) = [] := by simp
  have kept : left.filter (· ∉ detached vm changes) = left := by
    refine List.filter_eq_self.mpr fun disk mem => ?_
    simpa using fun seen => List.disjoint_of_nodup_append distinct seen mem
  rw [gone, kept, List.nil_append]

theorem append {next : DiskList} {more : List Change} {rest : List DiskId}
    (distinct : (membersOf listing vm).Nodup) (first : Progress vm listing changes left)
    (taken : membersOf next vm = left) (second : Progress vm next more rest) :
    Progress vm listing (changes ++ more) rest where
  parted := by
    rw [detached, List.filterMap_append, List.append_assoc]
    exact (congrArg _ (second.parted.trans taken)).trans first.parted
  planned c mem := by
    rcases List.mem_append.mp mem with mem | mem
    · exact first.planned c mem
    rcases mem_teardownPlan (second.planned c mem) with deletion | ⟨disk, member, detaches⟩
    · simp [deletion, teardownPlan]
    · have known : disk ∈ membersOf listing vm := by
        rw [← first.parted, ← taken]
        exact List.mem_append_right _ member
      simp [detaches, teardownPlan, known, detachment_inj]
  ordered := by
    rw [List.pairwise_append]
    refine ⟨first.ordered, second.ordered, fun c mem later more => ⟨fun disk seen again => ?_,
      fun deletion => ?_⟩⟩
    · have remaining := (eq_detachment_of_detaches? (second.planned later more) again).1
      rw [taken] at remaining
      rw [← first.parted] at distinct
      exact List.disjoint_of_nodup_append distinct (List.mem_filterMap.mpr ⟨c, mem, seen⟩) remaining
    · refine Option.eq_none_iff_forall_ne_some.mpr fun disk again => ?_
      have remaining := (eq_detachment_of_detaches? (second.planned later more) again).1
      rw [taken, first.deleted ⟨c, mem, deletion⟩] at remaining
      exact List.not_mem_nil remaining
  deleted := by
    rintro ⟨c, mem, deletion⟩
    rcases List.mem_append.mp mem with mem | mem
    · have none := second.parted
      rw [taken, first.deleted ⟨c, mem, deletion⟩] at none
      exact (List.append_eq_nil_iff.mp none).2
    · exact second.deleted ⟨c, mem, deletion⟩

end Progress
end Plan

/-- One attempt at tearing a machine down. Each has settings of its own, and meets surroundings of
its own. -/
structure Attempt where
  settings : Settings
  surroundings : Surroundings

namespace Attempt

variable (a : Attempt) (vm : VmId)

def run : Except Halt Unit × History :=
  (deleteVm a.settings vm).play a.surroundings []

def changes : List Change :=
  (a.run vm).2.changes

def listing? : Option DiskList :=
  (a.run vm).2.listing?

theorem unlisted_or_succession :
    (a.changes vm = [] ∧ (a.run vm).1 ≠ .ok ()) ∨
    ∃ listing, a.listing? vm = some listing ∧
      Succession a.settings.policy (teardownPlan listing vm) (a.changes vm) (a.run vm).1 := by
  have does : (deleteVm a.settings vm).Does (a.run vm).2.deeds (a.run vm).1 := does_play _ _
  rw [changes, listing?, ← History.changes_deeds, ← History.listing?_deeds]
  rcases does_deleteVm does with ⟨e, deeds, failed⟩ | ⟨listing, changes, h, deeds⟩
  · exact .inl ⟨by rw [deeds]; rfl, by simp [failed]⟩
  · have read : (a.run vm).2.deeds.changes = changes := by
      rw [deeds]
      exact History.changes_flatMap_deeds changes
    exact .inr ⟨listing, by rw [deeds]; rfl, read ▸ h⟩

end Attempt

/-- Each attempt gets the listing in which the disks that those before it have seen detached are free
of the machine, and that is the first listing otherwise. -/
def Relisted (vm : VmId) : DiskList → List Attempt → Prop
  | _, [] => True
  | listing, a :: later =>
    (∀ got ∈ a.listing? vm, got = listing) ∧
      Relisted vm (listing.released vm (detached vm (a.changes vm))) later

def listedBehind (vm : VmId) (listing : DiskList) (attempts : List Attempt) : DiskList :=
  attempts.foldl (fun l a => l.released vm (detached vm (a.changes vm))) listing

section Series

variable {vm : VmId} {listing : DiskList} {attempts : List Attempt}

/-- One attempt makes progress, and the next listing gives to the machine what it has left. -/
theorem progress_of_attempt {a : Attempt} (distinct : (membersOf listing vm).Nodup)
    (got : ∀ got ∈ a.listing? vm, got = listing) :
    Progress vm listing (a.changes vm)
      (membersOf (listing.released vm (detached vm (a.changes vm))) vm) := by
  -- What is left need not be looked for: the changes themselves tell it.
  suffices ∃ left, Progress vm listing (a.changes vm) left by
    obtain ⟨left, progress⟩ := this
    rwa [progress.membersOf_released_eq distinct]
  rcases a.unlisted_or_succession vm with ⟨none, -⟩ | ⟨other, listed, h⟩
  · rw [none]
    exact ⟨_, .nil⟩
  · rw [got other listed] at h
    exact Progress.of_succession distinct h

theorem progress_of_attempts (distinct : (membersOf listing vm).Nodup)
    (relisted : Relisted vm listing attempts) :
    Progress vm listing (attempts.flatMap (·.changes vm))
      (membersOf (listedBehind vm listing attempts) vm) := by
  induction attempts generalizing listing with
  | nil => exact .nil
  | cons a later ih =>
    obtain ⟨got, relisted⟩ := relisted
    have first := progress_of_attempt distinct got
    have fewer : (membersOf (listing.released vm (detached vm (a.changes vm))) vm).Nodup := by
      rw [membersOf_released]
      exact distinct.filter _
    exact first.append distinct rfl (ih fewer relisted)

theorem deletion_of_success {a : Attempt} (succeeded : (a.run vm).1 = .ok ()) :
    ∃ c ∈ a.changes vm, c.submission = .deleteVm vm := by
  rcases a.unlisted_or_succession vm with ⟨-, failed⟩ | ⟨listing, -, h⟩
  · exact absurd succeeded failed
  · have whole : (a.changes vm).map Change.submission = teardownPlan listing vm := by
      refine h.submissions_prefix.eq_of_length ?_
      rw [List.length_map, (h.ok_iff.mp succeeded).1]
    have planned : .deleteVm vm ∈ (a.changes vm).map Change.submission := by
      simp [whole, teardownPlan]
    exact List.mem_map.mp planned

/-- However often tearing down has been cut off, and wherever: when an attempt succeeds in the end,
each disk of the first listing that names the machine has been seen detached once, in the order of
that listing, nothing else has been detached, and the deletion comes last. -/
theorem teardown_resumable (vm : VmId) (listing : DiskList) (attempts : List Attempt)
    (last : Attempt) (distinct : (listing.items.map Disk.id).Nodup)
    (relisted : Relisted vm listing (attempts ++ [last]))
    (succeeded : (last.run vm).1 = .ok ()) :
    let changes := (attempts ++ [last]).flatMap (·.changes vm)
    detached vm changes = membersOf listing vm ∧
    (∀ disk ∈ membersOf listing vm, (detached vm changes).count disk = 1) ∧
    (∀ c ∈ changes, c.submission = .deleteVm vm ∨
      ∃ disk ∈ membersOf listing vm, c.submission = detachment vm disk) ∧
    changes.Pairwise (Change.MayPrecede vm) := by
  intro changes
  have own : (membersOf listing vm).Nodup := membersOf_nodup distinct
  have progress := progress_of_attempts own relisted
  obtain ⟨c, mem, deletion⟩ := deletion_of_success succeeded
  have all := progress.parted
  rw [progress.deleted ⟨c, by simp [mem], deletion⟩, List.append_nil] at all
  refine ⟨all, fun disk member => ?_, fun c mem => mem_teardownPlan (progress.planned c mem),
    progress.ordered⟩
  rw [all]
  exact List.count_eq_one_of_mem own member

end Series

/-- Every task is found completed at once, and so is whatever is submitted, but for one disk that is
not let go. -/
def obliging (listing : DiskList) (kept : DiskId) : Surroundings := fun past e =>
  match e with
  | .call (.listDisks _) => .ok listing
  | .call (.submit (.detachDisk _ operation)) =>
    if operation.disk = kept then .error (.transport (some 503) "unavailable")
    else .ok (Task.new ⟨"t1"⟩ "DETACH_DISK" .queued)
  | .call (.submit _) => .ok (Task.new ⟨"t2"⟩ "DELETE_VM" .queued)
  | .call (.poll id) => .ok (Task.new id "" .completed)
  | e => Surroundings.polling 0 ⟨"t1"⟩ (fun _ => .error (.transport none "no answer")) past e

def threeDisks (first last : List VmId) : DiskList :=
  ⟨[⟨⟨"d1"⟩, "", "", "", 1, "", first⟩, ⟨⟨"d2"⟩, "", "", "", 1, "", [⟨"vm-2"⟩]⟩,
    ⟨⟨"d3"⟩, "", "", "", 1, "", last⟩]⟩

def attempting (listing : DiskList) (kept : DiskId) : Attempt :=
  ⟨⟨"p1", .blank, ⟨.ofMillis 100, 1, .ofMillis 250⟩⟩, obliging listing kept⟩

theorem eq_ok_of_isOk {ended : Except Halt Unit} (ok : ended.isOk) : ended = .ok () := by
  cases ended with
  | error halt => cases ok
  | ok a => rfl

theorem teardown_resumable_twice :
    let listing := threeDisks [⟨"vm-1"⟩] [⟨"vm-1"⟩]
    let first := attempting listing ⟨"d3"⟩
    let last := attempting (threeDisks [] [⟨"vm-1"⟩]) ⟨"d1"⟩
    (first.run ⟨"vm-1"⟩).1.isOk = false ∧ (last.run ⟨"vm-1"⟩).1.isOk ∧
    detached ⟨"vm-1"⟩ (first.changes ⟨"vm-1"⟩) = [⟨"d1"⟩] ∧
    detached ⟨"vm-1"⟩ (([first] ++ [last]).flatMap (·.changes ⟨"vm-1"⟩)) = [⟨"d1"⟩, ⟨"d3"⟩] := by
  intro listing first last
  have shown : first.listing? ⟨"vm-1"⟩ = some listing := by decide +kernel
  have then_shown : last.listing? ⟨"vm-1"⟩ =
      some (listing.released ⟨"vm-1"⟩ (detached ⟨"vm-1"⟩ (first.changes ⟨"vm-1"⟩))) := by
    decide +kernel
  have relisted : Relisted ⟨"vm-1"⟩ listing ([first] ++ [last]) :=
    ⟨fun got mem => Option.some.inj (mem.symm.trans shown),
      fun got mem => Option.some.inj (mem.symm.trans then_shown), trivial⟩
  have succeeded : (last.run ⟨"vm-1"⟩).1.isOk := by decide +kernel
  refine ⟨by decide +kernel, succeeded, by decide +kernel, ?_⟩
  exact (teardown_resumable ⟨"vm-1"⟩ listing [first] last (by decide) relisted
    (eq_ok_of_isOk succeeded)).1

end Pipeline
end CloudProvider
