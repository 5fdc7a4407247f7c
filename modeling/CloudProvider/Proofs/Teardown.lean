import CloudProvider.Proofs.Admission
import Mathlib.Data.List.Basic

/-! Tearing a machine down. What is submitted follows one plan: the disks that name the machine are
detached, each once and in the order of the listing, and then the machine is deleted. The plan is
carried on only past changes that are completed, so that a machine is never deleted with a disk that
may still be attached. -/

namespace CloudProvider.Pipeline

def detachment (vm : VmId) (disk : DiskId) : Submission :=
  .detachDisk vm ⟨disk, []⟩

def membersOf (listing : DiskList) (vm : VmId) : List DiskId :=
  (listing.items.filter fun d => vm ∈ d.vms).map Disk.id

def teardownPlan (listing : DiskList) (vm : VmId) : List Submission :=
  (membersOf listing vm).map (detachment vm) ++ [.deleteVm vm]

theorem attachedTo_eq_membersOf (listing : DiskList) (vm : VmId) :
    listing.attachedTo vm = membersOf listing vm := by
  simp [DiskList.attachedTo, membersOf, Disk.isAttachedTo]

section Teardown

variable {s : Settings} {vm : VmId} {deeds : History} {result : Except Halt Unit}

theorem does_detachAll_bind {disks : List DiskId} {k : Unit → Pipeline Unit}
    {plan : List Submission}
    (does : (detachAll s vm disks >>= k).Does deeds result)
    (rest : ∀ {deeds result}, (k ()).Does deeds result →
      ∃ changes, Succession s.policy plan changes result ∧ deeds = changes.flatMap Change.deeds) :
    ∃ changes, Succession s.policy (disks.map (detachment vm) ++ plan) changes result ∧
      deeds = changes.flatMap Change.deeds := by
  induction disks generalizing deeds with
  | nil =>
    rw [detachAll, pure_bind] at does
    exact rest does
  | cons disk disks ih =>
    rw [detachAll, bind_assoc, detachDisk, does_change_bind_iff] at does
    obtain ⟨c, same, ends⟩ := does
    have same : c.submission = detachment vm disk := same
    rcases ends with ⟨halt, yields, rfl, rfl⟩ | ⟨task, later, yields, does, rfl⟩
    · refine ⟨[c], ?_, by simp⟩
      rw [List.map_cons, List.cons_append, ← same]
      exact .stopped c halt yields
    · obtain ⟨changes, succession, rfl⟩ := ih does
      refine ⟨c :: changes, ?_, by simp⟩
      rw [List.map_cons, List.cons_append, ← same]
      exact .cons c task yields succession

theorem does_deleteVm (does : (deleteVm s vm).Does deeds result) :
    (∃ e, deeds = [⟨.call (.listDisks s.project), .error e⟩] ∧
      result = .error (.failed (.cloud e))) ∨
    ∃ listing changes, Succession s.policy (teardownPlan listing vm) changes result ∧
      deeds = ⟨.call (.listDisks s.project), .ok listing⟩ :: changes.flatMap Change.deeds := by
  rw [deleteVm, disksOf, bind_assoc, does_call_bind_iff] at does
  rcases does with failed | ⟨listing, rest, does, rfl⟩
  · exact .inl failed
  · rw [pure_bind, does_emit_bind_iff, attachedTo_eq_membersOf] at does
    obtain ⟨changes, succession, rfl⟩ := does_detachAll_bind does fun deletion => by
      obtain ⟨c, succession, rfl⟩ := succession_of_does_change deletion
      exact ⟨[c], succession, by simp⟩
    exact .inr ⟨listing, changes, succession, rfl⟩

theorem teardown_submitted_iff {listing : DiskList} {changes : List Change}
    (h : Succession s.policy (teardownPlan listing vm) changes result) :
    changes.map Change.submission = teardownPlan listing vm ↔
      (membersOf listing vm).length ≤ changes.length ∧
      ∀ c ∈ changes.take (membersOf listing vm).length, c.completed?.isSome := by
  have size : (teardownPlan listing vm).length = (membersOf listing vm).length + 1 := by
    simp [teardownPlan]
  have short := h.submissions_prefix.length_le
  rw [List.length_map] at short
  rw [← h.lt_length_iff (by omega)]
  constructor
  · intro whole
    have len := congrArg List.length whole
    rw [List.length_map] at len
    omega
  · intro long
    refine h.submissions_prefix.eq_of_length ?_
    rw [List.length_map]
    omega

theorem detached_before_deletion {listing : DiskList} {changes before after : List Change}
    {c : Change} (h : Succession s.policy (teardownPlan listing vm) changes result)
    (parted : changes = before ++ c :: after) (deletion : c.submission = .deleteVm vm) :
    before.map Change.submission = (membersOf listing vm).map (detachment vm) ∧
      ∀ b ∈ before, b.completed?.isSome := by
  refine ⟨?_, h.completed_before parted⟩
  obtain ⟨rest, plan⟩ := h.submissions_prefix
  rw [parted, List.map_append, List.map_cons, deletion, teardownPlan, List.append_assoc,
    List.cons_append] at plan
  -- No detachment is a deletion, so that there is one place only at which the plan has one.
  have apart : .deleteVm vm ∉ (membersOf listing vm).map (detachment vm) := by
    simp [detachment]
  exact ((List.append_cons_inj_of_notMem apart List.not_mem_nil).mp plan.symm).1.symm

theorem not_operated {listing : DiskList} {changes : List Change}
    (h : Succession s.policy (teardownPlan listing vm) changes result) {c : Change}
    (mem : c ∈ changes) (other : VmId) (operation : VmOperation) :
    c.submission ≠ .operateVm other operation := by
  intro operated
  have planned := h.submissions_prefix.subset (List.mem_map_of_mem mem)
  simp [operated, teardownPlan, detachment] at planned

end Teardown

theorem play_getDisks {s : Settings} {vm : VmId} {listing : DiskList} {a : Arguments}
    {w : Surroundings} (argued : (Sense.filledId .vm).Required a.values[0]? vm)
    (replied : w [] (.call (.listDisks s.project)) = .ok listing) :
    ((Action.getDisks.invoke s a).play w []).1 =
      .ok (.array ((membersOf listing vm).map fun disk => .string disk.text)) := by
  dsimp only [Action.getDisks]
  rw [(a.id_eq_ok_iff 0).mpr argued, Action.decoded, pure_bind, disksOf, bind_assoc,
    play_call_of_ok replied, pure_bind, play_pure, attachedTo_eq_membersOf]
  rfl

/-- Tearing down follows the plan that the listing makes, and goes on only past what is completed. If
there is no listing, nothing is submitted. -/
theorem deleteVm_teardown (s : Settings) (vm : VmId) (w : Surroundings) :
    let run := (deleteVm s vm).play w []
    (∃ e, run.2.deeds = [⟨.call (.listDisks s.project), .error e⟩] ∧
      run.1 = .error (.failed (.cloud e))) ∨
    ∃ listing changes,
      run.2.deeds =
        ⟨.call (.listDisks s.project), .ok listing⟩ :: changes.flatMap Change.deeds ∧
      (∀ (a : Arguments) (others : Surroundings),
        (Sense.filledId .vm).Required a.values[0]? vm →
        others [] (.call (.listDisks s.project)) = .ok listing →
        ((Action.getDisks.invoke s a).play others []).1 =
          .ok (.array ((membersOf listing vm).map fun disk => .string disk.text))) ∧
      changes.map Change.submission <+: teardownPlan listing vm ∧
      (changes.map Change.submission = teardownPlan listing vm ↔
        (membersOf listing vm).length ≤ changes.length ∧
        ∀ c ∈ changes.take (membersOf listing vm).length, c.completed?.isSome) ∧
      (∀ before c after, changes = before ++ c :: after → c.submission = .deleteVm vm →
        before.map Change.submission = (membersOf listing vm).map (detachment vm) ∧
        ∀ b ∈ before, b.completed?.isSome) ∧
      (∀ c ∈ changes, ∀ other operation, c.submission ≠ .operateVm other operation) ∧
      (run.1 = .ok () ↔
        changes.length = (membersOf listing vm).length + 1 ∧
        ∀ c ∈ changes, c.completed?.isSome) ∧
      ∀ halt, run.1 = .error halt →
        ∃ before c, changes = before ++ [c] ∧ c.Yields s.policy (.error halt) ∧
          ∀ b ∈ before, b.completed?.isSome := by
  intro run
  rcases does_deleteVm (does_play (deleteVm s vm) w) with failed | ⟨listing, changes, h, deeds⟩
  · exact .inl failed
  have size : (teardownPlan listing vm).length = (membersOf listing vm).length + 1 := by
    simp [teardownPlan]
  refine .inr ⟨listing, changes, deeds, ?listed, h.submissions_prefix, teardown_submitted_iff h,
    ?guarded, ?unoperated, ?success, fun halt failed => h.last_of_error failed⟩
  case listed => exact fun a others argued replied => play_getDisks argued replied
  case guarded => exact fun before c after => detached_before_deletion h
  case unoperated => exact fun c mem => not_operated h mem
  case success => rw [h.ok_iff, size]

end CloudProvider.Pipeline
