import CloudProvider.Proofs.Admission

/-! Orders of disks. A size in megabytes is rounded up to whole gigabytes without loss at any word of
64 bits, and no capacity is cut down to the 32 bits that it is sent in: a size that would not fit
there, or none at all, is turned down before anything is sent. What is sent otherwise is one order. -/

namespace CloudProvider

open Json (Value)

/-- So many megabytes take so many gigabytes, the last of them perhaps in part. -/
def Fills (megabytes gigabytes : Int) : Prop :=
  1000 * (gigabytes - 1) < megabytes ∧ megabytes ≤ 1000 * gigabytes

theorem Fills.unique {n g g' : Int} (fills : Fills n g) (too : Fills n g') : g' = g := by
  unfold Fills at *
  omega

namespace NewDisk

theorem fills_gigabytes (megabytes : UInt64) : Fills megabytes.toNat (gigabytes megabytes) := by
  unfold Fills gigabytes
  omega

theorem gigabytes_mono {a b : UInt64} (le : a ≤ b) : gigabytes a ≤ gigabytes b := by
  have fewer : a.toNat ≤ b.toNat := UInt64.le_iff_toNat_le.mp le
  unfold gigabytes
  omega

theorem toNat_ceiling (megabytes : UInt64) :
    (if 0 < megabytes % 1000 then megabytes / 1000 + 1 else megabytes / 1000).toNat =
      gigabytes megabytes := by
  have word := megabytes.toNat_lt
  have divided : (megabytes / 1000).toNat = megabytes.toNat / 1000 := UInt64.toNat_div ..
  have left : 0 < megabytes % 1000 ↔ 0 < megabytes.toNat % 1000 := by
    rw [UInt64.lt_iff_toNat_lt, UInt64.toNat_mod]
    rfl
  have next : (megabytes / 1000 + 1).toNat = megabytes.toNat / 1000 + 1 := by
    have one : (1 : UInt64).toNat = 1 := rfl
    rw [UInt64.toNat_add, divided, one]
    exact Nat.mod_eq_of_lt (by omega)
  unfold gigabytes
  split
  case isTrue some => have := left.mp some; omega
  case isFalse none => have := mt left.mpr none; omega

end NewDisk

namespace Pipeline

def Orderable (megabytes : Int) : Prop :=
  1 ≤ megabytes ∧ megabytes ≤ 4294967295000

theorem exists_orderedCapacity {megabytes : UInt64} (orderable : Orderable megabytes.toNat) :
    ∃ g : UInt32, Fills megabytes.toNat g.toNat ∧ orderedCapacity megabytes = .ok g := by
  have fills := NewDisk.fills_gigabytes megabytes
  obtain ⟨least, most⟩ := orderable
  have some : ¬ NewDisk.gigabytes megabytes < 1 := by
    unfold Fills at fills
    omega
  have fits : NewDisk.gigabytes megabytes < 2 ^ 32 := by
    unfold Fills at fills
    omega
  refine ⟨UInt32.ofNat (NewDisk.gigabytes megabytes), ?_, ?_⟩
  · rwa [UInt32.toNat_ofNat_of_lt' fits]
  · rw [orderedCapacity, if_neg some, if_pos fits]

theorem exists_fault_of_not_orderable {megabytes : UInt64}
    (beyond : ¬ Orderable megabytes.toNat) :
    ∃ fault, orderedCapacity megabytes = .error fault := by
  have fills := NewDisk.fills_gigabytes megabytes
  unfold Orderable at beyond
  unfold Fills at fills
  rw [orderedCapacity]
  by_cases none : NewDisk.gigabytes megabytes < 1
  · exact ⟨_, if_pos none⟩
  · have large : ¬ NewDisk.gigabytes megabytes < 2 ^ 32 := by omega
    exact ⟨_, by rw [if_neg none, if_neg large]⟩

theorem Orderable.exists_word {n : Int} (orderable : Orderable n) :
    ∃ m : UInt64, (m.toNat : Int) = n := by
  obtain ⟨least, most⟩ := orderable
  have fits : n.toNat < UInt64.size := by
    rw [UInt64.size]
    omega
  refine ⟨UInt64.ofNat n.toNat, ?_⟩
  rw [UInt64.toNat_ofNat_of_lt' fits]
  omega

end Pipeline

open Pipeline (DiskProperties Orderable)

/-- The size that is asked for is a whole number for which there is a capacity. -/
def AsksForDisk (size : Value) : Prop :=
  ∃ n fits, size = .number (.integer n fits) ∧ Orderable n

def nameFor : Option VmId → String
  | none => "bosh-disk"
  | some vm => "disk-for-vm-" ++ vm.text

theorem Pipeline.orderedDisk_eq (p : DiskProperties) (capacityGb : UInt32) (vm : Option VmId) :
    orderedDisk p capacityGb vm =
      ⟨nameFor vm, "persistent-disk", p.flavor, capacityGb, [], []⟩ := by
  cases vm <;> rfl

namespace Action

variable {s : Settings} {size properties : Value} {rest : List Value} {p : DiskProperties}
  {vm : Option VmId}

theorem createDisk_invoke {m : UInt64} (sized : Sense.word64 size m)
    (said : DiskProperties.sense properties p)
    (owner : (Sense.id .vm).given.Optional none rest[0]? vm) :
    createDisk.invoke s ⟨size :: properties :: rest⟩ = (do
      return idValue (← Pipeline.createDisk s m p vm)) := by
  have asked : Entrance.createDisk.Asks (size :: properties :: rest) ⟨m, p, vm⟩ :=
    ⟨sized, said, owner⟩
  exact Entrance.invoke_of_asked asked

theorem exists_createDisk_order {n : Int} {fits : -2 ^ 63 ≤ n ∧ n < 2 ^ 64}
    (sized : size = .number (.integer n fits)) (orderable : Orderable n)
    (said : DiskProperties.sense properties p)
    (owner : (Sense.id .vm).given.Optional none rest[0]? vm) :
    ∃ g : UInt32, Fills n g.toNat ∧
      createDisk.invoke s ⟨size :: properties :: rest⟩ = (do
        return idValue (← Pipeline.make s "create disk" "a disk id" .disk
          (.createDisk s.project ⟨nameFor vm, "persistent-disk", p.flavor, g, [], []⟩))) := by
  obtain ⟨m, rfl⟩ := orderable.exists_word
  obtain ⟨g, fills, capacity⟩ := Pipeline.exists_orderedCapacity orderable
  refine ⟨g, fills, ?_⟩
  rw [createDisk_invoke ⟨fits, sized⟩ said owner, Pipeline.createDisk, capacity,
    ← Pipeline.orderedDisk_eq]

theorem exists_createDisk_fault (unasked : ¬ AsksForDisk size)
    (said : DiskProperties.sense properties p)
    (owner : (Sense.id .vm).given.Optional none rest[0]? vm) :
    ∃ fault, createDisk.invoke s ⟨size :: properties :: rest⟩ =
      Pipeline.fail (.invalidArgument fault) := by
  by_cases whole : ∃ m, Sense.word64 size m
  · obtain ⟨m, sized⟩ := whole
    have beyond : ¬ Orderable m.toNat := fun orderable =>
      sized.elim fun fits same => unasked ⟨_, fits, same, orderable⟩
    obtain ⟨fault, capacity⟩ := Pipeline.exists_fault_of_not_orderable beyond
    refine ⟨fault, ?_⟩
    rw [createDisk_invoke sized said owner, Pipeline.createDisk, capacity]
    rfl
  · exact Entrance.createDisk.invoke_of_mute fun taken asked => whole ⟨_, asked.1⟩

end Action

/-- What the caller is told of an order: the id of the disk that has been made, if it has one, and
what the order has failed with. -/
def Change.Names (c : Change) (policy : Policy) (outcome : Dispatch.Outcome) : Prop :=
  match c.completed? with
  | some done => ∃ log, outcome = .answered
      (if done.entity.id = "" then
        ⟨.null, some ⟨.cpiError, CloudError.message (.internal (.nameless done.id "a disk id")),
          false⟩, log⟩
      else ⟨.string done.entity.id, none, log⟩)
  | none => ∃ halt, c.Yields policy (.error halt) ∧
      (∀ e, halt = .failed e → ∃ log, outcome = .answered ⟨.null, some e.failure, log⟩) ∧
      ∀ envelope, outcome = .answered envelope →
        envelope.failure ≠ none ∧ envelope.result = .null

theorem Change.names_of_does {s : Settings} {submission : Submission} {deeds : History}
    {result : Except Halt Value} (method : String) (trail : Trail)
    (does : (Pipeline.make s "create disk" "a disk id" .disk submission >>= fun id =>
      pure (Action.idValue id)).Does deeds result) :
    ∃ c : Change, c.submission = submission ∧ deeds = c.deeds ∧
      c.Names s.policy ((Dispatch.endingOf method result).outcome trail) := by
  rcases Pipeline.does_bind_iff.mp does with
    ⟨halt, makes, rfl⟩ | ⟨id, _, _, makes, ⟨rfl, rfl⟩, rfl⟩
  · obtain ⟨c, same, rfl, ends⟩ := Pipeline.change_of_does_make makes
    refine ⟨c, same, rfl, ?_⟩
    unfold Change.Names
    rcases ends with ⟨halt', yields, ended⟩ | ⟨done, yields, ⟨empty, ended⟩ | ⟨-, ended⟩⟩
    · obtain rfl := Except.error.inj ended
      rw [yields.completed?_eq]
      refine ⟨halt, yields, fun e same => ⟨trail.text, by rw [same]; rfl⟩, ?_⟩
      intro envelope answered
      obtain ⟨failing, null⟩ := Dispatch.failure_eq_none_iff answered
      have failed : envelope.failure ≠ none := fun none => nomatch failing.mp none
      exact ⟨failed, null failed⟩
    · obtain rfl := Except.error.inj ended
      rw [yields.completed?_eq]
      exact ⟨trail.text, by rw [if_pos empty]; rfl⟩
    · cases ended
  · obtain ⟨c, same, rfl, ends⟩ := Pipeline.change_of_does_make makes
    refine ⟨c, same, List.append_nil _, ?_⟩
    unfold Change.Names
    rcases ends with ⟨halt, yields, ended⟩ | ⟨done, yields, ⟨-, ended⟩ | ⟨filled, ended⟩⟩
    · cases ended
    · cases ended
    · obtain rfl := Except.ok.inj ended
      rw [yields.completed?_eq]
      exact ⟨trail.text, by rw [if_neg filled]; rfl⟩

theorem Table.get?_createDisk {t : Table} (built : Table.standard = .ok t) {method : String}
    (spelled : Text.lower method = "create_disk") : t.get? method = some Action.createDisk := by
  obtain ⟨-, registered, -⟩ := Table.get?_of_registerAll built
  have same : Text.lower method = Text.lower Action.createDisk.name := spelled.trans (by decide)
  rw [Table.get?_congr same]
  exact registered _ (by simp [Action.standard])

section Dispatch

variable {t : Table} {method : String} {size properties : Value} {rest : List Value}
  {p : DiskProperties} {vm : Option VmId} (s : Settings) (w : Surroundings)

theorem exists_change_of_orderable (found : t.get? method = some Action.createDisk)
    (said : DiskProperties.sense properties p)
    (owner : (Sense.id .vm).given.Optional none rest[0]? vm) {n : Int}
    {fits : -2 ^ 63 ≤ n ∧ n < 2 ^ 64} (sized : size = .number (.integer n fits))
    (orderable : Orderable n) :
    let run := (dispatch t s method (size :: properties :: rest)).play w []
    ∃ g : UInt32, Fills n g.toNat ∧
      ∃ c : Change, c.submission =
          .createDisk s.project ⟨nameFor vm, "persistent-disk", p.flavor, g, [], []⟩ ∧
        run.2.deeds = c.deeds ∧ c.Names s.policy run.1 := by
  intro run
  obtain ⟨result, trail, does, answered⟩ := exists_does_of_found found s
    (size :: properties :: rest) w
  obtain ⟨g, fills, order⟩ := Action.exists_createDisk_order sized orderable said owner
  rw [order] at does
  obtain ⟨c, same, deeds, names⟩ := Change.names_of_does method trail does
  exact ⟨g, fills, c, same, deeds, answered ▸ names⟩

theorem deeds_eq_nil_of_unasked (found : t.get? method = some Action.createDisk)
    (said : DiskProperties.sense properties p)
    (owner : (Sense.id .vm).given.Optional none rest[0]? vm) (unasked : ¬ AsksForDisk size) :
    let run := (dispatch t s method (size :: properties :: rest)).play w []
    run.2.deeds = [] ∧
      ∃ message log, run.1 = .answered ⟨.null, some ⟨.cpiError, message, false⟩, log⟩ := by
  intro run
  obtain ⟨result, trail, does, answered⟩ := exists_does_of_found found s
    (size :: properties :: rest) w
  obtain ⟨fault, refused⟩ := Action.exists_createDisk_fault unasked said owner
  rw [refused] at does
  obtain ⟨idle, rfl⟩ := does
  exact ⟨idle, fault.message, trail.text, answered⟩

end Dispatch

/-- Orders of disks, with arguments that are in order but for their size, and by any spelling of the
action. Capacities are rounded up exactly and in words of 64 bits, more is never less, and nothing is
cut off. An order is sent for the sizes for which there is a capacity and for no other values, it
carries that capacity, and the caller is told the id that the completed task names. -/
theorem dispatch_createDisk_exact :
    (∀ a b : UInt64, a ≤ b → NewDisk.gigabytes a ≤ NewDisk.gigabytes b) ∧
    (∀ m : UInt64, (if 0 < m % 1000 then m / 1000 + 1 else m / 1000).toNat =
      NewDisk.gigabytes m) ∧
    ∃ t, Table.standard = .ok t ∧
    ∀ (s : Settings) (method : String) (size properties : Value) (rest : List Value)
      (p : DiskProperties) (vm : Option VmId) (w : Surroundings),
      Text.lower method = "create_disk" → DiskProperties.sense properties p →
      (Sense.id .vm).given.Optional none rest[0]? vm →
      let run := (dispatch t s method (size :: properties :: rest)).play w []
      ((∃ submission answer, ⟨.call (.submit submission), answer⟩ ∈ run.2) ↔
        ∃ n fits, size = .number (.integer n fits) ∧ 1 ≤ n ∧ n ≤ 4294967295000) ∧
      (∀ n fits, size = .number (.integer n fits) → 1 ≤ n → n ≤ 4294967295000 →
        ∃ g : UInt32, Fills n g.toNat ∧ (∀ other, Fills n other → other = g.toNat) ∧
        ∃ c : Change, c.submission =
          .createDisk s.project ⟨nameFor vm, "persistent-disk", p.flavor, g, [], []⟩ ∧
          run.2.deeds = c.deeds ∧ c.Names s.policy run.1) ∧
      ((¬ ∃ n fits, size = .number (.integer n fits) ∧ 1 ≤ n ∧ n ≤ 4294967295000) →
        run.2.deeds = [] ∧
        ∃ message log, run.1 = .answered ⟨.null, some ⟨.cpiError, message, false⟩, log⟩) := by
  obtain ⟨t, built⟩ := Table.exists_standard
  refine ⟨fun _ _ => NewDisk.gigabytes_mono, NewDisk.toNat_ceiling, t, built, ?_⟩
  intro s method size properties rest p vm w spelled said owner run
  have found := Table.get?_createDisk built spelled
  have refused (unasked : ¬ AsksForDisk size) :=
    deeds_eq_nil_of_unasked s w found said owner unasked
  refine ⟨⟨?_, ?_⟩, ?_, refused⟩
  · rintro ⟨submission, answer, mem⟩
    by_contra unasked
    have deed : ⟨.call (.submit submission), answer⟩ ∈ run.2.deeds := List.mem_filter.mpr ⟨mem, rfl⟩
    rw [(refused unasked).1] at deed
    cases deed
  · rintro ⟨n, fits, sized, orderable⟩
    obtain ⟨g, -, c, -, deeds, -⟩ := exists_change_of_orderable s w found said owner sized orderable
    obtain ⟨answer, later, first⟩ := c.deeds_eq_cons
    have deed : ⟨.call (.submit c.submission), answer⟩ ∈ run.2.deeds := by
      rw [deeds, first]
      exact List.mem_cons_self
    exact ⟨c.submission, answer, List.mem_of_mem_filter deed⟩
  · intro n fits sized least most
    obtain ⟨g, fills, order⟩ :=
      exists_change_of_orderable s w found said owner sized ⟨least, most⟩
    exact ⟨g, fills, fun _ => fills.unique, order⟩

theorem dispatch_createDisk_exact_small :
    ∃ t, Table.standard = .ok t ∧
      let request (size : Int) (fits : -2 ^ 63 ≤ size ∧ size < 2 ^ 64) :=
        (dispatch t modest "Create_Disk" [.number (.integer size fits),
          .object [("flavor", .string "small")]]).play unanswering []
      (∃ answer, (request 1001 (by decide)).2.deeds.head? = some
        ⟨.call (.submit (.createDisk "p1"
          ⟨"bosh-disk", "persistent-disk", "small", 2, [], []⟩)), answer⟩) ∧
      (request 0 (by decide)).2.deeds = [] ∧ (request (2 ^ 63) (by decide)).2.deeds = [] := by
  obtain ⟨-, -, t, built, exact⟩ := dispatch_createDisk_exact
  have said : DiskProperties.sense (.object [("flavor", .string "small")]) ⟨"small"⟩ :=
    .inl ⟨_, rfl, by simp [Under]⟩
  have orders (size : Int) (fits : -2 ^ 63 ≤ size ∧ size < 2 ^ 64) :=
    exact modest "Create_Disk" (.number (.integer size fits)) _ [] ⟨"small"⟩ none unanswering
      (by decide) said rfl
  have refused (size : Int) (fits : -2 ^ 63 ≤ size ∧ size < 2 ^ 64)
      (beyond : ¬ Orderable size) :=
    ((orders size fits).2.2 fun ⟨n, _, same, orderable⟩ => by cases same; exact beyond orderable).1
  refine ⟨t, built, ?_, refused 0 (by decide) (by simp [Orderable]),
    refused (2 ^ 63) (by decide) (by simp [Orderable])⟩
  obtain ⟨g, -, only, c, same, deeds, -⟩ := (orders 1001 (by decide)).2.1 1001 _ rfl (by decide)
    (by decide)
  have two : g = 2 := UInt32.toNat_inj.mp (Int.ofNat.inj (only 2 (by simp [Fills])).symm)
  obtain ⟨answer, later, first⟩ := c.deeds_eq_cons
  refine ⟨answer, ?_⟩
  rw [deeds, first, same, two]
  rfl

end CloudProvider
