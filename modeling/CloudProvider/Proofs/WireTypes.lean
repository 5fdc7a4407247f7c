import CloudProvider.Agent.Environment
import CloudProvider.Cloud.Disk
import CloudProvider.Cloud.Task
import CloudProvider.Envelope
import CloudProvider.Proofs.Restoring

/-! The formats that go over the wire: each type that is read from a text or written to one. However a
value was spelled when it was read, it is read again from the text that is written for it. -/

namespace CloudProvider

open Json
open Text (Dictionary)

namespace Json

namespace Codec

variable {α : Type} {c : Codec α} {least room : Nat}

theorem restores_nil (some : 1 ≤ room) : c.list.Restores room [] := by
  obtain ⟨inner, rfl⟩ := Nat.exists_eq_add_of_le' some
  exact restores_list nofun nofun

theorem restores_empty_table (arrange : Dictionary α → List (String × α))
    (keeps : (arrange []).Perm []) (some : 1 ≤ room) : (c.table arrange).Restores room [] := by
  obtain ⟨inner, rfl⟩ := Nat.exists_eq_add_of_le' some
  exact restores_table .nil keeps nofun

theorem restores_empty (some : 1 ≤ room) : c.dictionary.Restores room [] :=
  restores_empty_table id (.refl []) some

theorem restores_word32 (w : UInt32) : word32.Restores room w := by
  have small := w.toNat_lt
  refine restores_integer (i := w.toNat) rfl ?_
  rw [if_pos ⟨by omega, by omega⟩]
  simp

theorem faithful_word32 : word32.Faithful 0 :=
  fun _ _ _ => (gives_integer _ _ _).mono fun w _ _ => restores_word32 w

theorem restores_int64 (w : Int64) : int64.Restores room w := by
  have low := w.le_toInt
  have high := w.toInt_lt
  refine restores_integer (i := w.toInt) rfl ?_
  rw [if_pos ⟨low, high⟩]
  simp

theorem faithful_int64 : int64.Faithful 0 :=
  fun _ _ _ => (gives_integer _ _ _).mono fun w _ _ => restores_int64 w

end Codec

namespace Field

variable {α : Type} {c : Codec α} {name : String} {least own : Nat}

theorem faithful_required (faithful : c.Faithful own) (within : own ≤ least) :
    (Field.required name c).Faithful least :=
  ⟨faithful.mono within, nofun⟩

theorem faithful_withDefault {a : α} (faithful : c.Faithful own) (within : own ≤ least)
    (restores : ∀ room, least ≤ room → c.Restores room a) :
    (Field.withDefault name c a).Faithful least :=
  ⟨faithful.mono within, fun _ same => Option.some.inj same ▸ restores⟩

theorem faithful_optional (faithful : c.Faithful own) (within : own ≤ least)
    (given : ∀ a, c.toValue a ≠ .null) : (Field.optional name c).Faithful least :=
  ⟨(Codec.faithful_option faithful given).mono within,
    fun _ same _ _ => Option.some.inj same ▸ Codec.restores_none⟩

theorem faithful_listed {c : Codec (List α)} (faithful : c.Faithful own) (within : own ≤ least)
    (restores : ∀ room, least ≤ room → c.Restores room []) :
    (Field.listed name c).Faithful least :=
  ⟨faithful.mono within, fun _ same => Option.some.inj same ▸ restores⟩

/-! Most members are strings. -/

theorem faithful_string_required : (Field.required name Codec.string).Faithful least :=
  faithful_required Codec.faithful_string (Nat.zero_le least)

theorem faithful_string_withDefault {s : String} :
    (Field.withDefault name Codec.string s).Faithful least :=
  faithful_withDefault Codec.faithful_string (Nat.zero_le least) fun _ _ => Codec.restores_string s

theorem faithful_string_optional : (Field.optional name Codec.string).Faithful least :=
  faithful_optional Codec.faithful_string (Nat.zero_le least) nofun

end Field
end Json

open Codec Field

theorem TaskState.faithful_codec : TaskState.codec.Faithful 0 :=
  faithful_map faithful_string name_ofName

theorem Id.faithful_codec (kind : Kind) : (Id.codec kind).Faithful 0 :=
  faithful_map faithful_string fun _ => rfl

theorem FailureKind.faithful_codec : FailureKind.codec.Faithful 0 :=
  faithful_choice fun k => by cases k <;> decide

theorem Locality.faithful_codec : Locality.codec.Faithful 1 :=
  Record.faithful 0 (by decide) (fun _ => rfl)
    ⟨faithful_string_required, faithful_string_required, trivial⟩

theorem Entity.faithful_codec : Entity.codec.Faithful 1 :=
  Record.faithful 0 (by decide) (fun _ => rfl)
    ⟨faithful_string_withDefault, faithful_string_withDefault, trivial⟩

theorem Entity.restores_nobody {room : Nat} (some : 1 ≤ room) :
    Entity.codec.Restores room .nobody := by
  obtain ⟨inner, rfl⟩ := Nat.exists_eq_add_of_le' some
  exact @Record.restores_codec _ Entity.record ("", "", ()) inner (by decide) rfl
    ⟨fun _ => restores_string _, fun _ => restores_string _, trivial⟩

theorem Refusal.faithful_codec : Refusal.codec.Faithful 2 :=
  Record.faithful 1 (by decide) (fun _ => rfl)
    ⟨faithful_string_required, faithful_string_required,
      faithful_withDefault (faithful_dictionary faithful_value) (by decide)
        fun _ some => restores_empty some, trivial⟩

theorem Step.faithful_codec : Step.codec.Faithful 4 :=
  Record.faithful 3 (by decide) (fun _ => rfl)
    ⟨faithful_string_optional, faithful_string_withDefault,
      faithful_required TaskState.faithful_codec (by decide),
      faithful_withDefault faithful_word32 (by decide) fun _ _ => restores_word32 0,
      faithful_listed (faithful_list Refusal.faithful_codec) (by decide)
        fun _ some => restores_nil (by omega), trivial⟩

theorem Task.faithful_codec : Task.codec.Faithful 6 :=
  Record.faithful 5 (by decide) (fun _ => rfl)
    ⟨faithful_required (Id.faithful_codec .task) (by decide), faithful_string_withDefault,
      faithful_required TaskState.faithful_codec (by decide),
      faithful_withDefault Entity.faithful_codec (by decide)
        fun _ some => Entity.restores_nobody (by omega),
      faithful_listed (faithful_list Step.faithful_codec) (by decide)
        fun _ some => restores_nil (by omega),
      faithful_optional faithful_int64 (by decide) nofun,
      faithful_optional faithful_int64 (by decide) nofun,
      faithful_optional faithful_int64 (by decide) nofun, faithful_string_optional, trivial⟩

theorem AttachedDisk.faithful_codec : AttachedDisk.codec.Faithful 1 :=
  Record.faithful 0 (by decide) (fun _ => rfl)
    ⟨faithful_string_required, faithful_string_required, faithful_string_required,
      faithful_required faithful_word32 (by decide), faithful_required faithful_bool (by decide),
      faithful_string_optional, faithful_string_optional, trivial⟩

theorem NewVm.faithful_codec : NewVm.codec.Faithful 3 :=
  Record.faithful 2 (by decide) (fun _ => rfl)
    ⟨faithful_string_required, faithful_string_required,
      faithful_required (Id.faithful_codec .image) (by decide),
      faithful_required (faithful_list AttachedDisk.faithful_codec) (by decide),
      faithful_listed (faithful_list Locality.faithful_codec) (by decide)
        fun _ some => restores_nil (by omega),
      faithful_listed (faithful_list faithful_string) (by decide)
        fun _ some => restores_nil (by omega), trivial⟩

theorem VmOperation.faithful_codec : VmOperation.codec.Faithful 2 :=
  Record.faithful 1 (by decide) (fun _ => rfl)
    ⟨faithful_string_required,
      faithful_listed (faithful_dictionary faithful_value) (by decide)
        fun _ some => restores_empty some, trivial⟩

theorem DiskOperation.faithful_codec : DiskOperation.codec.Faithful 2 :=
  Record.faithful 1 (by decide) (fun _ => rfl)
    ⟨faithful_required (Id.faithful_codec .disk) (by decide),
      faithful_listed (faithful_dictionary faithful_value) (by decide)
        fun _ some => restores_empty some, trivial⟩

section Vm

variable {arrange : Dictionary String → List (String × String)}

theorem Vm.distinct_names : (record arrange).fields.names.Nodup := by
  have distinct : (record fun metadata => metadata).fields.names.Nodup := by decide
  exact distinct

theorem Vm.faithful_codecIn (keeps : ∀ d, (arrange d).Perm d) : (Vm.codecIn arrange).Faithful 3 :=
  Record.faithful 2 distinct_names (fun _ => rfl)
    ⟨faithful_required (Id.faithful_codec .vm) (by decide), faithful_string_withDefault,
      faithful_string_withDefault, faithful_string_withDefault,
      faithful_optional (Id.faithful_codec .image) (by decide) nofun,
      faithful_withDefault (faithful_list AttachedDisk.faithful_codec) (by decide)
        fun _ some => restores_nil (by omega),
      faithful_withDefault (faithful_table arrange keeps faithful_string) (by decide)
        fun _ some => restores_empty_table arrange (keeps []) (by omega), trivial⟩

theorem Vm.read_codecIn : (Vm.codecIn arrange).read = Vm.codec.read := by
  have alike : (record arrange).fields.ReadAlike (record fun metadata => metadata).fields := by
    simp only [record, Fields.ReadAlike, true_and, and_true]
    exact ⟨rfl, rfl, rfl⟩
  exact Record.read_codec_congr "Vm" alike _ _

end Vm

theorem NewDisk.faithful_codec : NewDisk.codec.Faithful 3 :=
  Record.faithful 2 (by decide) (fun _ => rfl)
    ⟨faithful_string_required, faithful_string_required, faithful_string_required,
      faithful_required faithful_word32 (by decide),
      faithful_listed (faithful_list Locality.faithful_codec) (by decide)
        fun _ some => restores_nil (by omega),
      faithful_listed (faithful_list faithful_string) (by decide)
        fun _ some => restores_nil (by omega), trivial⟩

theorem Disk.faithful_codec : Disk.codec.Faithful 2 :=
  Record.faithful 1 (by decide) (fun _ => rfl)
    ⟨faithful_required (Id.faithful_codec .disk) (by decide), faithful_string_withDefault,
      faithful_string_withDefault, faithful_string_withDefault,
      faithful_withDefault faithful_word32 (by decide) fun _ _ => restores_word32 0,
      faithful_string_withDefault,
      faithful_withDefault (faithful_list (Id.faithful_codec .vm)) (by decide)
        fun _ some => restores_nil some, trivial⟩

theorem DiskList.faithful_codec : DiskList.codec.Faithful 4 :=
  Record.faithful 3 (by decide) (fun _ => rfl)
    ⟨faithful_withDefault (faithful_list Disk.faithful_codec) (by decide)
      fun _ some => restores_nil (by omega), trivial⟩

theorem Blobstore.faithful_codec : Blobstore.codec.Faithful 2 :=
  Record.faithful 1 (by decide) (fun _ => rfl)
    ⟨faithful_string_withDefault,
      faithful_withDefault (faithful_dictionary faithful_value) (by decide)
        fun _ some => restores_empty some, trivial⟩

theorem VmIdentity.faithful_codec : VmIdentity.codec.Faithful 1 :=
  Record.faithful 0 (by decide) (fun _ => rfl)
    ⟨faithful_string_required, faithful_required (Id.faithful_codec .vm) (by decide), trivial⟩

theorem AgentEnvironment.faithful_codec : AgentEnvironment.codec.Faithful 3 :=
  Record.faithful 2 (by decide) (fun _ => rfl)
    ⟨faithful_string_required, faithful_required VmIdentity.faithful_codec (by decide),
      faithful_string_required, faithful_required (faithful_list faithful_string) (by decide),
      faithful_required faithful_value (by decide), faithful_required faithful_value (by decide),
      faithful_required (faithful_dictionary faithful_string) (by decide),
      faithful_required Blobstore.faithful_codec (by decide), trivial⟩

theorem Request.faithful_codec : Request.codec.Faithful 2 :=
  Record.faithful 1 (by decide) (fun _ => rfl)
    ⟨faithful_string_required,
      faithful_withDefault (faithful_list faithful_value) (by decide)
        fun _ some => restores_nil some, trivial⟩

theorem Failure.faithful_codec : Failure.codec.Faithful 1 :=
  Record.faithful 0 (by decide) (fun _ => rfl)
    ⟨faithful_required FailureKind.faithful_codec (by decide), faithful_string_required,
      faithful_required faithful_bool (by decide), trivial⟩

theorem Envelope.faithful_codec : Envelope.codec.Faithful 2 :=
  Record.faithful 1 (by decide) (fun _ => rfl)
    ⟨faithful_required faithful_value (by decide),
      faithful_withDefault (faithful_option Failure.faithful_codec nofun) (by decide)
        fun _ _ => restores_none,
      faithful_string_withDefault, trivial⟩

/-! ### Free-form parts

Some types hold JSON values of any form. Nothing else in them is ever written as a fraction. -/

theorem Locality.exact (l : Locality) : (Locality.codec.toValue l).Exact :=
  Record.exact ⟨.string _, .string _, trivial⟩

theorem Entity.exact (e : Entity) : (Entity.codec.toValue e).Exact :=
  Record.exact ⟨.string _, .string _, trivial⟩

theorem Refusal.exact {r : Refusal} (free : ∀ m ∈ r.data, m.2.Exact) :
    (Refusal.codec.toValue r).Exact :=
  Record.exact ⟨.string _, .string _, exact_dictionary free, trivial⟩

theorem Step.exact {s : Step} (free : ∀ r ∈ s.errors, ∀ m ∈ r.data, m.2.Exact) :
    (Step.codec.toValue s).Exact :=
  Record.exact ⟨exact_option fun _ _ => .string _, .string _, .string _, .integer _ _,
    exact_list fun r inside => Refusal.exact (free r inside), trivial⟩

theorem Task.exact {t : Task} (free : ∀ r ∈ t.stepErrors, ∀ m ∈ r.data, m.2.Exact) :
    (Task.codec.toValue t).Exact :=
  have steps (s : Step) (inside : s ∈ t.steps) : (Step.codec.toValue s).Exact :=
    Step.exact fun r met => free r (List.mem_flatMap.mpr ⟨s, inside, met⟩)
  Record.exact ⟨.string _, .string _, .string _, t.entity.exact, exact_list steps,
    exact_option fun _ _ => .integer _ _, exact_option fun _ _ => .integer _ _,
    exact_option fun _ _ => .integer _ _, exact_option fun _ _ => .string _, trivial⟩

theorem AttachedDisk.exact (d : AttachedDisk) : (AttachedDisk.codec.toValue d).Exact :=
  Record.exact ⟨.string _, .string _, .string _, .integer _ _, .bool _,
    exact_option fun _ _ => .string _, exact_option fun _ _ => .string _, trivial⟩

theorem NewVm.exact (n : NewVm) : (NewVm.codec.toValue n).Exact :=
  Record.exact ⟨.string _, .string _, .string _, exact_list fun d _ => d.exact,
    exact_list fun l _ => l.exact, exact_list fun _ _ => .string _, trivial⟩

theorem VmOperation.exact {o : VmOperation} (free : ∀ m ∈ o.arguments, m.2.Exact) :
    (VmOperation.codec.toValue o).Exact :=
  Record.exact ⟨.string _, exact_dictionary free, trivial⟩

theorem DiskOperation.exact {o : DiskOperation} (free : ∀ m ∈ o.arguments, m.2.Exact) :
    (DiskOperation.codec.toValue o).Exact :=
  Record.exact ⟨.string _, exact_dictionary free, trivial⟩

theorem Vm.exact (arrange : Dictionary String → List (String × String)) (v : Vm) :
    ((Vm.codecIn arrange).toValue v).Exact :=
  Record.exact ⟨.string _, .string _, .string _, .string _, exact_option fun _ _ => .string _,
    exact_list fun d _ => d.exact, exact_dictionary fun _ _ => .string _, trivial⟩

theorem NewDisk.exact (n : NewDisk) : (NewDisk.codec.toValue n).Exact :=
  Record.exact ⟨.string _, .string _, .string _, .integer _ _, exact_list fun l _ => l.exact,
    exact_list fun _ _ => .string _, trivial⟩

theorem Disk.exact (d : Disk) : (Disk.codec.toValue d).Exact :=
  Record.exact ⟨.string _, .string _, .string _, .string _, .integer _ _, .string _,
    exact_list fun _ _ => .string _, trivial⟩

theorem DiskList.exact (l : DiskList) : (DiskList.codec.toValue l).Exact :=
  Record.exact ⟨exact_list fun d _ => d.exact, trivial⟩

theorem Blobstore.exact {b : Blobstore} (free : ∀ m ∈ b.options, m.2.Exact) :
    (Blobstore.codec.toValue b).Exact :=
  Record.exact ⟨.string _, exact_dictionary free, trivial⟩

theorem VmIdentity.exact (v : VmIdentity) : (VmIdentity.codec.toValue v).Exact :=
  Record.exact ⟨.string _, .string _, trivial⟩

theorem AgentEnvironment.exact {e : AgentEnvironment} (networks : e.networks.Exact)
    (env : e.env.Exact) (options : ∀ m ∈ e.blobstore.options, m.2.Exact) :
    (AgentEnvironment.codec.toValue e).Exact :=
  Record.exact ⟨.string _, e.vm.exact, .string _, exact_list fun _ _ => .string _, networks, env,
    exact_dictionary fun _ _ => .string _, Blobstore.exact options, trivial⟩

theorem Request.exact {r : Request} (free : ∀ v ∈ r.arguments, v.Exact) :
    (Request.codec.toValue r).Exact :=
  Record.exact ⟨.string _, exact_list free, trivial⟩

theorem Failure.exact (f : Failure) : (Failure.codec.toValue f).Exact :=
  Record.exact ⟨.string _, .string _, .bool _, trivial⟩

theorem Envelope.exact {e : Envelope} (free : e.result.Exact) :
    (Envelope.codec.toValue e).Exact :=
  Record.exact ⟨free, exact_option fun f _ => f.exact, .string _, trivial⟩

/-! ### All of them -/

inductive WireType
  | task
  | step
  | entity
  | taskState
  | refusal
  | vm
  | attachedDisk
  | disk
  | diskList
  | newVm
  | newDisk
  | locality
  | vmOperation
  | diskOperation
  | agentEnvironment
  | vmIdentity
  | blobstore
  | request
  | envelope
  | failure
  | failureKind
  | id (kind : Kind)

namespace WireType

abbrev Contents : WireType → Type
  | task => Task
  | step => Step
  | entity => Entity
  | taskState => TaskState
  | refusal => Refusal
  | vm => Vm
  | attachedDisk => AttachedDisk
  | disk => Disk
  | diskList => DiskList
  | newVm => NewVm
  | newDisk => NewDisk
  | locality => Locality
  | vmOperation => VmOperation
  | diskOperation => DiskOperation
  | agentEnvironment => AgentEnvironment
  | vmIdentity => VmIdentity
  | blobstore => Blobstore
  | request => Request
  | envelope => Envelope
  | failure => Failure
  | failureKind => FailureKind
  | id kind => Id kind

def codec : (t : WireType) → Codec t.Contents
  | task => Task.codec
  | step => Step.codec
  | entity => Entity.codec
  | taskState => TaskState.codec
  | refusal => Refusal.codec
  | vm => Vm.codec
  | attachedDisk => AttachedDisk.codec
  | disk => Disk.codec
  | diskList => DiskList.codec
  | newVm => NewVm.codec
  | newDisk => NewDisk.codec
  | locality => Locality.codec
  | vmOperation => VmOperation.codec
  | diskOperation => DiskOperation.codec
  | agentEnvironment => AgentEnvironment.codec
  | vmIdentity => VmIdentity.codec
  | blobstore => Blobstore.codec
  | request => Request.codec
  | envelope => Envelope.codec
  | failure => Failure.codec
  | failureKind => FailureKind.codec
  | id kind => Id.codec kind

/-- The same, with tables that have no order of their own written as `arrange` puts them. -/
def codecIn (arrange : Dictionary String → List (String × String)) :
    (t : WireType) → Codec t.Contents
  | vm => Vm.codecIn arrange
  | t => t.codec

theorem decode_codecIn (arrange : Dictionary String → List (String × String)) (t : WireType) (text : Bytes) :
    (t.codecIn arrange).decode text = t.codec.decode text := by
  cases t with
  | vm => rw [Codec.decode, Codec.decode, codecIn, codec, Vm.read_codecIn]
  | _ => rfl

variable {arrange : Dictionary String → List (String × String)}

theorem faithful_codecIn (keeps : ∀ d, (arrange d).Perm d) (t : WireType) :
    (t.codecIn arrange).Faithful depthLimit := by
  cases t with
  | task => exact Task.faithful_codec.mono (by decide)
  | step => exact Step.faithful_codec.mono (by decide)
  | entity => exact Entity.faithful_codec.mono (by decide)
  | taskState => exact TaskState.faithful_codec.mono (by decide)
  | refusal => exact Refusal.faithful_codec.mono (by decide)
  | vm => exact (Vm.faithful_codecIn keeps).mono (by decide)
  | attachedDisk => exact AttachedDisk.faithful_codec.mono (by decide)
  | disk => exact Disk.faithful_codec.mono (by decide)
  | diskList => exact DiskList.faithful_codec.mono (by decide)
  | newVm => exact NewVm.faithful_codec.mono (by decide)
  | newDisk => exact NewDisk.faithful_codec.mono (by decide)
  | locality => exact Locality.faithful_codec.mono (by decide)
  | vmOperation => exact VmOperation.faithful_codec.mono (by decide)
  | diskOperation => exact DiskOperation.faithful_codec.mono (by decide)
  | agentEnvironment => exact AgentEnvironment.faithful_codec.mono (by decide)
  | vmIdentity => exact VmIdentity.faithful_codec.mono (by decide)
  | blobstore => exact Blobstore.faithful_codec.mono (by decide)
  | request => exact Request.faithful_codec.mono (by decide)
  | envelope => exact Envelope.faithful_codec.mono (by decide)
  | failure => exact Failure.faithful_codec.mono (by decide)
  | failureKind => exact FailureKind.faithful_codec.mono (by decide)
  | id kind => exact (Id.faithful_codec kind).mono (by decide)

/-- The parts of a value that may be JSON of any form. -/
def freeParts : (t : WireType) → t.Contents → List Value
  | task, t => t.stepErrors.flatMap fun r => r.data.map Prod.snd
  | step, s => s.errors.flatMap fun r => r.data.map Prod.snd
  | refusal, r => r.data.map Prod.snd
  | vmOperation, o => o.arguments.map Prod.snd
  | diskOperation, o => o.arguments.map Prod.snd
  | agentEnvironment, e => e.networks :: e.env :: e.blobstore.options.map Prod.snd
  | blobstore, b => b.options.map Prod.snd
  | request, r => r.arguments
  | envelope, e => [e.result]
  | entity, _ | taskState, _ | vm, _ | attachedDisk, _ | disk, _ | diskList, _ | newVm, _
  | newDisk, _ | locality, _ | vmIdentity, _ | failure, _ | failureKind, _ | id _, _ => []

theorem exact_toValue (t : WireType) {x : t.Contents} (free : ∀ v ∈ t.freeParts x, v.Exact) :
    ((t.codecIn arrange).toValue x).Exact := by
  have refused {errors : List Refusal}
      (free : ∀ v ∈ errors.flatMap fun r => r.data.map Prod.snd, v.Exact) :
      ∀ r ∈ errors, ∀ m ∈ r.data, m.2.Exact := fun r met m inside =>
    free m.2 (List.mem_flatMap.mpr ⟨r, met, List.mem_map_of_mem inside⟩)
  cases t with
  | task => exact Task.exact (refused free)
  | step => exact Step.exact (refused free)
  | entity => exact Entity.exact x
  | taskState => exact .string _
  | refusal => exact Refusal.exact (List.forall_mem_map.mp free)
  | vm => exact Vm.exact arrange x
  | attachedDisk => exact AttachedDisk.exact x
  | disk => exact Disk.exact x
  | diskList => exact DiskList.exact x
  | newVm => exact NewVm.exact x
  | newDisk => exact NewDisk.exact x
  | locality => exact Locality.exact x
  | vmOperation => exact VmOperation.exact (List.forall_mem_map.mp free)
  | diskOperation => exact DiskOperation.exact (List.forall_mem_map.mp free)
  | agentEnvironment =>
    obtain ⟨networks, free⟩ := List.forall_mem_cons.mp free
    obtain ⟨env, options⟩ := List.forall_mem_cons.mp free
    exact AgentEnvironment.exact networks env (List.forall_mem_map.mp options)
  | vmIdentity => exact VmIdentity.exact x
  | blobstore => exact Blobstore.exact (List.forall_mem_map.mp free)
  | request => exact Request.exact free
  | envelope => exact Envelope.exact (free _ List.mem_cons_self)
  | failure => exact Failure.exact x
  | failureKind => exact .string _
  | id kind => exact .string _

/-- However a value was spelled, it is read again from the text that is written for it, unless there
are binary fractions in its free-form parts. There is one such text but for the order of tables that
have none, and in whatever order these are written, what is read is the same. -/
theorem decode_rewritten (t : WireType) {text : Bytes} {x : t.Contents}
    (read : t.codec.decode text = .ok x) (exact : ∀ v ∈ t.freeParts x, v.Exact)
    (keeps : ∀ d, (arrange d).Perm d) :
    t.codec.decode (Text.Utf8.encode ((t.codecIn arrange).encode x)) = .ok x := by
  rw [← decode_codecIn arrange] at read ⊢
  exact Codec.decode_encode (t.faithful_codecIn keeps) read (t.exact_toValue exact)

/-- A machine with its members out of order, an escape, and a member that no machine has. -/
def spelled : Bytes :=
  Text.Utf8.encode
    "\x7b\"metadata\":\x7b\"b\":\"2\",\"a\":\"\\u0031\"\x7d, \"rate\":1.5,\"id\":\"vm-1\"\x7d"

def spelledVm : Vm where
  id := ⟨"vm-1"⟩
  name := ""
  state := ""
  flavor := ""
  image := none
  disks := []
  metadata := [("a", "1"), ("b", "2")]

def isSpelled : Vm → Bool
  | ⟨own, name, state, flavor, none, [], [(a, one), (b, two)]⟩ =>
    own.text = "vm-1" && name = "" && state = "" && flavor = "" &&
      a = "a" && one = "1" && b = "b" && two = "2"
  | _ => false

theorem eq_of_isSpelled {x : Vm} (same : isSpelled x) : x = spelledVm := by
  unfold isSpelled at same
  split at same
  · simp only [Bool.and_eq_true, decide_eq_true_eq] at same
    obtain ⟨⟨⟨⟨⟨⟨⟨own, rfl⟩, rfl⟩, rfl⟩, rfl⟩, rfl⟩, rfl⟩, rfl⟩ := same
    rw [spelledVm, ← own]
  · cases same

theorem decode_spelled : vm.codec.decode spelled = .ok spelledVm := by
  have found : (Vm.codec.decode spelled).toOption.any isSpelled = true := by
    decide +kernel
  cases read : Vm.codec.decode spelled with
  | error fault =>
    rw [read] at found
    cases found
  | ok x =>
    rw [read] at found
    obtain rfl := eq_of_isSpelled found
    exact read

theorem decode_rewritten_spelled :
    vm.codec.decode spelled = .ok spelledVm ∧ (∀ v ∈ vm.freeParts spelledVm, v.Exact) ∧
    (vm.codecIn List.reverse).encode spelledVm =
      "\x7b\"id\":\"vm-1\",\"name\":\"\",\"state\":\"\",\"flavor\":\"\",\"attachedDisks\":[]," ++
        "\"metadata\":\x7b\"b\":\"2\",\"a\":\"1\"\x7d\x7d" ∧
    vm.codec.decode (Text.Utf8.encode ((vm.codecIn List.reverse).encode spelledVm)) =
      .ok spelledVm := by
  have exact : ∀ v ∈ vm.freeParts spelledVm, v.Exact := List.forall_mem_nil _
  exact ⟨decode_spelled, exact, rfl,
    vm.decode_rewritten decode_spelled exact List.reverse_perm⟩

end WireType
end CloudProvider
