import CloudProvider.Action.Standard
import CloudProvider.Proofs.Changes
import CloudProvider.Proofs.Records

/-! Signatures: what each action expects of its arguments, position by position. What is wrong with the
arguments is wrong at the first position where something else stands, and nothing behind it has a say. -/

namespace CloudProvider

open Json (Codec Value)

def ArgumentFault.of {α : Type} : Except ArgumentFault α → Option ArgumentFault
  | .ok _ => none
  | .error fault => some fault

inductive Parameter
  | required {α : Type} (c : Codec α) (name : String)
  /-- Here null stands for nothing. -/
  | optional {α : Type} (c : Codec α) (name : String)
  | id (kind : Kind)

namespace Parameter

def misfit? {α : Type} (c : Codec α) (name : String) (v : Value) : Option ArgumentFault :=
  match c.ofValue v with
  | .ok _ => none
  | .error cause => some (.unexpected name cause)

def fault? (index : Nat) : Option Value → Parameter → Option ArgumentFault
  | none, required _ name => some (.missing name index)
  | some v, required c name => misfit? c name v
  | none, optional _ _ | some .null, optional _ _ => none
  | some v, optional c name => misfit? c name v
  | none, id kind => some (.missing kind.argument index)
  | some (.string text), id kind => if text.isEmpty then some (.emptyId kind.argument) else none
  | some v, id kind => misfit? Codec.string kind.argument v

/-- What is wrong at the first position that does not fit. -/
def faults? (values : List Value) : Nat → List Parameter → Option ArgumentFault
  | _, [] => none
  | index, p :: rest => (p.fault? index values[index]?).or (faults? values (index + 1) rest)

end Parameter

structure Signature where
  /-- So many arguments are asked for before any is looked at. -/
  least : Nat
  parameters : List Parameter

def Signature.fault? (signature : Signature) (a : Arguments) : Option ArgumentFault :=
  if a.values.length < signature.least then some (.tooFew signature.least a.values.length)
  else Parameter.faults? a.values 0 signature.parameters

namespace Action

open Pipeline

def signature : String → Signature
  | "create_stemcell" => ⟨0, [.required (Codec.text "path string") "image_path"]⟩
  | "delete_stemcell" => ⟨0, [.id .image]⟩
  | "create_disk" => ⟨2, [.required Codec.word64 "size",
      .required DiskProperties.codec "cloud_properties",
      .optional (Id.codec .vm) Kind.vm.argument]⟩
  | "delete_disk" | "has_disk" => ⟨0, [.id .disk]⟩
  | "attach_disk" | "detach_disk" => ⟨0, [.id .vm, .id .disk]⟩
  | "get_disks" | "delete_vm" | "has_vm" | "restart_vm" => ⟨0, [.id .vm]⟩
  | "create_vm" => ⟨6, [.required Codec.string "agent_id", .id .image,
      .required VmProperties.codec "cloud_properties", .optional Codec.value "networks",
      .optional (Id.codec .disk).list "disk_cids", .optional Codec.value "env"]⟩
  | "set_vm_metadata" => ⟨0, [.optional Codec.string Kind.vm.argument]⟩
  | _ => ⟨0, []⟩

/-- A size for which no disk can be ordered. It is looked at when all else fits. -/
def sizeFault? (a : Arguments) : Option ArgumentFault :=
  match a.values.head?.map Codec.word64.ofValue with
  | some (.ok megabytes) => ArgumentFault.of (orderedCapacity megabytes)
  | _ => none

def fault? (name : String) (a : Arguments) : Option ArgumentFault :=
  ((signature name).fault? a).or (if name = "create_disk" then sizeFault? a else none)

end Action

namespace ArgumentFault

variable {α β : Type}

theorem of_bind {r : Except ArgumentFault α} {k : α → Except ArgumentFault β}
    {next : Option ArgumentFault} (rest : ∀ x, of (k x) = next) :
    of (r >>= k) = (of r).or next := by
  cases r with
  | error fault => rfl
  | ok x => exact rest x

theorem of_map (f : α → β) (r : Except ArgumentFault α) : of (f <$> r) = of r := by
  cases r <;> rfl

end ArgumentFault

namespace Arguments

open ArgumentFault

variable {α : Type} (a : Arguments) (c : Codec α) (index : Nat) (name : String)

theorem of_decode (v : Value) : of (decode c name v) = Parameter.misfit? c name v := by
  unfold decode Parameter.misfit?
  cases c.ofValue v <;> rfl

theorem of_expectAtLeast (count : Nat) :
    of (a.expectAtLeast count) =
      if a.values.length < count then some (.tooFew count a.values.length) else none := by
  unfold expectAtLeast
  split <;> rfl

theorem of_required :
    of (a.required c index name) = (Parameter.required c name).fault? index a.values[index]? := by
  unfold required
  cases a.values[index]? with
  | none => rfl
  | some v => exact of_decode c name v

theorem of_optional :
    of (a.optional c index name) = (Parameter.optional c name).fault? index a.values[index]? := by
  unfold optional
  cases a.values[index]? with
  | none => rfl
  | some v =>
    cases v with
    | null => rfl
    | _ => exact (of_map ..).trans (of_decode ..)

theorem of_id (kind : Kind) :
    of (a.id kind index) = (Parameter.id kind).fault? index a.values[index]? := by
  unfold id required
  cases a.values[index]? with
  | none => rfl
  | some v =>
    cases v with
    | string text =>
      change of (if text.isEmpty then _ else _) = if text.isEmpty then _ else _
      split <;> rfl
    | _ => rfl

variable {a index}

theorem of_bind_position {β γ : Type} {r : Except ArgumentFault β} {k : β → Except ArgumentFault γ}
    {p : Parameter} {rest : List Parameter} (first : of r = p.fault? index a.values[index]?)
    (behind : ∀ x, of (k x) = Parameter.faults? a.values (index + 1) rest) :
    of (r >>= k) = Parameter.faults? a.values index (p :: rest) := by
  rw [of_bind behind, first, Parameter.faults?]

theorem of_bind_expectAtLeast {β : Type} {k : Unit → Except ArgumentFault β} {least : Nat}
    {parameters : List Parameter}
    (behind : ∀ x, of (k x) = Parameter.faults? a.values 0 parameters) :
    of (a.expectAtLeast least >>= k) = (Signature.mk least parameters).fault? a := by
  rw [of_bind behind, of_expectAtLeast, Signature.fault?]
  split <;> rfl

theorem of_eq_fault? {β : Type} {r : Except ArgumentFault β} {parameters : List Parameter}
    (taken : of r = Parameter.faults? a.values 0 parameters) :
    of r = (Signature.mk 0 parameters).fault? a := by
  rw [taken, Signature.fault?, if_neg (Nat.not_lt_zero _)]

variable {c name}

theorem value_of_required {x : α} (taken : a.required c index name = .ok x) :
    ∃ v, a.values[index]? = some v ∧ c.ofValue v = .ok x := by
  unfold required at taken
  split at taken
  · cases taken
  · next v found =>
    rcases decoded : c.ofValue v with cause | y
    · rw [decode, decoded] at taken
      cases taken
    · rw [decode, decoded] at taken
      obtain rfl := Except.ok.inj taken
      exact ⟨v, found, decoded⟩

end Arguments

namespace Action

open ArgumentFault Arguments

variable {a : Arguments}

theorem of_single {α : Type} {r : Except ArgumentFault α} {p : Parameter}
    (taken : of r = p.fault? 0 a.values[0]?) : of r = (Signature.mk 0 [p]).fault? a :=
  of_eq_fault? (by rw [taken, Parameter.faults?, Parameter.faults?, Option.or_none])

variable (a)

theorem of_pair : of (pair a) = (Signature.mk 0 [.id .vm, .id .disk]).fault? a :=
  of_eq_fault? (of_bind_position (of_id ..) fun _ => of_bind_position (of_id ..) fun _ => rfl)

theorem of_diskRequest : of (diskRequest a) = (signature "create_disk").fault? a :=
  of_bind_expectAtLeast fun _ => of_bind_position (of_required ..) fun _ =>
    of_bind_position (of_required ..) fun _ => of_bind_position (of_optional ..) fun _ => rfl

theorem of_vmOrder : of (vmOrder a) = (signature "create_vm").fault? a :=
  of_bind_expectAtLeast fun _ => of_bind_position (of_required ..) fun _ =>
    of_bind_position (of_id ..) fun _ => of_bind_position (of_required ..) fun _ =>
      of_bind_position (of_optional ..) fun _ => of_bind_position (of_optional ..) fun _ =>
        of_bind_position (of_optional ..) fun _ => rfl

theorem fault?_createDisk :
    fault? createDisk.name a = (of (diskRequest a)).or (sizeFault? a) := by
  rw [of_diskRequest]
  rfl

variable {a}

theorem sizeFault?_of_diskRequest {r : DiskRequest} (taken : diskRequest a = .ok r) :
    sizeFault? a = of (Pipeline.orderedCapacity r.megabytes) := by
  obtain ⟨_, -, taken⟩ := bind_eq_ok.mp taken
  obtain ⟨megabytes, required, taken⟩ := bind_eq_ok.mp taken
  obtain ⟨_, -, taken⟩ := bind_eq_ok.mp taken
  obtain ⟨_, -, taken⟩ := bind_eq_ok.mp taken
  obtain rfl := Except.ok.inj taken
  obtain ⟨v, found, decoded⟩ := value_of_required required
  rw [sizeFault?, List.head?_eq_getElem?, found, Option.map_some, decoded]

end Action
end CloudProvider
