import CloudProvider.Proofs.Failures
import Mathlib.Data.List.Forall2

/-! What the standard actions take. Of each action is told here what its arguments ask for, position by
position and without any decoding, and which pipeline is then entered with it. Arguments that ask for
nothing in this way get no further: they leave no mark outside, whatever the surroundings are like. -/

namespace CloudProvider

open Json (Codec Value)

abbrev Sense (α : Type) := Value → α → Prop

namespace Sense

variable {α : Type}

def text : Sense String :=
  fun v s => v = .string s

def word32 : Sense UInt32 :=
  fun v w => ∃ fits, v = .number (.integer w.toNat fits)

def word64 : Sense UInt64 :=
  fun v w => ∃ fits, v = .number (.integer w.toNat fits)

def anything : Sense Value :=
  fun v x => x = v

def id (kind : Kind) : Sense (Id kind) :=
  fun v id => v = .string id.text

def filledId (kind : Kind) : Sense (Id kind) :=
  fun v id => v = .string id.text ∧ id.text ≠ ""

def list (sense : Sense α) : Sense (List α) :=
  fun v said => ∃ items, v = .array items ∧ List.Forall₂ sense items said

def given (sense : Sense α) : Sense (Option α) :=
  fun v said => ∃ a, said = some a ∧ sense v a

def Required (sense : Sense α) : Option Value → α → Prop
  | none, _ => False
  | some v, a => sense v a

/-- At a position where nothing need stand. Null is nothing, too. -/
def Optional (sense : Sense α) (nothing : α) : Option Value → α → Prop
  | none, a | some .null, a => a = nothing
  | some v, a => sense v a

end Sense

/-- This is what the members say under the name, which they have once or not at all. -/
def Under (members : List (String × Value)) (name : String) (said : Option Value) : Prop :=
  members.filter (·.1 = name) = (said.map (name, ·)).toList

namespace Pipeline

def DiskProperties.sense : Sense DiskProperties := fun v p =>
  (∃ members, v = .object members ∧ Under members "flavor" (some (.string p.flavor))) ∨
    v = .array [.string p.flavor]

/-- The size is sixteen where nothing is said of it. -/
def VmProperties.SizeSaid (size : Option Value) (p : VmProperties) : Prop :=
  match size with
  | none => p.diskSizeGb = 16
  | some v => Sense.word32 v p.diskSizeGb

def VmProperties.sense : Sense VmProperties := fun v p =>
  ∃ size, p.SizeSaid size ∧
    ((∃ members, v = .object members ∧ Under members "vm_flavor" (some (.string p.flavor)) ∧
      Under members "disk_flavor" (some (.string p.diskFlavor)) ∧
      Under members "vm_attached_disk_size_gb" size) ∨
    v = .array (.string p.flavor :: .string p.diskFlavor :: size.toList))

end Pipeline

/-- A codec takes what is said in this sense, and nothing else. -/
def Json.Codec.Obeys {α : Type} (c : Codec α) (sense : Sense α) : Prop :=
  ∀ v a, c.ofValue v = .ok a ↔ sense v a

section Senses

variable {α : Type}

theorem Json.Codec.Obeys.text (wanted : String) : (Codec.text wanted).Obeys Sense.text := by
  intro v s
  cases v with
  | string text =>
    change Except.ok text = .ok s ↔ Value.string text = .string s
    simp
  | _ => exact ⟨nofun, nofun⟩

theorem Json.Codec.Obeys.string : Codec.string.Obeys Sense.text :=
  Obeys.text "a string"

theorem Json.Codec.ofValue_integer_eq_ok_iff {wanted : String} {narrow? : Int → Option α}
    {widen : α → Json.Number} {v : Value} {a : α} :
    (Codec.integer wanted narrow? widen).ofValue v = .ok a ↔
      ∃ i fits, v = .number (.integer i fits) ∧ narrow? i = some a := by
  constructor
  · intro taken
    match v, taken with
    | .number (.integer i fits), taken =>
      change Codec.integer.narrowed wanted narrow? (.integer i fits) = .ok a at taken
      refine ⟨i, fits, rfl, ?_⟩
      dsimp only [Codec.integer.narrowed] at taken
      split at taken
      · next narrow => rw [narrow, Except.ok.inj taken]
      · cases taken
    | .number (.fraction x), taken => cases taken
  · rintro ⟨i, fits, rfl, narrow⟩
    change Codec.integer.narrowed wanted narrow? (.integer i fits) = .ok a
    dsimp only [Codec.integer.narrowed]
    rw [narrow]

theorem Json.Codec.Obeys.word32 : Codec.word32.Obeys Sense.word32 := by
  intro v w
  have := w.toNat_lt
  rw [Codec.word32, Codec.ofValue_integer_eq_ok_iff]
  constructor
  · rintro ⟨i, fits, rfl, narrow⟩
    obtain ⟨range, same⟩ := Option.ite_none_right_eq_some.mp narrow
    obtain rfl := Option.some.inj same
    have small : i.toNat < UInt32.size := by
      rw [UInt32.size]
      omega
    have same : i = (UInt32.ofNat i.toNat).toNat := by
      rw [UInt32.toNat_ofNat_of_lt' small]
      omega
    exact ⟨same ▸ fits, by congr 2⟩
  · rintro ⟨fits, rfl⟩
    exact ⟨w.toNat, fits, rfl, by rw [if_pos (by omega)]; simp⟩

theorem Json.Codec.Obeys.word64 : Codec.word64.Obeys Sense.word64 := by
  intro v w
  have := w.toNat_lt
  rw [Codec.word64, Codec.ofValue_integer_eq_ok_iff]
  constructor
  · rintro ⟨i, fits, rfl, narrow⟩
    obtain ⟨range, same⟩ := Option.ite_none_right_eq_some.mp narrow
    obtain rfl := Option.some.inj same
    have small : i.toNat < UInt64.size := by
      rw [UInt64.size]
      omega
    have same : i = (UInt64.ofNat i.toNat).toNat := by
      rw [UInt64.toNat_ofNat_of_lt' small]
      omega
    exact ⟨same ▸ fits, by congr 2⟩
  · rintro ⟨fits, rfl⟩
    exact ⟨w.toNat, fits, rfl, by rw [if_pos (by omega)]; simp⟩

theorem Json.Codec.Obeys.value : Codec.value.Obeys Sense.anything := by
  intro v a
  change Except.ok v = .ok a ↔ a = v
  rw [Except.ok.injEq, eq_comm]

theorem Json.Codec.Obeys.id (kind : Kind) : (Id.codec kind).Obeys (Sense.id kind) := by
  rintro v ⟨name⟩
  cases v with
  | string text =>
    change Except.ok (Id.mk text) = .ok _ ↔ Value.string text = .string name
    simp
  | _ => exact ⟨nofun, nofun⟩

theorem Json.Codec.Obeys.list {c : Codec α} {sense : Sense α} (obeys : c.Obeys sense) :
    c.list.Obeys sense.list := by
  have each (items : List Value) (said : List α) :
      Codec.itemsOf c.ofValue items = .ok said ↔ List.Forall₂ sense items said := by
    induction items generalizing said with
    | nil =>
      rw [Codec.itemsOf, List.forall₂_nil_left_iff]
      change Except.ok [] = .ok said ↔ _
      rw [Except.ok.injEq, eq_comm]
    | cons v rest ih =>
      rw [Codec.itemsOf, bind_eq_ok, List.forall₂_cons_left_iff]
      refine exists_congr fun a => ?_
      rw [bind_eq_ok]
      constructor
      · rintro ⟨decoded, left, inner, same⟩
        exact ⟨left, (obeys v a).mp decoded, (ih left).mp inner, (Except.ok.inj same).symm⟩
      · rintro ⟨left, said, inner, rfl⟩
        exact ⟨(obeys v a).mpr said, left, (ih left).mpr inner, rfl⟩
  intro v said
  cases v with
  | array items =>
    change Codec.itemsOf c.ofValue items = .ok said ↔ _
    rw [each]
    constructor
    · exact fun held => ⟨items, rfl, held⟩
    · rintro ⟨_, same, held⟩
      rwa [Value.array.inj same]
  | _ => exact ⟨nofun, nofun⟩

theorem under_iff {members : List (String × Value)} {name : String} {said : Option Value} :
    Under members name said ↔
      members.lookup name = said ∧ (members.map (·.1)).count name ≤ 1 := by
  unfold Under
  induction members with
  | nil => cases said <;> simp
  | cons member rest ih =>
    obtain ⟨key, v⟩ := member
    by_cases same : key = name
    · subst same
      have none : rest.filter (·.1 = key) = [] ↔ (rest.map (·.1)).count key = 0 := by
        rw [List.filter_eq_nil_iff, List.count_eq_zero, List.mem_map]
        constructor
        · rintro other ⟨member, mem, same⟩
          simpa [same] using other member mem
        · intro never member mem
          simpa using fun same => never ⟨member, mem, same⟩
      rw [List.lookup_cons_self, List.filter_cons_of_pos (by simp), List.map_cons,
        List.count_cons_self]
      rcases said with _ | said
      · simp
      · simp only [Option.map_some, Option.toList_some, List.cons.injEq, Prod.mk.injEq, true_and,
          Option.some.injEq, none]
        exact and_congr_right fun _ => by omega
    · have apart : (name == key) = false := by simpa using Ne.symm same
      have other : (key == name) = false := by simpa using same
      rw [List.lookup_cons, apart, List.filter_cons_of_neg (by simpa using same), List.map_cons,
        List.count_cons, other]
      exact ih

theorem Json.Field.takes_required_iff {name s : String} {said : Option Value} :
    (Json.Field.required name .string).Takes said s ↔ said = some (.string s) := by
  rcases said with _ | v
  · exact ⟨nofun, nofun⟩
  · rw [Option.some.injEq]
    exact Codec.Obeys.string v s

theorem Json.Field.takes_size_iff {name : String} {said : Option Value} {p : Pipeline.VmProperties} :
    (Json.Field.withDefault name .word32 16).Takes said p.diskSizeGb ↔ p.SizeSaid said := by
  rcases said with _ | v
  · change some (16 : UInt32) = some p.diskSizeGb ↔ p.diskSizeGb = 16
    rw [Option.some.injEq, eq_comm]
  · exact Codec.Obeys.word32 v p.diskSizeGb

namespace Pipeline

theorem DiskProperties.obeys : DiskProperties.codec.Obeys DiskProperties.sense := by
  intro v p
  have names : DiskProperties.record.fields.names = ["flavor"] := rfl
  have once_iff (members : List (String × Value)) :
      DiskProperties.record.fields.NamesOnce members ↔
        (members.map (·.1)).count "flavor" ≤ 1 := by
    simp [Json.Fields.NamesOnce, names]
  rw [DiskProperties.codec, Json.Record.ofValue_eq_ok_iff (by rw [names]; decide)]
  constructor
  · rintro ⟨⟨flavor, ⟨⟩⟩, rfl, ⟨members, rfl, ⟨first, -⟩, once⟩ | ⟨items, rfl, ⟨first, -⟩, few⟩⟩
    · have said := Json.Field.takes_required_iff.mp first
      exact .inl ⟨members, rfl, under_iff.mpr ⟨said, (once_iff members).mp once⟩⟩
    · have given := Json.Field.takes_required_iff.mp first
      rcases items with _ | ⟨v, _ | ⟨w, rest⟩⟩
      · cases given
      · obtain rfl := Option.some.inj given
        exact .inr rfl
      · exact absurd (Nat.le_of_succ_le_succ few) (Nat.not_succ_le_zero _)
  · rintro (⟨members, rfl, under⟩ | rfl)
    · obtain ⟨said, once⟩ := under_iff.mp under
      refine ⟨(p.flavor, ()), rfl, .inl ⟨members, rfl, ⟨?_, trivial⟩, (once_iff members).mpr once⟩⟩
      exact Json.Field.takes_required_iff.mpr said
    · exact ⟨(p.flavor, ()), rfl, .inr ⟨_, rfl, ⟨rfl, trivial⟩, Nat.le_refl 1⟩⟩

theorem VmProperties.obeys : VmProperties.codec.Obeys VmProperties.sense := by
  intro v p
  have names : VmProperties.record.fields.names =
    ["vm_flavor", "disk_flavor", "vm_attached_disk_size_gb"] := rfl
  have once_iff (members : List (String × Value)) :
      VmProperties.record.fields.NamesOnce members ↔
        (members.map (·.1)).count "vm_flavor" ≤ 1 ∧ (members.map (·.1)).count "disk_flavor" ≤ 1 ∧
        (members.map (·.1)).count "vm_attached_disk_size_gb" ≤ 1 := by
    simp [Json.Fields.NamesOnce, names]
  rw [VmProperties.codec, Json.Record.ofValue_eq_ok_iff (by rw [names]; decide)]
  constructor
  · rintro ⟨⟨flavor, diskFlavor, size, ⟨⟩⟩, rfl, taken⟩
    rcases taken with ⟨members, rfl, ⟨first, second, third, -⟩, once⟩ |
      ⟨items, rfl, ⟨first, second, third, -⟩, few⟩
    · obtain ⟨once, only, sole⟩ := (once_iff members).mp once
      exact ⟨_, Json.Field.takes_size_iff.mp third, .inl ⟨members, rfl,
        under_iff.mpr ⟨Json.Field.takes_required_iff.mp first, once⟩,
        under_iff.mpr ⟨Json.Field.takes_required_iff.mp second, only⟩,
        under_iff.mpr ⟨rfl, sole⟩⟩⟩
    · have given := Json.Field.takes_required_iff.mp first
      have placed := Json.Field.takes_required_iff.mp second
      refine ⟨_, Json.Field.takes_size_iff.mp third, .inr ?_⟩
      rcases items with _ | ⟨v, _ | ⟨w, _ | ⟨u, _ | ⟨_, rest⟩⟩⟩⟩
      · cases given
      · cases placed
      · obtain rfl := Option.some.inj given
        obtain rfl := Option.some.inj placed
        rfl
      · obtain rfl := Option.some.inj given
        obtain rfl := Option.some.inj placed
        rfl
      · have few := Nat.le_of_succ_le_succ (Nat.le_of_succ_le_succ (Nat.le_of_succ_le_succ few))
        exact absurd few (Nat.not_succ_le_zero _)
  · rintro ⟨size, said, ⟨members, rfl, first, second, third⟩ | rfl⟩
    · obtain ⟨first, once⟩ := under_iff.mp first
      obtain ⟨second, only⟩ := under_iff.mp second
      obtain ⟨rfl, sole⟩ := under_iff.mp third
      exact ⟨(p.flavor, p.diskFlavor, p.diskSizeGb, ()), rfl, .inl ⟨members, rfl,
        ⟨Json.Field.takes_required_iff.mpr first, Json.Field.takes_required_iff.mpr second,
          Json.Field.takes_size_iff.mpr said, trivial⟩, (once_iff members).mpr ⟨once, only, sole⟩⟩⟩
    · have third : size = (size.toList).head? := by cases size <;> rfl
      refine ⟨(p.flavor, p.diskFlavor, p.diskSizeGb, ()), rfl, .inr ⟨_, rfl,
        ⟨rfl, rfl, Json.Field.takes_size_iff.mpr (third ▸ said), trivial⟩, ?_⟩⟩
      cases size <;> simp [VmProperties.record]

end Pipeline

end Senses

namespace Arguments

variable {α : Type} {c : Codec α} {sense : Sense α} (a : Arguments) (index : Nat) (name : String)

theorem decode_eq_ok_iff (obeys : c.Obeys sense) {v : Value} {x : α} :
    decode c name v = .ok x ↔ sense v x := by
  rw [← obeys v x, decode]
  cases c.ofValue v with
  | error cause => exact ⟨by rintro ⟨⟩, by rintro ⟨⟩⟩
  | ok y =>
    change Except.ok y = .ok x ↔ _
    rw [Except.ok.injEq, Except.ok.injEq]

theorem required_eq_ok_iff (obeys : c.Obeys sense) {x : α} :
    a.required c index name = .ok x ↔ sense.Required a.values[index]? x := by
  unfold required
  cases a.values[index]? with
  | none => exact ⟨nofun, nofun⟩
  | some v => exact decode_eq_ok_iff name obeys

theorem optional_eq_ok_iff (obeys : c.Obeys sense) {said : Option α} :
    a.optional c index name = .ok said ↔ sense.given.Optional none a.values[index]? said := by
  have given (v : Value) :
      (some <$> decode c name v : Except ArgumentFault (Option α)) = .ok said ↔
        sense.given v said := by
    rw [map_eq_pure_bind, bind_eq_ok]
    refine exists_congr fun x => ?_
    rw [decode_eq_ok_iff name obeys, and_comm]
    exact and_congr_left' ⟨fun same => (Except.ok.inj same).symm, fun same => same ▸ rfl⟩
  unfold optional
  match a.values[index]? with
  | none | some .null => exact ⟨fun same => (Except.ok.inj same).symm, fun same => same ▸ rfl⟩
  | some (.bool _) | some (.number _) | some (.string _) | some (.array _) | some (.object _) =>
    exact given _

theorem getD_optional_iff (obeys : c.Obeys sense) {nothing x : α} :
    (∃ said, a.optional c index name = .ok said ∧ said.getD nothing = x) ↔
      sense.Optional nothing a.values[index]? x := by
  simp only [optional_eq_ok_iff a index name obeys]
  match a.values[index]? with
  | none | some .null => simp [Sense.Optional, eq_comm]
  | some (.bool _) | some (.number _) | some (.string _) | some (.array _) | some (.object _) =>
    simp [Sense.Optional, Sense.given]

theorem id_eq_ok_iff {kind : Kind} {id : Id kind} :
    a.id kind index = .ok id ↔ (Sense.filledId kind).Required a.values[index]? id := by
  obtain ⟨name⟩ := id
  have filled (text : String) :
      (if text.isEmpty then throw (.emptyId kind.argument) else return ⟨text⟩ :
        Except ArgumentFault (Id kind)) = .ok ⟨name⟩ ↔ text = name ∧ name ≠ "" := by
    split
    · next empty =>
      refine ⟨nofun, ?_⟩
      rintro ⟨rfl, proper⟩
      exact absurd (String.isEmpty_iff.mp empty) proper
    · next proper =>
      change Except.ok (Id.mk text) = .ok _ ↔ _
      rw [Except.ok.injEq, Id.mk.injEq]
      refine (and_iff_left_of_imp ?_).symm
      rintro rfl
      simpa using proper
  rw [Arguments.id, bind_eq_ok]
  simp only [filled, required_eq_ok_iff a index _ Codec.Obeys.string]
  cases a.values[index]? with
  | none => simp [Sense.Required]
  | some v => simp [Sense.Required, Sense.text, Sense.filledId]

theorem expectAtLeast_eq_ok_iff {count : Nat} :
    a.expectAtLeast count = .ok () ↔ count ≤ a.values.length := by
  unfold expectAtLeast
  split
  · next few => exact ⟨nofun, fun enough => absurd few (Nat.not_lt.mpr enough)⟩
  · next enough => exact ⟨fun _ => Nat.not_lt.mp enough, fun _ => rfl⟩

def before (positions : Nat) : Arguments :=
  ⟨a.values.take positions⟩

variable {a index} {positions : Nat}

theorem getElem?_before (within : index < positions) :
    (a.before positions).values[index]? = a.values[index]? :=
  List.getElem?_take_of_lt within

theorem expectAtLeast_before {count : Nat} (within : count ≤ positions) :
    (a.before positions).expectAtLeast count = a.expectAtLeast count := by
  unfold expectAtLeast before
  rw [List.length_take]
  by_cases few : a.values.length < count
  · rw [Nat.min_eq_right (by omega)]
  · rw [if_neg few, if_neg (by omega)]

theorem required_before (within : index < positions) :
    (a.before positions).required c index name = a.required c index name := by
  rw [required, required, getElem?_before within]

theorem optional_before (within : index < positions) :
    (a.before positions).optional c index name = a.optional c index name := by
  rw [optional, optional, getElem?_before within]

theorem id_before {kind : Kind} (within : index < positions) :
    (a.before positions).id kind index = a.id kind index := by
  rw [id, id, required_before _ within]

end Arguments

/-- The way into an action: what its arguments ask for, and the pipeline that is entered with it. -/
structure Entrance where
  action : Action
  Taken : Type
  /-- No argument behind these is looked at. -/
  positions : Nat
  Asks : List Value → Taken → Prop
  enter : Settings → Taken → Pipeline Value
  decode : Arguments → Except ArgumentFault Taken
  invoke_eq : ∀ s a, action.invoke s a = Action.decoded (decode a) >>= enter s
  decode_eq_ok_iff : ∀ a taken, decode a = .ok taken ↔ Asks a.values taken
  decode_before : ∀ a, decode (a.before positions) = decode a

namespace Entrance

open Arguments

theorem pair_eq_ok_iff (a : Arguments) (taken : VmId × DiskId) :
    Action.pair a = .ok taken ↔
      (Sense.filledId .vm).Required a.values[0]? taken.1 ∧
      (Sense.filledId .disk).Required a.values[1]? taken.2 := by
  obtain ⟨vm, disk⟩ := taken
  unfold Action.pair
  simp only [bind_eq_ok, id_eq_ok_iff]
  constructor
  · rintro ⟨_, first, _, second, same⟩
    obtain ⟨rfl, rfl⟩ := Prod.mk.inj (Except.ok.inj same)
    exact ⟨first, second⟩
  · rintro ⟨first, second⟩
    exact ⟨vm, first, disk, second, rfl⟩

theorem diskRequest_eq_ok_iff (a : Arguments) (taken : Action.DiskRequest) :
    Action.diskRequest a = .ok taken ↔
      Sense.word64.Required a.values[0]? taken.megabytes ∧
      Pipeline.DiskProperties.sense.Required a.values[1]? taken.properties ∧
      (Sense.id .vm).given.Optional none a.values[2]? taken.vm := by
  unfold Action.diskRequest
  simp only [bind_eq_ok, required_eq_ok_iff a _ _ Codec.Obeys.word64,
    required_eq_ok_iff a _ _ Pipeline.DiskProperties.obeys,
    optional_eq_ok_iff a _ _ (Codec.Obeys.id .vm)]
  constructor
  · rintro ⟨_, -, _, size, _, properties, _, vm, same⟩
    obtain rfl := Except.ok.inj same
    exact ⟨size, properties, vm⟩
  · rintro ⟨size, properties, vm⟩
    have enough : 2 ≤ a.values.length := by
      rcases second : a.values[1]? with _ | v
      · rw [second] at properties
        exact properties.elim
      · exact (List.getElem?_eq_some_iff.mp second).1
    exact ⟨(), a.expectAtLeast_eq_ok_iff.mpr enough, _, size, _, properties, _, vm, rfl⟩

theorem vmOrder_eq_ok_iff (a : Arguments) (taken : Pipeline.VmOrder) :
    Action.vmOrder a = .ok taken ↔ 6 ≤ a.values.length ∧
      Sense.text.Required a.values[0]? taken.agentId ∧
      (Sense.filledId .image).Required a.values[1]? taken.image ∧
      Pipeline.VmProperties.sense.Required a.values[2]? taken.properties ∧
      Sense.anything.Optional .null a.values[3]? taken.networks ∧
      (Sense.id .disk).list.Optional [] a.values[4]? taken.disks ∧
      Sense.anything.Optional .null a.values[5]? taken.env := by
  unfold Action.vmOrder
  rw [← getD_optional_iff a 3 "networks" Codec.Obeys.value,
    ← getD_optional_iff a 4 "disk_cids" (Codec.Obeys.id .disk).list,
    ← getD_optional_iff a 5 "env" Codec.Obeys.value]
  simp only [bind_eq_ok, required_eq_ok_iff a _ _ Codec.Obeys.string, id_eq_ok_iff,
    required_eq_ok_iff a _ _ Pipeline.VmProperties.obeys]
  constructor
  · rintro ⟨_, enough, _, agentId, _, image, _, properties, _, networks, _, disks, _, env, same⟩
    obtain rfl := Except.ok.inj same
    exact ⟨a.expectAtLeast_eq_ok_iff.mp enough, agentId, image, properties, ⟨_, networks, rfl⟩,
      ⟨_, disks, rfl⟩, _, env, rfl⟩
  · obtain ⟨agentId, image, properties, networks, disks, env⟩ := taken
    rintro ⟨enough, agentId, image, properties, ⟨_, networks, rfl⟩, ⟨_, disks, rfl⟩, _, env, rfl⟩
    exact ⟨(), a.expectAtLeast_eq_ok_iff.mpr enough, _, agentId, _, image, _, properties,
      _, networks, _, disks, _, env, rfl⟩

def ofId (action : Action) (kind : Kind) (enter : Settings → Id kind → Pipeline Value)
    (invoke_eq : ∀ s a, action.invoke s a = Action.decoded (a.id kind 0) >>= enter s) :
    Entrance where
  action := action
  Taken := Id kind
  positions := 1
  Asks values id := (Sense.filledId kind).Required values[0]? id
  enter := enter
  decode a := a.id kind 0
  invoke_eq := invoke_eq
  decode_eq_ok_iff a _ := a.id_eq_ok_iff 0
  decode_before _ := id_before (by decide)

def ofPair (action : Action) (enter : Settings → VmId × DiskId → Pipeline Value)
    (invoke_eq : ∀ s a, action.invoke s a = Action.decoded (Action.pair a) >>= enter s) :
    Entrance where
  action := action
  Taken := VmId × DiskId
  positions := 2
  Asks values taken :=
    (Sense.filledId .vm).Required values[0]? taken.1 ∧
    (Sense.filledId .disk).Required values[1]? taken.2
  enter := enter
  decode := Action.pair
  invoke_eq := invoke_eq
  decode_eq_ok_iff := pair_eq_ok_iff
  decode_before a := by
    rw [Action.pair, Action.pair, id_before (by decide), id_before (by decide)]

def createStemcell : Entrance where
  action := Action.createStemcell
  Taken := String
  positions := 1
  Asks values path := Sense.text.Required values[0]? path
  enter s path := do
    return Action.idValue (← Pipeline.createStemcell s path)
  decode a := a.required (Codec.text "path string") 0 "image_path"
  invoke_eq _ _ := rfl
  decode_eq_ok_iff a _ := a.required_eq_ok_iff 0 _ (Codec.Obeys.text _)
  decode_before _ := required_before _ (by decide)

def createDisk : Entrance where
  action := Action.createDisk
  Taken := Action.DiskRequest
  positions := 3
  Asks values taken :=
    Sense.word64.Required values[0]? taken.megabytes ∧
    Pipeline.DiskProperties.sense.Required values[1]? taken.properties ∧
    (Sense.id .vm).given.Optional none values[2]? taken.vm
  enter s taken := do
    return Action.idValue (← Pipeline.createDisk s taken.megabytes taken.properties taken.vm)
  decode := Action.diskRequest
  invoke_eq _ _ := rfl
  decode_eq_ok_iff := diskRequest_eq_ok_iff
  decode_before a := by
    rw [Action.diskRequest, Action.diskRequest, expectAtLeast_before (by decide),
      required_before _ (by decide), required_before _ (by decide), optional_before _ (by decide)]

def createVm : Entrance where
  action := Action.createVm
  Taken := Pipeline.VmOrder
  positions := 6
  Asks values taken :=
    6 ≤ values.length ∧
    Sense.text.Required values[0]? taken.agentId ∧
    (Sense.filledId .image).Required values[1]? taken.image ∧
    Pipeline.VmProperties.sense.Required values[2]? taken.properties ∧
    Sense.anything.Optional .null values[3]? taken.networks ∧
    (Sense.id .disk).list.Optional [] values[4]? taken.disks ∧
    Sense.anything.Optional .null values[5]? taken.env
  enter s taken := do
    return Action.idValue (← Pipeline.createVm s taken)
  decode := Action.vmOrder
  invoke_eq _ _ := rfl
  decode_eq_ok_iff := vmOrder_eq_ok_iff
  decode_before a := by
    rw [Action.vmOrder, Action.vmOrder, expectAtLeast_before (by decide),
      required_before _ (by decide), id_before (by decide), required_before _ (by decide),
      optional_before _ (by decide), optional_before _ (by decide), optional_before _ (by decide)]

def setVmMetadata : Entrance where
  action := Action.setVmMetadata
  Taken := Option String
  positions := 1
  Asks values vm := Sense.text.given.Optional none values[0]? vm
  enter _ vm := do
    Pipeline.emit (.info "set_vm_metadata called; VM metadata is not stored"
      [("vm", .text (vm.getD "<none>"))])
    return .null
  decode a := a.optional Codec.string 0 Kind.vm.argument
  invoke_eq _ _ := rfl
  decode_eq_ok_iff a _ := a.optional_eq_ok_iff 0 _ Codec.Obeys.string
  decode_before _ := optional_before _ (by decide)

def standard : List Entrance :=
  [createStemcell,
    ofId Action.deleteStemcell .image
      (fun s image => do Pipeline.deleteStemcell s image; return .null) fun _ _ => rfl,
    createDisk,
    ofId Action.deleteDisk .disk
      (fun s disk => do Pipeline.deleteDisk s disk; return .null) fun _ _ => rfl,
    ofId Action.hasDisk .disk
      (fun _ disk => do return .bool (← Pipeline.hasDisk disk)) fun _ _ => rfl,
    ofPair Action.attachDisk
      (fun s (vm, disk) => do Pipeline.attachDisk s vm disk; return .null) fun _ _ => rfl,
    ofPair Action.detachDisk
      (fun s (vm, disk) => do Pipeline.detachDisk s vm disk; return .null) fun _ _ => rfl,
    ofId Action.getDisks .vm
      (fun s vm => do return .array ((← Pipeline.disksOf s vm).map Action.idValue)) fun _ _ => rfl,
    createVm,
    ofId Action.deleteVm .vm
      (fun s vm => do Pipeline.deleteVm s vm; return .null) fun _ _ => rfl,
    ofId Action.hasVm .vm
      (fun _ vm => do return .bool (← Pipeline.hasVm vm)) fun _ _ => rfl,
    ofId Action.restartVm .vm
      (fun s vm => do Pipeline.restartVm s vm; return .null) fun _ _ => rfl,
    setVmMetadata]

variable {e : Entrance} {s : Settings} {arguments : List Value}

theorem invoke_of_asked {taken : e.Taken} (asked : e.Asks arguments taken) :
    e.action.invoke s ⟨arguments⟩ = e.enter s taken := by
  rw [e.invoke_eq, (e.decode_eq_ok_iff ⟨arguments⟩ taken).mpr asked]
  exact pure_bind ..

theorem eq_of_asked {taken other : e.Taken} (asked : e.Asks arguments taken)
    (too : e.Asks arguments other) : other = taken := by
  rw [← e.decode_eq_ok_iff ⟨arguments⟩] at asked too
  exact Except.ok.inj (too.symm.trans asked)

theorem invoke_of_mute (mute : ∀ taken, ¬ e.Asks arguments taken) :
    ∃ fault, e.action.invoke s ⟨arguments⟩ = Pipeline.fail (.invalidArgument fault) := by
  rcases decoded : e.decode ⟨arguments⟩ with fault | taken
  · refine ⟨fault, ?_⟩
    rw [e.invoke_eq, decoded]
    rfl
  · exact absurd ((e.decode_eq_ok_iff ..).mp decoded) (mute taken)

theorem invoke_take :
    e.action.invoke s ⟨arguments.take e.positions⟩ = e.action.invoke s ⟨arguments⟩ := by
  rw [e.invoke_eq, e.invoke_eq, ← e.decode_before ⟨arguments⟩]
  rfl

end Entrance

/-- Every standard action, by whatever spelling of its name, is entered with what its arguments ask
for, and there is one such thing at most. Where there is none, nothing at all is done outside, and the
caller is told that trying again does not help. -/
theorem dispatch_admission :
    Entrance.standard.map (·.action) = Action.standard ∧ ∃ t, Table.standard = .ok t ∧
    ∀ e ∈ Entrance.standard, ∀ method, Text.lower method = Text.lower e.action.name →
      t.get? method = some e.action ∧ ∀ (s : Settings) (arguments : List Value),
      (∀ taken, e.Asks arguments taken →
        e.action.invoke s ⟨arguments⟩ = e.enter s taken ∧
        ∀ other, e.Asks arguments other → other = taken) ∧
      ((∀ taken, ¬ e.Asks arguments taken) → ∀ w : Surroundings,
        let run := (dispatch t s method arguments).play w []
        run.2.deeds = [] ∧
        ∃ message log, run.1 = .answered ⟨.null, some ⟨.cpiError, message, false⟩, log⟩) ∧
      e.action.invoke s ⟨arguments.take e.positions⟩ = e.action.invoke s ⟨arguments⟩ := by
  obtain ⟨t, built⟩ := Table.exists_standard
  obtain ⟨-, registered, -⟩ := Table.get?_of_registerAll built
  refine ⟨rfl, t, built, fun e mem method spelled => ?_⟩
  have found : t.get? method = some e.action := by
    rw [Table.get?_congr spelled]
    exact registered e.action (List.mem_map_of_mem mem)
  refine ⟨found, fun s arguments => ⟨fun taken asked => ?_, fun mute w => ?_, e.invoke_take⟩⟩
  · exact ⟨e.invoke_of_asked asked, fun other too => e.eq_of_asked asked too⟩
  obtain ⟨fault, ended⟩ := e.invoke_of_mute mute
  constructor
  · have does := (dispatch t s method arguments).does_play w
    rcases does_dispatch does with idle | ⟨action, result, looked, invoked⟩
    · exact idle
    · obtain rfl := Option.some.inj (found.symm.trans looked)
      rw [ended] at invoked
      exact invoked.1
  · obtain ⟨own, trail, -, -, -, answered⟩ :=
      exists_trail_of_found s arguments w [] found
    have refused : (Dispatch.invoked s method arguments w [] e.action).1 =
        .error (.failed (.invalidArgument fault)) := by
      rw [Dispatch.invoked, ended]
      rfl
    rw [refused] at answered
    exact ⟨fault.message, trail.text, answered⟩

theorem dispatch_admission_attaching :
    ∃ t, Table.standard = .ok t ∧ t.get? "Attach_Disk" = some Action.attachDisk ∧
      ((dispatch t modest "Attach_Disk" [.string "vm-1"]).play unanswering []).2.deeds = [] ∧
      Action.attachDisk.invoke modest ⟨[.string "vm-1", .string "disk-1", .null]⟩ =
        (do Pipeline.attachDisk modest ⟨"vm-1"⟩ ⟨"disk-1"⟩; return .null) := by
  obtain ⟨-, t, built, admission⟩ := dispatch_admission
  obtain ⟨e, mem, rfl⟩ : ∃ e ∈ Entrance.standard, e = Entrance.ofPair Action.attachDisk
      (fun s (vm, disk) => do Pipeline.attachDisk s vm disk; return .null) (fun _ _ => rfl) :=
    ⟨_, by simp [Entrance.standard], rfl⟩
  obtain ⟨found, admitted⟩ := admission _ mem "Attach_Disk" (by decide)
  refine ⟨t, built, found, ?_, ?_⟩
  · refine ((admitted modest [.string "vm-1"]).2.1 ?_ unanswering).1
    rintro ⟨vm, disk⟩ ⟨-, second⟩
    exact second
  · exact ((admitted modest [.string "vm-1", .string "disk-1", .null]).1 (⟨"vm-1"⟩, ⟨"disk-1"⟩)
      ⟨⟨rfl, by decide⟩, rfl, by decide⟩).1

end CloudProvider
