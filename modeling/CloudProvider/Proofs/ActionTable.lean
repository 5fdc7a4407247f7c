import CloudProvider.Proofs.Lowercasing
import CloudProvider.Proofs.Readings
import CloudProvider.Proofs.Requests

/-! Tables after any attempts to register actions. Whatever has been taken or refused, a table finds for
each name the action that was first to be registered under it, in lower case, and it lists just the
names that it knows. An attempt is refused if and only if its name is taken already. -/

namespace CloudProvider

open Text (Dictionary lower lower_lower)

def firstNamed (actions : List Action) (method : String) : Option Action :=
  actions.find? fun a => lower a.name = lower method

section Names

variable {actions : List Action} {method : String}

theorem firstNamed_eq_none_iff :
    firstNamed actions method = none ↔ ∀ a ∈ actions, lower a.name ≠ lower method := by
  simp [firstNamed]

theorem firstNamed_concat (action : Action) :
    firstNamed (actions ++ [action]) method =
      (firstNamed actions method).or
        (if lower method = lower action.name then some action else none) := by
  rw [firstNamed, List.find?_append, ← firstNamed]
  congr 1
  by_cases same : lower method = lower action.name
  · simp [same]
  · simp [same, Ne.symm same]

end Names

namespace Text.Dictionary

theorem isSome_get?_iff {α : Type} {d : Dictionary α} {key : String} :
    (d.get? key).isSome ↔ key ∈ d.map (·.1) := by
  rw [get?, List.lookup_isSome_iff, List.mem_map]
  simp only [beq_iff_eq]
  exact exists_congr fun pair => and_congr_right fun _ => eq_comm

end Text.Dictionary

namespace Table

def attempt (t : Table) (action : Action) : Table :=
  match t.register action with
  | .ok grown => grown
  | .error _ => t

def attempts (t : Table) (actions : List Action) : Table :=
  actions.foldl attempt t

def taken (t : Table) : List Action → List Action
  | [] => []
  | action :: rest =>
    match t.register action with
    | .ok grown => action :: grown.taken rest
    | .error _ => t.taken rest

/-- The table knows these actions, of each name the first, by their names in lower case. -/
structure Holds (t : Table) (actions : List Action) : Prop where
  looked : ∀ method, t.get? method = firstNamed actions method
  ordered : t.actions.Sorted
  lowered : ∀ n ∈ t.registered, lower n = n

theorem get?_lower (t : Table) (method : String) : t.get? (lower method) = t.get? method :=
  get?_congr (lower_lower method)

theorem attempt_of_refused {t : Table} {action : Action} {fault : TableFault}
    (refused : t.register action = .error fault) :
    fault = .alreadyRegistered (lower action.name) ∧ t.attempt action = t := by
  constructor
  · rw [register] at refused
    split at refused
    · exact (Except.error.inj refused).symm
    · cases refused
  · rw [attempt, refused]

theorem holds_empty : empty.Holds [] where
  looked _ := rfl
  ordered := .nil
  lowered _ mem := nomatch mem

namespace Holds

variable {t grown : Table} {actions : List Action} {action : Action}

theorem register_of_free (holds : t.Holds actions)
    (free : ∀ a ∈ actions, lower a.name ≠ lower action.name) :
    ∃ grown, t.register action = .ok grown ∧ grown.Holds (actions ++ [action]) := by
  have none : t.actions.get? (lower action.name) = none :=
    (holds.looked action.name).trans (firstNamed_eq_none_iff.mpr free)
  have taken : t.register action = .ok ⟨t.actions.insert (lower action.name) action⟩ := by
    rw [register, none]
  refine ⟨_, taken, fun method => ?_, holds.ordered.insert .., fun n mem => ?_⟩
  · rw [(get?_of_register taken).2, firstNamed_concat, holds.looked]
    split
    case isTrue same =>
      have before : firstNamed actions method = Option.none := by
        rw [firstNamed_eq_none_iff, same]
        exact free
      rw [before, Option.none_or]
    case isFalse => rw [Option.or_none]
  · obtain ⟨⟨key, value⟩, inserted, rfl⟩ := List.mem_map.mp mem
    rcases Dictionary.mem_insert inserted with same | mem
    · rw [(Prod.mk.inj same).1]
      exact lower_lower _
    · exact holds.lowered key (List.mem_map.mpr ⟨_, mem, rfl⟩)

theorem register_of_known (holds : t.Holds actions) {a : Action} (mem : a ∈ actions)
    (same : lower a.name = lower action.name) :
    t.register action = .error (.alreadyRegistered (lower action.name)) := by
  have known : t.actions.get? (lower action.name) ≠ none := fun none =>
    firstNamed_eq_none_iff.mp ((holds.looked action.name).symm.trans none) a mem same
  obtain ⟨found, known⟩ := Option.ne_none_iff_exists'.mp known
  rw [register, known]

theorem register_ok_iff (holds : t.Holds actions) :
    (∃ grown, t.register action = .ok grown) ↔
      ∀ a ∈ actions, lower a.name ≠ lower action.name := by
  constructor
  · rintro ⟨grown, taken⟩ a mem same
    rw [holds.register_of_known mem same] at taken
    cases taken
  · intro free
    obtain ⟨grown, taken, -⟩ := holds.register_of_free free
    exact ⟨grown, taken⟩

theorem attempt (holds : t.Holds actions) (action : Action) :
    (t.attempt action).Holds (actions ++ [action]) := by
  by_cases free : ∀ a ∈ actions, lower a.name ≠ lower action.name
  · obtain ⟨grown, taken, holds⟩ := holds.register_of_free free
    rw [Table.attempt, taken]
    exact holds
  · push Not at free
    obtain ⟨a, mem, same⟩ := free
    rw [Table.attempt, holds.register_of_known mem same]
    refine ⟨fun method => ?_, holds.ordered, holds.lowered⟩
    rw [holds.looked, firstNamed_concat]
    split
    case isTrue here =>
      have known : firstNamed actions method ≠ none := fun none =>
        firstNamed_eq_none_iff.mp none a mem (same.trans here.symm)
      obtain ⟨found, known⟩ := Option.ne_none_iff_exists'.mp known
      rw [known, Option.some_or]
    case isFalse => rw [Option.or_none]

theorem attempts (holds : t.Holds actions) (more : List Action) :
    (t.attempts more).Holds (actions ++ more) := by
  induction more generalizing t actions with
  | nil => rwa [List.append_nil]
  | cons action rest ih =>
    have later := ih (holds.attempt action)
    rwa [List.append_assoc] at later

theorem taken (holds : t.Holds actions) (more : List Action) :
    (t.attempts more).Holds (actions ++ t.taken more) := by
  induction more generalizing t actions with
  | nil => rwa [Table.taken, List.append_nil]
  | cons action rest ih =>
    by_cases free : ∀ a ∈ actions, lower a.name ≠ lower action.name
    · obtain ⟨grown, taken, holds⟩ := holds.register_of_free free
      have later := ih holds
      have next : t.attempt action = grown := by rw [Table.attempt, taken]
      rw [Table.taken, taken, Table.attempts, List.foldl_cons, next]
      rwa [List.append_assoc] at later
    · push Not at free
      obtain ⟨a, mem, same⟩ := free
      have refused := holds.register_of_known mem same
      have next : t.attempt action = t := by rw [Table.attempt, refused]
      rw [Table.taken, refused, Table.attempts, List.foldl_cons, next]
      exact ih holds

theorem mem_registered_iff (holds : t.Holds actions) {n : String} :
    n ∈ t.registered ↔ lower n = n ∧ (t.get? n).isSome := by
  constructor
  · intro mem
    have same := holds.lowered n mem
    rw [get?, same]
    exact ⟨rfl, Dictionary.isSome_get?_iff.mpr mem⟩
  · rintro ⟨same, known⟩
    rw [get?, same] at known
    exact Dictionary.isSome_get?_iff.mp known

end Holds

theorem attempts_of_registerAll {t grown : Table} {actions : List Action}
    (taken : t.registerAll actions = .ok grown) : t.attempts actions = grown := by
  induction actions generalizing t with
  | nil => exact Except.ok.inj taken
  | cons action rest ih =>
    rw [registerAll_cons] at taken
    rcases first : t.register action with fault | next
    · rw [first] at taken
      cases taken
    · rw [first] at taken
      have attempted : t.attempt action = next := by rw [attempt, first]
      rw [attempts, List.foldl_cons, attempted]
      exact ih taken

theorem holds_standard {t : Table} (built : Table.standard = .ok t) : t.Holds Action.standard := by
  rw [← attempts_of_registerAll built]
  exact holds_empty.attempts Action.standard

/-- Tables after any attempts to register actions, on top of none or of the standard ones. -/
theorem attempts_exact (start : Table) (first actions : List Action)
    (begun : start = empty ∧ first = [] ∨
      Table.standard = .ok start ∧ first = Action.standard) :
    let t := start.attempts actions
    (∀ before action after, actions = before ++ action :: after →
      let now := start.attempts before
      ((∃ grown, now.register action = .ok grown) ↔
        ∀ earlier ∈ first ++ start.taken before, lower earlier.name ≠ lower action.name) ∧
      ∀ fault, now.register action = .error fault →
        fault = .alreadyRegistered (lower action.name) ∧ now.attempt action = now) ∧
    (∀ method, t.get? method = firstNamed (first ++ actions) method) ∧
    (∀ method, t.get? (lower method) = t.get? method) ∧
    (∀ method other, (∀ c ∈ method.toList, c.toNat < 0x80) →
      other.toList.map Char.toLower = method.toList.map Char.toLower →
      t.get? other = t.get? method) ∧
    t.registered.Pairwise (· < ·) ∧
    ∀ n, n ∈ t.registered ↔ lower n = n ∧ (t.get? n).isSome := by
  have known : start.Holds first := by
    rcases begun with ⟨rfl, rfl⟩ | ⟨built, rfl⟩
    · exact holds_empty
    · exact holds_standard built
  have holds := known.attempts actions
  refine ⟨fun before action _ _ => ⟨(known.taken before).register_ok_iff, fun _ =>
    attempt_of_refused⟩, holds.looked, get?_lower _, fun method other ascii same => ?_,
    List.pairwise_map.mpr holds.ordered, fun n => holds.mem_registered_iff⟩
  exact get?_congr (Text.lower_eq_of_map_toLower ascii same)

def naming (name : String) : Action :=
  ⟨name, fun _ _ => return .string name⟩

theorem attempts_exact_kelvin :
    ∃ start, Table.standard = .ok start ∧
      let t := start.attempts [naming "\u212a", naming "K", naming "Create_VM"]
      t.get? "k" = some (naming "\u212a") ∧ t.get? "CREATE_VM" = some Action.createVm ∧
      "k" ∈ t.registered ∧ "K" ∉ t.registered := by
  obtain ⟨start, built⟩ := exists_standard
  obtain ⟨-, looked, -, -, -, listed⟩ := attempts_exact start Action.standard
    [naming "\u212a", naming "K", naming "Create_VM"] (.inr ⟨built, rfl⟩)
  have letter := (looked "k").trans (by rfl : _ = some (naming "\u212a"))
  refine ⟨start, built, letter, (looked "CREATE_VM").trans (by rfl), ?_, ?_⟩
  · exact (listed "k").mpr ⟨by decide, by rw [letter]; rfl⟩
  · exact fun mem => absurd ((listed "K").mp mem).1 (by decide)

end Table

end CloudProvider
