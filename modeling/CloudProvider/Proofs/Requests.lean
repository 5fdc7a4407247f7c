import CloudProvider.Dispatch
import CloudProvider.Proofs.Dealings
import CloudProvider.Proofs.Discipline
import CloudProvider.Proofs.Envelopes

/-! Requests. The table finds the standard actions and nothing else, and dispatching adds no deed to
those of the action that is found. What holds of the calls of all actions so holds of the calls of
every request. -/

namespace CloudProvider

open Json (Value)
open Text (Dictionary)

namespace Table

variable {t grown : Table} {action : Action} {actions : List Action}

theorem get?_of_register (taken : t.register action = .ok grown) :
    t.get? action.name = none ∧ ∀ method, grown.get? method =
      if Text.lower method = Text.lower action.name then some action else t.get? method := by
  dsimp only [register] at taken
  split at taken
  · cases taken
  · next free =>
    obtain rfl := Except.ok.inj taken
    refine ⟨free, fun method => ?_⟩
    unfold get?
    split
    · next same => rw [same, Dictionary.get?_insert_self]
    · next other => rw [Dictionary.get?_insert_of_ne other]

theorem get?_congr {method other : String} (same : Text.lower method = Text.lower other) :
    t.get? method = t.get? other := by
  rw [get?, get?, same]

theorem registerAll_cons (t : Table) (action : Action) (actions : List Action) :
    t.registerAll (action :: actions) = t.register action >>= (·.registerAll actions) :=
  List.foldlM_cons

theorem get?_of_registerAll (taken : t.registerAll actions = .ok grown) :
    (∀ method found, t.get? method = some found → grown.get? method = some found) ∧
    (∀ action ∈ actions, grown.get? action.name = some action) ∧
    ∀ method found, grown.get? method = some found →
      t.get? method = some found ∨ found ∈ actions := by
  induction actions generalizing t with
  | nil =>
    obtain rfl := Except.ok.inj taken
    exact ⟨fun _ _ => id, by simp, fun _ _ => .inl⟩
  | cons action rest ih =>
    rw [registerAll_cons] at taken
    rcases first : t.register action with fault | next
    · rw [first] at taken
      cases taken
    rw [first] at taken
    obtain ⟨kept, registered, only⟩ := ih taken
    obtain ⟨free, looked⟩ := get?_of_register first
    refine ⟨fun method found held => kept method found ?_, fun a mem => ?_,
      fun method found held => ?_⟩
    · rw [looked]
      split
      · next same => rw [get?_congr same, free] at held; cases held
      · exact held
    · rcases List.mem_cons.mp mem with rfl | mem
      · exact kept a.name a (by rw [looked, if_pos rfl])
      · exact registered a mem
    · rcases only method found held with held | mem
      · rw [looked] at held
        split at held
        · exact .inr (Option.some.inj held ▸ List.mem_cons_self)
        · exact .inl held
      · exact .inr (List.mem_cons_of_mem _ mem)

theorem exists_standard : ∃ t, Table.standard = .ok t := by
  have built : Table.standard.isOk := by decide
  rcases same : Table.standard with fault | t
  · rw [same] at built
    cases built
  · exact ⟨t, rfl⟩

end Table

section Dispatch

variable {deeds : History}

theorem Program.does_recording {α : Type} {p : Program α} {kept : Trail} {out : α × Trail}
    (does : (p.recording kept).Does deeds out) : p.Does deeds out.1 := by
  induction p generalizing kept deeds with
  | done a =>
    obtain ⟨rfl, rfl⟩ := does
    exact ⟨rfl, rfl⟩
  | step e next ih =>
    cases e with
    | emit event =>
      rw [recording] at does
      split at does
      · obtain ⟨_, deeds, does, rfl⟩ := does
        exact ⟨(), deeds, ih _ does, rfl⟩
      · exact ⟨(), deeds, ih _ does, rfl⟩
    | _ =>
      obtain ⟨reply, deeds, does, rfl⟩ := does
      exact ⟨reply, deeds, ih _ does, rfl⟩

theorem Dispatch.does_emit_bind_iff {α : Type} {event : Event} {k : Unit → Program α} {a : α} :
    (Dispatch.emit event >>= k).Does deeds a ↔ (k ()).Does deeds a := by
  constructor
  · rintro ⟨_, _, does, rfl⟩
    exact does
  · exact fun does => ⟨(), deeds, does, rfl⟩

theorem Dispatch.does_conclude {method : String} {result : Except Halt Value}
    {ending : Dispatch.Ending} (does : (Dispatch.conclude method result).Does deeds ending) :
    deeds = [] := by
  unfold conclude at does
  split at does
  · obtain ⟨rfl, -⟩ := does_emit_bind_iff.mp (does_emit_bind_iff.mp does)
    rfl
  · obtain ⟨rfl, -⟩ := does_emit_bind_iff.mp does
    rfl
  · exact does.1
  · obtain ⟨rfl, -⟩ := does_emit_bind_iff.mp does
    rfl
  · exact does.1

theorem does_dispatch {t : Table} {s : Settings} {method : String} {arguments : List Value}
    {outcome : Dispatch.Outcome} (does : (dispatch t s method arguments).Does deeds outcome) :
    deeds = [] ∨ ∃ action result, t.get? method = some action ∧
      (action.invoke s ⟨arguments⟩).Does deeds result := by
  obtain ⟨⟨ending, trail⟩, first, second, works, ends, rfl⟩ := Program.does_bind_iff.mp does
  have ended : second = [] := by
    rcases ending with _ | _ | _ | _ <;> exact ends.1
  have works := Program.does_recording works
  rw [Dispatch.call, Dispatch.does_emit_bind_iff, Dispatch.does_emit_bind_iff] at works
  rw [ended, List.append_nil]
  split at works
  · rw [Dispatch.does_emit_bind_iff] at works
    exact .inl works.1
  · next action found =>
    obtain ⟨result, first, second, invoked, concluded, rfl⟩ := Program.does_bind_iff.mp works
    rw [Dispatch.does_conclude concluded, List.append_nil]
    exact .inr ⟨action, result, found, invoked⟩

/-- The deeds of a request and its answer are those of one and the same end of its action. -/
theorem exists_does_of_found {t : Table} {method : String} {action : Action}
    (found : t.get? method = some action) (s : Settings) (arguments : List Value)
    (w : Surroundings) :
    ∃ result trail,
      (action.invoke s ⟨arguments⟩).Does ((dispatch t s method arguments).play w []).2.deeds result ∧
      ((dispatch t s method arguments).play w []).1 =
        (Dispatch.endingOf method result).outcome trail := by
  obtain ⟨h, grown, does⟩ := Program.exists_does_play (action.invoke s ⟨arguments⟩).run
    (w.behind []) (.told (Dispatch.opening method arguments))
  have acted : (Dispatch.invoked s method arguments w [] action).2 =
      .told (Dispatch.opening method arguments) ++ h := grown
  rw [play_dispatch_of_found t s method arguments w [] found]
  refine ⟨_, _, ?_, rfl⟩
  rw [Surroundings.deeds_overhear, acted, History.deeds_append, History.deeds_append,
    History.deeds_told, History.deeds_told, List.append_nil]
  exact does

/-- The standard actions are all in the table, and no request, whatever its arguments and whatever
the surroundings, breaks the discipline. -/
theorem dispatch_disciplined :
    ∃ t, Table.standard = .ok t ∧ (∀ action ∈ Action.standard, t.get? action.name = some action) ∧
    ∀ (s : Settings) (method : String) (arguments : List Value) (w : Surroundings),
      let run := (dispatch t s method arguments).play w []
      ∃ reading changes, Discipline run.2.deeds reading changes ∧ run.2.calls.OneByOne := by
  obtain ⟨t, built⟩ := Table.exists_standard
  obtain ⟨-, registered, only⟩ := Table.get?_of_registerAll built
  refine ⟨t, built, registered, fun s method arguments w => ?_⟩
  intro run
  have does := (dispatch t s method arguments).does_play w
  suffices ∃ reading changes, Discipline run.2.deeds reading changes by
    obtain ⟨reading, changes, discipline⟩ := this
    refine ⟨reading, changes, discipline, ?_⟩
    rw [← History.calls_deeds]
    exact discipline.oneByOne
  rcases does_dispatch does with idle | ⟨action, result, found, invoked⟩
  · rw [idle]
    exact ⟨none, [], .of_course rfl (.nil true) (by simp)⟩
  · rcases only method action found with none | mem
    · cases none
    · exact Action.disciplined_of_mem mem s ⟨arguments⟩ run.2.deeds result invoked

end Dispatch
end CloudProvider
