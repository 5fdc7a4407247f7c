import CloudProvider.Proofs.Recording

/-! What pipelines ensure. An assertion is about the dealings so far, which is all that has been
exchanged but for events and the times of day in the trail. A pipeline that goes on after some
dealings ensures what holds, whatever the surroundings, of all the dealings there are at its end and of
what it comes to. Each construct has its rule, and no proof further on looks into a program. -/

namespace CloudProvider

def Effect.isDealing : Effect → Bool
  | .emit _ | .clock => false
  | _ => true

namespace History

def dealings (h : History) : History :=
  h.filter (·.effect.isDealing)

variable (a b : History)

@[simp] theorem dealings_append : dealings (a ++ b) = dealings a ++ dealings b :=
  List.filter_append ..

@[simp] theorem dealings_nil : dealings [] = [] := rfl

theorem dealings_told (events : List Event) : dealings (told events) = [] := by
  simp [dealings, told, Effect.isDealing]

theorem deeds_told (events : List Event) : deeds (told events) = [] := by
  simp [deeds, told, Effect.isDeed]

theorem deeds_dealings (h : History) : deeds (dealings h) = deeds h := by
  simp only [deeds, dealings, List.filter_filter]
  refine List.filter_congr fun x _ => ?_
  cases x.effect <;> rfl

end History

/-- A rest that heeds no signal lasts until its deadline. -/
def Effect.Allows : (e : Effect) → e.Reply → Prop
  | .pause _ false, cut => cut = false
  | _, _ => True

namespace Surroundings

def IsUnhurried (w : Surroundings) : Prop :=
  ∀ past deadline, w past (.pause deadline false) = false

variable {w : Surroundings}

theorem IsUnhurried.allows (unhurried : w.IsUnhurried) (past : History) (e : Effect) :
    e.Allows (w past e) := by
  cases e with
  | pause deadline heeding =>
    cases heeding with
    | false => exact unhurried past deadline
    | true => trivial
  | _ => trivial

theorem IsUnhurried.behind (unhurried : w.IsUnhurried) (past : History) :
    (w.behind past).IsUnhurried :=
  fun h deadline => unhurried (w.overhear past h).2 deadline

theorem dealings_overhear (past h : History) :
    (w.overhear past h).2.dealings = past.dealings ++ h.dealings := by
  induction h using List.reverseRecOn with
  | nil => simp [overhear]
  | append_singleton h x ih =>
    rw [overhear_concat, History.dealings_append, ← List.append_assoc, ← ih]
    obtain ⟨e, reply⟩ := x
    cases e with
    | emit event =>
      by_cases loud : event.level.isRecorded <;>
        simp [overhearOne, loud, History.dealings, Effect.isDealing]
    | _ => simp [overhearOne, History.dealings]

theorem deeds_overhear (past h : History) :
    (w.overhear past h).2.deeds = past.deeds ++ h.deeds := by
  rw [← History.deeds_dealings, dealings_overhear, History.deeds_append, History.deeds_dealings,
    History.deeds_dealings]

end Surroundings

namespace Pipeline

variable {α β : Type}

/-- After the dealings `before` the pipeline comes to an end at which `post` holds. -/
def Ensures (p : Pipeline α) (before : History) (post : History → Except Halt α → Prop) : Prop :=
  ∀ w : Surroundings, w.IsUnhurried → ∀ past,
    ∃ h, (p.play w past).2 = past ++ h ∧ post (before ++ h.dealings) (p.play w past).1

variable {before : History} {post : History → Except Halt α → Prop}

theorem ensures_pure {a : α} (holds : post before (.ok a)) : (pure a : Pipeline α).Ensures before post :=
  fun _ _ _ => ⟨[], (List.append_nil _).symm, by rwa [History.dealings_nil, List.append_nil]⟩

theorem ensures_throw {halt : Halt} (holds : post before (.error halt)) :
    (throw halt : Pipeline α).Ensures before post :=
  fun _ _ _ => ⟨[], (List.append_nil _).symm, by rwa [History.dealings_nil, List.append_nil]⟩

theorem ensures_fail {e : ActionError} (holds : post before (.error (.failed e))) :
    (fail e : Pipeline α).Ensures before post :=
  ensures_throw holds

theorem Ensures.mono {p : Pipeline α} {weaker : History → Except Halt α → Prop}
    (ensures : p.Ensures before post) (weakens : ∀ h result, post h result → weaker h result) :
    p.Ensures before weaker := by
  intro w unhurried past
  obtain ⟨h, grown, holds⟩ := ensures w unhurried past
  exact ⟨h, grown, weakens _ _ holds⟩

theorem ensures_perform_bind {e : Effect} {k : e.Reply → Pipeline α}
    (each : ∀ reply, e.Allows reply →
      (k reply).Ensures (before ++ History.dealings [⟨e, reply⟩]) post) :
    (perform e >>= k).Ensures before post := by
  intro w unhurried past
  obtain ⟨h, grown, holds⟩ := each (w past e) (unhurried.allows past e) w unhurried
    (past ++ [⟨e, w past e⟩])
  refine ⟨⟨e, w past e⟩ :: h, ?_, ?_⟩
  · rw [play_perform_bind, grown, List.append_assoc]
    rfl
  · rw [play_perform_bind]
    rw [List.append_assoc, ← History.dealings_append] at holds
    exact holds

theorem ensures_emit_bind {event : Event} {k : Unit → Pipeline α}
    (rest : (k ()).Ensures before post) : (emit event >>= k).Ensures before post := by
  refine ensures_perform_bind fun _ _ => ?_
  have unheard : before ++ History.dealings [⟨.emit event, ()⟩] = before := List.append_nil _
  rwa [unheard]

theorem ensures_emitAll_bind {events : List Event} {k : Unit → Pipeline α}
    (rest : (k ()).Ensures before post) : (emitAll events >>= k).Ensures before post := by
  induction events with
  | nil => rwa [emitAll, pure_bind]
  | cons event events ih =>
    rw [emitAll, bind_assoc]
    exact ensures_emit_bind ih

theorem Ensures.bind {p : Pipeline α} {k : α → Pipeline β} {mid : History → Except Halt α → Prop}
    {post : History → Except Halt β → Prop} (first : p.Ensures before mid)
    (goes : ∀ h a, mid h (.ok a) → (k a).Ensures h post)
    (halts : ∀ h halt, mid h (.error halt) → post h (.error halt)) :
    (p >>= k).Ensures before post := by
  intro w unhurried past
  obtain ⟨h, grown, holds⟩ := first w unhurried past
  rw [play_bind]
  generalize p.play w past = run at grown holds ⊢
  rcases run with ⟨halt | a, after⟩
  · exact ⟨h, grown, halts _ _ holds⟩
  · obtain ⟨more, further, holds⟩ := goes _ a holds w unhurried after
    refine ⟨h ++ more, ?_, ?_⟩
    · rw [← List.append_assoc, ← grown]
      exact further
    · rwa [History.dealings_append, ← List.append_assoc]

theorem Ensures.lift_bind {p : Pipeline α} {k : Except Halt α → Pipeline β}
    {mid : History → Except Halt α → Prop} {post : History → Except Halt β → Prop}
    (first : p.Ensures before mid)
    (goes : ∀ h outcome, mid h outcome → (k outcome).Ensures h post) :
    Pipeline.Ensures (ExceptT.lift p.run >>= k) before post := by
  have lifted : Pipeline.Ensures (ExceptT.lift p.run) before fun h result =>
      ∃ outcome, result = .ok outcome ∧ mid h outcome := by
    intro w unhurried past
    obtain ⟨h, grown, holds⟩ := first w unhurried past
    have same : Pipeline.play (ExceptT.lift p.run) w past =
        (.ok (p.play w past).1, (p.play w past).2) := by
      rw [play, ExceptT.run_lift, map_eq_pure_bind, Program.bind_eq, Program.play_bind]
      rfl
    rw [same]
    exact ⟨h, grown, _, rfl, holds⟩
  refine lifted.bind ?_ ?_
  · rintro h outcome ⟨_, same, holds⟩
    exact goes h outcome (Except.ok.inj same ▸ holds)
  · rintro h halt ⟨_, same, _⟩
    cases same

theorem ensures_call_bind {c : Call} {k : c.Answer → Pipeline α}
    (declined : ∀ e, post (before ++ [⟨.call c, .error e⟩]) (.error (.failed (.cloud e))))
    (answered : ∀ answer, (k answer).Ensures (before ++ [⟨.call c, .ok answer⟩]) post) :
    (call c >>= k).Ensures before post := by
  rw [call, bind_assoc]
  refine ensures_perform_bind fun reply _ => ?_
  rcases reply with e | answer
  · exact ensures_fail (declined e)
  · exact answered answer

end Pipeline
end CloudProvider
