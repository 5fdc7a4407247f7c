import CloudProvider.Proofs.History

/-! Deeds: the part of a history that leaves a mark outside, which is calls, names taken, files and
commands. What a program says, and what it asks of clocks and signals, is no deed. `Does` holds of the
deeds that a program can do and of what then comes of it, whatever the replies; it is opened effect by
effect here, so that nothing further on looks into a program. -/

namespace CloudProvider

namespace Effect

def isDeed : Effect → Bool
  | .emit _ | .now | .pause _ _ | .signalled | .clock => false
  | _ => true

def isCall : Effect → Bool
  | .call _ => true
  | _ => false

end Effect

namespace History

def deeds (h : History) : History :=
  h.filter (·.effect.isDeed)

def calls (h : History) : History :=
  h.filter (·.effect.isCall)

variable (a b : History)

@[simp] theorem deeds_append : deeds (a ++ b) = deeds a ++ deeds b :=
  List.filter_append ..

@[simp] theorem deeds_nil : deeds [] = [] := rfl

@[simp] theorem calls_append : calls (a ++ b) = calls a ++ calls b :=
  List.filter_append ..

@[simp] theorem calls_nil : calls [] = [] := rfl

@[simp] theorem calls_cons_call (c : Call) (reply : Effect.Reply (.call c)) :
    calls (⟨.call c, reply⟩ :: a) = ⟨.call c, reply⟩ :: calls a := rfl

theorem calls_cons_of_not {x : Exchange} (uncalled : x.effect.isCall = false) :
    calls (x :: a) = calls a := by
  rw [calls, List.filter_cons_of_neg (by simp [uncalled]), ← calls]

theorem calls_deeds : calls (deeds a) = calls a := by
  simp only [calls, deeds, List.filter_filter]
  refine List.filter_congr fun x _ => ?_
  cases x.effect <;> rfl

end History

namespace Program

variable {α β : Type}

/-- With some replies, the program does these deeds and comes to this. -/
def Does : Program α → History → α → Prop
  | .done a, deeds, b => deeds = [] ∧ b = a
  | .step e next, deeds, b =>
    ∃ reply rest, (next reply).Does rest b ∧ deeds = History.deeds [⟨e, reply⟩] ++ rest

theorem does_bind_iff {p : Program α} {k : α → Program β} {deeds : History} {b : β} :
    (p.bind k).Does deeds b ↔
      ∃ a first second, p.Does first a ∧ (k a).Does second b ∧ deeds = first ++ second := by
  induction p generalizing deeds with
  | done a =>
    constructor
    · exact fun does => ⟨a, [], deeds, ⟨rfl, rfl⟩, does, rfl⟩
    · rintro ⟨_, _, second, ⟨rfl, rfl⟩, does, rfl⟩
      exact does
  | step e next ih =>
    simp only [bind, Does, ih]
    constructor
    · rintro ⟨reply, rest, ⟨a, first, second, does, later, rfl⟩, rfl⟩
      exact ⟨a, _, second, ⟨reply, first, does, rfl⟩, later, (List.append_assoc ..).symm⟩
    · rintro ⟨a, _, second, ⟨reply, first, does, rfl⟩, later, rfl⟩
      exact ⟨reply, _, ⟨a, first, second, does, later, rfl⟩, List.append_assoc ..⟩

theorem exists_does_play (p : Program α) (w : Surroundings) (past : History) :
    ∃ h, (p.play w past).2 = past ++ h ∧ p.Does h.deeds (p.play w past).1 := by
  induction p generalizing past with
  | done a => exact ⟨[], by simp [Does]⟩
  | step e next ih =>
    obtain ⟨h, grown, does⟩ := ih (w past e) (past ++ [⟨e, w past e⟩])
    refine ⟨⟨e, w past e⟩ :: h, by simpa using grown, w past e, h.deeds, does, ?_⟩
    exact History.deeds_append [_] h

theorem does_play (p : Program α) (w : Surroundings) :
    p.Does (p.play w []).2.deeds (p.play w []).1 := by
  obtain ⟨h, grown, does⟩ := p.exists_does_play w []
  rwa [← List.nil_append h, ← grown] at does

end Program

namespace Pipeline

variable {α β : Type} {deeds : History}

def Does (p : Pipeline α) (deeds : History) (result : Except Halt α) : Prop :=
  Program.Does p.run deeds result

theorem does_play (p : Pipeline α) (w : Surroundings) :
    p.Does (p.play w []).2.deeds (p.play w []).1 :=
  Program.does_play p.run w

theorem does_bind_iff {p : Pipeline α} {k : α → Pipeline β} {result : Except Halt β} :
    (p >>= k).Does deeds result ↔
      (∃ halt, p.Does deeds (.error halt) ∧ result = .error halt) ∨
      ∃ a first second, p.Does first (.ok a) ∧ (k a).Does second result ∧
        deeds = first ++ second := by
  simp only [Does, ExceptT.run_bind, Program.bind_eq, Program.does_bind_iff]
  constructor
  · rintro ⟨halt | a, first, second, does, later, rfl⟩
    · obtain ⟨rfl, rfl⟩ := later
      exact .inl ⟨halt, by rwa [List.append_nil], rfl⟩
    · exact .inr ⟨a, first, second, does, later, rfl⟩
  · rintro (⟨halt, does, rfl⟩ | ⟨a, first, second, does, later, rfl⟩)
    · exact ⟨.error halt, deeds, [], does, ⟨rfl, rfl⟩, (List.append_nil _).symm⟩
    · exact ⟨.ok a, first, second, does, later, rfl⟩

/-- The type of a reply depends on its effect, and so this is used by `rw`, not by `simp`. -/
theorem does_perform_bind_iff {e : Effect} {k : e.Reply → Pipeline α} {result : Except Halt α} :
    (perform e >>= k).Does deeds result ↔
      ∃ reply rest, (k reply).Does rest result ∧ deeds = History.deeds [⟨e, reply⟩] ++ rest :=
  Iff.rfl

@[simp] theorem does_emit_bind_iff {event : Event} {k : Unit → Pipeline α}
    {result : Except Halt α} :
    (emit event >>= k).Does deeds result ↔ (k ()).Does deeds result := by
  rw [emit, does_perform_bind_iff]
  constructor
  · rintro ⟨_, _, does, rfl⟩
    exact does
  · exact fun does => ⟨(), deeds, does, rfl⟩

@[simp] theorem does_emitAll_bind_iff {events : List Event} {k : Unit → Pipeline α}
    {result : Except Halt α} :
    (emitAll events >>= k).Does deeds result ↔ (k ()).Does deeds result := by
  induction events with
  | nil => rw [emitAll, pure_bind]
  | cons event rest ih => rw [emitAll, bind_assoc, does_emit_bind_iff, ih]

theorem does_call_bind_iff {c : Call} {k : c.Answer → Pipeline α} {result : Except Halt α} :
    (call c >>= k).Does deeds result ↔
      (∃ e, deeds = [⟨.call c, .error e⟩] ∧ result = .error (.failed (.cloud e))) ∨
      ∃ answer rest, (k answer).Does rest result ∧ deeds = ⟨.call c, .ok answer⟩ :: rest := by
  rw [call, bind_assoc, does_perform_bind_iff]
  constructor
  · rintro ⟨e | answer, rest, does, rfl⟩
    · obtain ⟨rfl, rfl⟩ := does
      exact .inl ⟨e, rfl, rfl⟩
    · exact .inr ⟨answer, rest, does, rfl⟩
  · rintro (⟨e, rfl, rfl⟩ | ⟨answer, rest, does, rfl⟩)
    · exact ⟨.error e, [], ⟨rfl, rfl⟩, rfl⟩
    · exact ⟨.ok answer, rest, does, rfl⟩

@[simp] theorem does_orFault_bind_iff {r : Except Files.Fault α} {k : α → Pipeline β}
    {result : Except Halt β} :
    (orFault r >>= k).Does deeds result ↔
      match r with
      | .ok a => (k a).Does deeds result
      | .error fault => deeds = [] ∧ result = .error (.failed (.io (.file fault))) := by
  cases r <;> rfl

theorem does_lift_bind_iff {p : Pipeline α} {k : Except Halt α → Pipeline β}
    {result : Except Halt β} :
    Pipeline.Does (ExceptT.lift p.run >>= k) deeds result ↔
      ∃ outcome first second, p.Does first outcome ∧ (k outcome).Does second result ∧
        deeds = first ++ second := by
  rw [does_bind_iff]
  have lifted {first : History} {a : Except Halt (Except Halt α)} :
      Pipeline.Does (ExceptT.lift p.run) first a ↔
        ∃ outcome, p.Does first outcome ∧ a = .ok outcome := by
    rw [Does, ExceptT.run_lift, map_eq_pure_bind, Program.bind_eq, Program.does_bind_iff]
    constructor
    · rintro ⟨outcome, first, _, does, ⟨rfl, rfl⟩, rfl⟩
      exact ⟨outcome, by rwa [List.append_nil], rfl⟩
    · rintro ⟨outcome, does, rfl⟩
      exact ⟨outcome, first, [], does, ⟨rfl, rfl⟩, (List.append_nil _).symm⟩
  simp [lifted]

theorem does_withScratch_iff {kind : String} {work : (name directory : String) → Pipeline α}
    {result : Except Halt α} :
    (withScratch kind work).Does deeds result ↔ ∃ name,
      (∃ fault, deeds = [⟨.freshName kind, name⟩, ⟨.makeScratch name, .error fault⟩] ∧
        result = .error (.failed (.io (.file fault)))) ∨
      ∃ directory inner, (work name directory).Does inner result ∧
        deeds = ⟨.freshName kind, name⟩ :: ⟨.makeScratch name, .ok directory⟩ :: inner ++
          [⟨.discardScratch directory, ()⟩] := by
  rw [withScratch, does_perform_bind_iff]
  refine exists_congr fun name => ?_
  constructor
  · rintro ⟨_, does, rfl⟩
    rw [does_perform_bind_iff] at does
    obtain ⟨fault | directory, _, does, rfl⟩ := does
    · obtain ⟨rfl, rfl⟩ := does
      exact .inl ⟨fault, rfl, rfl⟩
    · rw [orFault, pure_bind, does_lift_bind_iff] at does
      obtain ⟨outcome, inner, _, does, ends, rfl⟩ := does
      rw [does_perform_bind_iff] at ends
      obtain ⟨_, _, ends, rfl⟩ := ends
      refine .inr ⟨directory, inner, ?_⟩
      rcases outcome with halt | a
      all_goals
        obtain ⟨rfl, rfl⟩ := ends
        exact ⟨does, rfl⟩
  · rintro (⟨fault, rfl, rfl⟩ | ⟨directory, inner, does, rfl⟩)
    · exact ⟨_, ⟨.error fault, [], ⟨rfl, rfl⟩, rfl⟩, rfl⟩
    · refine ⟨_, ⟨.ok directory, inner ++ [⟨.discardScratch directory, ()⟩], ?_, rfl⟩, rfl⟩
      refine does_orFault_bind_iff.mpr (does_lift_bind_iff.mpr ?_)
      refine ⟨result, inner, _, does, ⟨(), [], ?_, rfl⟩, rfl⟩
      rcases result with halt | a
      all_goals exact ⟨rfl, rfl⟩

end Pipeline
end CloudProvider
