import CloudProvider.Program

/-! Histories: what a program exchanges with its surroundings, in order. Surroundings are arbitrary
here: a reply may depend on all that has happened before, and nothing is promised about it. Playing a
program against them interprets it and keeps its history. -/

namespace CloudProvider

/-- An effect and the reply to it. -/
structure Exchange where
  effect : Effect
  reply : effect.Reply

/-- In the order in which things happened. -/
abbrev History := List Exchange

def History.told (events : List Event) : History :=
  events.map fun event => ⟨.emit event, ()⟩

abbrev Surroundings := History → (e : Effect) → e.Reply

def Surroundings.handle (w : Surroundings) (e : Effect) : StateM History e.Reply :=
  fun past => (w past e, past ++ [⟨e, w past e⟩])

namespace Program

variable {α β : Type}

/-- What comes of the program after `past`, and all that has happened by then. -/
def play (p : Program α) (w : Surroundings) (past : History) : α × History :=
  p.interpret w.handle past

@[simp] theorem play_done (a : α) (w : Surroundings) (past : History) :
    (done a).play w past = (a, past) := rfl

@[simp] theorem play_step (e : Effect) (next : e.Reply → Program α) (w : Surroundings)
    (past : History) :
    (step e next).play w past = (next (w past e)).play w (past ++ [⟨e, w past e⟩]) := rfl

theorem interpret_bind_apply {σ : Type} (handle : (e : Effect) → StateM σ e.Reply) (p : Program α)
    (k : α → Program β) (s : σ) :
    (p.bind k).interpret handle s =
      (k (p.interpret handle s).1).interpret handle (p.interpret handle s).2 := by
  rw [interpret_bind]
  rfl

theorem play_bind (p : Program α) (k : α → Program β) (w : Surroundings) (past : History) :
    (p.bind k).play w past = (k (p.play w past).1).play w (p.play w past).2 :=
  interpret_bind_apply w.handle p k past

theorem exists_play_eq (p : Program α) (w : Surroundings) (past : History) :
    ∃ more, (p.play w past).2 = past ++ more := by
  induction p generalizing past with
  | done a => exact ⟨[], (List.append_nil past).symm⟩
  | step e next ih =>
    obtain ⟨more, grown⟩ := ih (w past e) (past ++ [⟨e, w past e⟩])
    exact ⟨⟨e, w past e⟩ :: more, by simp [grown]⟩

end Program

namespace Pipeline

variable {α β : Type}

def play (p : Pipeline α) (w : Surroundings) (past : History) : Except Halt α × History :=
  Program.play p.run w past

theorem interpret_bind {σ : Type} (handle : (e : Effect) → StateM σ e.Reply) (p : Pipeline α)
    (k : α → Pipeline β) (s : σ) :
    (p >>= k).run.interpret handle s =
      match p.run.interpret handle s with
      | (.ok a, s) => (k a).run.interpret handle s
      | (.error halt, s) => (.error halt, s) := by
  simp only [ExceptT.run_bind, Program.bind_eq, Program.interpret_bind_apply]
  rcases p.run.interpret handle s with ⟨⟨halt⟩ | ⟨a⟩, s⟩ <;> rfl

theorem play_bind (p : Pipeline α) (k : α → Pipeline β) (w : Surroundings) (past : History) :
    (p >>= k).play w past =
      match p.play w past with
      | (.ok a, past) => (k a).play w past
      | (.error halt, past) => (.error halt, past) := by
  simp only [play, Program.play, interpret_bind]
  rcases p.run.interpret w.handle past with ⟨⟨halt⟩ | ⟨a⟩, past⟩ <;> rfl

@[simp] theorem play_pure (a : α) (w : Surroundings) (past : History) :
    (pure a : Pipeline α).play w past = (.ok a, past) := rfl

@[simp] theorem play_fail (e : ActionError) (w : Surroundings) (past : History) :
    (fail e : Pipeline α).play w past = (.error (.failed e), past) := rfl

/-- The type of a reply depends on its effect, and so this is used by `rw`, not by `simp`. -/
theorem play_perform_bind (e : Effect) (k : e.Reply → Pipeline α) (w : Surroundings)
    (past : History) :
    (perform e >>= k).play w past = (k (w past e)).play w (past ++ [⟨e, w past e⟩]) := rfl

theorem play_call_of_ok {c : Call} {answer : c.Answer} {k : c.Answer → Pipeline α}
    {w : Surroundings} {past : History} (replied : w past (.call c) = .ok answer) :
    (call c >>= k).play w past = (k answer).play w (past ++ [⟨.call c, .ok answer⟩]) := by
  rw [call, bind_assoc, play_perform_bind, replied]
  rfl

theorem play_emitAll (events : List Event) (w : Surroundings) (past : History) :
    (emitAll events).play w past = (.ok (), past ++ History.told events) := by
  induction events generalizing past with
  | nil => simp [emitAll, History.told]
  | cons event rest ih =>
    rw [emitAll, emit, play_perform_bind, ih]
    simp [History.told]

theorem play_lift {α : Type} (p : Program α) (w : Surroundings) (past : History) :
    Pipeline.play (ExceptT.lift p) w past = (.ok (p.play w past).1, (p.play w past).2) :=
  Program.play_bind p (fun a => .done (Except.ok a : Except Halt α)) w past

theorem play_withScratch {α : Type} {kind directory : String} {work : (name directory : String) → Pipeline α}
    {w : Surroundings} {past : History}
    (made : let name := w past (.freshName kind)
      w (past ++ [⟨.freshName kind, name⟩]) (.makeScratch name) = .ok directory) :
    (withScratch kind work).play w past =
      let name := w past (.freshName kind)
      let run := (work name directory).play w
        (past ++ [⟨.freshName kind, name⟩] ++ [⟨.makeScratch name, .ok directory⟩])
      (run.1, run.2 ++ [⟨.discardScratch directory, ()⟩]) := by
  rw [withScratch, play_perform_bind, play_perform_bind, made]
  change (ExceptT.lift _ >>= _ : Pipeline α).play w _ = _
  rw [play_bind, play_lift]
  dsimp only
  rw [play_perform_bind]
  simp only [Pipeline.play]
  generalize Program.play (work _ directory).run w _ = run
  obtain ⟨halt | a, past⟩ := run <;> rfl

end Pipeline
end CloudProvider
