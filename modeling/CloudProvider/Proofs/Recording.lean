import CloudProvider.Proofs.Deeds
import Mathlib.Data.List.Induction

/-! What a program does while its events are recorded. To its surroundings it is another program: for
each event that is recorded they are asked for the time, and of the others they hear nothing. The
program itself does not notice, and its trail holds just those of its events that are loud enough. -/

namespace CloudProvider

def Exchange.event? : Exchange → Option Event
  | ⟨.emit event, _⟩ => some event
  | _ => none

def History.loud (h : History) : List Event :=
  (h.filterMap Exchange.event?).filter fun e => e.level ∈ [.error, .warn, .info]

theorem Level.isRecorded_eq (l : Level) : l.isRecorded = decide (l ∈ [.error, .warn, .info]) := by
  cases l <;> rfl

theorem History.loud_eq (h : History) :
    h.loud = (h.filterMap Exchange.event?).filter (·.level.isRecorded) := by
  simp only [loud, Level.isRecorded_eq]

@[simp] theorem History.loud_append (a b : History) : (a ++ b).loud = a.loud ++ b.loud := by
  simp [loud]

theorem History.loud_told (events : List Event) :
    (told events).loud = events.filter (·.level.isRecorded) := by
  have heard : (told events).filterMap Exchange.event? = events := by
    induction events with
    | nil => rfl
    | cons event rest ih => exact congrArg (event :: ·) ih
  rw [loud_eq, heard]

namespace Surroundings

variable (w : Surroundings)

def overhearOne (heard : Trail × History) : Exchange → Trail × History
  | ⟨.emit event, _⟩ =>
    if event.level.isRecorded then
      (heard.1 ++ [⟨w heard.2 .clock, event⟩], heard.2 ++ [⟨.clock, w heard.2 .clock⟩])
    else heard
  | x => (heard.1, heard.2 ++ [x])

/-- The trail of what a program goes through, and what the surroundings know of it. -/
def overhear (past h : History) : Trail × History :=
  h.foldl w.overhearOne ([], past)

def behind (past : History) : Surroundings :=
  fun h e => w (w.overhear past h).2 e

variable {w} {past : History}

theorem overhear_concat (h : History) (x : Exchange) :
    w.overhear past (h ++ [x]) = w.overhearOne (w.overhear past h) x :=
  List.foldl_append

theorem events_overhear (h : History) : (w.overhear past h).1.map (·.event) = h.loud := by
  induction h using List.reverseRecOn with
  | nil => rfl
  | append_singleton h x ih =>
    rw [overhear_concat, History.loud_append, ← ih]
    obtain ⟨e, reply⟩ := x
    cases e with
    | emit event =>
      by_cases loud : event.level.isRecorded <;>
        simp [overhearOne, History.loud_eq, Exchange.event?, loud]
    | _ => simp [overhearOne, History.loud_eq, Exchange.event?]

theorem isRecorded_of_mem_overhear {h : History} {e : Entry} (mem : e ∈ (w.overhear past h).1) :
    e.event.level.isRecorded := by
  have loud : e.event ∈ h.loud := events_overhear h ▸ List.mem_map_of_mem mem
  rw [History.loud_eq] at loud
  exact (List.mem_filter.mp loud).2

end Surroundings

namespace Program

variable {α : Type} {w : Surroundings} {past : History}

/-- The invariant of a recording: what has been kept is what has been overheard. -/
theorem play_recording (p : Program α) (h : History) :
    (p.recording (w.overhear past h).1.reverse).play w (w.overhear past h).2 =
      match p.play (w.behind past) h with
      | (a, h) => ((a, (w.overhear past h).1), (w.overhear past h).2) := by
  induction p generalizing h with
  | done a => simp [recording]
  | step e next ih =>
    have later := ih (w (w.overhear past h).2 e) (h ++ [⟨e, w (w.overhear past h).2 e⟩])
    rw [Surroundings.overhear_concat] at later
    cases e with
    | emit event =>
      rw [recording]
      dsimp only [Surroundings.overhearOne] at later
      by_cases loud : event.level.isRecorded
      · rw [if_pos loud] at later ⊢
        rw [List.reverse_append] at later
        exact later
      · rw [if_neg loud] at later ⊢
        exact later
    | _ => exact later

theorem play_recorded (p : Program α) :
    p.recorded.play w past =
      match p.play (w.behind past) [] with
      | (a, h) => ((a, (w.overhear past h).1), (w.overhear past h).2) :=
  play_recording p []

end Program
end CloudProvider
