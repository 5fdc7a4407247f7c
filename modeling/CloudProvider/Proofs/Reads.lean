import CloudProvider.Proofs.Readings

/-! What a reader reads, as a judgement on bytes: those in front of it, what it makes of them, and those
that are left. Positions are of no account. -/

namespace CloudProvider.Json
namespace Reader

variable {α β : Type}

/-- Before the bytes `before` the reader reads `a` and stops before `after`. -/
def Reads (r : Reader α) (before : Bytes) (a : α) (after : Bytes) : Prop :=
  ∀ p, ∃ p', r ⟨before, p⟩ = (.ok a, ⟨after, p'⟩)

section Rules

variable {x y z : Bytes} {a : α} {b : β}

theorem reads_pure (x : Bytes) (a : α) : Reads (pure a) x a x :=
  fun p => ⟨p, rfl⟩

theorem Reads.bind {r : Reader β} {k : β → Reader α} (first : Reads r x b y)
    (next : Reads (k b) y a z) : Reads (r >>= k) x a z := by
  intro p
  obtain ⟨q, run⟩ := first p
  obtain ⟨p', ran⟩ := next q
  refine ⟨p', ?_⟩
  rw [bind_apply, run]
  exact ran

theorem Reads.map {r : Reader β} {g : β → α} (reads : Reads r x b y) :
    Reads (g <$> r) x (g b) y := by
  intro p
  obtain ⟨p', run⟩ := reads p
  refine ⟨p', ?_⟩
  rw [map_apply, run]

theorem Reads.located {r : Reader α} (reads : Reads r x a y) : Reads (located r) x a y := by
  intro p
  obtain ⟨p', run⟩ := reads p
  refine ⟨p', ?_⟩
  unfold Reader.located
  rw [run]

theorem Reads.attempt {r : Reader α} (reads : Reads r x a y) : Reads (attempt r) x (.ok a) y := by
  intro p
  obtain ⟨p', run⟩ := reads p
  refine ⟨p', ?_⟩
  unfold Reader.attempt
  rw [run]

theorem Reads.bracketed {r : Reader α} {close : Reader Unit} (contents : Reads r x a y)
    (closing : Reads close y () z) : Reads (bracketed r close) x a z :=
  contents.attempt.bind (closing.attempt.bind (reads_pure z a).located)

theorem reads_cursor {k : Cursor → Reader α} (reads : ∀ p, Reads (k ⟨x, p⟩) x a y) :
    Reads (cursor >>= k) x a y :=
  fun p => reads p p

theorem reads_jump {k : Reader α} (reads : Reads k y a z) (p : Position) :
    Reads (do jump ⟨y, p⟩; k) x a z :=
  fun _ => reads p

end Rules

end Reader
end CloudProvider.Json
