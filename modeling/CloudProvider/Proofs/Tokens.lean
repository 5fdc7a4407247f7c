import CloudProvider.Proofs.Grammar
import CloudProvider.Proofs.Passages

/-! Tokens at the front of a byte list: what is peeked at, what is passed, and the white space that a token
may have in front of it. -/

namespace CloudProvider.Json

namespace Reader

variable {α β : Type}

section Tokens

variable {c : Char} {x : Bytes}

theorem ofUInt8_toUInt8 (ascii : IsAscii c) : Char.ofUInt8 c.toUInt8 = c :=
  ofUInt8_ofNat ascii

theorem reads_peek (b : UInt8) (x : Bytes) : Reads peek (b :: x) (some (Char.ofUInt8 b)) (b :: x) :=
  fun p => ⟨p, rfl⟩

theorem reads_peek_char (ascii : IsAscii c) (x : Bytes) :
    Reads peek (c.toUInt8 :: x) (some c) (c.toUInt8 :: x) := by
  have seen := reads_peek c.toUInt8 x
  rwa [ofUInt8_toUInt8 ascii] at seen

theorem reads_peek_nil : Reads peek [] none [] :=
  fun p => ⟨p, rfl⟩

theorem reads_advance (b : UInt8) (x : Bytes) : Reads advance (b :: x) () x :=
  fun p => ⟨(Cursor.mk (b :: x) p).past, rfl⟩

def Solid (x : Bytes) : Prop :=
  ∀ b ∈ x.head?, Cursor.isSpace b = false

theorem skipSpace_space (s : Space) (solid : Solid x) (p : Position) :
    ∃ p', (Cursor.mk (s.bytes ++ x) p).skipSpace = ⟨x, p'⟩ := by
  have go (bytes : Bytes) (blank : ∀ b ∈ bytes, Cursor.isSpace b = true) (p : Position) :
      ∃ p', Cursor.skipSpace.go (bytes ++ x) p = ⟨x, p'⟩ := by
    induction bytes generalizing p with
    | nil =>
      rcases x with _ | ⟨b, x⟩
      · exact ⟨p, rfl⟩
      · exact ⟨p, by rw [List.nil_append, Cursor.skipSpace.go, solid b rfl]; rfl⟩
    | cons b bytes ih =>
      obtain ⟨first, later⟩ := List.forall_mem_cons.mp blank
      obtain ⟨p', goes⟩ := ih later (p.after b)
      exact ⟨p', by rw [List.cons_append, Cursor.skipSpace.go, if_pos first, goes]⟩
  exact go s.bytes s.blank p

theorem reads_token (s : Space) (solid : Solid x) :
    Reads token (s.bytes ++ x) (x.head?.map Char.ofUInt8) x := by
  intro p
  obtain ⟨p', skips⟩ := skipSpace_space s solid p
  refine ⟨p', ?_⟩
  simp only [token, skips]

theorem isSpace_toUInt8 (begins : Begins c) : Cursor.isSpace c.toUInt8 = false :=
  isSpace_ofNat begins

theorem solid_cons (begins : Begins c) (x : Bytes) : Solid (c.toUInt8 :: x) := by
  rintro b ⟨⟩
  exact isSpace_toUInt8 begins

theorem reads_token_char (s : Space) (begins : Begins c) (x : Bytes) :
    Reads token (s.bytes ++ c.toUInt8 :: x) (some c) (c.toUInt8 :: x) := by
  have seen := reads_token s (solid_cons begins x)
  rwa [List.head?_cons, Option.map_some, ofUInt8_toUInt8 begins.2] at seen

theorem reads_token_end (s : Space) : Reads token s.bytes none [] := by
  have seen := reads_token s (x := []) nofun
  rwa [List.append_nil] at seen

theorem reads_word (word : List Char) (ascii : word.all (decide <| IsAscii ·) = true) (x : Bytes) :
    Reads (Reader.word word) (Json.ascii word ++ x) () x := by
  induction word with
  | nil => exact reads_pure x ()
  | cons c word ih =>
    rw [List.all_cons, Bool.and_eq_true, decide_eq_true_eq] at ascii
    obtain ⟨first, later⟩ := ascii
    rw [Reader.word]
    refine (reads_peek_char first _).bind ((reads_advance _ _).bind ?_)
    rw [if_pos rfl]
    exact ih later

end Tokens

end Reader
end CloudProvider.Json
