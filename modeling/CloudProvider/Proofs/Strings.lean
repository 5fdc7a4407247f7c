import CloudProvider.Proofs.Numbers

/-! Strings as they are read. Each piece of a literal is read as the character that it means. A pair of
escapes takes one round, too, and there are more rounds than bytes. -/

namespace CloudProvider.Json
namespace Reader

section Strings

variable {y : Bytes}

theorem length_le_inside (pieces : Literal) : pieces.length ≤ pieces.inside.length := by
  induction pieces with
  | nil => simp
  | cons piece pieces ih =>
    have some : 0 < piece.text.length := by
      cases piece with
      | plain c _ =>
        obtain ⟨b, tail, form, -⟩ := Text.Utf8.exists_front c []
        simp [Piece.text, form]
      | _ => simp [Piece.text, ascii]
    simp only [Literal.inside, List.flatMap_cons, List.length_append, List.length_cons] at ih ⊢
    omega

theorem reads_hexEscape (code : Code) (y : Bytes) :
    Reads hexEscape (code.bytes ++ y) code.number y := by
  refine reads_cursor fun p => reads_jump ?_ _
  rw [code.spelled]
  exact reads_pure y _

theorem reads_unicodeEscape {code : Code} {c : Char} (known : (Piece.escaped code).char? = some c)
    (y : Bytes) : Reads unicodeEscape (code.bytes ++ y) c y := by
  rw [Piece.char?] at known
  split at known
  · cases known
  next whole =>
  obtain rfl := Option.some.inj known
  simp only [Code.isHigh, Code.isLow, Bool.or_eq_true, Bool.and_eq_true, decide_eq_true_eq,
    not_or] at whole
  refine (reads_hexEscape code y).bind ?_
  rw [if_neg (by omega), if_pos (by omega)]
  exact reads_pure y _

theorem reads_surrogateSign {c : Char} (ascii : IsAscii c) (y : Bytes) :
    Reads (surrogateSign c) (c.toUInt8 :: y) () y := by
  refine (reads_peek_char ascii y).bind ?_
  dsimp only
  rw [if_pos rfl]
  exact reads_advance _ y

theorem reads_unicodeEscape_pair {high low : Code} (first : high.isHigh = true)
    (second : low.isLow = true) (y : Bytes) :
    Reads unicodeEscape (high.bytes ++ (ascii ['\\', 'u'] ++ (low.bytes ++ y)))
      (Char.ofNat ((high.number - 0xD800) * 0x400 + (low.number - 0xDC00) + 0x10000)) y := by
  simp only [Code.isHigh, Code.isLow, Bool.and_eq_true, decide_eq_true_eq] at first second
  refine (reads_hexEscape high _).bind ?_
  rw [if_neg (by omega), if_neg (by omega)]
  refine (reads_surrogateSign (by decide) _).bind ((reads_surrogateSign (by decide) _).bind
    ((reads_hexEscape low y).bind ?_))
  rw [if_neg (by omega)]
  exact reads_pure y _

theorem reads_escapedChar {letter c : Char} (known : (letter, c) ∈ shortForms) (y : Bytes) :
    Reads escapedChar (letter.toUInt8 :: y) c y := by
  have ascii : ∀ form ∈ shortForms, IsAscii form.1 := by decide
  refine (reads_peek_char (ascii _ known) y).bind ?_
  simp only [shortForms, List.mem_cons, List.not_mem_nil, or_false, Prod.mk.injEq] at known
  rcases known with ⟨rfl, rfl⟩ | ⟨rfl, rfl⟩ | ⟨rfl, rfl⟩ | ⟨rfl, rfl⟩ | ⟨rfl, rfl⟩ | ⟨rfl, rfl⟩ |
    ⟨rfl, rfl⟩ | ⟨rfl, rfl⟩ <;> exact (reads_advance _ y).bind (reads_pure y _)

variable {rounds : Nat} {seen : List Char} {s : String} {c : Char} {tail rest after : Bytes}

theorem reads_stringChars_escaped (escaped : Reads escapedChar rest c tail)
    (next : Reads (stringChars rounds (c :: seen)) tail s after) :
    Reads (stringChars (rounds + 1) seen) ('\\'.toUInt8 :: rest) s after := by
  refine reads_cursor fun p => ?_
  dsimp only
  rw [if_neg (by decide), if_pos rfl]
  exact (reads_advance _ rest).bind (escaped.bind next)

theorem reads_stringChars_plain (free : 0x20 ≤ c.toNat ∧ c ≠ '"' ∧ c ≠ '\\')
    (next : Reads (stringChars rounds (c :: seen)) tail s after) :
    Reads (stringChars (rounds + 1) seen) (String.utf8EncodeChar c ++ tail) s after := by
  obtain ⟨above, quote, backslash⟩ := free
  obtain ⟨b, more, form, front⟩ := Text.Utf8.exists_front c tail
  have single (low : b < 0x80) : b.toNat = c.toNat := by
    unfold Text.Utf8.front at front
    rw [if_pos low] at front
    rw [← (Text.Utf8.Front.char.inj front).1]
    rfl
  rw [form]
  refine reads_cursor fun p => ?_
  dsimp only [List.cons_append]
  rw [if_neg, if_neg, if_neg, front]
  · exact reads_jump next _
  · intro low
    have code := single (UInt8.lt_trans low (by decide))
    have low : b.toNat < 32 := UInt8.lt_iff_toNat_lt.mp low
    omega
  · rintro rfl
    exact backslash (Char.toNat_inj.mp (single (by decide)).symm)
  · rintro rfl
    exact quote (Char.toNat_inj.mp (single (by decide)).symm)

theorem reads_stringChars_piece {piece : Piece} (meant : piece.char? = some c)
    (next : Reads (stringChars rounds (c :: seen)) tail s after) :
    Reads (stringChars (rounds + 1) seen) (piece.text ++ tail) s after := by
  cases piece with
  | plain d free =>
    obtain rfl := Option.some.inj meant
    exact reads_stringChars_plain free next
  | short letter d known =>
    obtain rfl := Option.some.inj meant
    exact reads_stringChars_escaped (reads_escapedChar known tail) next
  | escaped code =>
    refine reads_stringChars_escaped ?_ next
    exact (reads_peek_char (c := 'u') (by decide) _).bind ((reads_advance _ _).bind
      (reads_unicodeEscape meant tail))
  | pair high low first second =>
    obtain rfl := Option.some.inj meant
    rw [show (Piece.pair high low first second).text ++ tail = '\\'.toUInt8 :: 'u'.toUInt8 ::
      (high.bytes ++ (ascii ['\\', 'u'] ++ (low.bytes ++ tail))) by simp [Piece.text, ascii]]
    refine reads_stringChars_escaped ?_ next
    exact (reads_peek_char (c := 'u') (by decide) _).bind ((reads_advance _ _).bind
      (reads_unicodeEscape_pair first second tail))
  | stray b free => cases meant

theorem reads_stringChars {pieces : Literal} {cs : List Char}
    (meant : pieces.mapM Piece.char? = some cs) (rounds : Nat) (enough : pieces.length < rounds)
    (seen : List Char) (y : Bytes) :
    Reads (stringChars rounds seen) (pieces.inside ++ '"'.toUInt8 :: y)
      (String.ofList (seen.reverse ++ cs)) y := by
  induction pieces generalizing cs seen rounds with
  | nil =>
    cases rounds with
    | zero => cases enough
    | succ rounds =>
      obtain rfl : [] = cs := by simpa using meant
      rw [show Literal.inside [] ++ '"'.toUInt8 :: y = '"'.toUInt8 :: y from rfl, List.append_nil]
      refine reads_cursor fun p => ?_
      dsimp only
      rw [if_pos rfl]
      exact (reads_advance _ y).bind (reads_pure y _)
  | cons piece pieces ih =>
    cases rounds with
    | zero => cases enough
    | succ rounds =>
      rw [List.mapM_cons] at meant
      obtain ⟨c, first, meant⟩ := Option.bind_eq_some_iff.mp meant
      obtain ⟨cs, later, same⟩ := Option.bind_eq_some_iff.mp meant
      obtain rfl := Option.some.inj same
      have next := ih later rounds (Nat.lt_of_succ_lt_succ enough) (c :: seen)
      rw [List.reverse_cons, List.append_assoc, List.singleton_append] at next
      have text : Literal.inside (piece :: pieces) ++ '"'.toUInt8 :: y =
          piece.text ++ (Literal.inside pieces ++ '"'.toUInt8 :: y) := by
        simp [Literal.inside]
      rw [text]
      exact reads_stringChars_piece first next

theorem reads_string {s : Literal} {meaning : String} (meant : s.value? = some meaning) (y : Bytes) :
    Reads string (s.inside ++ '"'.toUInt8 :: y) meaning y := by
  obtain ⟨cs, known, rfl⟩ := Option.map_eq_some_iff.mp meant
  have long := length_le_inside s
  refine reads_cursor fun p => reads_stringChars known _ ?_ [] y
  simp only [List.length_append, List.length_cons]
  omega

end Strings
end Reader
end CloudProvider.Json
