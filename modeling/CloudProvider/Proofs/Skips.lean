import CloudProvider.Proofs.Acceptance

/-! Values that are passed over. Every tree is passed over, whether it means anything or not: numbers of any
size, strings of any bytes, brackets of any depth. The brackets are on a stack there, and rounds are
counted; twice the number of bytes that are left, and one more behind an opening bracket, is enough of
them. -/

namespace CloudProvider.Json
namespace Reader

section Skipping

variable {y : Bytes}

theorem reads_skipDigits (ds : List Digit) (ends : EndsDigits y) :
    Reads skipDigits (spellDigits ds ++ y) () y :=
  (reads_digits ds ends).bind (reads_pure y ())

theorem reads_skipDigit (d : Digit) (y : Bytes) :
    Reads skipDigit (d.byte :: y) (Char.ofUInt8 d.byte) y := by
  refine (reads_peek d.byte y).bind ?_
  dsimp only
  refine (reads_advance _ y).bind ?_
  rw [if_pos (isDigit_byte d)]
  exact reads_pure y _

theorem reads_skipExponent (p : Power) (ends : EndsDigits y) :
    Reads skipExponent (p.text ++ y) () y := by
  obtain ⟨found, seen, sign⟩ := exists_peek_sign p y
  rw [Power.text_append]
  unfold skipExponent
  refine (reads_advance _ _).bind (seen.bind ?_)
  extract_lets signed
  have digits : Reads (signed ()) (spellDigits p.digits ++ y) () y := by
    obtain ⟨d, ds, form⟩ := List.exists_cons_of_ne_nil p.given
    rw [form]
    exact ((reads_skipDigit d _).bind (reads_pure _ ())).bind (reads_skipDigits ds ends)
  clear_value signed
  obtain ⟨rfl, text, -⟩ | ⟨rfl, text, -⟩ | ⟨plus, minus, text, -⟩ := sign
  · rw [text]
    exact (reads_advance _ _).bind digits
  · rw [text]
    exact (reads_advance _ _).bind digits
  · rw [text]
    split
    · exact absurd rfl plus
    · exact absurd rfl minus
    · exact digits

theorem reads_skipFraction {ds : List Digit} (given : ds ≠ []) (power : Option Power)
    (ends : EndsNumber y) :
    Reads skipFraction ('.'.toUInt8 :: (spellDigits ds ++ (power.elim [] Power.text ++ y))) () y := by
  unfold skipFraction
  refine (reads_advance _ _).bind ((reads_digits ds (endsDigits_power power ends)).bind ?_)
  have some : ¬ (ds.map Fin.val).isEmpty = true := by simpa using given
  dsimp only
  rw [if_neg some]
  exact reads_atPower ends (fun p _ => reads_skipExponent p ends.endsDigits)
    fun _ => reads_pure y ()

theorem reads_skipNumber (n : Numeral) (ends : EndsNumber y) :
    Reads skipNumber (n.size ++ y) () y := by
  obtain ⟨d, ds, form⟩ := List.exists_cons_of_ne_nil n.given
  have text : n.size ++ y = d.byte :: (spellDigits ds ++ (n.tail ++ y)) := by
    simp [Numeral.size, form, spellDigits]
  have stops := endsDigits_tail n ends
  rw [text]
  unfold skipNumber
  refine (reads_skipDigit d _).bind ?_
  extract_lets whole
  have read : Reads (whole ()) (n.tail ++ y) () y :=
    reads_atTail ends (fun fraction => reads_skipFraction fraction n.power ends)
      (fun _ p _ => reads_skipExponent p ends.endsDigits) fun _ _ => reads_pure y ()
  clear_value whole
  split
  · next zero =>
    have alone : n.whole = [0] := n.lean (by rw [form, (zero_iff_byte d).mp zero]; rfl)
    obtain ⟨rfl, rfl⟩ := List.cons.inj (form.symm.trans alone)
    rcases behind : n.tail ++ y with _ | ⟨b, more⟩
    · rw [behind] at read
      exact reads_peek_nil.bind read
    · rw [behind] at read stops
      refine (reads_peek b more).bind ?_
      dsimp only
      rw [if_neg (by simp [stops b rfl])]
      exact read
  · exact (reads_skipDigits ds stops).bind read

def IsFree (b : UInt8) : Prop :=
  0x20 ≤ b ∧ b ≠ '"'.toUInt8 ∧ b ≠ '\\'.toUInt8

theorem ofUInt8_eq_iff {c : Char} (ascii : IsAscii c) {b : UInt8} :
    Char.ofUInt8 b = c ↔ b = c.toUInt8 := by
  constructor
  · rintro rfl
    exact UInt8.toNat_inj.mp (toNat_ofNat ascii).symm
  · rintro rfl
    exact ofUInt8_toUInt8 ascii

theorem isFree_of_plain {c : Char} (free : 0x20 ≤ c.toNat ∧ c ≠ '"' ∧ c ≠ '\\') :
    ∀ b ∈ String.utf8EncodeChar c, IsFree b := by
  obtain ⟨above, quote, backslash⟩ := free
  have ranges := Text.Utf8.toNat_ranges c
  have high {n : Nat} (least : 128 ≤ n) (most : n < 256) : IsFree (UInt8.ofNat n) := by
    have code := Text.Utf8.toNat_byte most
    refine ⟨UInt8.le_iff_toNat_le.mpr ?_, ?_, ?_⟩
    · rw [code]
      exact Nat.le_trans (by decide) least
    · intro same
      rw [same] at code
      exact absurd (code ▸ least) (by decide)
    · intro same
      rw [same] at code
      exact absurd (code ▸ least) (by decide)
  rw [Text.Utf8.utf8EncodeChar_eq]
  split
  · next small =>
    have code : (UInt8.ofNat c.toNat).toNat = c.toNat := Text.Utf8.toNat_byte (by omega)
    rw [List.forall_mem_singleton]
    refine ⟨UInt8.le_iff_toNat_le.mpr (Nat.le_trans above (Nat.le_of_eq code.symm)), fun same => ?_,
      fun same => ?_⟩
    · exact quote (Char.toNat_inj.mp (code.symm.trans (congrArg UInt8.toNat same)))
    · exact backslash (Char.toNat_inj.mp (code.symm.trans (congrArg UInt8.toNat same)))
  split
  · simp only [List.forall_mem_cons, List.not_mem_nil, false_imp_iff, implies_true, and_true]
    exact ⟨high (by omega) (by omega), high (by omega) (by omega)⟩
  split
  · simp only [List.forall_mem_cons, List.not_mem_nil, false_imp_iff, implies_true, and_true]
    exact ⟨high (by omega) (by omega), high (by omega) (by omega), high (by omega) (by omega)⟩
  · simp only [List.forall_mem_cons, List.not_mem_nil, false_imp_iff, implies_true, and_true]
    exact ⟨high (by omega) (by omega), high (by omega) (by omega), high (by omega) (by omega),
      high (by omega) (by omega)⟩

def SkipsString (x y : Bytes) : Prop :=
  ∀ rounds, x.length < rounds → Reads (skipStringRounds rounds) x () y

theorem skipsString_quote (y : Bytes) : SkipsString ('"'.toUInt8 :: y) y := by
  intro rounds enough
  cases rounds with
  | zero => cases enough
  | succ rounds => exact (reads_peek_char (by decide) y).bind (reads_advance _ y)

theorem SkipsString.free {b : UInt8} (free : IsFree b) {x : Bytes} (next : SkipsString x y) :
    SkipsString (b :: x) y := by
  intro rounds enough
  obtain ⟨above, quote, backslash⟩ := free
  cases rounds with
  | zero => cases enough
  | succ rounds =>
    refine (reads_peek b x).bind ?_
    split
    · next none => cases none
    · next same => exact absurd ((ofUInt8_eq_iff (by decide)).mp (Option.some.inj same)) quote
    · next same => exact absurd ((ofUInt8_eq_iff (by decide)).mp (Option.some.inj same)) backslash
    · next c _ _ same =>
      obtain rfl := Option.some.inj same
      have visible : ¬ Char.ofUInt8 b < ' ' := Nat.not_lt.mpr (UInt8.le_iff_toNat_le.mp above)
      rw [if_neg visible]
      exact (reads_advance b x).bind (next rounds (Nat.lt_of_succ_lt_succ enough))

theorem SkipsString.frees {bytes : Bytes} (free : ∀ b ∈ bytes, IsFree b) {x : Bytes}
    (next : SkipsString x y) : SkipsString (bytes ++ x) y := by
  induction bytes with
  | nil => exact next
  | cons b bytes ih =>
    obtain ⟨first, later⟩ := List.forall_mem_cons.mp free
    exact (ih later).free first

theorem SkipsString.escaped {x tail : Bytes} (escape : Reads skipEscape x () tail)
    (shorter : tail.length ≤ x.length) (next : SkipsString tail y) :
    SkipsString ('\\'.toUInt8 :: x) y := by
  intro rounds enough
  cases rounds with
  | zero => cases enough
  | succ rounds =>
    rw [List.length_cons] at enough
    exact (reads_peek_char (by decide) x).bind ((reads_advance _ x).bind
      (escape.bind (next rounds (by omega))))

theorem reads_skipEscape_code (code : Code) (y : Bytes) :
    Reads skipEscape ('u'.toUInt8 :: (code.bytes ++ y)) () y :=
  (reads_peek_char (c := 'u') (by decide) _).bind ((reads_advance _ _).bind
    ((reads_hexEscape code y).bind (reads_pure y ())))

theorem reads_skipEscape_short {letter c : Char} (known : (letter, c) ∈ shortForms) (y : Bytes) :
    Reads skipEscape (letter.toUInt8 :: y) () y := by
  simp only [shortForms, List.mem_cons, List.not_mem_nil, or_false, Prod.mk.injEq] at known
  rcases known with ⟨rfl, rfl⟩ | ⟨rfl, rfl⟩ | ⟨rfl, rfl⟩ | ⟨rfl, rfl⟩ | ⟨rfl, rfl⟩ | ⟨rfl, rfl⟩ |
    ⟨rfl, rfl⟩ | ⟨rfl, rfl⟩ <;>
    exact (reads_peek_char (by decide) y).bind ((reads_advance _ y).bind (reads_pure y ()))

theorem SkipsString.piece (piece : Piece) {x : Bytes} (next : SkipsString x y) :
    SkipsString (piece.text ++ x) y := by
  cases piece with
  | plain c free => exact next.frees (isFree_of_plain free)
  | short letter c known =>
    exact next.escaped (reads_skipEscape_short known x) (Nat.le_succ _)
  | escaped code =>
    rw [show (Piece.escaped code).text ++ x = '\\'.toUInt8 :: 'u'.toUInt8 :: (code.bytes ++ x) by
      simp [Piece.text, ascii]]
    refine next.escaped (reads_skipEscape_code code x) ?_
    simp only [List.length_append, List.length_cons]
    omega
  | pair high low first second =>
    rw [show (Piece.pair high low first second).text ++ x = '\\'.toUInt8 :: 'u'.toUInt8 ::
      (high.bytes ++ ('\\'.toUInt8 :: 'u'.toUInt8 :: (low.bytes ++ x))) by simp [Piece.text, ascii]]
    refine SkipsString.escaped (reads_skipEscape_code high _) ?_
      (next.escaped (reads_skipEscape_code low x) ?_) <;>
    · simp only [List.length_append, List.length_cons]
      omega
  | stray b free => exact next.free free

theorem skipsString_inside (s : Literal) (y : Bytes) :
    SkipsString (s.inside ++ '"'.toUInt8 :: y) y := by
  induction s with
  | nil => exact skipsString_quote y
  | cons piece s ih =>
    rw [show Literal.inside (piece :: s) ++ '"'.toUInt8 :: y =
      piece.text ++ (Literal.inside s ++ '"'.toUInt8 :: y) by simp [Literal.inside]]
    exact ih.piece piece

theorem reads_skipString (s : Literal) (y : Bytes) :
    Reads skipString (s.inside ++ '"'.toUInt8 :: y) () y :=
  reads_cursor fun _ => skipsString_inside s y _ (Nat.lt_succ_self _)

/-! ### Brackets -/

def skipLead (standing : Standing) (bracket : Bracket) (c : Char) : Reader Unit := do
  match standing with
  | .after => if c = ',' then advance else failNext bracket.unclosed
  | _ => pure ()
  match bracket with
  | .list => pure ()
  | .object => skipKey

theorem skipRounds_inside {standing : Standing} (inside : standing ≠ .before) (rounds : Nat)
    (bracket : Bracket) (outer : List Bracket) :
    skipRounds (rounds + 1) standing (bracket :: outer) = (do
      match ← token with
      | none => failNext bracket.cutShort
      | some c =>
        if c = bracket.close then do
          advance
          skipRounds rounds .after outer
        else do
          skipLead standing bracket c
          skipRounds rounds .before (bracket :: outer)) := by
  rw [skipRounds]
  · refine bind_congr fun found => ?_
    rcases found with _ | c
    · rfl
    · dsimp only
      rw [pure_bind]
      by_cases closes : c = bracket.close
      · rw [if_pos closes, if_pos closes]
      · rw [if_neg closes, if_neg closes]
        unfold skipLead
        cases standing with
        | before => exact absurd rfl inside
        | opened => cases bracket <;> rfl
        | after => cases bracket <;> dsimp only <;> split <;> rfl
  · exact inside

def potential (length : Nat) : Standing → Nat
  | .opened => 2 * length + 1
  | .before | .after => 2 * length

/-- With more rounds than that everything up to `y` is passed over. -/
def Skips (standing : Standing) (outer : List Bracket) (x y : Bytes) : Prop :=
  ∀ rounds, potential x.length standing < rounds → Reads (skipRounds rounds standing outer) x () y

variable {outer : List Bracket} {x : Bytes} {c : Char}

theorem skips_done (y : Bytes) : Skips .after [] y y := by
  intro rounds enough
  cases rounds with
  | zero => cases enough
  | succ rounds => exact reads_pure y ()

theorem Skips.scalar (s : Space) (begins : Begins c) (list : c ≠ '[') (object : c ≠ '\x7b')
    {text : Bytes} (scalar : Reads (skipScalar c) (c.toUInt8 :: text) () x)
    (behind : x <:+ text) (next : Skips .after outer x y) :
    Skips .before outer (s.bytes ++ c.toUInt8 :: text) y := by
  intro rounds enough
  cases rounds with
  | zero => cases enough
  | succ rounds =>
    have shorter := behind.length_le
    simp only [potential, List.length_append, List.length_cons] at enough
    refine (reads_token_char s begins text).bind ?_
    split
    · next none => cases none
    · next same => exact absurd (Option.some.inj same) list
    · next same => exact absurd (Option.some.inj same) object
    · next d _ _ same =>
      obtain rfl := Option.some.inj same
      exact scalar.bind (next rounds (by simp only [potential]; omega))

section Inside

variable {standing : Standing} (bracket : Bracket) (inside : standing ≠ .before)

include inside

theorem Skips.close (s : Space) (next : Skips .after outer x y) :
    Skips standing (bracket :: outer) (s.bytes ++ bracket.close.toUInt8 :: x) y := by
  intro rounds enough
  have begins : Begins bracket.close := by cases bracket <;> decide
  cases rounds with
  | zero => cases enough
  | succ rounds =>
    have later : potential x.length .after < rounds := by
      cases standing <;>
        simp only [potential, List.length_append, List.length_cons] at enough ⊢ <;> omega
    rw [skipRounds_inside inside]
    refine (reads_token_char s begins x).bind ?_
    dsimp only
    rw [if_pos rfl]
    exact (reads_advance _ x).bind (next rounds later)

theorem Skips.enter (s : Space) (begins : Begins c) (other : c ≠ bracket.close) {text tail : Bytes}
    (leads : Reads (skipLead standing bracket c) (c.toUInt8 :: text) () tail)
    (shorter : potential tail.length .before < potential (text.length + 1) standing)
    (next : Skips .before (bracket :: outer) tail y) :
    Skips standing (bracket :: outer) (s.bytes ++ c.toUInt8 :: text) y := by
  intro rounds enough
  cases rounds with
  | zero => cases enough
  | succ rounds =>
    have later : potential tail.length .before < rounds := by
      cases standing <;>
        simp only [potential, List.length_append, List.length_cons] at enough shorter ⊢ <;> omega
    rw [skipRounds_inside inside]
    refine (reads_token_char s begins text).bind ?_
    dsimp only
    rw [if_neg other]
    exact leads.bind (next rounds later)

end Inside

def within (first : Bool) : Standing :=
  if first then .opened else .after

theorem potential_before (length : Nat) : potential length .before = 2 * length := rfl

theorem potential_true (length : Nat) : potential length (within true) = 2 * length + 1 := rfl

theorem potential_false (length : Nat) : potential length (within false) = 2 * length := rfl

theorem reads_skipKey (s : Space) (key : Literal) (before : Space) (y : Bytes) :
    Reads skipKey (s.bytes ++ (key.text ++ (before.bytes ++ ':'.toUInt8 :: y))) () y := by
  rw [Literal.text_append]
  exact (reads_token_char s (by decide) _).bind ((reads_advance _ _).bind
    ((reads_skipString key _).bind (reads_colon before y)))

def SkipsTree (t : Tree) : Prop :=
  ∀ {outer : List Bracket} {x y : Bytes} (s : Space), EndsNumber x → Skips .after outer x y →
    Skips .before outer (s.bytes ++ (t.text ++ x)) y

theorem skips_items {items : List (Gap × Tree)} (each : ∀ item ∈ items, SkipsTree item.2)
    (first : Bool) (last : Space) (next : Skips .after outer x y) :
    Skips (within first) (.list :: outer)
      (Tree.itemsText first items ++ (last.bytes ++ ']'.toUInt8 :: x)) y := by
  have inside : within first ≠ .before := by cases first <;> exact nofun
  induction items generalizing first with
  | nil => exact Skips.close .list inside last next
  | cons item items ih =>
    obtain ⟨gap, t⟩ := item
    obtain ⟨skips, later⟩ := List.forall_mem_cons.mp each
    have rest := ih later false nofun
    have value := fun s => skips s (endsNumber_items items last x) rest
    obtain ⟨more, form⟩ := t.exists_text
    rw [Tree.itemsText, List.append_assoc, List.append_assoc]
    cases first with
    | true =>
      have value := value .none
      rw [show Space.none.bytes = [] from rfl, List.nil_append, form, List.cons_append] at value
      rw [form, List.cons_append]
      rw [← Gap.join_bytes]
      refine Skips.enter .list inside gap.join t.begins_first t.first_eq_iff.2.2.2
        (reads_pure _ ()) ?_ value
      rw [potential_true, potential_before, List.length_cons]
      exact Nat.lt_succ_self _
    | false =>
      rw [Gap.false_append]
      exact Skips.enter .list inside gap.before (c := ',') (by decide) (by decide) (reads_advance _ _)
        (by rw [potential_false, potential_before]; omega) (value gap.after)

theorem skips_members {members : List (Heading × Tree)}
    (each : ∀ member ∈ members, SkipsTree member.2) (first : Bool) (last : Space)
    (next : Skips .after outer x y) :
    Skips (within first) (.object :: outer)
      (Tree.membersText first members ++ (last.bytes ++ '\x7d'.toUInt8 :: x)) y := by
  have inside : within first ≠ .before := by cases first <;> exact nofun
  induction members generalizing first with
  | nil => exact Skips.close .object inside last next
  | cons member members ih =>
    obtain ⟨heading, t⟩ := member
    obtain ⟨skips, later⟩ := List.forall_mem_cons.mp each
    have rest := ih later false nofun
    have value := skips heading.after (endsNumber_members members last x) rest
    have key := fun s => reads_skipKey s heading.key heading.before
      (heading.after.bytes ++ (t.text ++ (Tree.membersText false members ++
        (last.bytes ++ '\x7d'.toUInt8 :: x))))
    rw [Tree.members_text]
    cases first with
    | true =>
      have key := key .none
      rw [show Space.none.bytes = [] from rfl, List.nil_append, Literal.text_append] at key
      rw [Literal.text_append]
      rw [← Gap.join_bytes]
      refine Skips.enter .object inside heading.gap.join (by decide) (by decide) key ?_
        value
      rw [potential_true, potential_before]
      simp only [List.length_append, List.length_cons]
      omega
    | false =>
      rw [Gap.false_append]
      refine Skips.enter .object inside heading.gap.before (c := ',') (by decide) (by decide)
        ((reads_advance _ _).bind (key heading.gap.after)) ?_ value
      rw [potential_false, potential_before]
      simp only [List.length_append, List.length_cons]
      omega

theorem Skips.opens {bracket : Bracket}
    (opens : c = '[' ∧ bracket = .list ∨ c = '\x7b' ∧ bracket = .object) (s : Space) {text : Bytes}
    (next : Skips (within true) (bracket :: outer) text y) :
    Skips .before outer (s.bytes ++ c.toUInt8 :: text) y := by
  intro rounds enough
  cases rounds with
  | zero => cases enough
  | succ rounds =>
    have later : potential text.length (within true) < rounds := by
      rw [potential_before] at enough
      rw [potential_true]
      simp only [List.length_append, List.length_cons] at enough
      omega
    obtain ⟨rfl, rfl⟩ | ⟨rfl, rfl⟩ := opens
    · exact (reads_token_char s (by decide) text).bind ((reads_advance _ text).bind (next rounds later))
    · exact (reads_token_char s (by decide) text).bind ((reads_advance _ text).bind (next rounds later))

theorem skipScalar_digit (digit : c.isDigit = true) : skipScalar c = skipNumber := by
  unfold skipScalar
  split
  case h_6 => rw [if_pos digit]
  all_goals exact absurd digit (by decide)

theorem skipsTree_number (n : Numeral) : SkipsTree (.number n) := by
  intro outer x y s ends next
  have digits := reads_skipNumber n ends
  obtain ⟨more, form⟩ := n.exists_text
  have begins := (Tree.number n).begins_first
  change Skips _ _ (s.bytes ++ (n.text ++ x)) _
  obtain ⟨negative, minus⟩ | ⟨positive, digit, -⟩ := n.first_eq
  · rw [show n.text = '-'.toUInt8 :: n.size by simp [Numeral.text, negative], List.cons_append]
    exact next.scalar s (by decide) (by decide) (by decide) ((reads_advance _ _).bind digits)
      (List.suffix_append _ x)
  · have size : n.size = n.text := by simp [Numeral.text, positive]
    have other {d : Char} (sign : d.isDigit = false) : n.first ≠ d := by
      rintro rfl
      rw [digit] at sign
      cases sign
    rw [size, form, List.cons_append] at digits
    rw [form, List.cons_append]
    refine next.scalar s begins (other (by decide)) (other (by decide)) ?_
      (List.suffix_append _ x)
    change Reads (skipScalar n.first) _ _ _
    rw [skipScalar_digit digit]
    exact digits

theorem skipsTree (t : Tree) : SkipsTree t := by
  induction t using Tree.induction with
  | null =>
    intro outer x y s _ next
    exact next.scalar s (c := 'n') (by decide) (by decide) (by decide)
      ((reads_advance _ _).bind (reads_word ['u', 'l', 'l'] (by decide) x))
      (List.suffix_append _ x)
  | bool b =>
    intro outer x y s _ next
    cases b
    · exact next.scalar s (c := 'f') (by decide) (by decide) (by decide)
        ((reads_advance _ _).bind (reads_word ['a', 'l', 's', 'e'] (by decide) x))
        (List.suffix_append _ x)
    · exact next.scalar s (c := 't') (by decide) (by decide) (by decide)
        ((reads_advance _ _).bind (reads_word ['r', 'u', 'e'] (by decide) x))
        (List.suffix_append _ x)
  | number n => exact skipsTree_number n
  | string text =>
    intro outer x y s _ next
    change Skips _ _ (s.bytes ++ (text.text ++ x)) _
    rw [Literal.text_append]
    exact next.scalar s (by decide) (by decide) (by decide)
      ((reads_advance _ _).bind (reads_skipString text x))
      ((List.suffix_cons _ x).trans (List.suffix_append _ _))
  | array items last each =>
    intro outer x y s _ next
    rw [Tree.array_text]
    exact (skips_items each true last next).opens (.inl ⟨rfl, rfl⟩) s
  | object members last each =>
    intro outer x y s _ next
    rw [Tree.object_text]
    exact (skips_members each true last next).opens (.inr ⟨rfl, rfl⟩) s

theorem reads_skip (s : Space) (t : Tree) {y : Bytes} (ends : EndsNumber y) :
    Reads skip (s.bytes ++ (t.text ++ y)) () y := by
  refine reads_cursor fun p => skipsTree t s ends (skips_done y) _ ?_
  rw [potential_before]
  exact Nat.lt_add_of_pos_right (by decide)

end Skipping
end Reader
end CloudProvider.Json
