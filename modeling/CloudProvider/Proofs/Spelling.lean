import CloudProvider.Proofs.Grammar
import CloudProvider.Proofs.Skips

/-! What has been read was spelled out. This is the other direction: whatever stands in a text, if a reader
comes to its end there, then it has passed the text of a word, of a numeral, of a literal. What it has made
of them does not matter here. -/

namespace CloudProvider.Json
namespace Reader

variable {α β : Type}

/-- If the reader reads something at the front of `x`, then `R` holds of it and of what is left. -/
def Leaves (r : Reader α) (x : Bytes) (R : α → Bytes → Prop) : Prop :=
  ∀ p a c, r ⟨x, p⟩ = (.ok a, c) → R a c.rest

section Rules

variable {x y : Bytes} {R : α → Bytes → Prop}

theorem Leaves.mono {r : Reader α} {Q : α → Bytes → Prop} (leaves : Leaves r x Q)
    (weaker : ∀ a y, Q a y → R a y) : Leaves r x R :=
  fun p a c run => weaker a c.rest (leaves p a c run)

theorem Leaves.bind {r : Reader β} {k : β → Reader α} {Q : β → Bytes → Prop} (first : Leaves r x Q)
    (next : ∀ b y, Q b y → Leaves (k b) y R) : Leaves (r >>= k) x R := by
  intro p a c run
  rw [bind_apply] at run
  rcases began : r ⟨x, p⟩ with ⟨f | b, q⟩
  · rw [began] at run
    cases run
  · rw [began] at run
    exact next b q.rest (first p b q began) q.position a c run

theorem Leaves.map {r : Reader β} {g : β → α} (leaves : Leaves r x fun b y => R (g b) y) :
    Leaves (g <$> r) x R := by
  intro p a c run
  rw [map_apply] at run
  rcases began : r ⟨x, p⟩ with ⟨f | b, q⟩
  · rw [began] at run
    cases run
  · rw [began] at run
    cases run
    exact leaves p b _ began

theorem leaves_pure {a : α} (holds : R a x) : Leaves (pure a) x R := by
  rintro p b c ⟨⟩
  exact holds

theorem leaves_fail (cause : Cause) : Leaves (fail cause) x R := nofun

theorem leaves_failNext (cause : Cause) : Leaves (failNext cause) x R := nofun

theorem leaves_refuse (cause : Cause) : Leaves (refuse cause) x R := nofun

theorem leaves_deliver {result : Except Cause α} (holds : ∀ a, result = .ok a → R a x) :
    Leaves (deliver result) x R := by
  cases result with
  | error cause => exact leaves_refuse cause
  | ok a => exact leaves_pure (holds a rfl)

theorem Leaves.stop {r : Reader β} {k : β → Reader α} (fails : Leaves r x fun _ _ => False) :
    Leaves (r >>= k) x R :=
  fails.bind fun _ _ never => never.elim

theorem leaves_cursor {k : Cursor → Reader α} (leaves : ∀ p, Leaves (k ⟨x, p⟩) x R) :
    Leaves (cursor >>= k) x R :=
  fun p a c run => leaves p p a c run

theorem leaves_jump {k : Reader α} {c : Cursor} (leaves : Leaves k c.rest R) :
    Leaves (do jump c; k) x R :=
  fun _ a c' run => leaves c.position a c' run

theorem leaves_peek {k : Option Char → Reader α}
    (next : ∀ found, x.head?.map Char.ofUInt8 = found → Leaves (k found) x R) :
    Leaves (peek >>= k) x R :=
  fun p a c run => next _ rfl p a c run

theorem leaves_advance {b : UInt8} {k : Unit → Reader α} (next : Leaves (k ()) x R) :
    Leaves (advance >>= k) (b :: x) R :=
  fun p a c run => next (Cursor.mk (b :: x) p).past a c run

theorem leaves_pass {R : Unit → Bytes → Prop} {b : UInt8} (holds : R () x) :
    Leaves advance (b :: x) R := by
  rintro p - c ⟨⟩
  exact holds

theorem exists_skipSpace (c : Cursor) : ∃ s : Space, c.rest = s.bytes ++ c.skipSpace.rest := by
  have go (bytes : Bytes) (p : Position) :
      ∃ s : Space, bytes = s.bytes ++ (Cursor.skipSpace.go bytes p).rest := by
    induction bytes generalizing p with
    | nil => exact ⟨.none, rfl⟩
    | cons b rest ih =>
      rw [Cursor.skipSpace.go]
      split
      · next space =>
        obtain ⟨s, form⟩ := ih (p.after b)
        refine ⟨(⟨[b], ?_⟩ : Space).append s, ?_⟩
        · rw [List.forall_mem_singleton]
          exact space
        · conv_lhs => rw [form]
          rfl
      · exact ⟨.none, rfl⟩
  exact go c.rest c.position

theorem leaves_token {k : Option Char → Reader α}
    (next : ∀ (s : Space) (y : Bytes), x = s.bytes ++ y →
      ∀ found, y.head?.map Char.ofUInt8 = found → Leaves (k found) y R) :
    Leaves (token >>= k) x R := by
  intro p a c run
  obtain ⟨s, form⟩ := exists_skipSpace ⟨x, p⟩
  exact next s _ form _ rfl (Cursor.mk x p).skipSpace.position a c run

theorem Leaves.bracketed {r : Reader α} {close : Reader Unit} {Q : α → Bytes → Prop}
    (contents : Leaves r x Q) (closing : ∀ a y, Q a y → Leaves close y fun _ z => R a z) :
    Leaves (bracketed r close) x R := by
  intro p a c run
  rw [Reader.bracketed, bind_apply, Reader.attempt] at run
  rcases began : r ⟨x, p⟩ with ⟨f | b, q⟩
  · rw [began] at run
    dsimp only at run
    rw [bind_apply, Reader.attempt] at run
    rcases close q with ⟨_ | _, q'⟩ <;> cases run
  · rw [began] at run
    dsimp only at run
    rw [bind_apply, Reader.attempt] at run
    rcases closed : close q with ⟨f | ⟨⟩, q'⟩
    · rw [closed] at run
      cases run
    · rw [closed] at run
      cases run
      exact closing _ _ (contents p _ _ began) q.position () _ closed

theorem exists_cons_of_head? {c : Char} (ascii : IsAscii c)
    (seen : x.head?.map Char.ofUInt8 = some c) : ∃ y, x = c.toUInt8 :: y := by
  rcases x with _ | ⟨b, y⟩
  · cases seen
  · exact ⟨y, by rw [(ofUInt8_eq_iff ascii).mp (Option.some.inj seen)]⟩

end Rules

section Tokens

variable {x : Bytes}

theorem leaves_word {word : List Char} (ascii : word.all (decide <| IsAscii ·) = true) :
    Leaves (Reader.word word) x fun _ y => x = Json.ascii word ++ y := by
  induction word generalizing x with
  | nil => exact leaves_pure rfl
  | cons c word ih =>
    rw [List.all_cons, Bool.and_eq_true, decide_eq_true_eq] at ascii
    obtain ⟨first, later⟩ := ascii
    rw [Reader.word]
    refine leaves_peek fun found seen => ?_
    rcases x with _ | ⟨b, x⟩
    · subst seen
      exact leaves_fail _
    · subst seen
      refine leaves_advance ?_
      split
      · next same =>
        obtain rfl := (ofUInt8_eq_iff first).mp same
        exact (ih later).mono fun _ z form => congrArg (c.toUInt8 :: ·) form
      · exact leaves_fail _

/-! ### Numbers -/

theorem exists_digit_of_byte {b : UInt8} (digit : (Char.ofUInt8 b).isDigit = true) :
    ∃ d : Digit, b = d.byte := by
  obtain ⟨low, high⟩ := isDigit_iff.mp digit
  have code : (Char.ofUInt8 b).toNat = b.toNat := rfl
  rw [code] at low high
  refine ⟨⟨b.toNat - 48, by omega⟩, UInt8.toNat_inj.mp ?_⟩
  rw [Digit.byte, Text.Utf8.toNat_byte (by omega)]
  exact (Nat.add_sub_cancel' low).symm

theorem leaves_digits : Leaves digits x fun ds y =>
    EndsDigits y ∧ ∃ l : List Digit, ds = l.map Fin.val ∧ x = spellDigits l ++ y := by
  rintro p ds c ⟨⟩
  dsimp only
  induction x with
  | nil => exact ⟨nofun, [], rfl, rfl⟩
  | cons b x ih =>
    by_cases digit : (Char.ofUInt8 b).isDigit = true
    · obtain ⟨d, rfl⟩ := exists_digit_of_byte digit
      have read : digitsOf (d.byte :: x) = d.val :: digitsOf x := by
        simp [digitsOf, isDigit_byte, toNat_byte]
      obtain ⟨ends, l, values, form⟩ := ih
      rw [read]
      refine ⟨ends, d :: l, by rw [values]; rfl, ?_⟩
      rw [List.length_cons, List.drop_succ_cons]
      conv_lhs => rw [form]
      rfl
    · have read : digitsOf (b :: x) = [] := by simp [digitsOf, digit]
      rw [read]
      refine ⟨?_, [], rfl, rfl⟩
      rintro _ ⟨⟩
      simpa using digit

theorem leaves_finish {negative : Bool} {significand : Nat} {scale : Int} :
    Leaves (finish negative significand scale) x fun _ y => y = x := by
  unfold finish
  split
  · exact leaves_pure rfl
  · exact leaves_fail _

theorem exists_digits {y : Bytes} {c : Char} (digit : c.isDigit = true)
    (seen : x.head?.map Char.ofUInt8 = some c) (ends : EndsDigits y) {l : List Digit}
    (form : x = spellDigits l ++ y) : ∃ d ds, l = d :: ds ∧ c = Char.ofUInt8 d.byte := by
  cases l with
  | nil =>
    obtain rfl : x = y := form
    rcases x with _ | ⟨b, x⟩
    · cases seen
    · obtain rfl := Option.some.inj seen
      rw [ends b rfl] at digit
      cases digit
  | cons d ds =>
    rw [form] at seen
    exact ⟨d, ds, rfl, (Option.some.inj seen).symm⟩

theorem leaves_exponentPart {mark : Char} (known : mark = 'e' ∨ mark = 'E') {negative : Bool}
    {significand : Nat} {scale : Int} :
    Leaves (exponentPart negative significand scale) (mark.toUInt8 :: x) fun _ y =>
      ∃ p : Power, mark.toUInt8 :: x = p.text ++ y := by
  unfold exponentPart
  refine leaves_advance (leaves_peek fun sign shown => ?_)
  extract_lets signed?
  have goes (sign : Option Bool) (z : Bytes)
      (form : x = (sign.elim [] fun minus => if minus then ['-'.toUInt8] else ['+'.toUInt8]) ++ z)
      (down : Bool) :
      Leaves (signed? down) z fun _ y => ∃ p : Power, mark.toUInt8 :: x = p.text ++ y := by
    refine leaves_peek fun found seen => ?_
    rcases found with _ | c
    · exact leaves_fail _
    dsimp only
    split
    · exact leaves_failNext _
    next digit =>
    refine leaves_cursor fun p => leaves_digits.bind ?_
    rintro values y ⟨ends, ds, rfl, digits⟩
    obtain ⟨d, more, rfl, -⟩ := exists_digits (by simpa using digit) seen ends digits
    have read : ∃ p : Power, mark.toUInt8 :: x = p.text ++ y := by
      refine ⟨⟨mark, known, sign, d :: more, List.cons_ne_nil d more⟩, ?_⟩
      rw [Power.text_append, form, digits]
      rfl
    split
    · exact leaves_finish.mono fun _ _ same => same ▸ read
    · split
      · exact leaves_jump (leaves_fail _)
      · exact leaves_pure read
  clear_value signed?
  split
  · obtain ⟨z, rfl⟩ := exists_cons_of_head? (c := '+') (by decide) shown
    exact leaves_advance (goes (some false) z rfl _)
  · obtain ⟨z, rfl⟩ := exists_cons_of_head? (c := '-') (by decide) shown
    exact leaves_advance (goes (some true) z rfl _)
  · exact goes none x rfl _

section Parts

variable {α : Type} {point scaled plain : Reader α}

theorem leaves_atPower
    (given : ∀ mark y, mark = 'e' ∨ mark = 'E' → Leaves scaled (mark.toUInt8 :: y) fun _ z =>
      ∃ p : Power, mark.toUInt8 :: y = p.text ++ z)
    (missing : Leaves plain x fun _ z => z = x) :
    Leaves (do
      match ← peek with
      | some 'e' | some 'E' => scaled
      | _ => plain) x fun _ z => ∃ power : Option Power, x = power.elim [] Power.text ++ z := by
  refine leaves_peek fun found seen => ?_
  split
  · obtain ⟨y, rfl⟩ := exists_cons_of_head? (c := 'e') (by decide) seen
    exact (given 'e' y (.inl rfl)).mono fun _ z ⟨p, form⟩ => ⟨some p, form⟩
  · obtain ⟨y, rfl⟩ := exists_cons_of_head? (c := 'E') (by decide) seen
    exact (given 'E' y (.inr rfl)).mono fun _ z ⟨p, form⟩ => ⟨some p, form⟩
  · exact missing.mono fun _ z same => ⟨none, same.symm⟩

theorem leaves_atTail
    (broken : ∀ y, Leaves point ('.'.toUInt8 :: y) fun _ z =>
      ∃ (ds : List Digit) (power : Option Power), ds ≠ [] ∧
        y = spellDigits ds ++ (power.elim [] Power.text ++ z))
    (given : ∀ mark y, mark = 'e' ∨ mark = 'E' → Leaves scaled (mark.toUInt8 :: y) fun _ z =>
      ∃ p : Power, mark.toUInt8 :: y = p.text ++ z)
    (missing : Leaves plain x fun _ z => z = x) :
    Leaves (do
      match ← peek with
      | some '.' => point
      | some 'e' | some 'E' => scaled
      | _ => plain) x fun _ z => ∃ (fraction : List Digit) (power : Option Power),
        x = (if fraction = [] then [] else '.'.toUInt8 :: spellDigits fraction) ++
          power.elim [] Power.text ++ z := by
  refine leaves_peek fun found seen => ?_
  split
  · obtain ⟨y, rfl⟩ := exists_cons_of_head? (c := '.') (by decide) seen
    refine (broken y).mono ?_
    rintro _ z ⟨ds, power, some, form⟩
    refine ⟨ds, power, ?_⟩
    rw [if_neg some, form]
    simp
  · obtain ⟨y, rfl⟩ := exists_cons_of_head? (c := 'e') (by decide) seen
    exact (given 'e' y (.inl rfl)).mono fun _ z ⟨p, form⟩ => ⟨[], some p, form⟩
  · obtain ⟨y, rfl⟩ := exists_cons_of_head? (c := 'E') (by decide) seen
    exact (given 'E' y (.inr rfl)).mono fun _ z ⟨p, form⟩ => ⟨[], some p, form⟩
  · exact missing.mono fun _ z same => ⟨[], none, same.symm⟩

end Parts

theorem leaves_fractionPart {negative : Bool} {significand : Nat} {scale : Int} :
    Leaves (fractionPart negative significand scale) ('.'.toUInt8 :: x) fun _ z =>
      ∃ (ds : List Digit) (power : Option Power), ds ≠ [] ∧
        x = spellDigits ds ++ (power.elim [] Power.text ++ z) := by
  unfold fractionPart
  refine leaves_advance (leaves_digits.bind ?_)
  rintro values y ⟨-, ds, rfl, form⟩
  extract_lets after
  have goes : Leaves (after ()) y fun _ z =>
      ∃ power : Option Power, y = power.elim [] Power.text ++ z :=
    leaves_atPower (fun mark y known => leaves_exponentPart known) leaves_finish
  clear_value after
  split
  · refine leaves_peek fun found _ => ?_
    rcases found with _ | c
    · exact (leaves_fail _).stop
    · exact (leaves_failNext _).stop
  · next some =>
    refine goes.mono ?_
    rintro _ z ⟨power, rfl⟩
    exact ⟨ds, power, by simpa using some, form⟩

theorem leaves_number {negative : Bool} :
    Leaves (number negative) x fun _ y =>
      ∃ n : Numeral, n.negative = negative ∧ x = n.size ++ y := by
  unfold number
  refine leaves_peek fun first seen => ?_
  rcases first with _ | first
  · exact leaves_fail _
  dsimp -zeta only
  split
  · exact leaves_failNext _
  next digit =>
  extract_lets valued
  have goes (ds : List Nat) (whole : List Digit) (given : whole ≠ [])
      (lean : whole.head? = some 0 → whole = [0]) (z : Bytes) (form : x = spellDigits whole ++ z) :
      Leaves (valued ds) z fun _ y => ∃ n : Numeral, n.negative = negative ∧ x = n.size ++ y := by
    have tail : Leaves (valued ds) z fun _ y => ∃ (fraction : List Digit) (power : Option Power),
        z = (if fraction = [] then [] else '.'.toUInt8 :: spellDigits fraction) ++
          power.elim [] Power.text ++ y := by
      refine leaves_atTail (fun y => leaves_fractionPart) (fun mark y known => leaves_exponentPart known)
        ?_
      split
      · exact leaves_pure rfl
      · exact leaves_finish
    refine tail.mono ?_
    rintro _ y ⟨fraction, power, rest⟩
    refine ⟨⟨negative, whole, fraction, power, given, lean⟩, rfl, ?_⟩
    rw [form, rest]
    simp [Numeral.size, Numeral.tail]
  clear_value valued
  split
  · next zero =>
    subst zero
    obtain ⟨z, rfl⟩ := exists_cons_of_head? (c := '0') (by decide) seen
    have alone := fun ds => goes ds [0] (by decide) (fun _ => rfl) z rfl
    refine leaves_advance (leaves_peek fun next _ => ?_)
    rcases next with _ | next
    · exact alone _
    · dsimp only
      split
      · exact (leaves_failNext _).stop
      · exact alone _
  · next nonzero =>
    refine leaves_digits.bind ?_
    rintro values y ⟨ends, ds, rfl, form⟩
    obtain ⟨d, more, rfl, same⟩ := exists_digits (by simpa using digit) seen ends form
    refine goes _ (d :: more) (List.cons_ne_nil d more) (fun zero => ?_) y form
    obtain rfl : d = 0 := Option.some.inj zero
    exact absurd same nonzero

/-! ### Strings -/

theorem leaves_hexEscape : Leaves hexEscape x fun n y =>
    ∃ code : Code, code.number = n ∧ x = code.bytes ++ y := by
  refine leaves_cursor fun p => ?_
  rcases x with _ | ⟨a, _ | ⟨b, _ | ⟨c, _ | ⟨d, y⟩⟩⟩⟩
  case cons.cons.cons.cons =>
    refine leaves_jump ?_
    dsimp only
    split
    · next n spelled => exact leaves_pure ⟨⟨a, b, c, d, n, spelled⟩, rfl, rfl⟩
    · exact leaves_fail _
  all_goals exact leaves_jump (leaves_fail _)

theorem leaves_surrogateSign {c : Char} (ascii : IsAscii c) :
    Leaves (surrogateSign c) x fun _ y => x = c.toUInt8 :: y := by
  refine leaves_peek fun found seen => ?_
  rcases found with _ | d
  · exact leaves_fail _
  dsimp only
  split
  · next same =>
    subst same
    obtain ⟨y, rfl⟩ := exists_cons_of_head? ascii seen
    exact leaves_pass rfl
  · exact leaves_failNext _

theorem leaves_unicodeEscape : Leaves unicodeEscape x fun _ y =>
    ∃ piece : Piece, ascii ['\\', 'u'] ++ x = piece.text ++ y := by
  refine leaves_hexEscape.bind ?_
  rintro n y ⟨high, rfl, rfl⟩
  split
  · exact leaves_fail _
  split
  · exact leaves_pure ⟨.escaped high, by simp [Piece.text]⟩
  next lone single =>
  have first : high.isHigh = true := by
    simp only [Code.isHigh, Bool.and_eq_true, decide_eq_true_eq]
    omega
  refine (leaves_surrogateSign (by decide)).bind ?_
  rintro - y rfl
  refine (leaves_surrogateSign (by decide)).bind ?_
  rintro - y rfl
  refine leaves_hexEscape.bind ?_
  rintro n y ⟨low, rfl, rfl⟩
  split
  · exact leaves_fail _
  next pairs =>
  have second : low.isLow = true := by
    simp only [Code.isLow, Bool.and_eq_true, decide_eq_true_eq]
    omega
  exact leaves_pure ⟨.pair high low first second, by simp [Piece.text, ascii]⟩

theorem leaves_escapedChar : Leaves escapedChar x fun _ y =>
    ∃ piece : Piece, '\\'.toUInt8 :: x = piece.text ++ y := by
  have short {letter c : Char} (ascii : IsAscii letter) (known : (letter, c) ∈ shortForms)
      (seen : x.head?.map Char.ofUInt8 = some letter) :
      Leaves (do advance; pure c) x fun _ y =>
        ∃ piece : Piece, '\\'.toUInt8 :: x = piece.text ++ y := by
    obtain ⟨y, rfl⟩ := exists_cons_of_head? ascii seen
    exact leaves_advance (leaves_pure ⟨.short letter c known, rfl⟩)
  refine leaves_peek fun found seen => ?_
  rcases found with _ | c
  · exact leaves_fail _
  dsimp only
  split
  case h_9 =>
    obtain ⟨y, rfl⟩ := exists_cons_of_head? (c := 'u') (by decide) seen
    exact leaves_advance leaves_unicodeEscape
  case h_10 => exact leaves_failNext _
  all_goals exact short (by decide) (by decide) seen

theorem exists_strays {bytes : Bytes} (free : ∀ b ∈ bytes, IsFree b) :
    ∃ s : Literal, s.inside = bytes := by
  induction bytes with
  | nil => exact ⟨[], rfl⟩
  | cons b bytes ih =>
    obtain ⟨first, later⟩ := List.forall_mem_cons.mp free
    obtain ⟨s, form⟩ := ih later
    refine ⟨.stray b first :: s, ?_⟩
    rw [← form]
    rfl

theorem isFree_of_high {b : UInt8} (high : 0x80 ≤ b) : IsFree b := by
  refine ⟨UInt8.le_trans (by decide) high, ?_, ?_⟩ <;>
  · rintro rfl
    exact absurd high (by decide)

theorem leaves_stringChars (rounds : Nat) (seen : List Char) :
    Leaves (stringChars rounds seen) x fun _ y =>
      ∃ s : Literal, x = s.inside ++ '"'.toUInt8 :: y := by
  induction rounds generalizing seen x with
  | zero => exact leaves_fail _
  | succ rounds ih =>
    refine leaves_cursor fun p => ?_
    rcases x with _ | ⟨b, x⟩
    · exact leaves_fail _
    dsimp only
    split
    · next quote =>
      subst quote
      exact leaves_advance (leaves_pure ⟨[], rfl⟩)
    next quote =>
    split
    · next backslash =>
      subst backslash
      refine leaves_advance (leaves_escapedChar.bind ?_)
      rintro c y ⟨piece, form⟩
      refine (ih _).mono ?_
      rintro - z ⟨s, rfl⟩
      exact ⟨piece :: s, by rw [form, Literal.inside_cons, List.append_assoc]⟩
    next backslash =>
    split
    · exact leaves_failNext _
    next visible =>
    have first : IsFree b := ⟨UInt8.not_lt.mp visible, quote, backslash⟩
    split
    · next c rest passed =>
      obtain ⟨tails, high, rfl⟩ := Text.Utf8.exists_tails passed
      refine leaves_jump ((ih _).mono ?_)
      rintro - z ⟨s, rfl⟩
      have all : ∀ t ∈ b :: tails, IsFree t :=
        List.forall_mem_cons.mpr ⟨first, fun t inside => isFree_of_high (high t inside)⟩
      obtain ⟨t, form⟩ := exists_strays all
      refine ⟨t ++ s, ?_⟩
      rw [Literal.inside_append, form]
      simp
    · exact leaves_failNext _

theorem leaves_string : Leaves string x fun _ y => ∃ s : Literal, x = s.inside ++ '"'.toUInt8 :: y :=
  leaves_cursor fun _ => leaves_stringChars _ _

/-! ### What is passed over -/

theorem leaves_skipDigits : Leaves skipDigits x fun _ y =>
    EndsDigits y ∧ ∃ l : List Digit, x = spellDigits l ++ y := by
  refine leaves_digits.bind ?_
  rintro values y ⟨ends, l, -, form⟩
  exact leaves_pure ⟨ends, l, form⟩

theorem leaves_skipDigit : Leaves skipDigit x fun c y =>
    ∃ d : Digit, c = Char.ofUInt8 d.byte ∧ x = d.byte :: y := by
  refine leaves_peek fun found seen => ?_
  rcases x with _ | ⟨b, x⟩
  · subst seen
    exact leaves_fail _
  · subst seen
    refine leaves_advance ?_
    split
    · next digit =>
      obtain ⟨d, rfl⟩ := exists_digit_of_byte digit
      exact leaves_pure ⟨d, rfl, rfl⟩
    · exact leaves_fail _

theorem leaves_skipExponent {mark : Char} (known : mark = 'e' ∨ mark = 'E') :
    Leaves skipExponent (mark.toUInt8 :: x) fun _ y =>
      ∃ p : Power, mark.toUInt8 :: x = p.text ++ y := by
  unfold skipExponent
  refine leaves_advance (leaves_peek fun sign shown => ?_)
  extract_lets signed
  have goes (sign : Option Bool) (z : Bytes)
      (form : x = (sign.elim [] fun minus => if minus then ['-'.toUInt8] else ['+'.toUInt8]) ++ z) :
      Leaves (signed ()) z fun _ y => ∃ p : Power, mark.toUInt8 :: x = p.text ++ y := by
    have digit : Leaves (discard skipDigit) z fun _ y => ∃ d : Digit, z = d.byte :: y :=
      leaves_skipDigit.bind fun _ _ ⟨d, _, form⟩ => leaves_pure ⟨d, form⟩
    refine digit.bind ?_
    rintro - y ⟨d, rfl⟩
    refine leaves_skipDigits.mono ?_
    rintro - y ⟨-, more, rfl⟩
    refine ⟨⟨mark, known, sign, d :: more, List.cons_ne_nil d more⟩, ?_⟩
    rw [Power.text_append, form]
    rfl
  clear_value signed
  split
  · obtain ⟨z, rfl⟩ := exists_cons_of_head? (c := '+') (by decide) shown
    exact leaves_advance (goes (some false) z rfl)
  · obtain ⟨z, rfl⟩ := exists_cons_of_head? (c := '-') (by decide) shown
    exact leaves_advance (goes (some true) z rfl)
  · exact goes none x rfl

theorem leaves_skipFraction :
    Leaves skipFraction ('.'.toUInt8 :: x) fun _ z =>
      ∃ (ds : List Digit) (power : Option Power), ds ≠ [] ∧
        x = spellDigits ds ++ (power.elim [] Power.text ++ z) := by
  unfold skipFraction
  refine leaves_advance (leaves_digits.bind ?_)
  rintro values y ⟨-, ds, rfl, form⟩
  dsimp only
  split
  · exact (leaves_failNext _).stop
  · next given =>
    have goes : Leaves (do
        match ← peek with
        | some 'e' | some 'E' => skipExponent
        | _ => pure ()) y fun _ z => ∃ power : Option Power, y = power.elim [] Power.text ++ z :=
      leaves_atPower (fun mark y known => leaves_skipExponent known) (leaves_pure rfl)
    refine goes.mono ?_
    rintro _ z ⟨power, rfl⟩
    exact ⟨ds, power, by simpa using given, form⟩

theorem leaves_skipNumber (negative : Bool) :
    Leaves skipNumber x fun _ y => ∃ n : Numeral, n.negative = negative ∧ x = n.size ++ y := by
  unfold skipNumber
  refine leaves_skipDigit.bind ?_
  rintro first x ⟨d, rfl, rfl⟩
  extract_lets whole
  have goes (more : List Digit) (lean : d = 0 → more = []) (z : Bytes)
      (form : x = spellDigits more ++ z) :
      Leaves (whole ()) z fun _ y =>
        ∃ n : Numeral, n.negative = negative ∧ d.byte :: x = n.size ++ y := by
    have tail : Leaves (whole ()) z fun _ y => ∃ (fraction : List Digit) (power : Option Power),
        z = (if fraction = [] then [] else '.'.toUInt8 :: spellDigits fraction) ++
          power.elim [] Power.text ++ y :=
      leaves_atTail (fun y => leaves_skipFraction) (fun mark y known => leaves_skipExponent known)
        (leaves_pure rfl)
    refine tail.mono ?_
    rintro - y ⟨fraction, power, rest⟩
    refine ⟨⟨negative, d :: more, fraction, power, List.cons_ne_nil d more, fun zero => ?_⟩, rfl, ?_⟩
    · obtain rfl : d = 0 := Option.some.inj zero
      rw [lean rfl]
    · rw [form, rest]
      simp [Numeral.size, Numeral.tail, spellDigits]
  clear_value whole
  split
  · refine leaves_peek fun next _ => ?_
    rcases next with _ | next
    · exact goes [] (fun _ => rfl) x rfl
    · dsimp only
      split
      · exact (leaves_failNext _).stop
      · exact goes [] (fun _ => rfl) x rfl
  · next nonzero =>
    refine leaves_skipDigits.bind ?_
    rintro - y ⟨-, more, form⟩
    exact goes more (fun zero => absurd ((zero_iff_byte d).mpr zero) nonzero) y form

theorem leaves_skipEscape : Leaves skipEscape x fun _ y =>
    ∃ piece : Piece, '\\'.toUInt8 :: x = piece.text ++ y := by
  refine leaves_peek fun found seen => ?_
  split
  · exact leaves_fail _
  · obtain ⟨y, rfl⟩ := exists_cons_of_head? (c := 'u') (by decide) seen
    refine leaves_advance (leaves_hexEscape.bind ?_)
    rintro n z ⟨code, -, rfl⟩
    exact leaves_pure ⟨.escaped code, by simp [Piece.text, ascii]⟩
  · next letter _ =>
    rcases x with _ | ⟨b, x⟩
    · cases seen
    obtain rfl := Option.some.inj seen
    refine leaves_advance ?_
    split
    · exact leaves_fail _
    · next known =>
      have known : Char.ofUInt8 b ∈ shortForms.map Prod.fst := not_not.mp known
      have ascii : ∀ form ∈ shortForms, IsAscii form.1 := by decide
      obtain ⟨⟨letter, c⟩, form, named⟩ := List.mem_map.mp known
      obtain rfl := (ofUInt8_eq_iff (ascii _ form)).mp named.symm
      exact leaves_pure ⟨.short letter c form, rfl⟩

theorem leaves_skipStringRounds (rounds : Nat) :
    Leaves (skipStringRounds rounds) x fun _ y =>
      ∃ s : Literal, x = s.inside ++ '"'.toUInt8 :: y := by
  induction rounds generalizing x with
  | zero => exact leaves_fail _
  | succ rounds ih =>
    refine leaves_peek fun found seen => ?_
    split
    · exact leaves_fail _
    · obtain ⟨y, rfl⟩ := exists_cons_of_head? (c := '"') (by decide) seen
      exact leaves_pass ⟨[], rfl⟩
    · obtain ⟨y, rfl⟩ := exists_cons_of_head? (c := '\\') (by decide) seen
      refine leaves_advance (leaves_skipEscape.bind ?_)
      rintro - z ⟨piece, form⟩
      refine ih.mono ?_
      rintro - z ⟨s, rfl⟩
      exact ⟨piece :: s, by rw [form, Literal.inside_cons, List.append_assoc]⟩
    · next c quote backslash =>
      rcases x with _ | ⟨b, x⟩
      · cases seen
      obtain rfl := Option.some.inj seen
      split
      · exact leaves_fail _
      next visible =>
      have free : IsFree b := by
        refine ⟨UInt8.le_iff_toNat_le.mpr (Nat.not_lt.mp visible), ?_, ?_⟩
        · rintro rfl
          exact quote rfl
        · rintro rfl
          exact backslash rfl
      refine leaves_advance (ih.mono ?_)
      rintro - z ⟨s, rfl⟩
      exact ⟨.stray b free :: s, rfl⟩

theorem leaves_skipString : Leaves skipString x fun _ y =>
    ∃ s : Literal, x = s.inside ++ '"'.toUInt8 :: y :=
  leaves_cursor fun _ => leaves_skipStringRounds _

end Tokens

end Reader
end CloudProvider.Json
