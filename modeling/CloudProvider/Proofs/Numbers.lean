import CloudProvider.Proofs.Tokens

/-! Numbers as they are read. What a numeral means has been said without a reader; the reader comes to the
same number if nothing follows that would belong to it. -/

namespace CloudProvider.Json
namespace Reader

section Numbers

variable {y : Bytes}

def EndsDigits (y : Bytes) : Prop :=
  ∀ b ∈ y.head?, (Char.ofUInt8 b).isDigit = false

/-- Nothing follows that would belong to the number. -/
def EndsNumber (y : Bytes) : Prop :=
  ∀ b ∈ y.head?, (Char.ofUInt8 b).isDigit = false ∧ Char.ofUInt8 b ≠ '.' ∧ Char.ofUInt8 b ≠ 'e' ∧
    Char.ofUInt8 b ≠ 'E'

theorem isDigit_byte : ∀ d : Digit, (Char.ofUInt8 d.byte).isDigit = true := by
  decide

theorem toNat_byte : ∀ d : Digit, d.byte.toNat - 48 = d.val := by
  decide

theorem zero_iff_byte : ∀ d : Digit, Char.ofUInt8 d.byte = '0' ↔ d = 0 := by
  decide

theorem unsigned_byte : ∀ d : Digit, Char.ofUInt8 d.byte ≠ '+' ∧ Char.ofUInt8 d.byte ≠ '-' := by
  decide

theorem digitsOf_spellDigits (ds : List Digit) (ends : EndsDigits y) :
    digitsOf (spellDigits ds ++ y) = ds.map Fin.val := by
  induction ds with
  | nil =>
    rcases y with _ | ⟨b, y⟩
    · rfl
    · simp [spellDigits, digitsOf, ends b rfl]
  | cons d ds ih =>
    have rest : digitsOf (spellDigits ds ++ y) = ds.map Fin.val := ih
    unfold digitsOf at rest ⊢
    simp only [spellDigits, List.map_cons, List.cons_append, List.takeWhile_cons, isDigit_byte, if_true,
      toNat_byte] at rest ⊢
    rw [rest]

theorem reads_digits (ds : List Digit) (ends : EndsDigits y) :
    Reads digits (spellDigits ds ++ y) (ds.map Fin.val) y := by
  intro p
  refine ⟨⟨p.line, p.column + ds.length⟩, ?_⟩
  have dropped : (spellDigits ds ++ y).drop ds.length = y :=
    List.drop_left' (by simp [spellDigits])
  simp only [digits, digitsOf_spellDigits ds ends, List.length_map, dropped]

theorem reads_finish {negative : Bool} {significand : Nat} {scale : Int} {x : Number}
    (scaled : (scaled? significand scale).map (signed negative) = some x) (y : Bytes) :
    Reads (finish negative significand scale) y x y := by
  obtain ⟨f, found, rfl⟩ := Option.map_eq_some_iff.mp scaled
  rw [finish, found]
  exact reads_pure y _

theorem exists_peek_sign (p : Power) (y : Bytes) :
    ∃ found, Reads peek (p.signText ++ (spellDigits p.digits ++ y)) found
        (p.signText ++ (spellDigits p.digits ++ y)) ∧
      (found = some '+' ∧ p.signText = ['+'.toUInt8] ∧ p.falls = false ∨
        found = some '-' ∧ p.signText = ['-'.toUInt8] ∧ p.falls = true ∨
        found ≠ some '+' ∧ found ≠ some '-' ∧ p.signText = [] ∧ p.falls = false) := by
  obtain ⟨mark, known, sign, digits, given⟩ := p
  rcases sign with _ | _ | _
  · obtain ⟨d, ds, rfl⟩ := List.exists_cons_of_ne_nil given
    refine ⟨_, reads_peek d.byte _, .inr (.inr ⟨?_, ?_, rfl, rfl⟩)⟩
    · exact fun same => (unsigned_byte d).1 (Option.some.inj same)
    · exact fun same => (unsigned_byte d).2 (Option.some.inj same)
  · exact ⟨_, reads_peek_char (c := '+') (by decide) _, .inl ⟨rfl, rfl, rfl⟩⟩
  · exact ⟨_, reads_peek_char (c := '-') (by decide) _, .inr (.inl ⟨rfl, rfl, rfl⟩)⟩

theorem peek_digits (p : Power) (y : Bytes) : ∃ d : Digit,
    Reads peek (spellDigits p.digits ++ y) (some (Char.ofUInt8 d.byte)) (spellDigits p.digits ++ y) := by
  obtain ⟨d, ds, form⟩ := List.exists_cons_of_ne_nil p.given
  rw [form]
  exact ⟨d, reads_peek d.byte _⟩

theorem reads_exponentPart {p : Power} {negative : Bool} {significand : Nat} {scale : Int}
    {x : Number} (meant : p.number? negative significand scale = some x) (ends : EndsDigits y) :
    Reads (exponentPart negative significand scale) (p.text ++ y) x y := by
  obtain ⟨found, seen, sign⟩ := exists_peek_sign p y
  rw [Power.text_append]
  unfold exponentPart
  refine (reads_advance _ _).bind (seen.bind ?_)
  extract_lets signed?
  have read : Reads (signed? p.falls) (spellDigits p.digits ++ y) x y := by
    obtain ⟨d, first⟩ := peek_digits p y
    refine first.bind ?_
    dsimp only
    rw [if_neg (by simp [isDigit_byte])]
    refine reads_cursor fun start => (reads_digits p.digits ends).bind ?_
    rw [Power.number?] at meant
    rcases told : exponentDigits 0 (p.digits.map Fin.val) 0 with ⟨n, _ | passed⟩
    · rw [told] at meant
      exact reads_finish meant y
    · rw [told] at meant
      dsimp only at meant ⊢
      split at meant
      · cases meant
      · next other =>
        rw [if_neg other]
        obtain rfl := Option.some.inj meant
        exact reads_pure y _
  clear_value signed?
  obtain ⟨rfl, text, falls⟩ | ⟨rfl, text, falls⟩ | ⟨plus, minus, text, falls⟩ := sign
  · rw [text]
    rw [falls] at read
    exact (reads_advance _ _).bind read
  · rw [text]
    rw [falls] at read
    exact (reads_advance _ _).bind read
  · rw [text]
    rw [falls] at read
    split
    · exact absurd rfl plus
    · exact absurd rfl minus
    · exact read

theorem EndsNumber.endsDigits (ends : EndsNumber y) : EndsDigits y :=
  fun b inside => (ends b inside).1

theorem endsDigits_cons {c : Char} (ascii : IsAscii c) (other : c.isDigit = false) (x : Bytes) :
    EndsDigits (c.toUInt8 :: x) := by
  rintro b ⟨⟩
  rw [ofUInt8_toUInt8 ascii]
  exact other

theorem endsDigits_power (power : Option Power) (ends : EndsNumber y) :
    EndsDigits (power.elim [] Power.text ++ y) := by
  rcases power with _ | p
  · exact ends.endsDigits
  · rw [Option.elim_some, Power.text_append]
    rcases p.known with mark | mark <;> rw [mark] <;> exact endsDigits_cons (by decide) (by decide) _

theorem reads_peek_end (ends : EndsNumber y) : ∃ found, Reads peek y found y ∧
    found ≠ some '.' ∧ found ≠ some 'e' ∧ found ≠ some 'E' ∧ ∀ c ∈ found, c.isDigit = false := by
  rcases y with _ | ⟨b, y⟩
  · exact ⟨none, reads_peek_nil, nofun, nofun, nofun, nofun⟩
  · obtain ⟨digit, point, small, great⟩ := ends b rfl
    refine ⟨_, reads_peek b y, ?_, ?_, ?_, ?_⟩
    · exact fun same => point (Option.some.inj same)
    · exact fun same => small (Option.some.inj same)
    · exact fun same => great (Option.some.inj same)
    · rintro c ⟨⟩
      exact digit

section Parts

variable {α : Type} {a : α} {power : Option Power} {n : Numeral} {point scaled plain : Reader α}

theorem exists_peek_mark (p : Power) (y : Bytes) :
    ∃ c, Reads peek (p.text ++ y) (some c) (p.text ++ y) ∧ (c = 'e' ∨ c = 'E') := by
  rw [Power.text_append]
  obtain mark | mark := p.known
  · rw [mark]
    exact ⟨'e', reads_peek_char (by decide) _, .inl rfl⟩
  · rw [mark]
    exact ⟨'E', reads_peek_char (by decide) _, .inr rfl⟩

theorem reads_atPower (ends : EndsNumber y)
    (given : ∀ p, power = some p → Reads scaled (p.text ++ y) a y)
    (missing : power = none → Reads plain y a y) :
    Reads (do
      match ← peek with
      | some 'e' | some 'E' => scaled
      | _ => plain) (power.elim [] Power.text ++ y) a y := by
  rcases power with _ | p
  · obtain ⟨found, seen, -, small, great, -⟩ := reads_peek_end ends
    refine seen.bind ?_
    split
    · exact absurd rfl small
    · exact absurd rfl great
    · exact missing rfl
  · obtain ⟨c, seen, rfl | rfl⟩ := exists_peek_mark p y
    · exact seen.bind (given p rfl)
    · exact seen.bind (given p rfl)

theorem reads_atTail (ends : EndsNumber y)
    (broken : n.fraction ≠ [] → Reads point ('.'.toUInt8 ::
      (spellDigits n.fraction ++ (n.power.elim [] Power.text ++ y))) a y)
    (given : n.fraction = [] → ∀ p, n.power = some p → Reads scaled (p.text ++ y) a y)
    (missing : n.fraction = [] → n.power = none → Reads plain y a y) :
    Reads (do
      match ← peek with
      | some '.' => point
      | some 'e' | some 'E' => scaled
      | _ => plain) (n.tail ++ y) a y := by
  unfold Numeral.tail
  split
  · next whole =>
    rw [List.nil_append]
    rcases power : n.power with _ | p
    · obtain ⟨found, seen, point, small, great, -⟩ := reads_peek_end ends
      refine seen.bind ?_
      split
      · exact absurd rfl point
      · exact absurd rfl small
      · exact absurd rfl great
      · exact missing whole power
    · obtain ⟨c, seen, rfl | rfl⟩ := exists_peek_mark p y
      · exact seen.bind (given whole p power)
      · exact seen.bind (given whole p power)
  · next fraction =>
    rw [List.append_assoc, List.cons_append]
    exact (reads_peek_char (c := '.') (by decide) _).bind (broken fraction)

end Parts

theorem endsDigits_tail (n : Numeral) (ends : EndsNumber y) : EndsDigits (n.tail ++ y) := by
  unfold Numeral.tail
  split
  · exact endsDigits_power n.power ends
  · exact endsDigits_cons (c := '.') (by decide) (by decide) _

theorem reads_fractionPart {ds : List Digit} (given : ds ≠ []) {power : Option Power}
    {negative : Bool} {significand : Nat} {scale : Int} {x : Number}
    (meant : Numeral.scaled? negative (absorb significand (ds.map Fin.val)).1
      (scale - (absorb significand (ds.map Fin.val)).2) power = some x) (ends : EndsNumber y) :
    Reads (fractionPart negative significand scale)
      ('.'.toUInt8 :: (spellDigits ds ++ (power.elim [] Power.text ++ y))) x y := by
  unfold fractionPart
  refine (reads_advance _ _).bind ((reads_digits ds (endsDigits_power power ends)).bind ?_)
  have some : ¬ (ds.map Fin.val).isEmpty = true := by simpa using given
  dsimp only
  rw [if_neg some]
  refine reads_atPower ends ?_ ?_
  · rintro p rfl
    exact reads_exponentPart meant ends.endsDigits
  · rintro rfl
    exact reads_finish meant y

theorem reads_number {n : Numeral} {x : Number} (meant : n.number? = some x) (ends : EndsNumber y) :
    Reads (number n.negative) (n.size ++ y) x y := by
  obtain ⟨d, ds, form⟩ := List.exists_cons_of_ne_nil n.given
  have text : n.size ++ y = d.byte :: (spellDigits ds ++ (n.tail ++ y)) := by
    simp [Numeral.size, form, spellDigits]
  have stops := endsDigits_tail n ends
  have whole := reads_digits n.whole stops
  rw [text]
  unfold number
  refine (reads_peek d.byte _).bind ?_
  dsimp -zeta only
  rw [if_neg (by simp [isDigit_byte])]
  extract_lets valued
  have read : Reads (valued (n.whole.map Fin.val)) (n.tail ++ y) x y := by
    rw [Numeral.number?] at meant
    dsimp only at meant
    refine reads_atTail ends (fun fraction => ?_) (fun pointless p power => ?_)
      (fun pointless powerless => ?_)
    · rw [if_neg (fun plain => fraction plain.1)] at meant
      exact reads_fractionPart fraction meant ends
    · rw [if_neg (fun plain => by simp [power] at plain), pointless, power, List.map_nil, absorb,
        Nat.cast_zero, Int.sub_zero] at meant
      exact reads_exponentPart meant ends.endsDigits
    · rw [pointless, powerless, List.map_nil, absorb, Nat.cast_zero, Int.sub_zero] at meant
      split at meant
      · next plain =>
        obtain rfl := Option.some.inj meant
        rw [if_pos plain.2.2]
        exact reads_pure y _
      · next excess =>
        rw [if_neg fun fits => excess ⟨rfl, rfl, fits⟩]
        exact reads_finish meant y
  clear_value valued
  split
  · next zero =>
    have alone : n.whole = [0] := n.lean (by rw [form, (zero_iff_byte d).mp zero]; rfl)
    obtain ⟨rfl, rfl⟩ := List.cons.inj (form.symm.trans alone)
    rw [alone] at read
    refine (reads_advance _ _).bind ?_
    rcases behind : n.tail ++ y with _ | ⟨b, more⟩
    · rw [behind] at read
      exact reads_peek_nil.bind read
    · rw [behind] at read stops
      refine (reads_peek b more).bind ?_
      dsimp only
      rw [if_neg (by simp [stops b rfl])]
      exact read
  · rw [form] at whole read
    exact whole.bind read

end Numbers
end Reader
end CloudProvider.Json
