import CloudProvider.Proofs.Characters
import CloudProvider.Proofs.Reads

/-! Readers on compact texts. A reader passes a text if it reads a value from its front and stops right
behind it, wherever in a longer text this happens. Texts are lists of characters here; the bytes are
their UTF-8 forms. -/

namespace CloudProvider

namespace Json

open Text (Dictionary)

def spell (cs : List Char) : Bytes :=
  cs.flatMap String.utf8EncodeChar

theorem encode_ofList (cs : List Char) : Text.Utf8.encode (String.ofList cs) = spell cs := by
  rw [Text.Utf8.encode, String.toList_ofList]
  rfl

theorem length_le_spell (cs : List Char) : cs.length ≤ (spell cs).length := by
  induction cs with
  | nil => simp
  | cons c cs ih =>
    obtain ⟨b, tail, form, -⟩ := Text.Utf8.exists_front c []
    simp only [spell, List.flatMap_cons, form, List.length_append, List.length_cons] at ih ⊢
    omega

def IsAscii (c : Char) : Prop :=
  c.toNat < 128

instance (c : Char) : Decidable (IsAscii c) :=
  inferInstanceAs (Decidable (c.toNat < 128))

section Ascii

variable {c : Char} (ascii : IsAscii c)

include ascii

theorem spell_cons (cs : List Char) : spell (c :: cs) = UInt8.ofNat c.toNat :: spell cs := by
  have form : String.utf8EncodeChar c = [UInt8.ofNat c.toNat] := by
    rw [Text.Utf8.utf8EncodeChar_eq, if_pos (Nat.le_of_lt_succ ascii)]
  rw [spell, List.flatMap_cons, form]
  rfl

theorem toNat_ofNat : (UInt8.ofNat c.toNat).toNat = c.toNat :=
  Text.Utf8.toNat_byte (Nat.lt_trans ascii (by decide))

theorem ofUInt8_ofNat : Char.ofUInt8 (UInt8.ofNat c.toNat) = c :=
  Char.ext (UInt32.toNat_inj.mp (toNat_ofNat ascii))

end Ascii

namespace Reader

variable {α β : Type}

/-- Before the text `before` the reader reads `a` and stops before `after`. -/
def Passes (r : Reader α) (before : List Char) (a : α) (after : List Char) : Prop :=
  ∀ p, ∃ p', r ⟨spell before, p⟩ = (.ok a, ⟨spell after, p'⟩)

section Rules

variable {x y z : List Char} {a : α} {b : β}

theorem passes_pure (x : List Char) (a : α) : Passes (pure a) x a x :=
  reads_pure (spell x) a

theorem Passes.bind {r : Reader β} {k : β → Reader α} (first : Passes r x b y)
    (next : Passes (k b) y a z) : Passes (r >>= k) x a z :=
  Reads.bind first next

theorem Passes.map {r : Reader β} {g : β → α} (passes : Passes r x b y) :
    Passes (g <$> r) x (g b) y :=
  Reads.map passes

theorem Passes.located {r : Reader α} (passes : Passes r x a y) : Passes (located r) x a y :=
  Reads.located passes

theorem Passes.bracketed {r : Reader α} {close : Reader Unit} (contents : Passes r x a y)
    (closing : Passes close y () z) : Passes (bracketed r close) x a z :=
  Reads.bracketed contents closing

theorem passes_cursor {k : Cursor → Reader α} (passes : ∀ p, Passes (k ⟨spell x, p⟩) x a y) :
    Passes (cursor >>= k) x a y :=
  reads_cursor passes

theorem passes_jump {k : Reader α} (passes : Passes k y a z) (p : Position) :
    Passes (do jump ⟨spell y, p⟩; k) x a z :=
  reads_jump passes p

theorem Passes.rounds {k : Nat → Reader α}
    (passes : ∀ rounds, x.length < rounds → Passes (k rounds) x a y) :
    Passes (do k ((← cursor).rest.length + 1)) x a y := by
  intro p
  have long := length_le_spell x
  exact passes ((spell x).length + 1) (by omega) p

end Rules

/-! ### Tokens -/

section Tokens

variable {c : Char} {cs : List Char}

theorem passes_peek (ascii : IsAscii c) (cs : List Char) :
    Passes peek (c :: cs) (some c) (c :: cs) := by
  intro p
  refine ⟨p, ?_⟩
  simp [peek, spell_cons ascii, ofUInt8_ofNat ascii]

theorem passes_peek_nil : Passes peek [] none [] :=
  fun p => ⟨p, rfl⟩

theorem passes_advance (ascii : IsAscii c) (cs : List Char) :
    Passes advance (c :: cs) () cs := by
  intro p
  refine ⟨(Cursor.mk (spell (c :: cs)) p).past, ?_⟩
  simp [advance, Cursor.next, spell_cons ascii]

theorem passes_token_nil : Passes token [] none [] :=
  fun p => ⟨p, rfl⟩

def Begins (c : Char) : Prop :=
  ' ' < c ∧ IsAscii c

instance (c : Char) : Decidable (Begins c) :=
  inferInstanceAs (Decidable (_ ∧ _))

theorem isSpace_ofNat (begins : Begins c) : Cursor.isSpace (UInt8.ofNat c.toNat) = false := by
  have above : 32 < c.toNat := begins.1
  have code := toNat_ofNat begins.2
  have other {b : UInt8} (blank : b.toNat ≤ 32) : ¬ UInt8.ofNat c.toNat = b := by
    rintro rfl
    omega
  simp only [Cursor.isSpace, Bool.or_eq_false_iff, decide_eq_false_iff_not]
  exact ⟨⟨⟨other (by decide), other (by decide)⟩, other (by decide)⟩, other (by decide)⟩

theorem passes_token (begins : Begins c) (cs : List Char) :
    Passes token (c :: cs) (some c) (c :: cs) := by
  intro p
  refine ⟨p, ?_⟩
  have seen := isSpace_ofNat begins
  simp [token, Cursor.skipSpace, Cursor.skipSpace.go, spell_cons begins.2, seen,
    ofUInt8_ofNat begins.2]

theorem passes_word (word : List Char) (ascii : word.all (decide <| IsAscii ·) = true)
    (cs : List Char) : Passes (Reader.word word) (word ++ cs) () cs := by
  induction word with
  | nil => exact passes_pure cs ()
  | cons c word ih =>
    rw [List.all_cons, Bool.and_eq_true, decide_eq_true_eq] at ascii
    obtain ⟨first, later⟩ := ascii
    rw [Reader.word]
    refine (passes_peek first _).bind ((passes_advance first _).bind ?_)
    rw [if_pos rfl]
    exact ih later

end Tokens

/-! ### Numbers -/

/-- What may stand behind a value: nothing, or what separates it from others. -/
def Stops (cs : List Char) : Prop :=
  ∀ c ∈ cs.head?, c = ',' ∨ c = ']' ∨ c = '\x7d'

theorem stops_nil : Stops [] := nofun

theorem stops_cons {c : Char} (separates : c = ',' ∨ c = ']' ∨ c = '\x7d') (cs : List Char) :
    Stops (c :: cs) :=
  fun _ same => Option.some.inj same ▸ separates

section Numbers

variable {cs : List Char}

def digitValue (c : Char) : Nat :=
  c.toNat - 48

theorem isDigit_iff {c : Char} : c.isDigit = true ↔ 48 ≤ c.toNat ∧ c.toNat ≤ 57 := by
  simp only [Char.isDigit, Bool.and_eq_true, decide_eq_true_eq, ge_iff_le,
    UInt32.le_iff_toNat_le]
  rfl

theorem isAscii_of_isDigit {c : Char} (digit : c.isDigit = true) : IsAscii c :=
  Nat.lt_of_le_of_lt (isDigit_iff.mp digit).2 (by decide)

theorem not_isDigit_of_stops {c : Char} (stops : Stops (c :: cs)) : c.isDigit = false := by
  rcases stops c rfl with rfl | rfl | rfl <;> rfl

theorem isAscii_of_stops {c : Char} (stops : Stops (c :: cs)) : IsAscii c := by
  rcases stops c rfl with rfl | rfl | rfl <;> decide

theorem passes_peek_stops (stops : Stops cs) : Passes peek cs cs.head? cs := by
  cases cs with
  | nil => exact passes_peek_nil
  | cons c cs => exact passes_peek (isAscii_of_stops stops) cs

theorem spell_digits {ds : List Char} (all : ∀ c ∈ ds, c.isDigit = true) (cs : List Char) :
    spell (ds ++ cs) = ds.map (fun c => UInt8.ofNat c.toNat) ++ spell cs := by
  induction ds with
  | nil => rfl
  | cons c ds ih =>
    obtain ⟨first, later⟩ := List.forall_mem_cons.mp all
    rw [List.cons_append, spell_cons (isAscii_of_isDigit first), ih later]
    rfl

theorem digitsOf_spell {ds : List Char} (all : ∀ c ∈ ds, c.isDigit = true) (stops : Stops cs) :
    digitsOf (spell (ds ++ cs)) = ds.map digitValue := by
  have none : digitsOf (spell cs) = [] := by
    cases cs with
    | nil => rfl
    | cons c cs =>
      have ascii := isAscii_of_stops stops
      simp [digitsOf, spell_cons ascii, ofUInt8_ofNat ascii, not_isDigit_of_stops stops]
  induction ds with
  | nil => exact none
  | cons c ds ih =>
    obtain ⟨first, later⟩ := List.forall_mem_cons.mp all
    have ascii := isAscii_of_isDigit first
    have rest := ih later
    simp only [digitsOf] at rest
    simp [digitsOf, spell_cons ascii, ofUInt8_ofNat ascii, first, rest, toNat_ofNat ascii,
      digitValue]

theorem passes_digits {ds : List Char} (all : ∀ c ∈ ds, c.isDigit = true) (stops : Stops cs) :
    Passes digits (ds ++ cs) (ds.map digitValue) cs := by
  intro p
  refine ⟨⟨p.line, p.column + ds.length⟩, ?_⟩
  have dropped : (spell (ds ++ cs)).drop ds.length = spell cs := by
    rw [spell_digits all, List.drop_left' (by simp)]
  simp only [digits, digitsOf_spell all stops, List.length_map, dropped]

theorem absorb_eq {n : Nat} {ds : List Nat} (fits : ds.foldl (fun m d => m * 10 + d) n < 2 ^ 64) :
    absorb n ds = (ds.foldl (fun m d => m * 10 + d) n, ds.length) := by
  induction ds generalizing n with
  | nil => rfl
  | cons d ds ih =>
    have grows (ds : List Nat) (m : Nat) : m ≤ ds.foldl (fun m d => m * 10 + d) m := by
      induction ds generalizing m with
      | nil => exact Nat.le_refl m
      | cons d ds ih =>
        have := ih (m * 10 + d)
        simp only [List.foldl_cons]
        omega
    have first := Nat.lt_of_le_of_lt (grows ds (n * 10 + d)) fits
    rw [absorb, if_pos first, ih fits]
    rfl

theorem foldl_digitValue (n : Nat) :
    ((Nat.toDigits 10 n).map digitValue).foldl (fun m d => m * 10 + d) 0 = n := by
  rw [List.foldl_map]
  refine Eq.trans ?_ (Nat.ofDigitChars_ten_toDigits (n := n))
  simp only [Nat.ofDigitChars, digitValue, Nat.mul_comm 10]
  rfl

theorem ne_zero_of_toDigits {n : Nat} (positive : 0 < n) {c : Char} {ds : List Char}
    (form : Nat.toDigits 10 n = c :: ds) : c ≠ '0' := by
  induction n using Nat.strong_induction_on generalizing ds with
  | _ n ih =>
    by_cases small : n < 10
    · rw [Nat.toDigits_of_lt_base small] at form
      obtain ⟨rfl, -⟩ := List.cons.inj form
      interval_cases n <;> decide
    · rw [Nat.toDigits_of_base_le (by decide) (by omega)] at form
      rcases front : Nat.toDigits 10 (n / 10) with _ | ⟨d, more⟩
      · exact absurd front Nat.toDigits_ne_nil
      · rw [front] at form
        obtain ⟨rfl, -⟩ := List.cons.inj form
        exact ih (n / 10) (by omega) (by omega) front

theorem exists_digit (n : Nat) :
    ∃ c more, Nat.toDigits 10 n = c :: more ∧ c.isDigit = true ∧ (c = '0' → n = 0 ∧ more = []) := by
  obtain ⟨c, more, form⟩ := List.exists_cons_of_ne_nil (Nat.toDigits_ne_nil (n := n) (b := 10))
  refine ⟨c, more, form, Nat.isDigit_of_mem_toDigits (by decide) (by decide)
    (form ▸ List.mem_cons_self), fun zero => ?_⟩
  obtain rfl : n = 0 := by
    by_contra positive
    exact ne_zero_of_toDigits (Nat.pos_of_ne_zero positive) form zero
  exact ⟨rfl, (List.cons.inj form).2.symm⟩

theorem passes_number {n : Nat} (fits : n < 2 ^ 64) (negative : Bool) (stops : Stops cs) :
    Passes (number negative) (Nat.toDigits 10 n ++ cs) (whole negative n fits) cs := by
  have value := foldl_digitValue n
  have absorbed := absorb_eq (value.symm ▸ fits)
  have all (c : Char) (inside : c ∈ Nat.toDigits 10 n) : c.isDigit = true :=
    Nat.isDigit_of_mem_toDigits (by decide) (by decide) inside
  have read := passes_digits all stops
  obtain ⟨first, more, form, digit, zero⟩ := exists_digit n
  have text : Nat.toDigits 10 n ++ cs = first :: (more ++ cs) := by rw [form, List.cons_append]
  rw [value] at absorbed
  generalize values : (Nat.toDigits 10 n).map digitValue = ds at absorbed read
  unfold number
  rw [text]
  refine (passes_peek (isAscii_of_isDigit digit) (more ++ cs)).bind ?_
  dsimp -zeta only
  rw [if_neg (by simp [digit])]
  extract_lets valued
  have goes : Passes (valued ds) cs (whole negative n fits) cs := by
    have same : whole negative (absorb 0 ds).1 (absorb_lt ds 0 (by decide)) =
        whole negative n fits := by
      congr 1
      rw [absorbed]
    have rest : (if (absorb 0 ds).2 = ds.length then
          pure (whole negative (absorb 0 ds).1 (absorb_lt ds 0 (by decide)))
        else finish negative (absorb 0 ds).1 (ds.length - (absorb 0 ds).2 : Int)).Passes cs
        (whole negative n fits) cs := by
      rw [if_pos (by rw [absorbed]), same]
      exact passes_pure cs _
    refine (passes_peek_stops stops).bind ?_
    rcases found : cs.head? with _ | c
    · exact rest
    · rcases stops c found with rfl | rfl | rfl <;> exact rest
  clear_value valued
  split
  · next begins =>
    obtain ⟨rfl, rfl⟩ := zero begins
    obtain rfl : [0] = ds := values
    refine (passes_advance (begins ▸ by decide) _).bind ((passes_peek_stops stops).bind ?_)
    rcases found : cs.head? with _ | c
    · exact goes
    · rcases stops c found with rfl | rfl | rfl <;> exact goes
  · rw [← text]
    exact read.bind goes

theorem exists_whole {i : Int} (fits : -2 ^ 63 ≤ i ∧ i < 2 ^ 64) :
    ∃ (negative : Bool) (n : Nat) (small : n < 2 ^ 64),
      (Number.integer i fits).render.toList =
        (if negative then ['-'] else []) ++ Nat.toDigits 10 n ∧
      whole negative n small = .integer i fits := by
  cases i with
  | ofNat n =>
    refine ⟨false, n, by simp only [Int.ofNat_eq_natCast] at fits; omega, Nat.toList_repr, ?_⟩
    rw [whole, dif_neg (by simp)]
    rfl
  | negSucc n =>
    have small : n + 1 ≤ 2 ^ 63 := by omega
    refine ⟨true, n + 1, by omega, ?_, ?_⟩
    · have text : (Number.integer (.negSucc n) fits).render = "-" ++ (n + 1).repr := rfl
      rw [text, String.toList_append, Nat.toList_repr]
      rfl
    · rw [whole, dif_pos rfl, dif_pos ⟨by omega, small⟩]
      congr 1

end Numbers

/-! ### Strings -/

section Strings

variable {c : Char} {cs : List Char}

theorem hexNumber?_control : ∀ n : Fin 32,
    hexNumber? 48 48 (UInt8.ofNat (Value.hexDigit (n / 16)).toNat)
      (UInt8.ofNat (Value.hexDigit (n % 16)).toNat) = some n.val := by
  decide

theorem isAscii_hexDigit : ∀ n : Fin 16, IsAscii (Value.hexDigit n) := by
  decide

theorem passes_hexEscape (control : c.toNat < 32) (cs : List Char) :
    Passes hexEscape ('0' :: '0' :: Value.hexDigit (c.toNat / 16) ::
      Value.hexDigit (c.toNat % 16) :: cs) c.toNat cs := by
  have high : IsAscii (Value.hexDigit (c.toNat / 16)) := isAscii_hexDigit ⟨_, by omega⟩
  have low : IsAscii (Value.hexDigit (c.toNat % 16)) := isAscii_hexDigit ⟨_, by omega⟩
  have zero : IsAscii '0' := by decide
  have code := hexNumber?_control ⟨c.toNat, control⟩
  refine passes_cursor fun p => ?_
  simp only [spell_cons zero, spell_cons high, spell_cons low]
  refine passes_jump ?_ _
  have digit : UInt8.ofNat '0'.toNat = 48 := rfl
  rw [digit, code]
  exact passes_pure cs _

theorem passes_unicodeEscape (control : c.toNat < 32) (cs : List Char) :
    Passes unicodeEscape ('0' :: '0' :: Value.hexDigit (c.toNat / 16) ::
      Value.hexDigit (c.toNat % 16) :: cs) c cs := by
  refine (passes_hexEscape control cs).bind ?_
  rw [if_neg (by omega), if_pos (by omega), Char.ofNat_toNat]
  exact passes_pure cs c

variable {rounds : Nat} {seen : List Char} {s : String} {tail after : List Char}

theorem passes_stringChars_escaped {rest : List Char} (escaped : Passes escapedChar rest c tail)
    (next : Passes (stringChars rounds (c :: seen)) tail s after) :
    Passes (stringChars (rounds + 1) seen) ('\\' :: rest) s after := by
  have ascii : IsAscii '\\' := by decide
  refine passes_cursor fun p => ?_
  simp only [spell_cons ascii]
  rw [if_neg (by decide), if_pos (by decide)]
  exact (passes_advance ascii rest).bind (escaped.bind next)

theorem passes_stringChars_plain (quote : c ≠ '"') (backslash : c ≠ '\\') (above : 32 ≤ c.toNat)
    (next : Passes (stringChars rounds (c :: seen)) tail s after) :
    Passes (stringChars (rounds + 1) seen) (c :: tail) s after := by
  obtain ⟨b, more, form, front⟩ := Text.Utf8.exists_front c (spell tail)
  have text : spell (c :: tail) = b :: (more ++ spell tail) := by
    rw [spell, List.flatMap_cons, form]
    rfl
  -- A byte of the lower half is the character itself.
  have single (low : b < 0x80) : b.toNat = c.toNat := by
    unfold Text.Utf8.front at front
    rw [if_pos low] at front
    rw [← (Text.Utf8.Front.char.inj front).1]
    rfl
  refine passes_cursor fun p => ?_
  simp only [text]
  rw [if_neg, if_neg, if_neg, front]
  · exact passes_jump next _
  · intro low
    have code := single (UInt8.lt_trans low (by decide))
    have low : b.toNat < 32 := UInt8.lt_iff_toNat_lt.mp low
    omega
  · rintro rfl
    exact backslash (Char.toNat_inj.mp (single (by decide)).symm)
  · rintro rfl
    exact quote (Char.toNat_inj.mp (single (by decide)).symm)

def shortEscapes : List (Char × Char) :=
  [('"', '"'), ('\\', '\\'), ('b', '\x08'), ('f', '\x0c'), ('n', '\n'), ('r', '\r'), ('t', '\t')]

theorem passes_escapedChar {code : Char} (short : (code, c) ∈ shortEscapes) (cs : List Char) :
    Passes escapedChar (code :: cs) c cs := by
  have ascii : ∀ e ∈ shortEscapes, IsAscii e.1 := by decide
  have ascii := ascii _ short
  refine (passes_peek ascii cs).bind ?_
  simp only [shortEscapes, List.mem_cons, List.not_mem_nil, or_false, Prod.mk.injEq] at short
  rcases short with ⟨rfl, rfl⟩ | ⟨rfl, rfl⟩ | ⟨rfl, rfl⟩ | ⟨rfl, rfl⟩ | ⟨rfl, rfl⟩ | ⟨rfl, rfl⟩ |
    ⟨rfl, rfl⟩ <;> exact (passes_advance ascii cs).bind (passes_pure cs _)

theorem passes_stringChars_escape (next : Passes (stringChars rounds (c :: seen)) tail s after) :
    Passes (stringChars (rounds + 1) seen) (Value.escape c ++ tail) s after := by
  unfold Value.escape
  split
  · next same =>
    exact passes_stringChars_escaped (passes_escapedChar (by simp [same, shortEscapes]) tail) next
  split
  · next same =>
    exact passes_stringChars_escaped (passes_escapedChar (by simp [same, shortEscapes]) tail) next
  split
  · next same =>
    exact passes_stringChars_escaped (passes_escapedChar (by simp [same, shortEscapes]) tail) next
  split
  · next same =>
    exact passes_stringChars_escaped (passes_escapedChar (by simp [same, shortEscapes]) tail) next
  split
  · next same =>
    exact passes_stringChars_escaped (passes_escapedChar (by simp [same, shortEscapes]) tail) next
  split
  · next same =>
    exact passes_stringChars_escaped (passes_escapedChar (by simp [same, shortEscapes]) tail) next
  split
  · next same =>
    exact passes_stringChars_escaped (passes_escapedChar (by simp [same, shortEscapes]) tail) next
  split
  · next control =>
    refine passes_stringChars_escaped ?_ next
    exact (passes_peek (by decide) _).bind ((passes_advance (by decide) _).bind
      (passes_unicodeEscape control tail))
  · next quote backslash _ _ _ _ _ control =>
    exact passes_stringChars_plain quote backslash (Nat.le_of_not_lt control) next

theorem passes_stringChars (rounds : Nat) (cs seen tail : List Char) (enough : cs.length < rounds) :
    Passes (stringChars rounds seen) (cs.flatMap Value.escape ++ '"' :: tail)
      (String.ofList (seen.reverse ++ cs)) tail := by
  induction cs generalizing seen rounds with
  | nil =>
    cases rounds with
    | zero => cases enough
    | succ rounds =>
      have ascii : IsAscii '"' := by decide
      refine passes_cursor fun p => ?_
      simp only [List.flatMap_nil, List.nil_append, spell_cons ascii, List.append_nil]
      rw [if_pos (by decide)]
      exact (passes_advance ascii tail).bind (passes_pure tail _)
  | cons c cs ih =>
    cases rounds with
    | zero => cases enough
    | succ rounds =>
      have rest := ih rounds (c :: seen) (Nat.lt_of_succ_lt_succ enough)
      rw [List.reverse_cons, List.append_assoc, List.singleton_append] at rest
      rw [List.flatMap_cons, List.append_assoc]
      exact passes_stringChars_escape rest

theorem length_le_escaped (cs : List Char) : cs.length ≤ (cs.flatMap Value.escape).length := by
  induction cs with
  | nil => simp
  | cons c cs ih =>
    have some : 0 < (Value.escape c).length := by
      unfold Value.escape
      repeat' split
      all_goals simp
    rw [List.flatMap_cons, List.length_append, List.length_cons]
    omega

theorem passes_string (s : String) (tail : List Char) :
    Passes string (s.toList.flatMap Value.escape ++ '"' :: tail) s tail := by
  have long := length_le_escaped s.toList
  refine Passes.rounds (k := fun rounds => stringChars rounds []) fun rounds enough => ?_
  rw [List.length_append] at enough
  have passes := passes_stringChars rounds s.toList [] tail (by omega)
  simpa using passes

end Strings

/-! ### Structure -/

section Structure

variable {c : Char} {cs : List Char}

def lead (first : Bool) : List Char :=
  if first then [] else [',']

def separated : Bool → List (List Char) → List Char
  | _, [] => []
  | first, part :: parts => lead first ++ part ++ separated false parts

theorem length_le_separated {parts : List (List Char)} (given : ∀ part ∈ parts, part ≠ [])
    (first : Bool) : parts.length ≤ (separated first parts).length := by
  induction parts generalizing first with
  | nil => simp
  | cons part parts ih =>
    obtain ⟨some, later⟩ := List.forall_mem_cons.mp given
    have long := List.length_pos_iff.mpr some
    have rest := ih later false
    simp only [separated, List.length_append, List.length_cons]
    omega

theorem stops_separated (parts : List (List Char)) (close : c = ']' ∨ c = '\x7d')
    (cs : List Char) : Stops (separated false parts ++ c :: cs) := by
  cases parts with
  | nil => exact stops_cons (.inr close) cs
  | cons part parts => exact stops_cons (.inl rfl) _

theorem passes_moreElements (begins : Begins c) (other : c ≠ ']') (first : Bool)
    (cs : List Char) : Passes (moreElements first) (lead first ++ c :: cs) true (c :: cs) := by
  cases first with
  | true =>
    refine (passes_token begins cs).bind ?_
    split
    · next none => cases none
    · next same => exact absurd (Option.some.inj same) other
    · exact passes_pure _ true
  | false =>
    refine (passes_token (by decide) (c :: cs)).bind ((passes_advance (by decide) _).bind
      ((passes_token begins cs).bind ?_))
    split
    · next same => exact absurd (Option.some.inj same) other
    · exact passes_pure _ true
    · next none => cases none

theorem passes_noMoreElements (first : Bool) (cs : List Char) :
    Passes (moreElements first) (']' :: cs) false (']' :: cs) :=
  (passes_token (by decide) cs).bind (passes_pure _ false)

theorem passes_key (first : Bool) (key : String) (cs : List Char) :
    Passes (nextKey? first) (lead first ++ Value.renderString key ++ cs) (some key) cs := by
  have quoted : Passes (do advance; some <$> string) (Value.renderString key ++ cs) (some key) cs := by
    have text : Value.renderString key ++ cs = '"' :: (key.toList.flatMap Value.escape ++ '"' :: cs) := by
      simp [Value.renderString]
    rw [text]
    exact (passes_advance (by decide) _).bind (passes_string key cs).map
  cases first with
  | true => exact (passes_token (by decide) _).bind quoted
  | false =>
    exact (passes_token (by decide) _).bind ((passes_advance (by decide) _).bind
      ((passes_token (by decide) _).bind quoted))

theorem passes_noKey (first : Bool) (cs : List Char) :
    Passes (nextKey? first) ('\x7d' :: cs) none ('\x7d' :: cs) :=
  (passes_token (by decide) cs).bind (passes_pure _ none)

theorem passes_colon (cs : List Char) : Passes colon (':' :: cs) () cs :=
  (passes_token (by decide) cs).bind (passes_advance (by decide) cs)

theorem passes_endList (cs : List Char) : Passes endList (']' :: cs) () cs :=
  (passes_token (by decide) cs).bind (passes_advance (by decide) cs)

theorem passes_endObject (cs : List Char) : Passes endObject ('\x7d' :: cs) () cs :=
  (passes_token (by decide) cs).bind (passes_advance (by decide) cs)

theorem passes_endText : Passes endText [] () [] :=
  passes_token_nil.bind (passes_pure [] ())

theorem passes_enter (ascii : IsAscii c) (inner : Nat) (cs : List Char) :
    Passes (enter (inner + 1)) (c :: cs) inner cs :=
  (passes_advance ascii cs).bind (passes_pure cs inner)

end Structure

section Brackets

variable {α : Type} {element : Reader α} {text : α → List Char}

/-- The reader reads the text of this value, whatever separates it from what follows. -/
def ReadsBack (r : Reader α) (text : List Char) (a : α) : Prop :=
  ∀ cs, Stops cs → Passes r (text ++ cs) a cs

def Opens (text : List Char) : Prop :=
  ∃ c more, text = c :: more ∧ Begins c ∧ c ≠ ']'

theorem Opens.ne_nil {text : List Char} (opens : Opens text) : text ≠ [] := by
  obtain ⟨c, more, rfl, -⟩ := opens
  exact List.cons_ne_nil c more

theorem passes_elementRounds {items : List α}
    (each : ∀ a ∈ items, ReadsBack element (text a) a) (opens : ∀ a ∈ items, Opens (text a))
    (rounds : Nat) (enough : items.length < rounds) (first : Bool) (cs : List Char) :
    Passes (elementRounds element rounds first)
      (separated first (items.map text) ++ ']' :: cs) items (']' :: cs) := by
  induction items generalizing rounds first with
  | nil =>
    cases rounds with
    | zero => cases enough
    | succ rounds => exact (passes_noMoreElements first cs).bind (passes_pure _ [])
  | cons a items ih =>
    cases rounds with
    | zero => cases enough
    | succ rounds =>
      obtain ⟨reads, later⟩ := List.forall_mem_cons.mp each
      obtain ⟨⟨c, more, form, begins, other⟩, behind⟩ := List.forall_mem_cons.mp opens
      have rest := ih later behind rounds (Nat.lt_of_succ_lt_succ enough) false
      have item := reads _ (stops_separated (items.map text) (.inl rfl) cs)
      rw [form] at item
      rw [List.map_cons, separated, List.append_assoc, List.append_assoc, form]
      exact (passes_moreElements begins other first _).bind (item.bind (rest.bind (passes_pure _ _)))

theorem passes_elements {items : List α} (each : ∀ a ∈ items, ReadsBack element (text a) a)
    (opens : ∀ a ∈ items, Opens (text a)) (cs : List Char) :
    Passes (elements element) (separated true (items.map text) ++ ']' :: cs) items
      (']' :: cs) := by
  refine Passes.rounds (k := fun rounds => elementRounds element rounds true) fun rounds enough => ?_
  refine passes_elementRounds each opens rounds ?_ true cs
  have given : ∀ part ∈ items.map text, part ≠ [] := by
    rw [List.forall_mem_map]
    exact fun a inside => (opens a inside).ne_nil
  have long := length_le_separated given true
  rw [List.length_map] at long
  rw [List.length_append] at enough
  omega

def memberTexts (text : α → List Char) (members : List (String × α)) : List (List Char) :=
  members.map fun m => Value.renderString m.1 ++ ':' :: text m.2

theorem length_le_memberTexts (text : α → List Char) (members : List (String × α))
    (first : Bool) : members.length ≤ (separated first (memberTexts text members)).length := by
  have given : ∀ part ∈ memberTexts text members, part ≠ [] := by
    rw [memberTexts, List.forall_mem_map]
    exact fun m _ => List.cons_ne_nil '"' _
  simpa [memberTexts] using length_le_separated given first

theorem passes_memberRounds (seen : Dictionary α) {pairs : List (String × α)}
    (each : ∀ m ∈ pairs, ReadsBack element (text m.2) m.2) (rounds : Nat)
    (enough : pairs.length < rounds) (first : Bool) (cs : List Char) :
    Passes (memberRounds element rounds first seen)
      (separated first (memberTexts text pairs) ++ '\x7d' :: cs)
      (pairs.foldl (fun d (k, v) => d.insert k v) seen) ('\x7d' :: cs) := by
  induction pairs generalizing rounds first seen with
  | nil =>
    cases rounds with
    | zero => cases enough
    | succ rounds => exact (passes_noKey first cs).bind (passes_pure _ seen)
  | cons m pairs ih =>
    obtain ⟨key, a⟩ := m
    cases rounds with
    | zero => cases enough
    | succ rounds =>
      obtain ⟨reads, later⟩ := List.forall_mem_cons.mp each
      have rest := ih (seen.insert key a) later rounds (Nat.lt_of_succ_lt_succ enough) false
      have value := reads _ (stops_separated (memberTexts text pairs) (.inr rfl) cs)
      rw [memberTexts, List.map_cons, separated, List.append_assoc, List.append_assoc,
        List.append_assoc, ← List.append_assoc]
      exact (passes_key first key _).bind ((passes_colon _).bind (value.bind rest))

theorem passes_members (text : α → List Char) {pairs : List (String × α)}
    (each : ∀ m ∈ pairs, ReadsBack element (text m.2) m.2) (cs : List Char) :
    Passes (members element)
      (separated true (memberTexts text pairs) ++ '\x7d' :: cs) (Dictionary.ofList pairs)
      ('\x7d' :: cs) := by
  refine Passes.rounds (k := fun rounds => memberRounds element rounds true []) fun rounds enough => ?_
  refine passes_memberRounds [] each rounds ?_ true cs
  have long := length_le_memberTexts text pairs true
  rw [List.length_append] at enough
  omega

end Brackets

end Reader
end Json
end CloudProvider
