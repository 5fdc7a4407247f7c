import CloudProvider.Proofs.Characters
import CloudProvider.Text.Percent

/-! Percent coding read back. What has been escaped decodes to what it was, unless it was an escape
already: a percent sign is not escaped itself, and with two digits behind it it stands for a byte. -/

namespace CloudProvider.Text.Percent

/-- There is no escape in the text. -/
def Verbatim (cs : List Char) : Prop :=
  ∀ a b, (hexValue? a).isSome → (hexValue? b).isSome → ¬ ['%', a, b] <:+: cs

theorem Verbatim.of_cons {c : Char} {cs : List Char} (verbatim : Verbatim (c :: cs)) :
    Verbatim cs :=
  fun a b first second inside => verbatim a b first second (List.infix_cons inside)

variable {mustEscape : Char → Bool}

theorem encode_of_forall {cs : List Char}
    (plain : ∀ c ∈ cs, c.toNat < 128 ∧ mustEscape c = false) :
    encode mustEscape cs = String.ofList cs := by
  rw [encode]
  congr 1
  induction cs with
  | nil => rfl
  | cons c cs ih =>
    obtain ⟨ascii, free⟩ := plain c List.mem_cons_self
    rw [List.flatMap_cons, ih fun d member => plain d (List.mem_cons_of_mem c member), encodeChar,
      free, decide_eq_true ascii]
    rfl

theorem hexValue?_hexDigit {n : Nat} (digit : n < 16) : hexValue? (hexDigit n) = some n := by
  revert n
  decide

theorem encode_toString (c : Char) : Utf8.encode c.toString = String.utf8EncodeChar c := by
  simp [Utf8.encode]

theorem decode_cons {c : Char} (other : c ≠ '%') (rest : List Char) :
    decode (c :: rest) = String.utf8EncodeChar c ++ decode rest := by
  rw [decode, encode_toString]
  rintro a b tail same
  exact absurd same other

theorem decode_percent {rest : List Char}
    (bare : ∀ a b tail, rest = a :: b :: tail → hexValue? a = none ∨ hexValue? b = none) :
    decode ('%' :: rest) = String.utf8EncodeChar '%' ++ decode rest := by
  match rest with
  | [] => rfl
  | [a] => rw [decode, encode_toString]; nofun
  | a :: b :: tail =>
    rw [decode]
    rcases bare a b tail rfl with none | none
    · simp only [none]
      rfl
    · simp only [none]
      cases hexValue? a <;> rfl

theorem decode_escaped (b : UInt8) (rest : List Char) :
    decode (escaped b ++ rest) = b :: decode rest := by
  have byte := b.toNat_lt
  have high := hexValue?_hexDigit (show b.toNat / 16 < 16 by omega)
  have low := hexValue?_hexDigit (show b.toNat % 16 < 16 by omega)
  have whole : b.toNat / 16 * 16 + b.toNat % 16 = b.toNat := Nat.div_add_mod' ..
  simp only [escaped, List.cons_append, List.nil_append, decode, high, low, whole,
    UInt8.ofNat_toNat]

theorem decode_flatMap_escaped (bytes : Bytes) (rest : List Char) :
    decode (bytes.flatMap escaped ++ rest) = bytes ++ decode rest := by
  induction bytes with
  | nil => rfl
  | cons b bytes ih => rw [List.flatMap_cons, List.append_assoc, decode_escaped, ih]; rfl

theorem exists_cons_of_encode {cs rest : List Char} {a : Char} (digit : (hexValue? a).isSome)
    (front : cs.flatMap (encodeChar mustEscape) = a :: rest) :
    ∃ tail, cs = a :: tail ∧ tail.flatMap (encodeChar mustEscape) = rest := by
  cases cs with
  | nil => cases front
  | cons c tail =>
    rw [List.flatMap_cons, encodeChar] at front
    split at front
    · obtain ⟨rfl, same⟩ := List.cons.inj front
      exact ⟨tail, rfl, same⟩
    · obtain ⟨b, more, form, -⟩ := Utf8.exists_front c []
      rw [encode_toString, form, List.flatMap_cons, escaped] at front
      obtain ⟨rfl, -⟩ := List.cons.inj front
      exact absurd digit (by decide)

theorem decode_encodeChars {cs : List Char} (verbatim : Verbatim cs) :
    decode (cs.flatMap (encodeChar mustEscape)) = cs.flatMap String.utf8EncodeChar := by
  induction cs with
  | nil => rfl
  | cons c cs ih =>
    have rest := ih verbatim.of_cons
    rw [List.flatMap_cons, List.flatMap_cons, encodeChar]
    split
    · rw [List.singleton_append]
      by_cases percent : c = '%'
      · subst percent
        rw [decode_percent, rest]
        intro a b tail front
        by_contra digits
        obtain ⟨first, second⟩ := not_or.mp digits
        have first := Option.isSome_iff_ne_none.mpr first
        have second := Option.isSome_iff_ne_none.mpr second
        obtain ⟨cs, rfl, later⟩ := exists_cons_of_encode first front
        obtain ⟨cs, rfl, -⟩ := exists_cons_of_encode second later
        exact verbatim a b first second (List.prefix_append ['%', a, b] cs).isInfix
      · rw [decode_cons percent, rest]
    · rw [encode_toString, decode_flatMap_escaped, rest]

theorem decode_encode {cs : List Char} (verbatim : Verbatim cs) :
    decode (encode mustEscape cs).toList = Utf8.encode (String.ofList cs) := by
  rw [encode, String.toList_ofList, decode_encodeChars verbatim, Utf8.encode, String.toList_ofList]

end CloudProvider.Text.Percent
