import CloudProvider.Names.Generator
import Mathlib.Data.String.Basic

/-! Names that are generated. A name can be taken apart again: its last 26 characters are digits, and the
moment and the draw are read off them. So two names are the same only if word, millisecond and draw are,
and of two names for one word the later one comes later in order, whatever was drawn. The count of
milliseconds begins anew after `2 ^ 48` of them. -/

namespace CloudProvider.Names

open Time (Moment)

namespace Ulid

def value? (cs : List Char) : Option Nat :=
  cs.foldlM (fun n c => (digits.idxOf? c).map (32 * n + ·)) 0

def ofText? (s : String) : Option Ulid :=
  match value? s.toList with
  | some n => if fits : n < 2 ^ 128 ∧ s.length = 26 then some ⟨n, fits.1⟩ else none
  | none => none

theorem idxOf?_digit (n : Nat) : digits.idxOf? (digit n) = some (n % 32) :=
  (by decide : ∀ d < 32, digits.idxOf? (digits.getD d '0') = some d) _ (Nat.mod_lt n (by decide))

theorem digit_lt_digit {a b : Nat} (lt : a % 32 < b % 32) : digit a < digit b :=
  (by decide : ∀ d < 32, ∀ e < d, digits.getD e '0' < digits.getD d '0') _
    (Nat.mod_lt b (by decide)) _ lt

@[simp] theorem length_chars (value n : Nat) : (chars value n).length = n := by
  induction n generalizing value with
  | zero => rfl
  | succ n ih => simp [chars, ih]

@[simp] theorem length_text (u : Ulid) : u.text.length = 26 := by
  simp [text]

theorem value?_chars (value n : Nat) : value? (chars value n) = some (value % 32 ^ n) := by
  induction n generalizing value with
  | zero => simp [chars, value?, Nat.mod_one]
  | succ n ih =>
    have front := ih (value / 32)
    unfold value? at front ⊢
    rw [chars, List.foldlM_append, front]
    have whole : 32 * (value / 32 % 32 ^ n) + value % 32 = value % 32 ^ (n + 1) := by
      rw [Nat.pow_succ, Nat.mul_comm (32 ^ n), Nat.mod_mul, Nat.add_comm]
    simp [idxOf?_digit, whole]

theorem ofText?_text (u : Ulid) : ofText? u.text = some u := by
  have fits : u.value % 32 ^ 26 = u.value :=
    Nat.mod_eq_of_lt (Nat.lt_of_lt_of_le u.fits (by decide))
  have read : value? u.text.toList = some u.value := by
    rw [text, String.toList_ofList, value?_chars, fits]
  simp [ofText?, read, u.fits]

theorem text_injective : Function.Injective text := by
  intro u v same
  have read := congrArg ofText? same
  simpa [ofText?_text] using read

theorem append_lt_append {front back : List Char} (lt : front < back)
    (same : front.length = back.length) (x y : List Char) : front ++ x < back ++ y := by
  induction lt with
  | nil => simp at same
  | rel lt => exact List.Lex.rel lt
  | cons _ ih => exact List.Lex.cons (ih (by simpa using same))

theorem chars_lt_chars {a b n : Nat} (lt : a < b) (fits : b < 32 ^ n) :
    chars a n < chars b n := by
  -- The digit that is split off is the last one, and it decides only if all others are the same.
  induction n generalizing a b with
  | zero => simp at fits; omega
  | succ n ih =>
    rw [chars, chars]
    by_cases high : a / 32 = b / 32
    · rw [high]
      have low := digit_lt_digit (by omega : a % 32 < b % 32)
      exact List.append_left_lt (List.Lex.rel low)
    · rw [Nat.pow_succ] at fits
      have front := ih (by omega : a / 32 < b / 32) (by omega)
      exact append_lt_append front (by simp) _ _

theorem text_lt_text {u v : Ulid} (lt : u.value < v.value) : u.text < v.text := by
  have fits : v.value < 32 ^ 26 := Nat.lt_of_lt_of_le v.fits (by decide)
  rw [String.lt_iff_toList_lt, text, text, String.toList_ofList, String.toList_ofList]
  exact chars_lt_chars lt fits

theorem ofParts_eq_iff {millis random millis' random' : Nat} :
    ofParts millis random = ofParts millis' random' ↔
      millis % 2 ^ 48 = millis' % 2 ^ 48 ∧ random % 2 ^ 80 = random' % 2 ^ 80 := by
  constructor
  · intro same
    have time := congrArg Ulid.millis same
    have drawn := congrArg Ulid.random same
    rw [millis_ofParts, millis_ofParts] at time
    rw [random_ofParts, random_ofParts] at drawn
    exact ⟨time, drawn⟩
  · rintro ⟨time, drawn⟩
    simp [ofParts, time, drawn]

end Ulid

theorem nameAt_eq_iff {kind other : String} {moment later : Moment} {draw redraw : Nat} :
    nameAt kind moment draw = nameAt other later redraw ↔
      kind = other ∧ moment.millis.toNat % 2 ^ 48 = later.millis.toNat % 2 ^ 48 ∧
        draw % 2 ^ 80 = redraw % 2 ^ 80 := by
  rw [← Ulid.ofParts_eq_iff]
  constructor
  · intro same
    have chars := congrArg String.toList same
    simp only [nameAt, String.toList_append] at chars
    obtain ⟨front, back⟩ := List.append_inj' chars (by simp [Ulid.text])
    exact ⟨String.toList_inj.mp (List.append_cancel_right front),
      Ulid.text_injective (String.toList_inj.mp back)⟩
  · rintro ⟨rfl, same⟩
    rw [nameAt, nameAt, same]

theorem nameAt_lt {kind : String} {moment later : Moment}
    (lt : moment.millis.toNat % 2 ^ 48 < later.millis.toNat % 2 ^ 48) (draw redraw : Nat) :
    nameAt kind moment draw < nameAt kind later redraw := by
  have values : (Ulid.ofParts moment.millis.toNat draw).value <
      (Ulid.ofParts later.millis.toNat redraw).value := by
    simp only [Ulid.ofParts]
    omega
  have texts := String.lt_iff_toList_lt.mp (Ulid.text_lt_text values)
  rw [String.lt_iff_toList_lt, nameAt, nameAt]
  simp only [String.toList_append]
  exact List.append_left_lt texts

/-- Two names, each for any word, at any moment and with any draw, and so of any two generators. -/
theorem nameAt_exact (kind other : String) (moment later : Moment) (draw redraw : Nat) :
    (nameAt kind moment draw = nameAt other later redraw ↔
      kind = other ∧ moment.millis.toNat % 2 ^ 48 = later.millis.toNat % 2 ^ 48 ∧
        draw % 2 ^ 80 = redraw % 2 ^ 80) ∧
    (∃ digits u, nameAt kind moment draw = kind ++ "-" ++ digits ∧ digits.length = 26 ∧
      Ulid.ofText? digits = some u ∧ u.millis = moment.millis.toNat % 2 ^ 48 ∧
      u.random = draw % 2 ^ 80) ∧
    (0 ≤ moment.millis → moment.millis < later.millis → later.millis < 2 ^ 48 →
      nameAt kind moment draw < nameAt kind later redraw) ∧
    ∀ g h : Generator, (g.next kind moment).1 = (h.next other later).1 ↔
      kind = other ∧ moment.millis.toNat % 2 ^ 48 = later.millis.toNat % 2 ^ 48 ∧
        g.key.draw g.drawn % 2 ^ 80 = h.key.draw h.drawn % 2 ^ 80 := by
  let u := Ulid.ofParts moment.millis.toNat draw
  refine ⟨nameAt_eq_iff, ⟨u.text, u, rfl, u.length_text, u.ofText?_text, ?_, ?_⟩, ?_,
    fun g h => nameAt_eq_iff⟩
  · exact Ulid.millis_ofParts ..
  · exact Ulid.random_ofParts ..
  · intro begun before within
    apply nameAt_lt
    omega

theorem nameAt_exact_adjacent :
    nameAt "agent-env" ⟨1700000000, 0⟩ (2 ^ 80 - 1) <
      nameAt "agent-env" ⟨1700000000, 1000000⟩ 0 :=
  (nameAt_exact "agent-env" "agent-env" ⟨1700000000, 0⟩ ⟨1700000000, 1000000⟩ (2 ^ 80 - 1) 0).2.2.1
    (by decide) (by decide) (by decide)

end CloudProvider.Names
