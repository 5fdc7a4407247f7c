import CloudProvider.Proofs.Spelling

/-! Documents that are texts. The strings of a tree may hold bytes that belong to no character, but if the
whole document is a text, then so is each of its strings, and it is the document of a tree whose strings
are made of characters only. -/

namespace CloudProvider

namespace Text.Utf8

def IsText (bytes : Bytes) : Prop :=
  ∃ cs : List Char, bytes = cs.flatMap String.utf8EncodeChar

theorem isText_nil : IsText [] :=
  ⟨[], rfl⟩

theorem IsText.append {x y : Bytes} (front : IsText x) (back : IsText y) : IsText (x ++ y) := by
  obtain ⟨cs, rfl⟩ := front
  obtain ⟨ds, rfl⟩ := back
  exact ⟨cs ++ ds, List.flatMap_append.symm⟩

theorem isText_singleton {b : UInt8} (low : b < 0x80) : IsText [b] := by
  have small : b.toNat < 128 := UInt8.lt_iff_toNat_lt.mp low
  have code : (Char.ofUInt8 b).toNat = b.toNat := rfl
  refine ⟨[Char.ofUInt8 b], ?_⟩
  rw [List.flatMap_singleton, utf8EncodeChar_eq, if_pos (by omega), code]
  simp

theorem isText_of_low {x : Bytes} (low : ∀ b ∈ x, b < 0x80) : IsText x := by
  induction x with
  | nil => exact isText_nil
  | cons b x ih =>
    obtain ⟨first, later⟩ := List.forall_mem_cons.mp low
    exact (isText_singleton first).append (ih later)

theorem IsText.exists_decode? {x : Bytes} (text : IsText x) : ∃ s, decode? x = some s := by
  obtain ⟨cs, rfl⟩ := text
  exact ⟨_, by rw [decode?, chars?_encode]; rfl⟩

theorem exists_bytes (c : Char) :
    ∃ b tail, String.utf8EncodeChar c = b :: tail ∧ (∀ t ∈ tail, 0x80 ≤ t) ∧
      (b < 0x80 → tail = []) := by
  obtain ⟨b, tail, form, passed⟩ := exists_front c []
  obtain ⟨tails, high, same⟩ := exists_tails passed
  rw [List.append_nil, List.append_nil] at same
  refine ⟨b, tail, form, same ▸ high, fun low => ?_⟩
  unfold front at passed
  rw [if_pos low] at passed
  have rest := (Front.char.inj passed).2
  rwa [List.append_nil] at rest

theorem IsText.behind {b : UInt8} (low : b < 0x80) {x : Bytes} (text : IsText (b :: x)) :
    IsText x := by
  obtain ⟨_ | ⟨c, cs⟩, form⟩ := text
  · cases form
  obtain ⟨b', tail, bytes, -, alone⟩ := exists_bytes c
  rw [List.flatMap_cons, bytes, List.cons_append] at form
  obtain ⟨rfl, rfl⟩ := List.cons.inj form
  rw [alone low]
  exact ⟨cs, rfl⟩

theorem IsText.split {b : UInt8} (low : b < 0x80) {x y : Bytes} (text : IsText (x ++ b :: y)) :
    IsText x ∧ IsText y := by
  obtain ⟨cs, form⟩ := text
  induction cs generalizing x with
  | nil => simp at form
  | cons c cs ih =>
    rcases x with _ | ⟨a, x⟩
    · exact ⟨isText_nil, IsText.behind low ⟨c :: cs, form⟩⟩
    rw [List.flatMap_cons] at form
    rcases List.append_eq_append_iff.mp form with ⟨m, whole, rest⟩ | ⟨m, whole, rest⟩
    · rcases m with _ | ⟨b', m⟩
      · obtain ⟨-, behind⟩ := ih (x := []) rest
        rw [List.append_nil] at whole
        exact ⟨⟨[c], by simp [whole]⟩, behind⟩
      · -- The byte would be one of a character, and not the first.
        obtain ⟨rfl, -⟩ := List.cons.inj rest
        obtain ⟨first, tail, bytes, high, -⟩ := exists_bytes c
        rw [bytes, List.cons_append] at whole
        obtain ⟨-, rfl⟩ := List.cons.inj whole
        exact absurd low (UInt8.not_lt.mpr (high b (by simp)))
    · rw [whole]
      obtain ⟨⟨ds, same⟩, behind⟩ := ih rest.symm
      exact ⟨⟨c :: ds, by rw [same, List.flatMap_cons]⟩, behind⟩

theorem IsText.drop {x y : Bytes} (low : ∀ b ∈ x, b < 0x80) (text : IsText (x ++ y)) : IsText y := by
  induction x with
  | nil => exact text
  | cons b x ih =>
    obtain ⟨first, later⟩ := List.forall_mem_cons.mp low
    exact ih later (text.behind first)

end Text.Utf8

namespace Json

open Text.Utf8 (IsText)
open Reader (IsFree)

/-! ### Strings -/

def Piece.isStray : Piece → Bool
  | stray .. => true
  | _ => false

def Literal.legible (s : Literal) : Bool :=
  s.all fun piece => !piece.isStray

namespace Code

theorem low (code : Code) : ∀ b ∈ code.bytes, b < 0x80 := by
  have digit {b : UInt8} {n : Nat} (known : Reader.hexValue? b = some n) : b < 0x80 := by
    unfold Reader.hexValue? at known
    rw [UInt8.lt_iff_toNat_lt]
    have bound : (0x80 : UInt8).toNat = 128 := rfl
    dsimp only at known
    split_ifs at known <;> omega
  obtain ⟨a, b, c, d, number, spelled⟩ := code
  unfold Reader.hexNumber? at spelled
  obtain ⟨_, first, spelled⟩ := Option.bind_eq_some_iff.mp spelled
  obtain ⟨_, second, spelled⟩ := Option.bind_eq_some_iff.mp spelled
  obtain ⟨_, third, spelled⟩ := Option.bind_eq_some_iff.mp spelled
  obtain ⟨_, fourth, -⟩ := Option.bind_eq_some_iff.mp spelled
  simp only [bytes, List.forall_mem_cons, List.not_mem_nil, false_imp_iff, implies_true, and_true]
  exact ⟨digit first, digit second, digit third, digit fourth⟩

end Code

theorem toUInt8_low {c : Char} (plain : IsAscii c) : c.toUInt8 < 0x80 := by
  rw [UInt8.lt_iff_toNat_lt, show c.toUInt8.toNat = c.toNat from toNat_ofNat plain]
  exact plain

theorem ascii_low {cs : List Char} (plain : cs.all (decide <| IsAscii ·) = true) :
    ∀ b ∈ ascii cs, b < 0x80 := by
  intro b inside
  obtain ⟨c, member, rfl⟩ := List.mem_map.mp inside
  exact toUInt8_low (of_decide_eq_true (List.all_eq_true.mp plain c member))

namespace Piece

def isEscape : Piece → Bool
  | plain .. | stray .. => false
  | _ => true

theorem escape {piece : Piece} (escapes : piece.isEscape = true) :
    (∀ b ∈ piece.text, b < 0x80) ∧ ∃ more, piece.text = '\\'.toUInt8 :: more := by
  have mark : ∀ b ∈ ascii ['\\', 'u'], b < 0x80 := ascii_low (by decide)
  refine ⟨?_, ?_⟩
  · cases piece with
    | plain c _ => cases escapes
    | stray b _ => cases escapes
    | short letter c known =>
      have plain : ∀ form ∈ shortForms, IsAscii form.1 := by decide
      refine List.forall_mem_cons.mpr ⟨by decide, List.forall_mem_singleton.mpr ?_⟩
      exact toUInt8_low (plain _ known)
    | escaped code => exact List.forall_mem_append.mpr ⟨mark, code.low⟩
    | pair high low _ _ =>
      simp only [text, List.forall_mem_append]
      exact ⟨⟨mark, high.low⟩, mark, low.low⟩
  · cases piece with
    | plain c _ => cases escapes
    | stray b _ => cases escapes
    | _ => exact ⟨_, rfl⟩

theorem free {piece : Piece} (itself : piece.isEscape = false) :
    (∀ b ∈ piece.text, IsFree b) ∧ piece.text ≠ [] := by
  cases piece with
  | plain c free =>
    obtain ⟨b, tail, bytes, -⟩ := Text.Utf8.exists_bytes c
    exact ⟨Reader.isFree_of_plain free, by simp [text, bytes]⟩
  | stray b free => exact ⟨List.forall_mem_singleton.mpr free, List.cons_ne_nil b []⟩
  | _ => cases itself

theorem isText {piece : Piece} (whole : piece.isStray = false) : IsText piece.text := by
  cases piece with
  | plain c _ => exact ⟨[c], (List.flatMap_singleton ..).symm⟩
  | stray b _ => cases whole
  | _ => exact Text.Utf8.isText_of_low (escape rfl).1

end Piece

theorem plain_of_isFree {c : Char} (free : ∀ b ∈ String.utf8EncodeChar c, IsFree b) :
    0x20 ≤ c.toNat ∧ c ≠ '"' ∧ c ≠ '\\' := by
  refine ⟨Nat.not_lt.mp fun below => ?_, ?_, ?_⟩
  · rw [Text.Utf8.utf8EncodeChar_eq, if_pos (by omega)] at free
    obtain ⟨visible, -⟩ := List.forall_mem_singleton.mp free
    rw [UInt8.le_iff_toNat_le, Text.Utf8.toNat_byte (by omega)] at visible
    exact absurd visible (Nat.not_le.mpr below)
  · rintro rfl
    exact (free _ (List.mem_singleton.mpr rfl)).2.1 rfl
  · rintro rfl
    exact (free _ (List.mem_singleton.mpr rfl)).2.2 rfl

namespace Literal

theorem exists_behind {bytes x : Bytes} (free : ∀ b ∈ bytes, IsFree b) {s : Literal}
    (form : s.inside = bytes ++ x) : ∃ t : Literal, t.inside = x := by
  induction bytes generalizing s with
  | nil => exact ⟨s, form⟩
  | cons b bytes ih =>
    obtain ⟨first, later⟩ := List.forall_mem_cons.mp free
    rcases s with _ | ⟨piece, s⟩
    · cases form
    rw [inside_cons] at form
    cases escapes : piece.isEscape with
    | false =>
      obtain ⟨own, some⟩ := Piece.free escapes
      obtain ⟨b', tail, text⟩ := List.exists_cons_of_ne_nil some
      rw [text] at form own
      obtain ⟨-, rest⟩ := List.cons.inj form
      obtain ⟨t, strays⟩ := Reader.exists_strays (List.forall_mem_cons.mp own).2
      exact ih later (s := t ++ s) (by rw [inside_append, strays]; exact rest)
    | true =>
      obtain ⟨-, more, escape⟩ := Piece.escape escapes
      rw [escape] at form
      obtain ⟨rfl, -⟩ := List.cons.inj form
      exact absurd rfl first.2.2

theorem exists_legible (s : Literal) (text : IsText s.inside) :
    ∃ t : Literal, t.legible = true ∧ t.inside = s.inside := by
  induction length : s.inside.length using Nat.strong_induction_on generalizing s with
  | _ n ih =>
  subst length
  rcases s with _ | ⟨piece, s⟩
  · exact ⟨[], rfl, rfl⟩
  rw [inside_cons] at text ih ⊢
  cases escapes : piece.isEscape with
  | true =>
    obtain ⟨low, more, escape⟩ := Piece.escape escapes
    have whole : piece.isStray = false := by cases piece <;> first | rfl | cases escapes
    have shorter : (Literal.inside s).length < (piece.text ++ Literal.inside s).length := by
      rw [escape, List.length_append, List.length_cons]
      omega
    obtain ⟨t, legible, inside⟩ := ih _ shorter s (text.drop low) rfl
    refine ⟨piece :: t, ?_, by rw [inside_cons, inside]⟩
    simpa [Literal.legible, whole] using legible
  | false =>
    -- The bytes of the first character, which may be spread over several pieces.
    obtain ⟨own, some⟩ := Piece.free escapes
    obtain ⟨b, tail, form⟩ := List.exists_cons_of_ne_nil some
    obtain ⟨_ | ⟨c, cs⟩, same⟩ := text
    · rw [form] at same
      cases same
    obtain ⟨first, tails, bytes, high, -⟩ := Text.Utf8.exists_bytes c
    have free : ∀ b ∈ String.utf8EncodeChar c, IsFree b := by
      rw [form] at own same
      rw [List.flatMap_cons, bytes] at same
      obtain ⟨rfl, -⟩ := List.cons.inj same
      rw [bytes]
      exact List.forall_mem_cons.mpr ⟨(List.forall_mem_cons.mp own).1, fun t inside =>
        Reader.isFree_of_high (high t inside)⟩
    obtain ⟨u, left⟩ :=
      exists_behind (s := piece :: s) free (by rw [inside_cons, same, List.flatMap_cons])
    have shorter : u.inside.length < (piece.text ++ Literal.inside s).length := by
      rw [same, left, List.flatMap_cons, bytes, List.length_append, List.length_cons]
      omega
    obtain ⟨t, legible, inside⟩ := ih _ shorter u ⟨cs, left⟩ rfl
    refine ⟨.plain c (plain_of_isFree free) :: t, ?_, ?_⟩
    · simpa [Literal.legible, Piece.isStray] using legible
    · rw [inside_cons, inside, left, same]
      rfl

theorem isText_inside {s : Literal} (legible : s.legible = true) : IsText s.inside := by
  induction s with
  | nil => exact Text.Utf8.isText_nil
  | cons piece s ih =>
    rw [Literal.legible, List.all_cons, Bool.and_eq_true, Bool.not_eq_true'] at legible
    rw [inside_cons]
    exact (Piece.isText legible.1).append (ih legible.2)

theorem isText_text {s : Literal} (legible : s.legible = true) : IsText s.text :=
  have quote : IsText ['"'.toUInt8] := Text.Utf8.isText_singleton (by decide)
  (quote.append (isText_inside legible)).append quote

end Literal

/-! ### Trees -/

theorem Space.low (s : Space) : ∀ b ∈ s.bytes, b < 0x80 := by
  intro b inside
  have blank := s.blank b inside
  simp only [Cursor.isSpace, Bool.or_eq_true, decide_eq_true_eq] at blank
  rcases blank with ((rfl | rfl) | rfl) | rfl <;> decide

theorem Gap.low (first : Bool) (g : Gap) : ∀ b ∈ g.text first, b < 0x80 := by
  simp only [Gap.text, List.forall_mem_append]
  refine ⟨⟨g.before.low, ?_⟩, g.after.low⟩
  cases first with
  | true => exact List.forall_mem_nil _
  | false => exact List.forall_mem_singleton.mpr (by decide)

theorem spellDigits_low (ds : List Digit) : ∀ b ∈ spellDigits ds, b < 0x80 := by
  intro b inside
  have all : ∀ d : Digit, d.byte < 0x80 := by decide
  obtain ⟨d, -, rfl⟩ := List.mem_map.mp inside
  exact all d

theorem Power.low (p : Power) : ∀ b ∈ p.text, b < 0x80 := by
  refine List.forall_mem_cons.mpr ⟨?_, List.forall_mem_append.mpr ⟨?_, spellDigits_low p.digits⟩⟩
  · rcases p.known with mark | mark <;> rw [mark] <;> decide
  · unfold signText
    rcases p.sign with _ | _ | _
    · exact List.forall_mem_nil _
    · exact List.forall_mem_singleton.mpr (by decide)
    · exact List.forall_mem_singleton.mpr (by decide)

theorem Numeral.low (n : Numeral) : ∀ b ∈ n.text, b < 0x80 := by
  simp only [text, size, tail, List.forall_mem_append]
  refine ⟨?_, spellDigits_low n.whole, ?_, ?_⟩
  · cases n.negative with
    | false => exact List.forall_mem_nil _
    | true => exact List.forall_mem_singleton.mpr (by decide)
  · split
    · exact List.forall_mem_nil _
    · exact List.forall_mem_cons.mpr ⟨by decide, spellDigits_low n.fraction⟩
  · rcases n.power with _ | p
    · exact List.forall_mem_nil _
    · exact p.low

namespace Tree

mutual

def legible : Tree → Bool
  | string s => s.legible
  | array items _ => itemsLegible items
  | object members _ => membersLegible members
  | _ => true

def itemsLegible : List (Gap × Tree) → Bool
  | [] => true
  | (_, t) :: rest => t.legible && itemsLegible rest

def membersLegible : List (Heading × Tree) → Bool
  | [] => true
  | (heading, t) :: rest => heading.key.legible && t.legible && membersLegible rest

end

/-- Where the tree stands in a text, one whose strings are made of characters may stand for it, and what is
behind it is a text. -/
def Legibly (t : Tree) : Prop :=
  ∀ y, IsText (t.text ++ y) → (∃ u : Tree, u.legible = true ∧ u.text = t.text) ∧ IsText y

theorem legibly_items {items : List (Gap × Tree)} (each : ∀ item ∈ items, item.2.Legibly)
    (first : Bool) {y : Bytes} (text : IsText (itemsText first items ++ y)) :
    (∃ items', itemsLegible items' = true ∧ itemsText first items' = itemsText first items) ∧
      IsText y := by
  induction items generalizing first with
  | nil => exact ⟨⟨[], rfl, rfl⟩, text⟩
  | cons item items ih =>
    obtain ⟨gap, t⟩ := item
    obtain ⟨legibly, later⟩ := List.forall_mem_cons.mp each
    rw [itemsText, List.append_assoc, List.append_assoc] at text
    obtain ⟨⟨u, legible, same⟩, text⟩ := legibly _ (text.drop (gap.low first))
    obtain ⟨⟨items', all, rest⟩, text⟩ := ih later false text
    refine ⟨⟨(gap, u) :: items', ?_, ?_⟩, text⟩
    · rw [itemsLegible, legible, all]
      rfl
    · rw [itemsText, itemsText, same, rest]

theorem isText_literal {s : Literal} {y : Bytes} (text : IsText (s.text ++ y)) :
    (∃ t : Literal, t.legible = true ∧ t.text = s.text) ∧ IsText y := by
  rw [Literal.text_append] at text
  obtain ⟨inside, behind⟩ := (text.behind (by decide)).split (by decide)
  obtain ⟨t, legible, same⟩ := s.exists_legible inside
  exact ⟨⟨t, legible, by rw [Literal.text, same]; rfl⟩, behind⟩

theorem legibly_members {members : List (Heading × Tree)}
    (each : ∀ member ∈ members, member.2.Legibly) (first : Bool) {y : Bytes}
    (text : IsText (membersText first members ++ y)) :
    (∃ members', membersLegible members' = true ∧
      membersText first members' = membersText first members) ∧ IsText y := by
  induction members generalizing first with
  | nil => exact ⟨⟨[], rfl, rfl⟩, text⟩
  | cons member members ih =>
    obtain ⟨heading, t⟩ := member
    obtain ⟨legibly, later⟩ := List.forall_mem_cons.mp each
    rw [Tree.members_text] at text
    obtain ⟨⟨key, named, written⟩, text⟩ := isText_literal (text.drop (heading.gap.low first))
    have text := ((text.drop heading.before.low).behind (by decide)).drop heading.after.low
    obtain ⟨⟨u, legible, same⟩, text⟩ := legibly _ text
    obtain ⟨⟨members', all, rest⟩, text⟩ := ih later false text
    refine ⟨⟨(⟨heading.gap, key, heading.before, heading.after⟩, u) :: members', ?_, ?_⟩, text⟩
    · rw [membersLegible, named, legible, all]
      rfl
    · rw [membersText, membersText, Heading.text, Heading.text, same, rest, written]

theorem legibly (t : Tree) : t.Legibly := by
  induction t using Tree.induction with
  | null =>
    exact fun y text => ⟨⟨null, rfl, rfl⟩, text.drop (ascii_low (by decide))⟩
  | bool b =>
    refine fun y text => ⟨⟨bool b, rfl, rfl⟩, text.drop ?_⟩
    cases b <;> exact ascii_low (by decide)
  | number n => exact fun y text => ⟨⟨number n, rfl, rfl⟩, text.drop n.low⟩
  | string s =>
    intro y text
    obtain ⟨⟨t, legible, same⟩, behind⟩ := isText_literal text
    exact ⟨⟨string t, legible, same⟩, behind⟩
  | array items last each =>
    intro y text
    rw [array_text] at text
    obtain ⟨⟨items', legible, same⟩, text⟩ := legibly_items each true (text.behind (by decide))
    refine ⟨⟨array items' last, legible, ?_⟩, (text.drop last.low).behind (by decide)⟩
    rw [Tree.text, Tree.text, same]
  | object members last each =>
    intro y text
    rw [object_text] at text
    obtain ⟨⟨members', legible, same⟩, text⟩ := legibly_members each true (text.behind (by decide))
    refine ⟨⟨object members' last, legible, ?_⟩, (text.drop last.low).behind (by decide)⟩
    rw [Tree.text, Tree.text, same]

theorem isText_items {items : List (Gap × Tree)}
    (each : ∀ item ∈ items, item.2.legible = true → IsText item.2.text)
    (legible : itemsLegible items = true) (first : Bool) : IsText (itemsText first items) := by
  induction items generalizing first with
  | nil => exact Text.Utf8.isText_nil
  | cons item items ih =>
    obtain ⟨gap, t⟩ := item
    obtain ⟨text, later⟩ := List.forall_mem_cons.mp each
    rw [itemsLegible, Bool.and_eq_true] at legible
    exact ((Text.Utf8.isText_of_low (gap.low first)).append (text legible.1)).append
      (ih later legible.2 false)

theorem isText_members {members : List (Heading × Tree)}
    (each : ∀ member ∈ members, member.2.legible = true → IsText member.2.text)
    (legible : membersLegible members = true) (first : Bool) : IsText (membersText first members) := by
  induction members generalizing first with
  | nil => exact Text.Utf8.isText_nil
  | cons member members ih =>
    obtain ⟨heading, t⟩ := member
    obtain ⟨text, later⟩ := List.forall_mem_cons.mp each
    rw [membersLegible, Bool.and_eq_true, Bool.and_eq_true] at legible
    have key := Literal.isText_text legible.1.1
    have colon : IsText (':'.toUInt8 :: heading.after.bytes) :=
      Text.Utf8.isText_of_low (List.forall_mem_cons.mpr ⟨by decide, heading.after.low⟩)
    have written : IsText (heading.text first) :=
      (((Text.Utf8.isText_of_low (heading.gap.low first)).append key).append
        (Text.Utf8.isText_of_low heading.before.low)).append colon
    exact (written.append (text legible.1.2)).append (ih later legible.2 false)

theorem isText_of_legible (t : Tree) (legible : t.legible = true) : IsText t.text := by
  have enclosed {b c : UInt8} {x : Bytes} (opening : b < 0x80) (closing : c < 0x80) (last : Space)
      (inside : IsText x) : IsText (b :: x ++ last.bytes ++ [c]) :=
    (((Text.Utf8.isText_singleton opening).append inside).append
      (Text.Utf8.isText_of_low last.low)).append (Text.Utf8.isText_singleton closing)
  induction t using Tree.induction with
  | null => exact Text.Utf8.isText_of_low (ascii_low (by decide))
  | bool b => cases b <;> exact Text.Utf8.isText_of_low (ascii_low (by decide))
  | number n => exact Text.Utf8.isText_of_low n.low
  | string s => exact Literal.isText_text legible
  | array items last each =>
    exact enclosed (by decide) (by decide) last (isText_items each legible true)
  | object members last each =>
    exact enclosed (by decide) (by decide) last (isText_members each legible true)

end Tree

/-- The body is a document: the text of a tree whose strings are made of characters. -/
def IsDocument (body : Bytes) : Prop :=
  ∃ t : Tree, t.legible = true ∧ t.Writes body

/-- A document is a text, and nothing more is asked of its strings. -/
theorem isDocument_iff {body : Bytes} : IsDocument body ↔ IsText body ∧ ∃ t : Tree, t.Writes body := by
  constructor
  · rintro ⟨t, legible, before, after, rfl⟩
    have low (s : Space) : IsText s.bytes := Text.Utf8.isText_of_low s.low
    exact ⟨((low before).append (t.isText_of_legible legible)).append (low after), t, before, after, rfl⟩
  · rintro ⟨text, t, before, after, rfl⟩
    rw [List.append_assoc] at text
    obtain ⟨⟨u, legible, same⟩, -⟩ := t.legibly _ (text.drop before.low)
    exact ⟨u, legible, before, after, by rw [same]⟩

end Json
end CloudProvider
