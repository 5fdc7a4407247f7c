import CloudProvider.Proofs.Restoring
import CloudProvider.Proofs.Strings

/-! Values as they are read. A tree that means a value is read as this value, whatever white space is around
it. Readers of lists and of objects are taken with any reader of what is inside, so that the same lemmas
serve the values, and the dictionaries of a codec. -/

namespace CloudProvider.Json

open Reader (Begins)

namespace Numeral

theorem first_eq (n : Numeral) : n.negative = true ∧ n.first = '-' ∨
    n.negative = false ∧ n.first.isDigit = true ∧ n.first ≠ '-' := by
  have digit : ∀ d : Digit, (Char.ofUInt8 d.byte).isDigit = true ∧ Char.ofUInt8 d.byte ≠ '-' := by
    decide
  unfold first
  rcases n.negative with _ | _
  · exact .inr ⟨rfl, digit _⟩
  · exact .inl ⟨rfl, rfl⟩

theorem exists_text (n : Numeral) : ∃ more, n.text = n.first.toUInt8 :: more := by
  have digit : ∀ d : Digit, (Char.ofUInt8 d.byte).toUInt8 = d.byte := by decide
  obtain ⟨d, ds, form⟩ := List.exists_cons_of_ne_nil n.given
  unfold text first
  rcases n.negative with _ | _
  · refine ⟨spellDigits ds ++ n.tail, ?_⟩
    simp [size, form, digit, spellDigits]
  · exact ⟨n.size, rfl⟩

end Numeral

namespace Tree

theorem exists_text (t : Tree) : ∃ more, t.text = t.first.toUInt8 :: more := by
  cases t with
  | null => exact ⟨_, rfl⟩
  | bool b => cases b <;> exact ⟨_, rfl⟩
  | number n => exact n.exists_text
  | string s => exact ⟨_, rfl⟩
  | array items last => exact ⟨itemsText true items ++ last.bytes ++ [']'.toUInt8], by simp [text, first]⟩
  | object members last =>
    exact ⟨membersText true members ++ last.bytes ++ ['\x7d'.toUInt8], by simp [text, first]⟩

theorem begins_first (t : Tree) : Begins t.first := by
  cases t with
  | bool b => cases b <;> decide
  | number n =>
    obtain ⟨-, minus⟩ | ⟨-, digit, -⟩ := n.first_eq
    · rw [first, minus]
      decide
    · exact Value.begins_of_isDigit digit
  | _ => exact of_decide_eq_true rfl

theorem first_eq_iff (t : Tree) :
    (t.first = '"' ↔ ∃ s, t = string s) ∧ (t.first = '[' ↔ ∃ items last, t = array items last) ∧
    (t.first = '\x7b' ↔ ∃ members last, t = object members last) ∧ t.first ≠ ']' := by
  cases t with
  | bool b => cases b <;> simp [first]
  | number n =>
    have other {c : Char} (minus : c ≠ '-') (digit : c.isDigit = false) : n.first ≠ c := by
      rintro rfl
      obtain ⟨-, same⟩ | ⟨-, same, -⟩ := n.first_eq
      · exact minus same
      · rw [digit] at same
        cases same
    simp only [first]
    refine ⟨⟨fun same => ?_, nofun⟩, ⟨fun same => ?_, nofun⟩, ⟨fun same => ?_, nofun⟩, ?_⟩
    · exact absurd same (other (by decide) (by decide))
    · exact absurd same (other (by decide) (by decide))
    · exact absurd same (other (by decide) (by decide))
    · exact other (by decide) (by decide)
  | _ => simp [first]

end Tree

section Meant

variable {Q : Tree → Value → Prop} {room : Nat}

theorem Tree.forall₂_itemValues? {items : List (Gap × Tree)} {vs : List Value}
    (each : ∀ item ∈ items, ∀ v, item.2.value? room = some v → Q item.2 v)
    (meant : Tree.itemValues? room items = some vs) :
    List.Forall₂ (fun item v => Q item.2 v) items vs := by
  induction items generalizing vs with
  | nil =>
    rw [Tree.itemValues?] at meant
    obtain rfl := Option.some.inj meant
    exact .nil
  | cons item items ih =>
    obtain ⟨gap, t⟩ := item
    rw [Tree.itemValues?] at meant
    obtain ⟨v, first, meant⟩ := Option.bind_eq_some_iff.mp meant
    obtain ⟨vs, later, same⟩ := Option.bind_eq_some_iff.mp meant
    obtain rfl := Option.some.inj same
    obtain ⟨holds, each⟩ := List.forall_mem_cons.mp each
    exact .cons (holds v first) (ih each later)

theorem Tree.forall₂_entries? {members : List (Heading × Tree)} {entries : List (String × Value)}
    (each : ∀ member ∈ members, ∀ v, member.2.value? room = some v → Q member.2 v)
    (meant : Tree.entries? room members = some entries) :
    List.Forall₂ (fun member entry => member.1.key.value? = some entry.1 ∧ Q member.2 entry.2)
      members entries := by
  induction members generalizing entries with
  | nil =>
    rw [Tree.entries?] at meant
    obtain rfl := Option.some.inj meant
    exact .nil
  | cons member members ih =>
    obtain ⟨heading, t⟩ := member
    rw [Tree.entries?] at meant
    obtain ⟨key, named, meant⟩ := Option.bind_eq_some_iff.mp meant
    obtain ⟨v, first, meant⟩ := Option.bind_eq_some_iff.mp meant
    obtain ⟨entries, later, same⟩ := Option.bind_eq_some_iff.mp meant
    obtain rfl := Option.some.inj same
    obtain ⟨holds, each⟩ := List.forall_mem_cons.mp each
    exact .cons ⟨named, holds v first⟩ (ih each later)

end Meant

namespace Reader

section Structure

variable {c : Char} {x y : Bytes}

theorem endsNumber_cons (separates : c = ',' ∨ c = ']' ∨ c = '\x7d' ∨ c = ':') (x : Bytes) :
    EndsNumber (c.toUInt8 :: x) := by
  rintro b ⟨⟩
  rcases separates with rfl | rfl | rfl | rfl <;> decide

theorem endsNumber_space (s : Space) (ends : EndsNumber x) : EndsNumber (s.bytes ++ x) := by
  obtain ⟨_ | ⟨b, bytes⟩, blank⟩ := s
  · exact ends
  · have space := blank b List.mem_cons_self
    rintro _ ⟨⟩
    simp only [Cursor.isSpace, Bool.or_eq_true, decide_eq_true_eq] at space
    rcases space with ((rfl | rfl) | rfl) | rfl <;> decide

theorem reads_token_gap (g : Gap) (begins : Begins c) (x : Bytes) :
    Reads token (g.text true ++ c.toUInt8 :: x) (some c) (c.toUInt8 :: x) := by
  rw [← g.join_bytes]
  exact reads_token_char g.join begins x

theorem reads_moreElements (first : Bool) (g : Gap) (begins : Begins c) (other : c ≠ ']')
    (x : Bytes) :
    Reads (moreElements first) (g.text first ++ c.toUInt8 :: x) true (c.toUInt8 :: x) := by
  cases first with
  | true =>
    refine (reads_token_gap g begins x).bind ?_
    split
    · next none => cases none
    · next same => exact absurd (Option.some.inj same) other
    · exact reads_pure _ true
  | false =>
    rw [Gap.false_append]
    refine (reads_token_char g.before (c := ',') (by decide) _).bind ((reads_advance _ _).bind
      ((reads_token_char g.after begins x).bind ?_))
    split
    · next same => exact absurd (Option.some.inj same) other
    · exact reads_pure _ true
    · next none => cases none

theorem reads_noMoreElements (first : Bool) (s : Space) (y : Bytes) :
    Reads (moreElements first) (s.bytes ++ ']'.toUInt8 :: y) false (']'.toUInt8 :: y) :=
  (reads_token_char s (by decide) y).bind (reads_pure _ false)

theorem reads_nextKey? (first : Bool) (g : Gap) {s : Literal} {key : String}
    (meant : s.value? = some key) (y : Bytes) :
    Reads (nextKey? first) (g.text first ++ (s.text ++ y)) (some key) y := by
  have quoted : Reads (do advance; some <$> string) (s.text ++ y) (some key) y := by
    rw [Literal.text_append]
    exact (reads_advance _ _).bind (reads_string meant y).map
  rw [Literal.text_append] at quoted ⊢
  cases first with
  | true => exact (reads_token_gap g (by decide) _).bind quoted
  | false =>
    rw [Gap.false_append]
    exact (reads_token_char g.before (c := ',') (by decide) _).bind ((reads_advance _ _).bind
      ((reads_token_char g.after (by decide) _).bind quoted))

theorem reads_noKey (first : Bool) (s : Space) (y : Bytes) :
    Reads (nextKey? first) (s.bytes ++ '\x7d'.toUInt8 :: y) none ('\x7d'.toUInt8 :: y) :=
  (reads_token_char s (by decide) y).bind (reads_pure _ none)

theorem reads_colon (s : Space) (y : Bytes) : Reads colon (s.bytes ++ ':'.toUInt8 :: y) () y :=
  (reads_token_char s (by decide) y).bind (reads_advance _ y)

theorem reads_endList (y : Bytes) : Reads endList (']'.toUInt8 :: y) () y :=
  (reads_token_char .none (by decide) y).bind (reads_advance _ y)

theorem reads_endObject (y : Bytes) : Reads endObject ('\x7d'.toUInt8 :: y) () y :=
  (reads_token_char .none (by decide) y).bind (reads_advance _ y)

theorem reads_endText (s : Space) : Reads endText s.bytes () [] :=
  (reads_token_end s).bind (reads_pure [] ())

theorem reads_enter (b : UInt8) (inner : Nat) (y : Bytes) :
    Reads (enter (inner + 1)) (b :: y) inner y :=
  (reads_advance b y).bind (reads_pure y inner)

end Structure

section Brackets

variable {α : Type} {r : Reader α} {c : Char}

/-- The reader reads the text of the tree as `a`, whatever white space is in front of it and whatever
stands behind it that is not a part of a number. -/
def ReadsTree (r : Reader α) (t : Tree) (a : α) : Prop :=
  ∀ (s : Space) (y : Bytes), EndsNumber y → Reads r (s.bytes ++ (t.text ++ y)) a y

theorem endsNumber_items (items : List (Gap × Tree)) (last : Space) (y : Bytes) :
    EndsNumber (Tree.itemsText false items ++ (last.bytes ++ ']'.toUInt8 :: y)) := by
  cases items with
  | nil => exact endsNumber_space last (endsNumber_cons (c := ']') (by decide) y)
  | cons item items =>
    obtain ⟨gap, t⟩ := item
    rw [Tree.itemsText, List.append_assoc, List.append_assoc, Gap.false_append]
    exact endsNumber_space _ (endsNumber_cons (c := ',') (by decide) _)

theorem endsNumber_members (members : List (Heading × Tree)) (last : Space) (y : Bytes) :
    EndsNumber (Tree.membersText false members ++ (last.bytes ++ '\x7d'.toUInt8 :: y)) := by
  cases members with
  | nil => exact endsNumber_space last (endsNumber_cons (c := '\x7d') (by decide) y)
  | cons member members =>
    obtain ⟨heading, t⟩ := member
    rw [Tree.members_text, Gap.false_append]
    exact endsNumber_space _ (endsNumber_cons (c := ',') (by decide) _)

theorem length_le_itemsText (items : List (Gap × Tree)) (first : Bool) :
    items.length ≤ (Tree.itemsText first items).length := by
  induction items generalizing first with
  | nil => simp
  | cons item items ih =>
    obtain ⟨gap, t⟩ := item
    obtain ⟨more, form⟩ := t.exists_text
    have rest := ih false
    simp only [Tree.itemsText, form, List.length_append, List.length_cons]
    omega

theorem length_le_membersText (members : List (Heading × Tree)) (first : Bool) :
    members.length ≤ (Tree.membersText first members).length := by
  induction members generalizing first with
  | nil => simp
  | cons member members ih =>
    obtain ⟨heading, t⟩ := member
    obtain ⟨more, form⟩ := t.exists_text
    have rest := ih false
    simp only [Tree.membersText, form, List.length_append, List.length_cons]
    omega

theorem reads_elementRounds {items : List (Gap × Tree)} {as : List α}
    (each : List.Forall₂ (fun item a => ReadsTree r item.2 a) items as) (rounds : Nat)
    (enough : items.length < rounds) (first : Bool) (last : Space) (y : Bytes) :
    Reads (elementRounds r rounds first)
      (Tree.itemsText first items ++ (last.bytes ++ ']'.toUInt8 :: y)) as (']'.toUInt8 :: y) := by
  induction each generalizing rounds first with
  | nil =>
    cases rounds with
    | zero => cases enough
    | succ rounds => exact (reads_noMoreElements first last y).bind (reads_pure _ [])
  | @cons item a items as reads _ ih =>
    obtain ⟨gap, t⟩ := item
    cases rounds with
    | zero => cases enough
    | succ rounds =>
      have rest := ih rounds (Nat.lt_of_succ_lt_succ enough) false
      have value := reads .none _ (endsNumber_items items last y)
      obtain ⟨more, form⟩ := t.exists_text
      rw [Tree.itemsText, List.append_assoc, List.append_assoc]
      rw [show Space.none.bytes = [] from rfl, List.nil_append, form, List.cons_append] at value
      rw [form, List.cons_append]
      exact (reads_moreElements first gap t.begins_first t.first_eq_iff.2.2.2 _).bind
        (value.bind (rest.bind (reads_pure _ _)))

theorem reads_elements {items : List (Gap × Tree)} {as : List α}
    (each : List.Forall₂ (fun item a => ReadsTree r item.2 a) items as) (last : Space) (y : Bytes) :
    Reads (elements r) (Tree.itemsText true items ++ (last.bytes ++ ']'.toUInt8 :: y)) as
      (']'.toUInt8 :: y) := by
  have long := length_le_itemsText items true
  refine reads_cursor fun p => reads_elementRounds each _ ?_ true last y
  simp only [List.length_append]
  omega

theorem reads_memberRounds {members : List (Heading × Tree)} {entries : List (String × α)}
    (each : List.Forall₂ (fun member entry => member.1.key.value? = some entry.1 ∧
      ReadsTree r member.2 entry.2) members entries) (rounds : Nat)
    (enough : members.length < rounds) (first : Bool) (seen : Text.Dictionary α) (last : Space)
    (y : Bytes) :
    Reads (memberRounds r rounds first seen)
      (Tree.membersText first members ++ (last.bytes ++ '\x7d'.toUInt8 :: y))
      (entries.foldl (fun d (k, a) => d.insert k a) seen) ('\x7d'.toUInt8 :: y) := by
  induction each generalizing rounds first seen with
  | nil =>
    cases rounds with
    | zero => cases enough
    | succ rounds => exact (reads_noKey first last y).bind (reads_pure _ seen)
  | @cons member entry members entries reads _ ih =>
    obtain ⟨heading, t⟩ := member
    obtain ⟨key, a⟩ := entry
    obtain ⟨named, reads⟩ := reads
    cases rounds with
    | zero => cases enough
    | succ rounds =>
      have rest := ih rounds (Nat.lt_of_succ_lt_succ enough) false (seen.insert key a)
      have value := reads heading.after _ (endsNumber_members members last y)
      rw [Tree.members_text]
      exact (reads_nextKey? first heading.gap named _).bind ((reads_colon heading.before _).bind
        (value.bind rest))

theorem reads_members {members : List (Heading × Tree)} {entries : List (String × α)}
    (each : List.Forall₂ (fun member entry => member.1.key.value? = some entry.1 ∧
      ReadsTree r member.2 entry.2) members entries) (last : Space) (y : Bytes) :
    Reads (Reader.members r) (Tree.membersText true members ++ (last.bytes ++ '\x7d'.toUInt8 :: y))
      (Text.Dictionary.ofList entries) ('\x7d'.toUInt8 :: y) := by
  have long := length_le_membersText members true
  refine reads_cursor fun p => reads_memberRounds each _ ?_ true [] last y
  simp only [List.length_append]
  omega

end Brackets

end Reader

namespace Value

open Reader

theorem read_eq (room : Nat) : read room = (do
    match ← Reader.token with
    | none => Reader.failNext .endInValue
    | some c => readFrom room c) := by
  rw [read.eq_def]
  refine bind_congr fun found => ?_
  split
  case h_9 c _ _ _ _ _ _ _ =>
    dsimp only
    unfold readFrom
    symm
    split <;> first | rfl | contradiction
  all_goals rfl

theorem reads_read {room : Nat} {c : Char} {v : Value} {x y : Bytes} (s : Space) (begins : Begins c)
    (reads : Reads (readFrom room c) (c.toUInt8 :: x) v y) :
    Reads (read room) (s.bytes ++ c.toUInt8 :: x) v y := by
  rw [read_eq]
  exact (reads_token_char s begins x).bind reads

theorem readsTree_number {n : Numeral} {x : Number} (meant : n.number? = some x) (room : Nat) :
    ReadsTree (read room) (.number n) (.number x) := by
  intro s y ends
  have digits := reads_number meant ends
  obtain ⟨more, form⟩ := n.exists_text
  have begins := (Tree.number n).begins_first
  change Reads _ (s.bytes ++ (n.text ++ y)) _ _
  obtain ⟨negative, minus⟩ | ⟨positive, digit, -⟩ := n.first_eq
  · rw [negative] at digits
    rw [show n.text = '-'.toUInt8 :: n.size by simp [Numeral.text, negative], List.cons_append]
    exact reads_read s (by decide) ((reads_advance _ _).bind digits.map)
  · rw [positive] at digits
    have size : n.size = n.text := by simp [Numeral.text, positive]
    rw [size, form, List.cons_append] at digits
    rw [form, List.cons_append]
    refine reads_read s begins ?_
    rw [readFrom_digit room digit]
    exact digits.map

theorem readsTree (t : Tree) : ∀ {room : Nat} (v : Value), t.value? room = some v →
    ReadsTree (read room) t v := by
  induction t using Tree.induction with
  | null =>
    intro room v meant s y _
    rw [Tree.value?] at meant
    obtain rfl := Option.some.inj meant
    exact reads_read (c := 'n') s (by decide) ((reads_advance _ _).bind
      ((reads_word ['u', 'l', 'l'] (by decide) y).bind (reads_pure y _)))
  | bool b =>
    intro room v meant s y _
    rw [Tree.value?] at meant
    obtain rfl := Option.some.inj meant
    cases b
    · exact reads_read (c := 'f') s (by decide) ((reads_advance _ _).bind
        ((reads_word ['a', 'l', 's', 'e'] (by decide) y).bind (reads_pure y _)))
    · exact reads_read (c := 't') s (by decide) ((reads_advance _ _).bind
        ((reads_word ['r', 'u', 'e'] (by decide) y).bind (reads_pure y _)))
  | number n =>
    intro room v meant
    rw [Tree.value?] at meant
    obtain ⟨x, known, rfl⟩ := Option.map_eq_some_iff.mp meant
    exact readsTree_number known room
  | string text =>
    intro room v meant s y _
    rw [Tree.value?] at meant
    obtain ⟨x, known, rfl⟩ := Option.map_eq_some_iff.mp meant
    change Reads _ (s.bytes ++ (text.text ++ y)) _ _
    rw [Literal.text_append]
    exact reads_read s (by decide) ((reads_advance _ _).bind (reads_string known y).map)
  | array items last each =>
    intro room v meant s y _
    cases room with
    | zero => cases meant
    | succ room =>
      rw [Tree.value?] at meant
      obtain ⟨vs, known, rfl⟩ := Option.map_eq_some_iff.mp meant
      have contents := reads_elements (r := read room)
        (Tree.forall₂_itemValues? (fun item inside v => each item inside v) known) last y
      rw [Tree.array_text]
      exact reads_read s (by decide) ((reads_advance _ _).bind
        (contents.map.bracketed (reads_endList y)))
  | object members last each =>
    intro room v meant s y _
    cases room with
    | zero => cases meant
    | succ room =>
      rw [Tree.value?] at meant
      obtain ⟨entries, known, rfl⟩ := Option.map_eq_some_iff.mp meant
      have contents := reads_members (r := read room)
        (Tree.forall₂_entries? (fun member inside v => each member inside v) known) last y
      rw [Tree.object_text]
      exact reads_read s (by decide) ((reads_advance _ _).bind
        (contents.map.bracketed (reads_endObject y)))

end Value
end CloudProvider.Json
