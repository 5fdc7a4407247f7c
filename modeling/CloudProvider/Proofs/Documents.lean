import CloudProvider.Proofs.Agreement
import CloudProvider.Proofs.Spelling

/-! What a tree spells out, from the bytes alone: values, values that are passed over, and records. Of
whatever a record is read, it is the text of a list or of an object. -/

namespace CloudProvider.Json
namespace Reader

variable {α : Type} {x y : Bytes}

theorem Reads.leaves {r : Reader α} {a : α} {R : α → Bytes → Prop} (reads : Reads r x a y)
    (holds : R a y) : Leaves r x R := by
  intro p b c run
  obtain ⟨p', ran⟩ := reads p
  obtain ⟨same, rfl⟩ := Prod.mk.inj (run.symm.trans ran)
  obtain rfl := Except.ok.inj same
  exact holds

theorem Fails.leaves {r : Reader α} {R : α → Bytes → Prop} (fails : Fails r x) : Leaves r x R := by
  intro p b c run
  obtain ⟨f, c', ran⟩ := fails p
  cases run.symm.trans ran

/-! ### Structure -/

theorem leaves_moreElements (first : Bool) : Leaves (moreElements first) x fun more y =>
    (more = true → ∃ g : Gap, x = g.text first ++ y) ∧
    (more = false → ∃ (s : Space) (z : Bytes), x = s.bytes ++ y ∧ y = ']'.toUInt8 :: z) := by
  refine leaves_token ?_
  rintro s y rfl found seen
  split
  · exact leaves_failNext _
  · obtain ⟨z, rfl⟩ := exists_cons_of_head? (c := ']') (by decide) seen
    exact leaves_pure ⟨nofun, fun _ => ⟨s, z, rfl, rfl⟩⟩
  · next c _ =>
    cases first with
    | true => exact leaves_pure ⟨fun _ => ⟨⟨.none, s⟩, by simp [Gap.text, Space.none]⟩, nofun⟩
    | false =>
      rw [if_neg (by simp)]
      split
      · next comma =>
        subst comma
        obtain ⟨z, rfl⟩ := exists_cons_of_head? (c := ',') (by decide) seen
        refine leaves_advance (leaves_token ?_)
        rintro after y rfl found -
        split
        · exact leaves_failNext _
        · exact leaves_pure ⟨fun _ => ⟨⟨s, after⟩, (Gap.false_append ⟨s, after⟩ y).symm⟩, nofun⟩
        · exact leaves_failNext _
      · exact leaves_failNext _

theorem leaves_nextKey? (first : Bool) : Leaves (nextKey? first) x fun key y =>
    (key = none → ∃ s : Space, x = s.bytes ++ y) ∧
    (∀ name, key = some name →
      ∃ (g : Gap) (s : Literal), x = g.text first ++ (s.text ++ y)) := by
  have quoted (g : Gap) {y : Bytes} (before : x = g.text first ++ y)
      (seen : y.head?.map Char.ofUInt8 = some '"') :
      Leaves (do advance; some <$> string) y fun key y =>
        (key = none → ∃ s : Space, x = s.bytes ++ y) ∧
        (∀ name, key = some name →
          ∃ (g : Gap) (s : Literal), x = g.text first ++ (s.text ++ y)) := by
    obtain ⟨z, rfl⟩ := exists_cons_of_head? (by decide) seen
    refine leaves_advance (leaves_string.mono ?_).map
    rintro name y ⟨s, rfl⟩
    exact ⟨nofun, fun _ _ => ⟨g, s, by rw [before, Literal.text_append]⟩⟩
  refine leaves_token ?_
  rintro s y form found seen
  split
  · exact leaves_failNext _
  · exact leaves_pure ⟨fun _ => ⟨s, form⟩, nofun⟩
  · next c _ =>
    cases first with
    | true =>
      rw [if_pos rfl]
      split
      · next quote =>
        subst quote
        exact quoted ⟨.none, s⟩ (by simp [Gap.text, Space.none, form]) seen
      · exact leaves_failNext _
    | false =>
      rw [if_neg (by simp)]
      split
      · next comma =>
        subst comma
        obtain ⟨z, rfl⟩ := exists_cons_of_head? (c := ',') (by decide) seen
        refine leaves_advance (leaves_token ?_)
        rintro after y rfl found seen
        split
        · exact quoted ⟨s, after⟩ (by rw [Gap.false_append, form]) seen
        · exact leaves_failNext _
        · exact leaves_failNext _
        · exact leaves_failNext _
      · exact leaves_failNext _

theorem leaves_colon : Leaves colon x fun _ y => ∃ s : Space, x = s.bytes ++ ':'.toUInt8 :: y := by
  refine leaves_token ?_
  rintro s y rfl found seen
  split
  · obtain ⟨z, rfl⟩ := exists_cons_of_head? (c := ':') (by decide) seen
    exact leaves_pass ⟨s, rfl⟩
  · exact leaves_failNext _
  · exact leaves_failNext _

theorem leaves_endList : Leaves endList x fun _ y => ∃ s : Space, x = s.bytes ++ ']'.toUInt8 :: y := by
  refine leaves_token ?_
  rintro s y rfl found seen
  split
  · obtain ⟨z, rfl⟩ := exists_cons_of_head? (c := ']') (by decide) seen
    exact leaves_pass ⟨s, rfl⟩
  · obtain ⟨z, rfl⟩ := exists_cons_of_head? (c := ',') (by decide) seen
    refine leaves_advance (leaves_token fun _ _ _ found _ => ?_)
    split <;> exact leaves_failNext _
  · exact leaves_failNext _
  · exact leaves_failNext _

theorem leaves_endObject : Leaves endObject x fun _ y =>
    ∃ s : Space, x = s.bytes ++ '\x7d'.toUInt8 :: y := by
  refine leaves_token ?_
  rintro s y rfl found seen
  split
  · obtain ⟨z, rfl⟩ := exists_cons_of_head? (c := '\x7d') (by decide) seen
    exact leaves_pass ⟨s, rfl⟩
  all_goals exact leaves_failNext _

theorem leaves_endText : Leaves endText x fun _ _ => ∃ s : Space, x = s.bytes := by
  refine leaves_token ?_
  rintro s y rfl found seen
  rcases y with _ | ⟨b, y⟩
  · subst seen
    exact leaves_pure ⟨s, List.append_nil _⟩
  · subst seen
    exact leaves_failNext _

theorem leaves_enter {room : Nat} {k : Nat → Reader α} {R : α → Bytes → Prop} {b : UInt8}
    (next : ∀ inner, Leaves (k inner) x R) : Leaves (enter room >>= k) (b :: x) R := by
  cases room with
  | zero => exact (leaves_failNext _).stop
  | succ inner =>
    have entered : Leaves (enter (inner + 1)) (b :: x) fun _ y => y = x :=
      leaves_advance (leaves_pure rfl)
    refine entered.bind ?_
    rintro inner y rfl
    exact next inner

/-! ### Brackets -/

/-- Whatever the reader reads is the text of a tree. -/
def Spells (r : Reader α) : Prop :=
  ∀ x, Leaves r x fun _ y => ∃ (s : Space) (t : Tree), x = s.bytes ++ (t.text ++ y)

section Brackets

variable {r : Reader α}

theorem leaves_elementRounds (spells : Spells r) (rounds : Nat) (first : Bool) :
    Leaves (elementRounds r rounds first) x fun _ y =>
      ∃ (items : List (Gap × Tree)) (last : Space),
        x = Tree.itemsText first items ++ (last.bytes ++ y) := by
  induction rounds generalizing first x with
  | zero => exact leaves_fail _
  | succ rounds ih =>
    refine (leaves_moreElements first).bind ?_
    rintro more y ⟨given, missing⟩
    cases more with
    | false =>
      obtain ⟨s, -, form, -⟩ := missing rfl
      exact leaves_pure ⟨[], s, form⟩
    | true =>
      obtain ⟨g, rfl⟩ := given rfl
      refine (spells y).bind ?_
      rintro a - ⟨s, t, rfl⟩
      refine (ih false).bind ?_
      rintro as z ⟨items, last, rfl⟩
      obtain ⟨wider, same⟩ := Gap.exists_wider first g s
        (t.text ++ (Tree.itemsText false items ++ (last.bytes ++ z)))
      refine leaves_pure ⟨(wider, t) :: items, last, ?_⟩
      rw [same, Tree.itemsText]
      simp

theorem leaves_elements (spells : Spells r) : Leaves (elements r) x fun _ y =>
    ∃ (items : List (Gap × Tree)) (last : Space), x = Tree.itemsText true items ++ (last.bytes ++ y) :=
  leaves_cursor fun _ => leaves_elementRounds spells _ _

theorem exists_member (first : Bool) (g : Gap) (key : Literal) (before after : Space) (t : Tree)
    (members : List (Heading × Tree)) (y : Bytes) :
    ∃ heading : Heading, g.text first ++ (key.text ++ (before.bytes ++ ':'.toUInt8 :: (after.bytes ++
      (t.text ++ (Tree.membersText false members ++ y))))) =
        Tree.membersText first ((heading, t) :: members) ++ y :=
  ⟨⟨g, key, before, after⟩, (Tree.members_text first ⟨g, key, before, after⟩ t members y).symm⟩

theorem leaves_memberRounds (spells : Spells r) (rounds : Nat) (first : Bool)
    (seen : Text.Dictionary α) :
    Leaves (memberRounds r rounds first seen) x fun _ y =>
      ∃ (members : List (Heading × Tree)) (last : Space),
        x = Tree.membersText first members ++ (last.bytes ++ y) := by
  induction rounds generalizing first seen x with
  | zero => exact leaves_fail _
  | succ rounds ih =>
    refine (leaves_nextKey? first).bind ?_
    rintro (_ | name) y ⟨missing, given⟩
    · obtain ⟨s, form⟩ := missing rfl
      exact leaves_pure ⟨[], s, form⟩
    · obtain ⟨g, key, rfl⟩ := given name rfl
      refine leaves_colon.bind ?_
      rintro - y ⟨before, rfl⟩
      refine (spells y).bind ?_
      rintro a - ⟨after, t, rfl⟩
      refine (ih false _).mono ?_
      rintro - z ⟨members, last, rfl⟩
      obtain ⟨heading, form⟩ := exists_member first g key before after t members (last.bytes ++ z)
      exact ⟨(heading, t) :: members, last, form⟩

theorem leaves_members (spells : Spells r) : Leaves (Reader.members r) x fun _ y =>
    ∃ (members : List (Heading × Tree)) (last : Space),
      x = Tree.membersText true members ++ (last.bytes ++ y) :=
  leaves_cursor fun _ => leaves_memberRounds spells _ _ _

theorem leaves_list (contents : Leaves r x fun _ y =>
      ∃ (items : List (Gap × Tree)) (last : Space), x = Tree.itemsText true items ++ (last.bytes ++ y)) :
    Leaves (bracketed r endList) x fun _ y =>
      ∃ (items : List (Gap × Tree)) (last : Space),
        '['.toUInt8 :: x = (Tree.array items last).text ++ y := by
  refine contents.bracketed ?_
  rintro a y ⟨items, last, rfl⟩
  refine leaves_endList.mono ?_
  rintro - z ⟨s, rfl⟩
  refine ⟨items, last.append s, ?_⟩
  rw [Tree.array_text]
  simp [Space.append]

theorem leaves_object (contents : Leaves r x fun _ y =>
      ∃ (members : List (Heading × Tree)) (last : Space),
        x = Tree.membersText true members ++ (last.bytes ++ y)) :
    Leaves (bracketed r endObject) x fun _ y =>
      ∃ (members : List (Heading × Tree)) (last : Space),
        '\x7b'.toUInt8 :: x = (Tree.object members last).text ++ y := by
  refine contents.bracketed ?_
  rintro a y ⟨members, last, rfl⟩
  refine leaves_endObject.mono ?_
  rintro - z ⟨s, rfl⟩
  refine ⟨members, last.append s, ?_⟩
  rw [Tree.object_text]
  simp [Space.append]

end Brackets

end Reader

namespace Value

open Reader

theorem leaves_readFrom {room : Nat} {c : Char} {x : Bytes}
    (seen : x.head?.map Char.ofUInt8 = some c)
    (spells : ∀ inner, room = inner + 1 → Spells (read inner)) :
    Leaves (readFrom room c) x fun _ y => ∃ t : Tree, x = t.text ++ y := by
  unfold readFrom
  split
  · obtain ⟨z, rfl⟩ := exists_cons_of_head? (c := 'n') (by decide) seen
    refine leaves_advance ((leaves_word (by decide)).bind ?_)
    rintro - y rfl
    exact leaves_pure ⟨.null, rfl⟩
  · obtain ⟨z, rfl⟩ := exists_cons_of_head? (c := 't') (by decide) seen
    refine leaves_advance ((leaves_word (by decide)).bind ?_)
    rintro - y rfl
    exact leaves_pure ⟨.bool true, rfl⟩
  · obtain ⟨z, rfl⟩ := exists_cons_of_head? (c := 'f') (by decide) seen
    refine leaves_advance ((leaves_word (by decide)).bind ?_)
    rintro - y rfl
    exact leaves_pure ⟨.bool false, rfl⟩
  · obtain ⟨z, rfl⟩ := exists_cons_of_head? (c := '-') (by decide) seen
    refine leaves_advance (leaves_number.mono ?_).map
    rintro - y ⟨n, negative, rfl⟩
    exact ⟨.number n, by simp [Tree.text, Numeral.text, negative]⟩
  · obtain ⟨z, rfl⟩ := exists_cons_of_head? (c := '"') (by decide) seen
    refine leaves_advance (leaves_string.mono ?_).map
    rintro - y ⟨s, rfl⟩
    exact ⟨.string s, (Literal.text_append s y).symm⟩
  · obtain ⟨z, rfl⟩ := exists_cons_of_head? (c := '[') (by decide) seen
    cases room with
    | zero => exact leaves_failNext _
    | succ inner =>
      refine leaves_advance ((leaves_list (leaves_elements (spells inner rfl)).map).mono ?_)
      rintro - y ⟨items, last, form⟩
      exact ⟨.array items last, form⟩
  · obtain ⟨z, rfl⟩ := exists_cons_of_head? (c := '\x7b') (by decide) seen
    cases room with
    | zero => exact leaves_failNext _
    | succ inner =>
      refine leaves_advance ((leaves_object (leaves_members (spells inner rfl)).map).mono ?_)
      rintro - y ⟨members, last, form⟩
      exact ⟨.object members last, form⟩
  · split
    · refine (leaves_number.mono ?_).map
      rintro - y ⟨n, positive, rfl⟩
      exact ⟨.number n, by simp [Tree.text, Numeral.text, positive]⟩
    · exact leaves_failNext _

theorem spells_read (room : Nat) : Spells (read room) := by
  have step (room : Nat) (within : ∀ inner, room = inner + 1 → Spells (read inner)) :
      Spells (read room) := by
    intro x
    rw [read_eq]
    refine leaves_token ?_
    rintro s y rfl found seen
    cases found with
    | none => exact leaves_failNext _
    | some c =>
      refine (leaves_readFrom seen within).mono ?_
      rintro - z ⟨t, rfl⟩
      exact ⟨s, t, rfl⟩
  induction room with
  | zero => exact step 0 nofun
  | succ room ih => exact step (room + 1) fun inner same => Nat.succ.inj same ▸ ih

end Value

namespace Reader

variable {x y : Bytes}

/-! ### What is passed over -/

theorem leaves_skipKey : Leaves skipKey x fun _ y => ∃ (s : Space) (key : Literal) (before : Space),
    x = s.bytes ++ (key.text ++ (before.bytes ++ ':'.toUInt8 :: y)) := by
  refine leaves_token ?_
  rintro s y rfl found seen
  split
  · obtain ⟨z, rfl⟩ := exists_cons_of_head? (c := '"') (by decide) seen
    refine leaves_advance (leaves_skipString.bind ?_)
    rintro - z ⟨key, rfl⟩
    refine leaves_colon.mono ?_
    rintro - y ⟨before, rfl⟩
    exact ⟨s, key, before, by rw [Literal.text_append]⟩
  · exact (leaves_failNext _).stop
  · exact (leaves_failNext _).stop

theorem leaves_skipScalar {c : Char} (seen : x.head?.map Char.ofUInt8 = some c) :
    Leaves (skipScalar c) x fun _ y => ∃ t : Tree, x = t.text ++ y := by
  unfold skipScalar
  split
  · obtain ⟨z, rfl⟩ := exists_cons_of_head? (c := 'n') (by decide) seen
    exact leaves_advance ((leaves_word (by decide)).mono fun _ y form => ⟨.null, form ▸ rfl⟩)
  · obtain ⟨z, rfl⟩ := exists_cons_of_head? (c := 't') (by decide) seen
    exact leaves_advance ((leaves_word (by decide)).mono fun _ y form => ⟨.bool true, form ▸ rfl⟩)
  · obtain ⟨z, rfl⟩ := exists_cons_of_head? (c := 'f') (by decide) seen
    exact leaves_advance ((leaves_word (by decide)).mono fun _ y form => ⟨.bool false, form ▸ rfl⟩)
  · obtain ⟨z, rfl⟩ := exists_cons_of_head? (c := '-') (by decide) seen
    refine leaves_advance ((leaves_skipNumber true).mono ?_)
    rintro - y ⟨n, negative, rfl⟩
    exact ⟨.number n, by simp [Tree.text, Numeral.text, negative]⟩
  · obtain ⟨z, rfl⟩ := exists_cons_of_head? (c := '"') (by decide) seen
    refine leaves_advance (leaves_skipString.mono ?_)
    rintro - y ⟨s, rfl⟩
    exact ⟨.string s, (Literal.text_append s y).symm⟩
  · split
    · refine (leaves_skipNumber false).mono ?_
      rintro - y ⟨n, positive, rfl⟩
      exact ⟨.number n, by simp [Tree.text, Numeral.text, positive]⟩
    · exact leaves_failNext _

/-- The rest of a bracket that has been entered, with its end. -/
def Ends (first : Bool) (bracket : Bracket) (x y : Bytes) : Prop :=
  match bracket with
  | .list => ∃ (items : List (Gap × Tree)) (last : Space),
      x = Tree.itemsText first items ++ (last.bytes ++ ']'.toUInt8 :: y)
  | .object => ∃ (members : List (Heading × Tree)) (last : Space),
      x = Tree.membersText first members ++ (last.bytes ++ '\x7d'.toUInt8 :: y)

def EndAll : List Bracket → Bytes → Bytes → Prop
  | [], x, y => x = y
  | bracket :: outer, x, y => ∃ z, Ends false bracket x z ∧ EndAll outer z y

/-- What has to be passed over still. -/
def Owes : Standing → List Bracket → Bytes → Bytes → Prop
  | .before, outer, x, y => ∃ (s : Space) (t : Tree) (z : Bytes),
      x = s.bytes ++ (t.text ++ z) ∧ EndAll outer z y
  | _, [], x, y => x = y
  | .opened, bracket :: outer, x, y => ∃ z, Ends true bracket x z ∧ EndAll outer z y
  | .after, bracket :: outer, x, y => ∃ z, Ends false bracket x z ∧ EndAll outer z y

theorem owes_after (outer : List Bracket) : Owes .after outer x y ↔ EndAll outer x y := by
  cases outer <;> exact Iff.rfl

theorem owes_within (first : Bool) (bracket : Bracket) (outer : List Bracket) :
    Owes (within first) (bracket :: outer) x y ↔
      ∃ z, Ends first bracket x z ∧ EndAll outer z y := by
  cases first <;> exact Iff.rfl

theorem ends_close (first : Bool) (bracket : Bracket) (s : Space) (y : Bytes) :
    Ends first bracket (s.bytes ++ bracket.close.toUInt8 :: y) y := by
  cases bracket <;> exact ⟨[], s, rfl⟩

def Leads (first : Bool) : Bracket → Bytes → Bytes → Prop
  | .list, x, y => ∃ g : Gap, x = g.text first ++ y
  | .object, x, y => ∃ (g : Gap) (key : Literal) (before : Space),
      x = g.text first ++ (key.text ++ (before.bytes ++ ':'.toUInt8 :: y))

theorem Leads.ends {first : Bool} {bracket : Bracket} {s : Space} {t : Tree} {z w : Bytes}
    (leads : Leads first bracket x (s.bytes ++ (t.text ++ z))) (ends : Ends false bracket z w) :
    Ends first bracket x w := by
  cases bracket with
  | list =>
    obtain ⟨g, rfl⟩ := leads
    obtain ⟨items, last, rfl⟩ := ends
    obtain ⟨wider, same⟩ := Gap.exists_wider first g s
      (t.text ++ (Tree.itemsText false items ++ (last.bytes ++ ']'.toUInt8 :: w)))
    refine ⟨(wider, t) :: items, last, ?_⟩
    rw [same, Tree.itemsText]
    simp
  | object =>
    obtain ⟨g, key, before, rfl⟩ := leads
    obtain ⟨members, last, rfl⟩ := ends
    obtain ⟨heading, form⟩ :=
      exists_member first g key before s t members (last.bytes ++ '\x7d'.toUInt8 :: w)
    exact ⟨(heading, t) :: members, last, form⟩

theorem leaves_skipLead (first : Bool) {bracket : Bracket} (s : Space) {c : Char}
    (seen : x.head?.map Char.ofUInt8 = some c) :
    Leaves (skipLead (within first) bracket c) x fun _ y => Leads first bracket (s.bytes ++ x) y := by
  have key {z : Bytes}
      (gap : ∀ (after : Space) (y : Bytes), z = after.bytes ++ y →
        ∃ g : Gap, s.bytes ++ x = g.text first ++ y) :
      Leaves (match bracket with | .list => pure () | .object => skipKey) z
        fun _ y => Leads first bracket (s.bytes ++ x) y := by
    cases bracket with
    | list => exact leaves_pure (gap .none z rfl)
    | object =>
      refine leaves_skipKey.mono ?_
      rintro - y ⟨after, key, before, form⟩
      obtain ⟨g, same⟩ := gap after _ form
      exact ⟨g, key, before, same⟩
  cases first with
  | true => exact key fun after y form => ⟨⟨s, after⟩, by rw [Gap.true_append, form]⟩
  | false =>
    change Leaves (skipLead .after bracket c) x _
    unfold skipLead
    dsimp only
    split
    · next comma =>
      subst comma
      obtain ⟨z, rfl⟩ := exists_cons_of_head? (c := ',') (by decide) seen
      exact leaves_advance (key fun after y form => ⟨⟨s, after⟩, by rw [Gap.false_append, form]⟩)
    · exact (leaves_failNext _).stop

/-- Each round pays off a part of what is owed. -/
theorem leaves_skipRounds (rounds : Nat) (standing : Standing) (outer : List Bracket) :
    Leaves (skipRounds rounds standing outer) x fun _ y => Owes standing outer x y := by
  induction rounds generalizing standing outer x with
  | zero => exact leaves_fail _
  | succ rounds ih =>
    have inside (first : Bool) (bracket : Bracket) (outer : List Bracket) :
        Leaves (skipRounds (rounds + 1) (within first) (bracket :: outer)) x
          fun _ y => Owes (within first) (bracket :: outer) x y := by
      simp only [owes_within]
      rw [skipRounds_inside (by cases first <;> exact nofun)]
      refine leaves_token ?_
      rintro s y rfl (_ | c) seen
      · exact leaves_failNext _
      dsimp only
      split
      · next closes =>
        subst closes
        obtain ⟨z, rfl⟩ := exists_cons_of_head? (by cases bracket <;> decide) seen
        refine leaves_advance ((ih .after outer).mono fun _ w owes => ?_)
        exact ⟨z, ends_close first bracket s z, (owes_after outer).mp owes⟩
      · refine (leaves_skipLead first s seen).bind fun _ z leads => ?_
        refine (ih .before (bracket :: outer)).mono ?_
        rintro - w ⟨s', t, z, rfl, v, ends, rest⟩
        exact ⟨v, leads.ends ends, rest⟩
    match standing, outer with
    | .opened, bracket :: outer => exact inside true bracket outer
    | .after, bracket :: outer => exact inside false bracket outer
    | .opened, [] => exact leaves_pure rfl
    | .after, [] => exact leaves_pure rfl
    | .before, outer =>
      refine leaves_token ?_
      rintro s y rfl found seen
      split
      · exact leaves_failNext _
      · obtain ⟨z, rfl⟩ := exists_cons_of_head? (c := '[') (by decide) seen
        refine leaves_advance ((ih .opened (.list :: outer)).mono ?_)
        rintro - w ⟨v, ⟨items, last, rfl⟩, rest⟩
        exact ⟨s, .array items last, v, by rw [Tree.array_text], rest⟩
      · obtain ⟨z, rfl⟩ := exists_cons_of_head? (c := '\x7b') (by decide) seen
        refine leaves_advance ((ih .opened (.object :: outer)).mono ?_)
        rintro - w ⟨v, ⟨members, last, rfl⟩, rest⟩
        exact ⟨s, .object members last, v, by rw [Tree.object_text], rest⟩
      · refine (leaves_skipScalar seen).bind ?_
        rintro - z ⟨t, rfl⟩
        refine (ih .after outer).mono fun _ w owes => ?_
        exact ⟨s, t, z, rfl, (owes_after outer).mp owes⟩

theorem spells_skip : Spells skip := by
  intro x
  refine leaves_cursor fun p => (leaves_skipRounds _ .before []).mono ?_
  rintro - y ⟨s, t, z, form, rfl⟩
  exact ⟨s, t, form⟩

end Reader

open Reader

namespace Codec

theorem leaves_atToken {α : Type} {x : Bytes} {k : Char → Reader α} {R : α → Bytes → Prop}
    (next : ∀ (s : Space) (y : Bytes), x = s.bytes ++ y →
      ∀ c, y.head?.map Char.ofUInt8 = some c → Leaves (k c) y R) : Leaves (atToken k) x R := by
  refine leaves_token fun s y form found seen => ?_
  cases found with
  | none => exact leaves_failNext _
  | some c => exact next s y form c seen

theorem spells_string (room : Nat) : Spells (string.read room) := by
  intro x
  refine leaves_atToken ?_
  rintro s y rfl c seen
  split
  · next quote =>
    subst quote
    obtain ⟨z, rfl⟩ := exists_cons_of_head? (by decide) seen
    refine leaves_advance (leaves_string.mono ?_)
    rintro - y ⟨text, rfl⟩
    exact ⟨s, .string text, by rw [Tree.text, Literal.text_append]⟩
  · exact (fails_wrongType _ _).leaves

theorem spells_dictionary {α : Type} {c : Codec α} (spells : ∀ room, Spells (c.read room))
    (room : Nat) : Spells (c.dictionary.read room) := by
  intro x
  refine leaves_atToken ?_
  rintro s y rfl first seen
  split
  · next brace =>
    subst brace
    obtain ⟨z, rfl⟩ := exists_cons_of_head? (by decide) seen
    refine leaves_enter fun inner => (leaves_object (leaves_members (spells inner))).mono ?_
    rintro - y ⟨members, last, form⟩
    exact ⟨s, .object members last, by rw [form]⟩
  · exact (fails_wrongType _ _).leaves

end Codec

/-! ### Records -/

namespace Fields

variable {kinds : List Type} {fields : Fields kinds}

theorem leaves_readMember (spells : fields.Each fun f => ∀ room, Spells (f.codec.read room))
    {room : Nat} {key : String} {slots : Slots kinds} {member : Reader (Slots kinds)}
    (known : fields.readMember room key slots = some member) {x : Bytes} :
    Leaves member x fun _ y => ∃ (before after : Space) (t : Tree),
      x = before.bytes ++ ':'.toUInt8 :: (after.bytes ++ (t.text ++ y)) := by
  induction fields with
  | nil => cases known
  | cons f rest ih =>
    obtain ⟨slot, slots⟩ := slots
    rw [readMember] at known
    split at known
    · obtain rfl := Option.some.inj known
      split
      · exact leaves_refuse _
      · refine leaves_colon.bind ?_
        rintro - y ⟨before, rfl⟩
        refine (spells.1 room y).bind ?_
        rintro a z ⟨after, t, rfl⟩
        exact leaves_pure ⟨before, after, t, rfl⟩
    · obtain ⟨later, found, rfl⟩ := Option.map_eq_some_iff.mp known
      exact (ih spells.2 found).map

theorem leaves_readItems_end {room : Nat} {wanted : String} (index : Nat) (y : Bytes) :
    Leaves (fields.readItems room wanted index) (']'.toUInt8 :: y) fun _ z => z = ']'.toUInt8 :: y := by
  induction fields generalizing index with
  | nil => exact leaves_pure rfl
  | cons f rest ih =>
    rw [readItems]
    refine ((reads_noMoreElements _ .none y).leaves (R := fun more z => more = false ∧
      z = ']'.toUInt8 :: y) ⟨rfl, rfl⟩).bind ?_
    rintro - - ⟨rfl, rfl⟩
    rw [if_neg Bool.false_ne_true]
    split
    · exact leaves_refuse _
    · exact (ih (index + 1)).bind fun _ _ same => leaves_pure same

theorem leaves_readItems (spells : fields.Each fun f => ∀ room, Spells (f.codec.read room))
    {room : Nat} {wanted : String} (index : Nat) {x : Bytes} :
    Leaves (fields.readItems room wanted index) x fun _ y =>
      ∃ (items : List (Gap × Tree)) (last : Space),
        x = Tree.itemsText (index = 0) items ++ (last.bytes ++ y) := by
  induction fields generalizing index x with
  | nil => exact leaves_pure ⟨[], .none, rfl⟩
  | cons f rest ih =>
    rw [readItems]
    refine (leaves_moreElements _).bind ?_
    rintro more y ⟨given, missing⟩
    cases more with
    | true =>
      obtain ⟨g, rfl⟩ := given rfl
      rw [if_pos rfl]
      refine (spells.1 room y).bind ?_
      rintro a - ⟨s, t, rfl⟩
      refine (ih spells.2 (index + 1)).bind ?_
      rintro row z ⟨items, last, rfl⟩
      obtain ⟨wider, same⟩ := Gap.exists_wider (index = 0) g s
        (t.text ++ (Tree.itemsText false items ++ (last.bytes ++ z)))
      refine leaves_pure ⟨(wider, t) :: items, last, ?_⟩
      rw [decide_eq_false (Nat.succ_ne_zero index), same, Tree.itemsText]
      simp
    | false =>
      obtain ⟨s, z, form, rfl⟩ := missing rfl
      rw [if_neg Bool.false_ne_true]
      split
      · exact leaves_refuse _
      · refine (leaves_readItems_end (index + 1) z).bind ?_
        rintro row - rfl
        exact leaves_pure ⟨[], s, form⟩

end Fields

namespace Record

variable {σ : Type} {r : Record σ} (spells : r.fields.Each fun f => ∀ room, Spells (f.codec.read room))

include spells

theorem leaves_readMembers {room : Nat} (rounds : Nat) (first : Bool) (slots : Slots r.kinds)
    {x : Bytes} :
    Leaves (r.readMembers room rounds first slots) x fun _ y =>
      ∃ (members : List (Heading × Tree)) (last : Space),
        x = Tree.membersText first members ++ (last.bytes ++ y) := by
  induction rounds generalizing first slots x with
  | zero => exact leaves_fail _
  | succ rounds ih =>
    rw [readMembers]
    refine (leaves_nextKey? first).bind ?_
    rintro (_ | name) y ⟨missing, given⟩
    · obtain ⟨s, form⟩ := missing rfl
      exact leaves_pure ⟨[], s, form⟩
    obtain ⟨g, key, rfl⟩ := given name rfl
    have next {before after : Space} {t : Tree} {z : Bytes} (slots : Slots r.kinds)
        (form : y = before.bytes ++ ':'.toUInt8 :: (after.bytes ++ (t.text ++ z))) :
        Leaves (r.readMembers room rounds false slots) z fun _ y' =>
          ∃ (members : List (Heading × Tree)) (last : Space),
            g.text first ++ (key.text ++ y) = Tree.membersText first members ++ (last.bytes ++ y') := by
      refine (ih false slots).mono ?_
      rintro - w ⟨members, last, rfl⟩
      obtain ⟨heading, same⟩ := exists_member first g key before after t members (last.bytes ++ w)
      exact ⟨(heading, t) :: members, last, by rw [form, same]⟩
    dsimp only
    split
    · next member known =>
      refine (Fields.leaves_readMember spells known).bind ?_
      rintro slots z ⟨before, after, t, form⟩
      exact next slots form
    · refine leaves_colon.bind ?_
      rintro - z ⟨before, colon⟩
      refine (spells_skip z).bind ?_
      rintro - w ⟨after, t, rfl⟩
      exact next slots colon

theorem leaves_codec (room : Nat) (x : Bytes) : Leaves (r.codec.read room) x fun _ y =>
    ∃ (s : Space) (t : Tree), t.isScalar = false ∧ x = s.bytes ++ (t.text ++ y) := by
  refine leaves_token ?_
  rintro s y rfl found seen
  split
  · exact leaves_failNext _
  · obtain ⟨z, rfl⟩ := exists_cons_of_head? (c := '[') (by decide) seen
    refine leaves_enter fun inner =>
      ((leaves_list (Fields.leaves_readItems spells 0)).mono ?_).map
    rintro - y ⟨items, last, form⟩
    exact ⟨s, .array items last, rfl, by rw [form]⟩
  · obtain ⟨z, rfl⟩ := exists_cons_of_head? (c := '\x7b') (by decide) seen
    refine leaves_enter fun inner => ((leaves_object ?_).mono ?_).map
    · rw [readObject_eq]
      refine leaves_cursor fun p => (leaves_readMembers spells _ true _).bind ?_
      intro slots y read
      exact leaves_deliver fun _ _ => read
    · rintro - y ⟨members, last, form⟩
      exact ⟨s, .object members last, rfl, by rw [form]⟩
  · exact (fails_wrongType _ _).leaves

theorem exists_writes_of_decode {body : Bytes} {a : σ} (decoded : r.codec.decode body = .ok a) :
    ∃ t : Tree, t.isScalar = false ∧ t.Writes body := by
  have whole : Leaves (do
      let a ← r.codec.read depthLimit
      endText
      return a) body fun _ _ => ∃ t : Tree, t.isScalar = false ∧ t.Writes body := by
    refine (leaves_codec spells depthLimit body).bind ?_
    rintro a y ⟨before, t, other, rfl⟩
    refine leaves_endText.bind ?_
    rintro - - ⟨after, rfl⟩
    exact leaves_pure ⟨t, other, before, after, (List.append_assoc ..).symm⟩
  exact whole .start a _ (Prod.ext decoded rfl)

end Record

namespace Tree

theorem isScalar_eq_false_iff (t : Tree) :
    t.isScalar = false ↔ t.first = '[' ∨ t.first = '\x7b' := by
  rw [t.first_eq_iff.2.1, t.first_eq_iff.2.2.1]
  cases t <;> simp [isScalar]

theorem Writes.first_eq {t u : Tree} {body : Bytes} (written : t.Writes body) (again : u.Writes body) :
    t.first = u.first := by
  have seen {t : Tree} {body : Bytes} (written : t.Writes body) :
      (Cursor.start body).skipSpace.rest.head? = some t.first.toUInt8 := by
    obtain ⟨before, after, rfl⟩ := written
    obtain ⟨more, form⟩ := t.exists_text
    rw [form, List.append_assoc, List.cons_append]
    obtain ⟨p, skips⟩ := skipSpace_space before (solid_cons t.begins_first _) .start
    rw [Cursor.start, skips]
    rfl
  have same := Option.some.inj ((seen written).symm.trans (seen again))
  exact ((ofUInt8_eq_iff t.begins_first.2).mpr rfl).symm.trans
    ((ofUInt8_eq_iff u.begins_first.2).mpr same)

theorem Writes.isScalar_eq {t u : Tree} {body : Bytes} (written : t.Writes body)
    (again : u.Writes body) : t.isScalar = u.isScalar := by
  rw [Bool.eq_iff_iff, ← not_iff_not, Bool.not_eq_true, Bool.not_eq_true, isScalar_eq_false_iff,
    isScalar_eq_false_iff, written.first_eq again]

end Tree
end CloudProvider.Json
