import CloudProvider.Proofs.Skips

/-! Codecs on texts. From the text of a tree a codec reads what it takes from the value of the tree, or
nothing where it takes nothing. For a record this holds of any object: its members are read as they are
taken from their values, and those that nobody asks for are passed over. -/

namespace CloudProvider

namespace Json

open Text (Dictionary)

namespace Reader

variable {α β : Type}

/-- Before these bytes the reader reads nothing. -/
def Fails (r : Reader α) (x : Bytes) : Prop :=
  ∀ p, ∃ f c, r ⟨x, p⟩ = (.error f, c)

/-- The reader does with the bytes what was made of a value: it reads the same, or nothing. -/
def Mirrors (r : Reader α) (x : Bytes) (result : Except Cause α) (y : Bytes) : Prop :=
  match result with
  | .ok a => Reads r x a y
  | .error _ => Fails r x

section Rules

variable {r : Reader β} {k : β → Reader α} {x y z : Bytes} {b : β}

theorem Reads.fails (reads : Reads r x b y) (fails : Fails (k b) y) : Fails (r >>= k) x := by
  intro p
  obtain ⟨q, run⟩ := reads p
  obtain ⟨f, c, ran⟩ := fails q
  refine ⟨f, c, ?_⟩
  rw [bind_apply, run]
  exact ran

theorem Fails.bind (fails : Fails r x) : Fails (r >>= k) x := by
  intro p
  obtain ⟨f, c, run⟩ := fails p
  refine ⟨f, c, ?_⟩
  rw [bind_apply, run]

theorem Fails.map {g : β → α} (fails : Fails r x) : Fails (g <$> r) x := by
  intro p
  obtain ⟨f, c, run⟩ := fails p
  refine ⟨f, c, ?_⟩
  rw [map_apply, run]

theorem fails_refuse (cause : Cause) (x : Bytes) : Fails (refuse cause : Reader α) x :=
  fun p => ⟨_, ⟨x, p⟩, rfl⟩

theorem fails_of_gives {r : Reader α}
    (gives : ∀ text, Gives text r (fun _ => False) (fun _ => True)) (x : Bytes) : Fails r x := by
  intro p
  obtain ⟨-, settles⟩ := gives x ⟨x, p⟩ List.suffix_rfl
  rcases run : r ⟨x, p⟩ with ⟨f | a, c⟩
  · exact ⟨f, c, rfl⟩
  · rw [run] at settles
    exact settles.elim

theorem fails_wrongType (wanted : String) (x : Bytes) : Fails (wrongType wanted : Reader α) x :=
  fails_of_gives (fun _ => gives_wrongType wanted) x

theorem Fails.bracketed {r : Reader α} {close : Reader Unit} (fails : Fails r x) :
    Fails (bracketed r close) x := by
  intro p
  obtain ⟨f, c, run⟩ := fails p
  rw [Reader.bracketed, bind_apply, Reader.attempt, run]
  dsimp only
  rw [bind_apply, Reader.attempt]
  rcases close c with ⟨_ | _, c'⟩ <;> exact ⟨_, _, rfl⟩

theorem Reads.mirrors {result : Except Cause α} (reads : Reads r x b y)
    (later : Mirrors (k b) y result z) : Mirrors (r >>= k) x result z := by
  cases result with
  | error cause => exact reads.fails later
  | ok a => exact reads.bind later

theorem Mirrors.bind {result : Except Cause β} {next : β → Except Cause α}
    (first : Mirrors r x result y)
    (later : ∀ b, result = .ok b → Mirrors (k b) y (next b) z) :
    Mirrors (r >>= k) x (result >>= next) z := by
  cases result with
  | error cause => exact Fails.bind first
  | ok b => exact Reads.mirrors first (later b rfl)

theorem Mirrors.map {result : Except Cause β} (g : β → α) (first : Mirrors r x result y) :
    Mirrors (g <$> r) x (g <$> result) y := by
  cases result with
  | error cause => exact Fails.map first
  | ok b => exact Reads.map first

theorem mirrors_cursor {k : Cursor → Reader α} {result : Except Cause α}
    (mirrors : ∀ p, Mirrors (k ⟨x, p⟩) x result y) : Mirrors (cursor >>= k) x result y := by
  cases result with
  | error cause => exact fun p => mirrors p p
  | ok a => exact reads_cursor mirrors

theorem mirrors_deliver (result : Except Cause α) (x : Bytes) :
    Mirrors (deliver result) x result x := by
  cases result with
  | error cause => exact fails_refuse cause x
  | ok a => exact reads_pure x a

theorem Mirrors.bracketed {r : Reader α} {close : Reader Unit} {result : Except Cause α}
    (contents : Mirrors r x result y) (closing : Reads close y () z) :
    Mirrors (bracketed r close) x result z := by
  cases result with
  | error cause => exact Fails.bracketed contents
  | ok a => exact Reads.bracketed contents closing

end Rules

end Reader

open Reader

namespace Codec

variable {α : Type} {c : Codec α}

/-- From the text of a tree the codec reads what it takes from the value that the tree means. -/
def Agrees (c : Codec α) : Prop :=
  ∀ {room : Nat} {t : Tree} {v : Value}, t.value? room = some v →
    ∀ (s : Space) (y : Bytes), EndsNumber y →
      Mirrors (c.read room) (s.bytes ++ (t.text ++ y)) (c.ofValue v) y

theorem mirrors_atToken {k : Char → Reader α} {t : Tree} {result : Except Cause α} {y z : Bytes}
    (s : Space) (mirrors : Mirrors (k t.first) (t.text ++ y) result z) :
    Mirrors (atToken k) (s.bytes ++ (t.text ++ y)) result z := by
  obtain ⟨more, form⟩ := t.exists_text
  rw [form, List.cons_append] at mirrors ⊢
  exact (reads_token_char s t.begins_first _).mirrors mirrors

theorem first_of_string {t : Tree} {room : Nat} {meaning : String}
    (meant : t.value? room = some (.string meaning)) : t.first = '"' := by
  cases t with
  | string s => rfl
  | array items last => cases room <;> simp [Tree.value?] at meant
  | object members last => cases room <;> simp [Tree.value?] at meant
  | _ => simp [Tree.value?] at meant

theorem first_of_object {t : Tree} {room : Nat} {d : List (String × Value)}
    (meant : t.value? room = some (.object d)) : t.first = '\x7b' := by
  cases t with
  | object members last => rfl
  | array items last => cases room <;> simp [Tree.value?] at meant
  | _ => simp [Tree.value?] at meant

theorem agrees_string : string.Agrees := by
  intro room t v meant s y ends
  refine mirrors_atToken s ?_
  by_cases quoted : t.first = '"'
  · obtain ⟨text, rfl⟩ := t.first_eq_iff.1.mp quoted
    rw [Tree.value?] at meant
    obtain ⟨meaning, known, rfl⟩ := Option.map_eq_some_iff.mp meant
    rw [if_pos quoted]
    change Reads _ (text.text ++ y) meaning y
    rw [Literal.text_append]
    exact (reads_advance _ _).bind (reads_string known y)
  · have refused : string.ofValue v = refused "a string" v := by
      cases v with
      | string meaning => exact absurd (first_of_string meant) quoted
      | _ => rfl
    rw [if_neg quoted, refused]
    exact fails_wrongType _ _

theorem membersOf_value (members : List (String × Value)) (seen : Dictionary Value) :
    membersOf value.ofValue seen members = .ok (members.foldl (fun d (k, v) => d.insert k v) seen) := by
  induction members generalizing seen with
  | nil => rfl
  | cons m members ih => exact ih (seen.insert m.1 m.2)

theorem agrees_dictionary_value : value.dictionary.Agrees := by
  intro room t v meant s y ends
  refine mirrors_atToken s ?_
  by_cases braced : t.first = '\x7b'
  · obtain ⟨members, last, rfl⟩ := t.first_eq_iff.2.2.1.mp braced
    cases room with
    | zero => cases meant
    | succ inner =>
      rw [Tree.value?] at meant
      obtain ⟨entries, known, rfl⟩ := Option.map_eq_some_iff.mp meant
      have taken : value.dictionary.ofValue (.object (Dictionary.ofList entries)) =
          .ok (Dictionary.ofList entries) := by
        have sorted := Dictionary.sorted_ofList entries
        exact (membersOf_value _ []).trans (congrArg Except.ok (Dictionary.ofList_of_sorted sorted))
      have contents := reads_members (r := Value.read inner)
        (Tree.forall₂_entries? (fun member _ v => Value.readsTree member.2 v) known) last y
      rw [if_pos braced, taken, Tree.object_text]
      exact (reads_enter _ inner _).bind (contents.bracketed (reads_endObject y))
  · have refused : value.dictionary.ofValue v = refused "a map" v := by
      cases v with
      | object members => exact absurd (first_of_object meant) braced
      | _ => rfl
    rw [if_neg braced, refused]
    exact fails_wrongType _ _

end Codec

/-! ### Records -/

section Members

variable {room : Nat} {t : Tree} {v : Value} {y : Bytes}

namespace Fields

variable {kinds : List Type} {fields : Fields kinds}

theorem mirrors_readMember (agree : fields.Each fun f => f.codec.Agrees)
    (meant : t.value? room = some v) (before after : Space) (ends : EndsNumber y) (key : String)
    (slots : Slots kinds) :
    (fields.ofMember key v slots = none ∧ fields.readMember room key slots = none) ∨
    ∃ result member, fields.ofMember key v slots = some result ∧
      fields.readMember room key slots = some member ∧
      Mirrors member (before.bytes ++ ':'.toUInt8 :: (after.bytes ++ (t.text ++ y))) result y := by
  induction fields with
  | nil => exact .inl ⟨rfl, rfl⟩
  | cons f rest ih =>
    obtain ⟨slot, slots⟩ := slots
    rw [ofMember, readMember]
    by_cases same : f.name = key
    · rw [if_pos same, if_pos same]
      refine .inr ⟨_, _, rfl, rfl, ?_⟩
      cases slot with
      | some held => exact fails_refuse _ _
      | none =>
        exact (reads_colon before _).mirrors ((agree.1 meant after y ends).bind
          fun a _ => reads_pure y _)
    · rw [if_neg same, if_neg same]
      obtain ⟨passed, unread⟩ | ⟨result, member, taken, read, mirrors⟩ := ih agree.2 slots
      · rw [passed, unread]
        exact .inl ⟨rfl, rfl⟩
      · rw [taken, read]
        exact .inr ⟨_, _, rfl, rfl, mirrors.map _⟩

end Fields

namespace Record

variable {σ : Type} {r : Record σ} {members : List (Heading × Tree)}
  {entries : List (String × Value)}

theorem mirrors_readMembers (agree : r.fields.Each fun f => f.codec.Agrees)
    (each : List.Forall₂ (fun member entry => member.1.key.value? = some entry.1 ∧
      member.2.value? room = some entry.2) members entries) (rounds : Nat)
    (enough : members.length < rounds) (first : Bool) (slots : Slots r.kinds) (last : Space)
    (y : Bytes) :
    Mirrors (r.readMembers room rounds first slots)
      (Tree.membersText first members ++ (last.bytes ++ '\x7d'.toUInt8 :: y))
      (r.ofMembers entries slots) ('\x7d'.toUInt8 :: y) := by
  induction each generalizing rounds first slots with
  | nil =>
    cases rounds with
    | zero => cases enough
    | succ rounds => exact (reads_noKey first last y).bind (reads_pure _ slots)
  | @cons member entry members entries means _ ih =>
    obtain ⟨heading, t⟩ := member
    obtain ⟨key, v⟩ := entry
    obtain ⟨named, meant⟩ := means
    cases rounds with
    | zero => cases enough
    | succ rounds =>
      have rest := ih rounds (Nat.lt_of_succ_lt_succ enough) false
      have ends := endsNumber_members members last y
      rw [Tree.members_text, readMembers, ofMembers]
      refine (reads_nextKey? first heading.gap named _).mirrors ?_
      dsimp only
      obtain ⟨passed, unread⟩ | ⟨result, member, taken, read, mirrors⟩ :=
        Fields.mirrors_readMember agree meant heading.before heading.after ends key slots
      · rw [passed, unread]
        exact (reads_colon heading.before _).mirrors ((reads_skip heading.after t ends).mirrors
          (rest slots))
      · rw [taken, read]
        exact mirrors.bind fun next _ => rest next

theorem mirrors_codec (agree : r.fields.Each fun f => f.codec.Agrees)
    (known : Tree.entries? room members = some entries) (s last : Space) (y : Bytes) :
    Mirrors (r.codec.read (room + 1)) (s.bytes ++ ((Tree.object members last).text ++ y))
      (r.codec.ofValue (.object entries)) y := by
  have long := length_le_membersText members true
  have contents : Mirrors (r.readObject room)
      (Tree.membersText true members ++ (last.bytes ++ '\x7d'.toUInt8 :: y))
      (r.ofMembers entries (Slots.empty r.kinds) >>= r.fields.complete) ('\x7d'.toUInt8 :: y) := by
    rw [readObject_eq]
    refine mirrors_cursor fun p => ?_
    refine (mirrors_readMembers agree ?_ _ ?_ true _ last y).bind fun slots _ => mirrors_deliver _ _
    · exact Tree.forall₂_entries? (Q := fun t v => t.value? room = some v) (fun _ _ _ meant => meant)
        known
    · simp only [List.length_append]
      omega
  rw [Tree.object_text]
  have taken : r.codec.ofValue (.object entries) =
      r.build <$> (r.ofMembers entries (Slots.empty r.kinds) >>= r.fields.complete) := by
    dsimp only [codec]
    rcases r.ofMembers entries (Slots.empty r.kinds) with cause | slots
    · rfl
    · change (r.fields.complete slots >>= _) = r.build <$> r.fields.complete slots
      cases r.fields.complete slots <;> rfl
  rw [taken]
  refine (reads_token_char s (by decide) _).mirrors ((reads_enter _ room _).mirrors ?_)
  exact (contents.bracketed (reads_endObject y)).map r.build

end Record

end Members

end Json
end CloudProvider
