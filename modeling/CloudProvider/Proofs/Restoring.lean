import CloudProvider.Proofs.CodecReadings
import CloudProvider.Proofs.Passages

/-! What a codec has read it reads again from the text that it writes. -/

namespace CloudProvider.Json

open Text (Dictionary)
open Reader

namespace Value

/-- No number in the value is a binary fraction. -/
inductive Exact : Value → Prop
  | null : Exact .null
  | bool (b : Bool) : Exact (.bool b)
  | integer (i : Int) (fits : -2 ^ 63 ≤ i ∧ i < 2 ^ 64) : Exact (.number (.integer i fits))
  | string (s : String) : Exact (.string s)
  | array {items : List Value} (each : ∀ v ∈ items, Exact v) : Exact (.array items)
  | object {members : List (String × Value)} (each : ∀ m ∈ members, Exact m.2) :
      Exact (.object members)

theorem itemChars_eq (items : List Value) :
    itemChars items = separated true (items.map chars) := by
  have later (v : Value) (items : List Value) :
      itemChars (v :: items) = v.chars ++ separated false (items.map chars) := by
    induction items generalizing v with
    | nil => simp [itemChars, separated]
    | cons w items ih => simp [itemChars, separated, lead, ih]
  cases items with
  | nil => simp [itemChars, separated]
  | cons v items => simp [later, separated, lead]

theorem memberChars_eq (members : List (String × Value)) :
    memberChars members = separated true (memberTexts chars members) := by
  have later (m : String × Value) (members : List (String × Value)) :
      memberChars (m :: members) =
        renderString m.1 ++ ':' :: m.2.chars ++ separated false (memberTexts chars members) := by
    induction members generalizing m with
    | nil => simp [memberChars, separated, memberTexts]
    | cons n members ih => simp [memberChars, separated, lead, memberTexts, ih]
  cases members with
  | nil => simp [memberChars, separated, memberTexts]
  | cons m members => simp [later, separated, lead, memberTexts]

theorem text_string (s : String) (cs : List Char) :
    (string s).chars ++ cs = '"' :: (s.toList.flatMap escape ++ '"' :: cs) := by
  change renderString s ++ cs = _
  simp [renderString]

theorem text_array (items : List Value) (cs : List Char) :
    (array items).chars ++ cs = '[' :: (separated true (items.map chars) ++ ']' :: cs) := by
  change ('[' :: itemChars items ++ [']']) ++ cs = _
  simp [itemChars_eq]

theorem text_object (members : List (String × Value)) (cs : List Char) :
    (object members).chars ++ cs =
      '\x7b' :: (separated true (memberTexts chars members) ++ '\x7d' :: cs) := by
  change ('\x7b' :: memberChars members ++ ['\x7d']) ++ cs = _
  simp [memberChars_eq]

theorem begins_of_isDigit {c : Char} (digit : c.isDigit = true) : Begins c :=
  ⟨Nat.lt_of_lt_of_le (by decide) (isDigit_iff.mp digit).1, isAscii_of_isDigit digit⟩

/-- The text of a value begins with a character that tells where it belongs: only null begins with the
letter n. -/
theorem exists_chars {v : Value} (exact : v.Exact) :
    ∃ c more, v.chars = c :: more ∧ Begins c ∧ c ≠ ']' ∧ (c = 'n' → v = .null) := by
  cases exact with
  | null => exact ⟨'n', _, rfl, by decide, by decide, fun _ => rfl⟩
  | bool b =>
    cases b
    · exact ⟨'f', _, rfl, by decide, by decide, fun same => absurd same (by decide)⟩
    · exact ⟨'t', _, rfl, by decide, by decide, fun same => absurd same (by decide)⟩
  | integer i fits =>
    obtain ⟨negative, n, -, text, -⟩ := exists_whole fits
    obtain ⟨c, more, form, digit, -⟩ := exists_digit n
    rw [form] at text
    cases negative with
    | true => exact ⟨'-', _, text, by decide, by decide, fun same => absurd same (by decide)⟩
    | false =>
      refine ⟨c, _, text, begins_of_isDigit digit, ?_, ?_⟩
      · rintro rfl
        exact absurd digit (by decide)
      · rintro rfl
        exact absurd digit (by decide)
  | string s => exact ⟨'"', _, rfl, by decide, by decide, fun same => absurd same (by decide)⟩
  | array _ => exact ⟨'[', _, rfl, by decide, by decide, fun same => absurd same (by decide)⟩
  | object _ =>
    exact ⟨'\x7b', _, rfl, by decide, by decide, fun same => absurd same (by decide)⟩

theorem opens_chars {v : Value} (exact : v.Exact) : Opens v.chars := by
  obtain ⟨c, more, form, begins, other, -⟩ := exists_chars exact
  exact ⟨c, more, form, begins, other⟩

def readFrom (room : Nat) : Char → Reader Value
  | 'n' => do Reader.advance; Reader.word ['u', 'l', 'l']; pure .null
  | 't' => do Reader.advance; Reader.word ['r', 'u', 'e']; pure (.bool true)
  | 'f' => do Reader.advance; Reader.word ['a', 'l', 's', 'e']; pure (.bool false)
  | '-' => do Reader.advance; .number <$> Reader.number true
  | '"' => do Reader.advance; .string <$> Reader.string
  | '[' =>
    match room with
    | 0 => Reader.failNext .tooDeep
    | inner + 1 => do
      Reader.advance
      Reader.bracketed (.array <$> Reader.elements (read inner)) Reader.endList
  | '\x7b' =>
    match room with
    | 0 => Reader.failNext .tooDeep
    | inner + 1 => do
      Reader.advance
      Reader.bracketed (.object <$> Reader.members (read inner)) Reader.endObject
  | c => if c.isDigit then .number <$> Reader.number false else Reader.failNext .expectedValue

theorem passes_read {room : Nat} {c : Char} {v : Value} {x y : List Char} (begins : Begins c)
    (passes : Passes (readFrom room c) (c :: x) v y) : Passes (read room) (c :: x) v y := by
  rw [read.eq_def]
  refine (passes_token begins x).bind ?_
  split
  case h_1 none => cases none
  case h_9 found _ _ _ _ _ _ _ same =>
    cases Option.some.inj same
    unfold readFrom at passes
    split at passes <;> first | exact passes | simp_all
  all_goals
    next same =>
      cases Option.some.inj same
      exact passes

theorem readsBack_null (room : Nat) : ReadsBack (read room) null.chars null := fun cs _ =>
  passes_read (c := 'n') (by decide) ((passes_advance (by decide) _).bind
    ((passes_word ['u', 'l', 'l'] (by decide) cs).bind (passes_pure cs _)))

theorem readsBack_bool (room : Nat) (b : Bool) : ReadsBack (read room) (bool b).chars (bool b) := by
  intro cs _
  cases b
  · exact passes_read (c := 'f') (by decide) ((passes_advance (by decide) _).bind
      ((passes_word ['a', 'l', 's', 'e'] (by decide) cs).bind (passes_pure cs _)))
  · exact passes_read (c := 't') (by decide) ((passes_advance (by decide) _).bind
      ((passes_word ['r', 'u', 'e'] (by decide) cs).bind (passes_pure cs _)))

theorem readFrom_digit (room : Nat) {c : Char} (digit : c.isDigit = true) :
    readFrom room c = .number <$> Reader.number false := by
  unfold readFrom
  split
  case h_8 => rw [if_pos digit]
  all_goals exact absurd digit (by decide)

theorem readsBack_integer (room : Nat) {i : Int} (fits : -2 ^ 63 ≤ i ∧ i < 2 ^ 64) :
    ReadsBack (read room) (number (.integer i fits)).chars (number (.integer i fits)) := by
  intro cs stops
  obtain ⟨negative, n, small, text, value⟩ := exists_whole fits
  have digits := passes_number small negative stops
  have shape : (number (.integer i fits)).chars =
      (if negative then ['-'] else []) ++ Nat.toDigits 10 n := text
  rw [value] at digits
  rw [shape]
  cases negative with
  | true => exact passes_read (by decide) ((passes_advance (by decide) _).bind digits.map)
  | false =>
    obtain ⟨c, more, form, digit, -⟩ := exists_digit n
    rw [form, List.cons_append] at digits
    rw [if_neg (by decide), List.nil_append, form, List.cons_append]
    refine passes_read (begins_of_isDigit digit) ?_
    rw [readFrom_digit room digit]
    exact digits.map

theorem readsBack_string (room : Nat) (s : String) :
    ReadsBack (read room) (string s).chars (string s) := by
  intro cs _
  rw [text_string]
  exact passes_read (by decide) ((passes_advance (by decide) _).bind (passes_string s cs).map)

theorem readsBack_array {room : Nat} {items : List Value} (exact : ∀ v ∈ items, v.Exact)
    (each : ∀ v ∈ items, ReadsBack (read room) v.chars v) :
    ReadsBack (read (room + 1)) (array items).chars (array items) := by
  intro cs _
  have contents := passes_elements each (fun v inside => opens_chars (exact v inside)) cs
  rw [text_array]
  exact passes_read (by decide) ((passes_advance (by decide) _).bind
    (contents.map.bracketed (passes_endList cs)))

theorem readsBack_object {room : Nat} {d : Dictionary Value} (sorted : d.Sorted)
    (each : ∀ m ∈ d, ReadsBack (read room) m.2.chars m.2) :
    ReadsBack (read (room + 1)) (object d).chars (object d) := by
  intro cs _
  have contents := passes_members chars each cs
  rw [Dictionary.ofList_of_sorted sorted] at contents
  rw [text_object]
  exact passes_read (by decide) ((passes_advance (by decide) _).bind
    (contents.map.bracketed (passes_endObject cs)))

/-- Whatever has been read as a value is read back, if its numbers are integers. -/
theorem composed : Composed fun room v => v.Exact → ReadsBack (read room) v.chars v where
  null room _ := readsBack_null room
  bool room b _ := readsBack_bool room b
  number room n exact := by
    cases exact
    exact readsBack_integer room _
  string room s _ := readsBack_string room s
  array room items each exact := by
    cases exact with
    | array exact => exact readsBack_array exact fun v inside => each v inside (exact v inside)
  object room d sorted each exact := by
    cases exact with
    | object exact => exact readsBack_object sorted fun m inside => each m inside (exact m inside)

end Value

namespace Codec

variable {α β : Type} {c : Codec α} {least room : Nat}

/-- The codec reads `a` from the text that it writes for it. -/
def Restores (c : Codec α) (room : Nat) (a : α) : Prop :=
  ReadsBack (c.read room) (c.toValue a).chars a

/-- Whatever the codec has read from any text it restores, if it is written without binary fractions,
in every room that is not less than some. -/
def Faithful (c : Codec α) (least : Nat) : Prop :=
  ∀ room, least ≤ room → ∀ text,
    Gives text (c.read room) (fun a => (c.toValue a).Exact → c.Restores room a) (fun _ => True)

theorem Faithful.mono {more : Nat} (faithful : c.Faithful least) (within : least ≤ more) :
    c.Faithful more :=
  fun room enough => faithful room (Nat.le_trans within enough)

theorem Faithful.inner {inner : Nat} (faithful : c.Faithful least) (enough : least + 1 ≤ inner + 1)
    (text : Bytes) (room : Nat) (same : inner + 1 = room + 1) :
    Gives text (c.read room) (fun a => (c.toValue a).Exact → c.Restores inner a) (fun _ => True) := by
  obtain rfl := Nat.succ.inj same
  exact faithful inner (Nat.le_of_succ_le_succ enough) text

theorem passes_atToken {k : Char → Reader α} {b : Char} {a : α} {x y : List Char}
    (begins : Begins b) (passes : Passes (k b) (b :: x) a y) : Passes (atToken k) (b :: x) a y :=
  (passes_token begins x).bind passes

theorem faithful_value : value.Faithful 0 :=
  fun room _ _ => Value.gives_read Value.composed room

theorem restores_bool (b : Bool) : bool.Restores room b := by
  intro cs _
  cases b
  · exact passes_atToken (b := 'f') (by decide) ((passes_advance (by decide) _).bind
      ((passes_word ['a', 'l', 's', 'e'] (by decide) cs).bind (passes_pure cs _)))
  · exact passes_atToken (b := 't') (by decide) ((passes_advance (by decide) _).bind
      ((passes_word ['r', 'u', 'e'] (by decide) cs).bind (passes_pure cs _)))

theorem faithful_bool : bool.Faithful 0 :=
  fun _ _ _ => gives_bool.mono fun b _ _ => restores_bool b

theorem restores_text (wanted : String) (s : String) : (text wanted).Restores room s := by
  intro cs _
  rw [show ((text wanted).toValue s).chars ++ cs = _ from Value.text_string s cs]
  refine passes_atToken (by decide) ?_
  rw [if_pos rfl]
  exact (passes_advance (by decide) _).bind (passes_string s cs)

theorem restores_string (s : String) : string.Restores room s :=
  restores_text _ s

theorem faithful_string : string.Faithful 0 :=
  fun _ _ _ => gives_string.mono fun s _ _ => restores_string s

theorem restores_integer {wanted : String} {narrow? : Int → Option α} {widen : α → Number} {a : α}
    {i : Int} {fits : -2 ^ 63 ≤ i ∧ i < 2 ^ 64} (wide : widen a = .integer i fits)
    (narrow : narrow? i = some a) : (integer wanted narrow? widen).Restores room a := by
  intro cs stops
  obtain ⟨negative, n, small, text, value⟩ := exists_whole fits
  have digits := passes_number small negative stops
  rw [value] at digits
  have shape : ((integer wanted narrow? widen).toValue a).chars =
      (if negative then ['-'] else []) ++ Nat.toDigits 10 n := by
    rw [← text, ← wide]
    rfl
  have check :
      Passes (located (deliver (integer.narrowed wanted narrow? (.integer i fits)))) cs a cs := by
    simp only [integer.narrowed, narrow]
    exact (passes_pure cs a).located
  rw [shape]
  cases negative with
  | true =>
    refine passes_atToken (by decide) ?_
    rw [if_pos rfl]
    exact (passes_advance (by decide) _).bind (digits.bind check)
  | false =>
    obtain ⟨first, more, form, digit, -⟩ := exists_digit n
    have other : first ≠ '-' := by
      rintro rfl
      exact absurd digit (by decide)
    rw [form, List.cons_append] at digits
    rw [if_neg (by decide), List.nil_append, form, List.cons_append]
    refine passes_atToken (Value.begins_of_isDigit digit) ?_
    dsimp only
    rw [if_neg other, if_pos digit]
    exact digits.bind check

theorem faithful_map {wrap : α → β} {unwrap : β → α} (faithful : c.Faithful least)
    (whole : ∀ a, unwrap (wrap a) = a) : (c.map wrap unwrap).Faithful least := by
  intro room enough text
  refine gives_map ((faithful room enough text).mono fun a restores exact => ?_)
  have back : unwrap (wrap a) = a := whole a
  intro cs stops
  have shape : (c.map wrap unwrap).toValue (wrap a) = c.toValue a := congrArg c.toValue back
  rw [shape] at exact ⊢
  exact (restores exact cs stops).map

theorem restores_list {inner : Nat} {items : List α} (exact : ∀ a ∈ items, (c.toValue a).Exact)
    (each : ∀ a ∈ items, c.Restores inner a) : c.list.Restores (inner + 1) items := by
  intro cs _
  have shape : (c.list.toValue items).chars ++ cs =
      '[' :: (separated true (items.map fun a => (c.toValue a).chars) ++ ']' :: cs) := by
    refine (Value.text_array (items.map c.toValue) cs).trans ?_
    rw [List.map_map]
    rfl
  have contents := passes_elements each (fun a inside => Value.opens_chars (exact a inside)) cs
  rw [shape]
  refine passes_atToken (by decide) ?_
  rw [if_pos rfl]
  exact (passes_enter (by decide) inner _).bind (contents.bracketed (passes_endList cs))

theorem faithful_list (faithful : c.Faithful least) : c.list.Faithful (least + 1) := by
  intro room enough text
  obtain ⟨inner, rfl⟩ := Nat.exists_eq_add_of_le' (Nat.le_trans (Nat.le_add_left 1 least) enough)
  refine (gives_list (faithful.inner enough text)).mono fun items restores exact => ?_
  cases exact with
  | array exact =>
    rw [List.forall_mem_map] at exact
    exact restores_list exact fun a inside => restores a inside (exact a inside)

section Tables

variable {arrange : Dictionary α → List (String × α)}

theorem restores_table {inner : Nat} {d : Dictionary α} (sorted : d.Sorted)
    (keeps : (arrange d).Perm d) (each : ∀ m ∈ d, c.Restores inner m.2) :
    (c.table arrange).Restores (inner + 1) d := by
  intro cs _
  have shape : ((c.table arrange).toValue d).chars ++ cs =
      '\x7b' :: (separated true (memberTexts (fun a => (c.toValue a).chars) (arrange d)) ++
        '\x7d' :: cs) := by
    refine (Value.text_object ((arrange d).map fun m => (m.1, c.toValue m.2)) cs).trans ?_
    rw [memberTexts, List.map_map]
    rfl
  have contents := passes_members (fun a => (c.toValue a).chars)
    (fun m inside => each m (keeps.mem_iff.mp inside)) cs
  rw [Dictionary.ofList_of_perm sorted keeps] at contents
  rw [shape]
  refine passes_atToken (by decide) ?_
  rw [if_pos rfl]
  exact (passes_enter (by decide) inner _).bind (contents.bracketed (passes_endObject cs))

variable (arrange) in
theorem faithful_table (keeps : ∀ d, (arrange d).Perm d) (faithful : c.Faithful least) :
    (c.table arrange).Faithful (least + 1) := by
  intro room enough text
  obtain ⟨inner, rfl⟩ := Nat.exists_eq_add_of_le' (Nat.le_trans (Nat.le_add_left 1 least) enough)
  refine (gives_dictionary (faithful.inner enough text)).mono fun d gives exact => ?_
  cases exact with
  | object exact =>
    rw [List.forall_mem_map] at exact
    exact restores_table gives.1 (keeps d) fun m inside =>
      gives.2 m inside (exact m ((keeps d).mem_iff.mpr inside))

end Tables

theorem faithful_dictionary (faithful : c.Faithful least) : c.dictionary.Faithful (least + 1) :=
  faithful_table id (fun d => .refl d) faithful

theorem restores_none : c.option.Restores room none := by
  intro cs _
  exact (passes_token (c := 'n') (by decide) _).bind ((passes_advance (by decide) _).bind
    ((passes_word ['u', 'l', 'l'] (by decide) cs).bind (passes_pure cs _)))

theorem restores_some {a : α} (exact : (c.toValue a).Exact) (given : c.toValue a ≠ .null)
    (restores : c.Restores room a) : c.option.Restores room (some a) := by
  intro cs stops
  obtain ⟨first, more, form, begins, -, null⟩ := Value.exists_chars exact
  have other : first ≠ 'n' := fun same => given (null same)
  have shape : (c.option.toValue (some a)).chars ++ cs = first :: (more ++ cs) := by
    rw [← List.cons_append, ← form]
    rfl
  have passes := restores cs stops
  rw [form, List.cons_append] at passes
  rw [shape]
  refine (passes_token begins _).bind ?_
  split
  · next same => exact absurd (Option.some.inj same) other
  · exact passes.map

theorem faithful_option (faithful : c.Faithful least) (given : ∀ a, c.toValue a ≠ .null) :
    c.option.Faithful least := by
  intro room enough text
  refine (gives_option (faithful room enough text)).mono fun o restores exact => ?_
  cases o with
  | none => exact restores_none
  | some a => exact restores_some exact (given a) (restores a rfl exact)

theorem restores_choice {known : List (String × α)} {name : α → String} {a : α}
    (found : known.lookup (name a) = some a) : (choice known name).Restores room a := by
  intro cs _
  have shape := Value.text_string (name a) cs
  have pick : Passes (choice.pick known (name a)) cs a cs := by
    simp only [choice.pick, choice.find, found]
    exact passes_pure cs a
  rw [show ((choice known name).toValue a).chars ++ cs = _ from shape]
  refine passes_atToken (by decide) ?_
  rw [if_pos rfl]
  exact ((passes_advance (by decide) _).bind ((passes_string _ cs).bind pick)).located

theorem faithful_choice {known : List (String × α)} {name : α → String}
    (found : ∀ a, known.lookup (name a) = some a) : (choice known name).Faithful 0 :=
  fun _ _ _ => (gives_choice known name).mono fun a _ _ => restores_choice (found a)

theorem decode_encode (faithful : c.Faithful depthLimit) {text : Bytes} {a : α}
    (read : c.decode text = .ok a) (exact : (c.toValue a).Exact) :
    c.decode (Text.Utf8.encode (c.encode a)) = .ok a := by
  have settles := gives_decode (faithful depthLimit (Nat.le_refl _) text)
  rw [read] at settles
  have restores := settles exact [] stops_nil
  have whole : Passes (do
      let a ← c.read depthLimit
      endText
      return a) (c.toValue a).chars a [] :=
    (List.append_nil (c.toValue a).chars ▸ restores).bind (passes_endText.bind (passes_pure [] a))
  obtain ⟨p, run⟩ := whole .start
  rw [encode, Value.render, encode_ofList]
  exact congrArg Prod.fst run

end Codec

/-! ### Exactness

What is written of a value is exact if its parts are. -/

namespace Codec

variable {α : Type} {c : Codec α}

theorem exact_list {items : List α} (each : ∀ a ∈ items, (c.toValue a).Exact) :
    (c.list.toValue items).Exact :=
  .array (List.forall_mem_map.mpr each)

theorem exact_dictionary {d : Dictionary α} (each : ∀ m ∈ d, (c.toValue m.2).Exact) :
    (c.dictionary.toValue d).Exact :=
  .object (List.forall_mem_map.mpr each)

theorem exact_option {o : Option α} (each : ∀ a ∈ o, (c.toValue a).Exact) :
    (c.option.toValue o).Exact := by
  cases o with
  | none => exact .null
  | some a => exact each a rfl

end Codec

/-! ### Records -/

namespace Fields

/-- The slots that are filled once the members of some names have been read. -/
def among (done : List String) : {kinds : List Type} → Fields kinds → Row kinds → Slots kinds
  | _, .nil, _ => ()
  | _, .cons f rest, (a, row) => (if f.name ∈ done then some a else none, rest.among done row)

section Cons

variable {α : Type} {kinds : List Type} (f : Field α) (rest : Fields kinds) (a : α) (row : Row kinds)

theorem names_cons : (Fields.cons f rest).names = f.name :: rest.names := rfl

theorem members_cons :
    (Fields.cons f rest).members (a, row) =
      if f.omits a then rest.members row
      else (f.name, f.codec.toValue a) :: rest.members row := rfl

theorem mem_members_cons {m : String × Value} :
    m ∈ (Fields.cons f rest).members (a, row) ↔
      f.omits a = false ∧ m = (f.name, f.codec.toValue a) ∨ m ∈ rest.members row := by
  rw [members_cons]
  cases f.omits a <;> simp

theorem among_cons (done : List String) :
    (Fields.cons f rest).among done (a, row) =
      (if f.name ∈ done then some a else none, rest.among done row) := rfl

end Cons

variable {kinds : List Type} {fields : Fields kinds} {row : Row kinds} {done : List String}
  {room : Nat}

theorem among_nil (fields : Fields kinds) (row : Row kinds) :
    fields.among [] row = Slots.empty kinds := by
  induction fields with
  | nil => rfl
  | cons f rest ih => exact congrArg (Prod.mk none) (ih row.2)

theorem among_cons_of_unnamed {key : String} (unnamed : key ∉ fields.names) :
    fields.among (key :: done) row = fields.among done row := by
  induction fields with
  | nil => rfl
  | cons f rest ih =>
    obtain ⟨a, row⟩ := row
    rw [names_cons, List.mem_cons, not_or] at unnamed
    have same : (f.name ∈ key :: done) = (f.name ∈ done) := by
      simp [Ne.symm unnamed.1]
    simp only [among_cons, same, ih unnamed.2]

theorem members_names (fields : Fields kinds) (row : Row kinds) :
    ((fields.members row).map Prod.fst).Sublist fields.names := by
  induction fields with
  | nil => exact List.Sublist.refl _
  | cons f rest ih =>
    obtain ⟨a, row⟩ := row
    rw [members_cons, names_cons]
    split
    · exact (ih row).cons _
    · exact (ih row).cons_cons _

theorem complete_among (written : ∀ m ∈ fields.members row, m.1 ∈ done) :
    fields.complete (fields.among done row) = .ok row := by
  induction fields with
  | nil => rfl
  | cons f rest ih =>
    obtain ⟨a, row⟩ := row
    have found : ((if f.name ∈ done then some a else none) <|> f.absent) = some a := by
      by_cases there : f.name ∈ done
      · simp [there]
      · have omitted : f.omits a = true := by
          by_contra kept
          exact there (written (f.name, f.codec.toValue a)
            ((mem_members_cons ..).mpr (.inl ⟨by simpa using kept, rfl⟩)))
        simp [there, f.absent_of_omits a omitted]
    have later : ∀ m ∈ rest.members row, m.1 ∈ done := fun m inside =>
      written m ((mem_members_cons ..).mpr (.inr inside))
    simp only [complete, among_cons, found, ih later]
    rfl

def RestoresWritten (room : Nat) {α : Type} (f : Field α) (a : α) : Prop :=
  f.omits a = false → f.codec.Restores room a

theorem passes_readMember (distinct : fields.names.Nodup)
    (restores : fields.Holds (RestoresWritten room) row) {m : String × Value}
    (member : m ∈ fields.members row) (undone : m.1 ∉ done) :
    ∃ r, fields.readMember room m.1 (fields.among done row) = some r ∧
      ∀ cs, Stops cs → Passes r (':' :: (m.2.chars ++ cs)) (fields.among (m.1 :: done) row) cs := by
  induction fields with
  | nil => cases member
  | cons f rest ih =>
    obtain ⟨a, row⟩ := row
    obtain ⟨unnamed, distinct⟩ := List.nodup_cons.mp distinct
    obtain ⟨first, restores⟩ := restores
    rw [readMember.eq_def]
    by_cases same : f.name = m.1
    · have elsewhere : m ∉ rest.members row := fun inside => unnamed
        (same ▸ (members_names rest row).subset (List.mem_map_of_mem inside))
      obtain ⟨kept, rfl⟩ := ((mem_members_cons ..).mp member).resolve_right elsewhere
      refine ⟨_, if_pos same, fun cs stops => ?_⟩
      have filled : (Fields.cons f rest).among (f.name :: done) (a, row) =
          (some a, rest.among done row) := by
        rw [among_cons, among_cons_of_unnamed unnamed, if_pos List.mem_cons_self]
      rw [if_neg (by simp [undone]), filled]
      exact (passes_colon _).bind ((first kept cs stops).bind (passes_pure cs _))
    · have inside : m ∈ rest.members row := by
        refine ((mem_members_cons ..).mp member).resolve_left ?_
        rintro ⟨-, rfl⟩
        exact same rfl
      obtain ⟨r, found, passes⟩ := ih distinct restores inside
      refine ⟨_, (if_neg same).trans (congrArg (Option.map _) found), fun cs stops => ?_⟩
      have slot : (if f.name ∈ m.1 :: done then some a else none) =
          if f.name ∈ done then some a else none := by
        simp [same]
      rw [among_cons, slot]
      exact (passes cs stops).map

theorem restoresWritten_of_exact
    (holds : fields.Holds (fun f a => (f.codec.toValue a).Exact → f.codec.Restores room a) row)
    (exact : ∀ m ∈ fields.members row, m.2.Exact) : fields.Holds (RestoresWritten room) row := by
  induction fields with
  | nil => trivial
  | cons f rest ih =>
    obtain ⟨a, row⟩ := row
    exact ⟨fun kept => holds.1 (exact _ ((mem_members_cons ..).mpr (.inl ⟨kept, rfl⟩))),
      ih holds.2 fun m inside => exact m ((mem_members_cons ..).mpr (.inr inside))⟩

theorem exact_members
    (each : fields.Holds (fun f a => (f.codec.toValue a).Exact) row) :
    ∀ m ∈ fields.members row, m.2.Exact := by
  induction fields with
  | nil => exact nofun
  | cons f rest ih =>
    obtain ⟨a, row⟩ := row
    intro m member
    rcases (mem_members_cons ..).mp member with ⟨-, rfl⟩ | inside
    · exact each.1
    · exact ih each.2 m inside

theorem Each.imp {R S : ∀ {α : Type}, Field α → Prop} (weaker : ∀ {α : Type} (f : Field α), R f → S f)
    (each : fields.Each R) : fields.Each S := by
  induction fields with
  | nil => trivial
  | cons f rest ih => exact ⟨weaker f each.1, ih each.2⟩

end Fields

namespace Record

variable {σ : Type} {r : Record σ} {row : Row r.kinds} {room : Nat}

theorem passes_readMembers (distinct : r.fields.names.Nodup)
    (restores : r.fields.Holds (Fields.RestoresWritten room) row) {more : List (String × Value)}
    (written : ∀ m ∈ more, m ∈ r.fields.members row) (fresh : (more.map Prod.fst).Nodup)
    (done : List String) (undone : ∀ m ∈ more, m.1 ∉ done) (rounds : Nat)
    (enough : more.length < rounds) (first : Bool) (cs : List Char) :
    Passes (r.readMembers room rounds first (r.fields.among done row))
      (separated first (memberTexts Value.chars more) ++ '\x7d' :: cs)
      (r.fields.among ((more.map Prod.fst).reverse ++ done) row) ('\x7d' :: cs) := by
  induction more generalizing done rounds first with
  | nil =>
    cases rounds with
    | zero => cases enough
    | succ rounds => exact (passes_noKey first cs).bind (passes_pure _ _)
  | cons m more ih =>
    cases rounds with
    | zero => cases enough
    | succ rounds =>
      obtain ⟨member, written⟩ := List.forall_mem_cons.mp written
      obtain ⟨unmet, undone⟩ := List.forall_mem_cons.mp undone
      obtain ⟨other, fresh⟩ := List.nodup_cons.mp fresh
      obtain ⟨reader, found, passes⟩ := Fields.passes_readMember distinct restores member unmet
      have behind : ∀ n ∈ more, n.1 ∉ m.1 :: done := by
        intro n inside
        rw [List.mem_cons, not_or]
        exact ⟨fun same => other (same ▸ List.mem_map_of_mem inside), undone n inside⟩
      have rest := ih written fresh (m.1 :: done) behind rounds (Nat.lt_of_succ_lt_succ enough) false
      have value := passes _ (stops_separated (memberTexts Value.chars more) (.inr rfl) cs)
      have text : separated first (memberTexts Value.chars (m :: more)) ++ '\x7d' :: cs =
          lead first ++ Value.renderString m.1 ++ ':' :: (m.2.chars ++
            (separated false (memberTexts Value.chars more) ++ '\x7d' :: cs)) := by
        simp [separated, memberTexts]
      have filled : ((m :: more).map Prod.fst).reverse ++ done =
          (more.map Prod.fst).reverse ++ m.1 :: done := by
        simp
      rw [text, filled, readMembers]
      refine (passes_key first m.1 _).bind ?_
      simp only [found]
      exact value.bind rest

theorem passes_readObject (distinct : r.fields.names.Nodup)
    (restores : r.fields.Holds (Fields.RestoresWritten room) row) (cs : List Char) :
    Passes (r.readObject room)
      (separated true (memberTexts Value.chars (r.fields.members row)) ++ '\x7d' :: cs) row
      ('\x7d' :: cs) := by
  have fresh := distinct.sublist (r.fields.members_names row)
  have long := length_le_memberTexts Value.chars (r.fields.members row) true
  have written : ∀ m ∈ r.fields.members row,
      m.1 ∈ ((r.fields.members row).map Prod.fst).reverse ++ [] := by
    intro m inside
    simpa using ⟨m.2, inside⟩
  have completed := Fields.complete_among written
  rw [readObject_eq]
  refine Passes.rounds (k := fun rounds => do
    deliver (r.fields.complete (← r.readMembers room rounds true (Slots.empty r.kinds))))
    fun rounds enough => ?_
  rw [List.length_append] at enough
  have read := passes_readMembers distinct restores (fun _ inside => inside) fresh []
    (fun _ _ => List.not_mem_nil) rounds (by omega) true cs
  rw [Fields.among_nil] at read
  refine read.bind ?_
  rw [completed]
  exact passes_pure _ row

theorem exact {s : σ} (each : r.fields.Holds (fun f a => (f.codec.toValue a).Exact) (r.parts s)) :
    (r.codec.toValue s).Exact :=
  .object (Fields.exact_members each)

theorem restores_codec {inner : Nat} (distinct : r.fields.names.Nodup)
    (whole : r.parts (r.build row) = row)
    (restores : r.fields.Holds (Fields.RestoresWritten inner) row) :
    r.codec.Restores (inner + 1) (r.build row) := by
  intro cs _
  have text : (r.codec.toValue (r.build row)).chars ++ cs =
      '\x7b' :: (separated true (memberTexts Value.chars (r.fields.members row)) ++
        '\x7d' :: cs) := by
    have written : r.codec.toValue (r.build row) = .object (r.fields.members row) :=
      congrArg (fun row => Value.object (r.fields.members row)) whole
    rw [written, Value.text_object]
  have contents := passes_readObject distinct restores cs
  rw [text]
  exact (passes_token (by decide) _).bind ((passes_enter (by decide) inner _).bind
    ((contents.bracketed (passes_endObject cs)).map))

end Record

structure Field.Faithful {α : Type} (f : Field α) (least : Nat) : Prop where
  codec : f.codec.Faithful least
  absent : ∀ a, f.absent = some a → ∀ room, least ≤ room → f.codec.Restores room a

namespace Record

variable {σ : Type} {r : Record σ}

theorem faithful (least : Nat) (distinct : r.fields.names.Nodup)
    (whole : ∀ row, r.parts (r.build row) = row)
    (each : r.fields.Each fun f => f.Faithful least) : r.codec.Faithful (least + 1) := by
  intro room enough text
  obtain ⟨inner, rfl⟩ := Nat.exists_eq_add_of_le' (Nat.le_trans (Nat.le_add_left 1 least) enough)
  have within : least ≤ inner := Nat.le_of_succ_le_succ enough
  have supplies (room : Nat) (same : inner + 1 = room + 1) :
      r.fields.Each (Fields.Supplies text room (fun _ => True)
        fun f a => (f.codec.toValue a).Exact → f.codec.Restores inner a) := by
    obtain rfl := Nat.succ.inj same
    exact each.imp fun f faithful => ⟨faithful.codec inner within text,
      fun a absent _ => faithful.absent a absent inner within⟩
  refine (gives_codec supplies).mono fun s gives exact => ?_
  obtain ⟨row, rfl, holds⟩ := gives
  have written : r.codec.toValue (r.build row) = .object (r.fields.members row) :=
    congrArg (fun row => Value.object (r.fields.members row)) (whole row)
  rw [written] at exact
  cases exact with
  | object exact =>
    exact restores_codec distinct (whole row) (Fields.restoresWritten_of_exact holds exact)

end Record
/-- The fields read alike, however each of them is written. -/
def Fields.ReadAlike : {kinds : List Type} → Fields kinds → Fields kinds → Prop
  | _, .nil, .nil => True
  | _, .cons f rest, .cons g others =>
    f.name = g.name ∧ f.codec.read = g.codec.read ∧ f.absent = g.absent ∧ rest.ReadAlike others

namespace Fields

variable {kinds : List Type} {fields others : Fields kinds}

theorem readMember_congr (alike : fields.ReadAlike others) (room : Nat) (key : String)
    (slots : Slots kinds) : fields.readMember room key slots = others.readMember room key slots := by
  induction fields with
  | nil => cases others; rfl
  | cons f rest ih =>
    cases others with
    | cons g others =>
      obtain ⟨name, read, -, alike⟩ := alike
      simp only [readMember, name, read, ih alike]

theorem complete_congr (alike : fields.ReadAlike others) (slots : Slots kinds) :
    fields.complete slots = others.complete slots := by
  induction fields with
  | nil => cases others; rfl
  | cons f rest ih =>
    cases others with
    | cons g others =>
      obtain ⟨name, -, absent, alike⟩ := alike
      simp only [complete, name, absent, ih alike]

theorem readItems_congr (alike : fields.ReadAlike others) (room : Nat) (wanted : String)
    (index : Nat) : fields.readItems room wanted index = others.readItems room wanted index := by
  induction fields generalizing index with
  | nil => cases others; rfl
  | cons f rest ih =>
    cases others with
    | cons g others =>
      obtain ⟨-, read, absent, alike⟩ := alike
      simp only [readItems, read, absent, ih alike]

end Fields

theorem Record.read_codec_congr {σ : Type} (name : String) {kinds : List Type}
    {fields others : Fields kinds} (alike : fields.ReadAlike others) (build : Row kinds → σ)
    (parts : σ → Row kinds) :
    (Record.mk name fields build parts).codec.read = (Record.mk name others build parts).codec.read := by
  have members (room rounds : Nat) (first : Bool) (slots : Slots kinds) :
      (Record.mk name fields build parts).readMembers room rounds first slots =
        (Record.mk name others build parts).readMembers room rounds first slots := by
    induction rounds generalizing first slots with
    | zero => rfl
    | succ rounds ih =>
      rw [readMembers, readMembers]
      refine bind_congr fun key => ?_
      cases key with
      | none => rfl
      | some key =>
        dsimp only
        rw [Fields.readMember_congr alike]
        cases others.readMember room key slots with
        | none => exact bind_congr fun _ => bind_congr fun _ => ih ..
        | some member => exact bind_congr fun slots => ih ..
  have objects (room : Nat) : (Record.mk name fields build parts).readObject room =
      (Record.mk name others build parts).readObject room := by
    rw [readObject, readObject]
    refine bind_congr fun here => ?_
    dsimp only
    rw [members]
    refine bind_congr fun slots => ?_
    rw [Fields.complete_congr alike]
    cases others.complete slots <;> rfl
  simp only [codec, objects, Fields.readItems_congr alike]
  rfl

end CloudProvider.Json
