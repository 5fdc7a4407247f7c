import CloudProvider.Proofs.Readings
import CloudProvider.Proofs.Records

/-! What can be said of the codecs' readers, from what can be said of the readers of their parts. -/

namespace CloudProvider.Json

open Text (Dictionary)
open Reader

variable {text : Bytes} {B : String → Prop}

namespace Value

/-- A property of values and of the room in which they are read that passes from the parts of a value
to the whole. -/
structure Composed (P : Nat → Value → Prop) : Prop where
  null : ∀ room, P room .null
  bool : ∀ room b, P room (.bool b)
  number : ∀ room n, P room (.number n)
  string : ∀ room s, P room (.string s)
  array : ∀ room items, (∀ v ∈ items, P room v) → P (room + 1) (.array items)
  object : ∀ room (d : Dictionary Value), d.Sorted → (∀ m ∈ d, P room m.2) →
    P (room + 1) (.object d)

variable {P : Nat → Value → Prop}

theorem gives_read_of {room : Nat} (composed : Composed P)
    (deeper : ∀ inner, room = inner + 1 → Gives text (read inner) (P inner) B) :
    Gives text (read room) (P room) B := by
  rw [read.eq_def]
  refine gives_token.bind fun found _ => ?_
  split
  · exact gives_failNext nofun
  · exact gives_advance.bind fun _ _ => (gives_word _).bind fun _ _ =>
      gives_pure (composed.null _)
  · exact gives_advance.bind fun _ _ => (gives_word _).bind fun _ _ =>
      gives_pure (composed.bool _ _)
  · exact gives_advance.bind fun _ _ => (gives_word _).bind fun _ _ =>
      gives_pure (composed.bool _ _)
  · exact gives_advance.bind fun _ _ =>
      Gives.map ((gives_number _).mono fun _ _ => composed.number _ _)
  · exact gives_advance.bind fun _ _ =>
      Gives.map (gives_string.mono fun _ _ => composed.string _ _)
  · split
    · exact gives_failNext nofun
    · next inner =>
      refine gives_advance.bind fun _ _ => gives_bracketed (Gives.map ?_) gives_endList
      exact (gives_elements (deeper inner rfl)).mono fun items all => composed.array _ items all
  · split
    · exact gives_failNext nofun
    · next inner =>
      refine gives_advance.bind fun _ _ => gives_bracketed (Gives.map ?_) gives_endObject
      exact (gives_members (deeper inner rfl)).mono fun d ⟨sorted, all⟩ =>
        composed.object _ d sorted all
  · split
    · exact Gives.map ((gives_number _).mono fun _ _ => composed.number _ _)
    · exact gives_failNext nofun

theorem gives_read (composed : Composed P) (room : Nat) :
    Gives text (read room) (P room) B := by
  induction room with
  | zero => exact gives_read_of composed nofun
  | succ room ih => exact gives_read_of composed fun inner same => Nat.succ.inj same ▸ ih

end Value

namespace Codec

variable {α β : Type} {c : Codec α} {P : α → Prop} {room : Nat}

theorem gives_atToken {k : Char → Reader α} (gives : ∀ found, Gives text (k found) P B) :
    Gives text (atToken k) P B := by
  refine gives_token.bind fun found _ => ?_
  rcases found with _ | found
  · exact gives_failNext nofun
  · exact gives found

theorem gives_map {wrap : α → β} {unwrap : β → α} {P : β → Prop}
    (gives : Gives text (c.read room) (fun a => P (wrap a)) B) :
    Gives text ((c.map wrap unwrap).read room) P B :=
  Gives.map gives

theorem gives_bool : Gives text (bool.read room) (fun _ => True) B := by
  refine gives_atToken fun found => ?_
  split
  · exact gives_advance.bind fun _ _ => (gives_word _).bind fun _ _ => gives_pure trivial
  · exact gives_advance.bind fun _ _ => (gives_word _).bind fun _ _ => gives_pure trivial
  · exact gives_wrongType _

theorem gives_text (wanted : String) :
    Gives text ((Codec.text wanted).read room)
      (fun s => ∃ c c', c.rest <:+ text ∧ Reader.string c = (.ok s, c')) B := by
  refine gives_atToken fun found => ?_
  split
  · exact gives_advance.bind fun _ _ => Reader.gives_string.reached
  · exact gives_wrongType _

theorem gives_string : Gives text (Codec.string.read room) (fun _ => True) B :=
  (gives_text _).mono fun _ _ => trivial

theorem gives_value : Gives text (value.read room) (fun _ => True) B := by
  have composed : Value.Composed fun _ _ => True :=
    ⟨fun _ => trivial, fun _ _ => trivial, fun _ _ => trivial, fun _ _ => trivial,
      fun _ _ _ => trivial, fun _ _ _ _ => trivial⟩
  exact Value.gives_read composed room

theorem gives_integer (wanted : String) (narrow? : Int → Option α) (widen : α → Number) :
    Gives text ((integer wanted narrow? widen).read room) (fun _ => True) B := by
  have check (n : Number) :
      Gives text (located (deliver (integer.narrowed wanted narrow? n))) (fun _ => True) B := by
    refine Gives.located (gives_deliver (fun _ _ => trivial) fun reason narrowed => ?_)
    unfold integer.narrowed at narrowed
    repeat' split at narrowed
    all_goals cases narrowed
  refine gives_atToken fun found => ?_
  dsimp only
  split
  · exact gives_advance.bind fun _ _ => (gives_number _).bind fun n _ => check n
  split
  · exact (gives_number _).bind fun n _ => check n
  · exact gives_wrongType _

theorem gives_list
    (each : ∀ inner, room = inner + 1 → Gives text (c.read inner) P B) :
    Gives text (c.list.read room) (fun as => ∀ a ∈ as, P a) B := by
  refine gives_atToken fun found => ?_
  split
  · exact (gives_enter room).bind fun inner entered =>
      gives_bracketed (gives_elements (each inner entered)) gives_endList
  · exact gives_wrongType _

theorem gives_dictionary
    (each : ∀ inner, room = inner + 1 → Gives text (c.read inner) P B) :
    Gives text (c.dictionary.read room) (fun d => d.Sorted ∧ ∀ m ∈ d, P m.2) B := by
  refine gives_atToken fun found => ?_
  split
  · exact (gives_enter room).bind fun inner entered =>
      gives_bracketed (gives_members (each inner entered)) gives_endObject
  · exact gives_wrongType _

theorem gives_option (gives : Gives text (c.read room) P B) :
    Gives text (c.option.read room) (fun o => ∀ a ∈ o, P a) B := by
  refine gives_token.bind fun found _ => ?_
  split
  · exact gives_advance.bind fun _ _ => (gives_word _).bind fun _ _ => gives_pure nofun
  · refine Gives.map (gives.mono fun a holds b same => ?_)
    exact Option.some.inj same ▸ holds

theorem gives_choice (known : List (String × α)) (name : α → String) :
    Gives text ((choice known name).read room) (fun _ => True) B := by
  have pick (s : String) : Gives text (choice.pick known s) (fun _ => True) B := by
    change Gives text (deliver (choice.find known s)) _ _
    refine gives_deliver (fun _ _ => trivial) fun reason found => ?_
    unfold choice.find at found
    split at found <;> cases found
  have picked : Gives text (located do advance; choice.pick known (← Reader.string))
      (fun _ => True) B :=
    Gives.located (gives_advance.bind fun _ _ => Reader.gives_string.bind fun s _ => pick s)
  have key : Gives text (choice.key known) (fun _ => True) B := by
    refine gives_atToken fun found => ?_
    split
    · exact picked
    · exact gives_wrongType _
  have nothing : Gives text choice.nothing (fun _ => True) B := by
    refine gives_atToken fun found => ?_
    split
    · exact gives_advance.bind fun _ _ => gives_word _
    · exact gives_wrongType _
  refine gives_atToken fun found => ?_
  split
  · exact picked
  split
  · refine (gives_enter room).bind fun _ _ => key.bind fun a _ => gives_colon.bind fun _ _ =>
      nothing.bind fun _ _ => gives_token.bind fun last _ => ?_
    split
    · exact gives_advance.bind fun _ _ => gives_pure trivial
    · exact gives_fail nofun
    · exact gives_fail nofun
  · exact gives_failNext nofun

theorem gives_refine {check : α → Except Cause β} {unwrap : β → α} {P : β → Prop}
    {Q : α → Prop} (gives : Gives text (c.read room) Q B)
    (checked : ∀ a b, Q a → check a = .ok b → P b)
    (refused : ∀ a reason, Q a → check a = .error (.collapsed reason) → B reason) :
    Gives text ((c.refine check unwrap).read room) P B := by
  refine gives.bind fun a holds => ?_
  exact gives_deliver (fun b => checked a b holds) fun reason => refused a reason holds

theorem gives_decode (gives : Gives text (c.read depthLimit) P B) :
    Settles P B (c.decode text) :=
  (Gives.bind gives fun _ holds => gives_endText.bind fun _ _ => gives_pure holds)
    (Cursor.start text) List.suffix_rfl |>.2

end Codec

/-! ### Records -/

namespace Fields

def Each (R : ∀ {α : Type}, Field α → Prop) : {kinds : List Type} → Fields kinds → Prop
  | _, .nil => True
  | _, .cons f rest => R f ∧ rest.Each R

def Holds (Q : ∀ {α : Type}, Field α → α → Prop) : {kinds : List Type} → Fields kinds →
    Row kinds → Prop
  | _, .nil, _ => True
  | _, .cons f rest, (a, row) => Q f a ∧ rest.Holds Q row

def Keeps (Q : ∀ {α : Type}, Field α → α → Prop) : {kinds : List Type} → Fields kinds →
    Slots kinds → Prop
  | _, .nil, _ => True
  | _, .cons f rest, (slot, slots) => (∀ a ∈ slot, Q f a) ∧ rest.Keeps Q slots

variable {kinds : List Type} {fields : Fields kinds} {room : Nat}
  {Q : ∀ {α : Type}, Field α → α → Prop}

/-- A field's codec reads values of the kind, and its default is one of them. -/
def Supplies (text : Bytes) (room : Nat) (B : String → Prop) (Q : ∀ {α : Type}, Field α → α → Prop)
    {α : Type} (f : Field α) : Prop :=
  Gives text (f.codec.read room) (Q f) B ∧ ∀ a, f.absent = some a → Q f a

theorem keeps_empty (fields : Fields kinds) : fields.Keeps Q (Slots.empty kinds) := by
  induction fields with
  | nil => trivial
  | cons f rest ih => exact ⟨nofun, ih⟩

theorem gives_readMember (supplies : fields.Each (Supplies text room B Q)) (key : String)
    {slots : Slots kinds} (kept : fields.Keeps Q slots) {member : Reader (Slots kinds)}
    (found : fields.readMember room key slots = some member) :
    Gives text member (fun slots => fields.Keeps Q slots) B := by
  induction fields with
  | nil => cases found
  | cons f rest ih =>
    obtain ⟨slot, slots⟩ := slots
    rw [readMember] at found
    split at found
    · obtain rfl := Option.some.inj found
      split
      · exact gives_refuse nofun
      · refine gives_colon.bind fun _ _ => supplies.1.1.bind fun a holds => gives_pure ?_
        exact ⟨fun b same => Option.some.inj same ▸ holds, kept.2⟩
    · obtain ⟨r, rest, rfl⟩ := Option.map_eq_some_iff.mp found
      exact Gives.map ((ih supplies.2 kept.2 rest).mono fun slots keeps => ⟨kept.1, keeps⟩)

theorem holds_of_complete (supplies : fields.Each (Supplies text room B Q)) {slots : Slots kinds}
    (kept : fields.Keeps Q slots) {row : Row kinds} (completed : fields.complete slots = .ok row) :
    fields.Holds Q row := by
  induction fields with
  | nil => trivial
  | cons f rest ih =>
    obtain ⟨slot, slots⟩ := slots
    obtain ⟨a, row⟩ := row
    rw [complete] at completed
    split at completed
    · cases completed
    next found =>
    obtain ⟨tail, inner, same⟩ := bind_eq_ok.mp completed
    obtain ⟨rfl, rfl⟩ := Prod.mk.inj (Except.ok.inj same)
    refine ⟨?_, ih supplies.2 kept.2 inner⟩
    rcases slot with _ | b
    · exact supplies.1.2 _ found
    · exact kept.1 _ found

theorem exists_missing_of_complete {slots : Slots kinds} {cause : Cause}
    (failed : fields.complete slots = .error cause) : ∃ name, cause = .missingMember name := by
  induction fields with
  | nil => cases failed
  | cons f rest ih =>
    obtain ⟨slot, slots⟩ := slots
    rw [complete] at failed
    split at failed
    · exact ⟨f.name, (Except.error.inj failed).symm⟩
    · rcases inner : rest.complete slots with cause' | row
      · rw [inner] at failed
        exact ih (inner.trans (congrArg Except.error (Except.error.inj failed)))
      · rw [inner] at failed
        cases failed

theorem gives_readItems (supplies : fields.Each (Supplies text room B Q)) (wanted : String)
    (index : Nat) :
    Gives text (fields.readItems room wanted index) (fun row => fields.Holds Q row) B := by
  induction fields generalizing index with
  | nil => exact gives_pure trivial
  | cons f rest ih =>
    rw [readItems]
    refine (gives_moreElements _).bind fun more _ => ?_
    split
    · exact supplies.1.1.bind fun a holds => (ih supplies.2 _).bind fun row all =>
        gives_pure ⟨holds, all⟩
    · split
      · exact gives_refuse nofun
      · next a absent =>
        exact (ih supplies.2 _).bind fun row all => gives_pure ⟨supplies.1.2 a absent, all⟩

end Fields

namespace Record

variable {σ : Type} {r : Record σ} {room : Nat} {Q : ∀ {α : Type}, Field α → α → Prop}

theorem gives_readMembers (supplies : r.fields.Each (Fields.Supplies text room B Q))
    (rounds : Nat) (first : Bool) {slots : Slots r.kinds} (kept : r.fields.Keeps Q slots) :
    Gives text (r.readMembers room rounds first slots) (fun slots => r.fields.Keeps Q slots) B := by
  induction rounds generalizing first slots with
  | zero => exact gives_fail nofun
  | succ rounds ih =>
    rw [readMembers]
    refine (gives_nextKey? first).bind fun key _ => ?_
    split
    · exact gives_pure kept
    · next key =>
      split
      · next member found =>
        exact (Fields.gives_readMember supplies key kept found).bind fun slots kept => ih false kept
      · exact gives_colon.bind fun _ _ => gives_skip.bind fun _ _ => ih false kept

theorem readObject_eq (room : Nat) : r.readObject room = (do
    let rounds := (← Reader.cursor).rest.length + 1
    deliver (r.fields.complete (← r.readMembers room rounds true (Slots.empty r.kinds)))) := by
  refine bind_congr fun _ => bind_congr fun slots => ?_
  cases r.fields.complete slots <;> rfl

theorem gives_readObject (supplies : r.fields.Each (Fields.Supplies text room B Q)) :
    Gives text (r.readObject room) (fun row => r.fields.Holds Q row) B := by
  rw [readObject_eq]
  refine gives_cursor.bind fun c _ =>
    (gives_readMembers supplies _ _ (Fields.keeps_empty r.fields)).bind fun slots kept => ?_
  refine gives_deliver (fun row => Fields.holds_of_complete supplies kept) fun reason failed => ?_
  obtain ⟨name, same⟩ := Fields.exists_missing_of_complete failed
  cases same

theorem gives_codec
    (supplies : ∀ inner, room = inner + 1 → r.fields.Each (Fields.Supplies text inner B Q)) :
    Gives text (r.codec.read room) (fun s => ∃ row, s = r.build row ∧ r.fields.Holds Q row) B := by
  refine gives_token.bind fun found _ => ?_
  split
  · exact gives_failNext nofun
  · refine (gives_enter room).bind fun inner entered => Gives.map (gives_bracketed ?_ gives_endList)
    exact (Fields.gives_readItems (supplies inner entered) _ _).mono fun row all => ⟨row, rfl, all⟩
  · refine (gives_enter room).bind fun inner entered =>
      Gives.map (gives_bracketed ?_ gives_endObject)
    exact (gives_readObject (supplies inner entered)).mono fun row all => ⟨row, rfl, all⟩
  · exact gives_wrongType _

end Record
end CloudProvider.Json
