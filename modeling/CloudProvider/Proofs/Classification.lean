import CloudProvider.Proofs.Admission
import CloudProvider.Proofs.Documents
import CloudProvider.Proofs.Legibility
import CloudProvider.Proofs.Replies

/-! What a complete answer means to a call. An answer of success is decoded. Any other answer is a refusal
of the cloud if its body is an object that tells of one; if it is an object that does not, or a scalar, or
no document at all, it is handed on as it came. -/

namespace CloudProvider

open Json (Codec Record Tree Value depthLimit)
open Text (Dictionary)

namespace Json

/-- The body is the text of an object with these members, and brackets are nested within the limit. -/
def IsObject (body : Bytes) (members : List (String × Value)) : Prop :=
  ∃ written last, (Tree.object written last).Writes body ∧
    Tree.entries? (depthLimit - 1) written = some members

section Objects

theorem Tree.sorted_of_value? {t : Tree} {room : Nat} {d : Dictionary Value}
    (meant : t.value? room = some (.object d)) : Dictionary.Sorted d := by
  obtain ⟨inside, last, rfl⟩ := t.first_eq_iff.2.2.1.mp (Codec.first_of_object meant)
  cases room with
  | zero => cases meant
  | succ inner =>
    rw [Tree.value?] at meant
    obtain ⟨entries, -, form⟩ := Option.map_eq_some_iff.mp meant
    rw [← Value.object.inj form]
    exact Dictionary.sorted_ofList entries

variable {body : Bytes} {members : List (String × Value)}

theorem IsObject.sorted (object : IsObject body members) {member : String × Value}
    (inside : member ∈ members) {d : Dictionary Value} (value : member.2 = .object d) :
    Dictionary.Sorted d := by
  obtain ⟨written, last, -, known⟩ := object
  have each := Tree.forall₂_entries? (Q := fun t v => t.value? (depthLimit - 1) = some v)
    (fun _ _ _ meant => meant) known
  clear known
  induction each with
  | nil => cases inside
  | cons means _ ih =>
    rcases List.mem_cons.mp inside with rfl | later
    · exact Tree.sorted_of_value? (means.2.trans (congrArg some value))
    · exact ih later

variable {σ : Type} {r : Record σ}

theorem Record.decode_eq_ok_iff (agree : r.fields.Each fun f => f.codec.Agrees)
    (object : IsObject body members) (a : σ) :
    r.codec.decode body = .ok a ↔ r.codec.ofValue (.object members) = .ok a := by
  obtain ⟨written, last, ⟨before, after, rfl⟩, known⟩ := object
  have whole : Reader.Mirrors (do
      let a ← r.codec.read depthLimit
      Reader.endText
      return a) (before.bytes ++ (Tree.object written last).text ++ after.bytes)
        (r.codec.ofValue (.object members) >>= pure) [] := by
    rw [List.append_assoc]
    exact (Record.mirrors_codec agree known before last after.bytes).bind fun a _ =>
      (Reader.reads_endText after).mirrors (Reader.reads_pure [] a)
  rw [bind_pure] at whole
  cases taken : r.codec.ofValue (.object members) with
  | ok b =>
    rw [taken] at whole
    obtain ⟨p, run⟩ := whole .start
    have decoded : r.codec.decode _ = .ok b := congrArg Prod.fst run
    rw [decoded, Except.ok.injEq, Except.ok.injEq]
  | error cause =>
    rw [taken] at whole
    obtain ⟨f, c, run⟩ := whole .start
    have decoded : r.codec.decode _ = .error f := congrArg Prod.fst run
    rw [decoded]
    exact ⟨nofun, nofun⟩

end Objects

end Json

namespace Refusal

/-- The members tell of the refusal. It has its code and its message from them, each of which stands there
once, and its data, which may be missing. -/
def ToldBy (r : Refusal) (members : List (String × Value)) : Prop :=
  Under members "code" (some (.string r.code)) ∧ Under members "message" (some (.string r.message)) ∧
  (Under members "data" none ∧ r.data = [] ∨ Under members "data" (some (.object r.data)))

theorem record_agrees : record.fields.Each fun f => f.codec.Agrees :=
  ⟨Codec.agrees_string, Codec.agrees_string, Codec.agrees_dictionary_value, trivial⟩

theorem record_spells : record.fields.Each fun f => ∀ room, Json.Reader.Spells (f.codec.read room) :=
  ⟨Codec.spells_string, Codec.spells_string, Codec.spells_dictionary Value.spells_read, trivial⟩

theorem takes_data_iff {said : Option Value} {data : Dictionary Value}
    (ordered : ∀ d, said = some (.object d) → Dictionary.Sorted d) :
    (Json.Field.withDefault "data" (.dictionary .value) []).Takes said data ↔
      said = none ∧ data = [] ∨ said = some (.object data) := by
  rcases said with _ | v
  · change some [] = some data ↔ _
    simp [eq_comm]
  · change (Codec.dictionary .value).ofValue v = .ok data ↔ _
    cases v with
    | object d =>
      have taken : (Codec.dictionary .value).ofValue (.object d) = .ok d :=
        (Codec.membersOf_value d []).trans
          (congrArg Except.ok (Dictionary.ofList_of_sorted (ordered d rfl)))
      rw [taken]
      simp
    | _ =>
      refine iff_of_false nofun ?_
      rintro (⟨none, -⟩ | same)
      · cases none
      · cases same

theorem ofValue_eq_ok_iff {body : Bytes} {members : List (String × Value)}
    (object : Json.IsObject body members) (r : Refusal) :
    codec.ofValue (.object members) = .ok r ↔ r.ToldBy members := by
  have names : record.fields.names = ["code", "message", "data"] := rfl
  have once_iff : record.fields.NamesOnce members ↔ (members.map (·.1)).count "code" ≤ 1 ∧
      (members.map (·.1)).count "message" ≤ 1 ∧ (members.map (·.1)).count "data" ≤ 1 := by
    simp [Json.Fields.NamesOnce, names]
  have ordered (d : Dictionary Value) (said : members.lookup "data" = some (.object d)) :
      Dictionary.Sorted d := by
    obtain ⟨before, after, form, -⟩ := List.lookup_eq_some_iff.mp said
    have inside : ("data", Value.object d) ∈ members := by simp [form]
    exact object.sorted inside rfl
  rw [codec, Json.Record.ofValue_eq_ok_iff (by rw [names]; decide)]
  constructor
  · rintro ⟨⟨code, message, data, ⟨⟩⟩, rfl, ⟨_, ⟨⟩, ⟨first, second, third, -⟩, once⟩ | ⟨_, ⟨⟩, -⟩⟩
    obtain ⟨one, single, sole⟩ := once_iff.mp once
    refine ⟨under_iff.mpr ⟨Json.Field.takes_required_iff.mp first, one⟩,
      under_iff.mpr ⟨Json.Field.takes_required_iff.mp second, single⟩, ?_⟩
    obtain ⟨none, rfl⟩ | said := (takes_data_iff ordered).mp third
    · exact .inl ⟨under_iff.mpr ⟨none, sole⟩, rfl⟩
    · exact .inr (under_iff.mpr ⟨said, sole⟩)
  · rintro ⟨code, message, data⟩
    obtain ⟨first, one⟩ := under_iff.mp code
    obtain ⟨second, single⟩ := under_iff.mp message
    obtain ⟨third, sole⟩ : (Json.Field.withDefault "data" (.dictionary .value) []).Takes
        (members.lookup "data") r.data ∧ (members.map (·.1)).count "data" ≤ 1 := by
      obtain ⟨none, empty⟩ | said := data
      · obtain ⟨none, sole⟩ := under_iff.mp none
        exact ⟨(takes_data_iff ordered).mpr (.inl ⟨none, empty⟩), sole⟩
      · obtain ⟨said, sole⟩ := under_iff.mp said
        exact ⟨(takes_data_iff ordered).mpr (.inr said), sole⟩
    exact ⟨(r.code, r.message, r.data, ()), rfl, .inl ⟨members, rfl,
      ⟨Json.Field.takes_required_iff.mpr first, Json.Field.takes_required_iff.mpr second, third,
        trivial⟩, once_iff.mpr ⟨one, single, sole⟩⟩⟩

theorem decode_eq_ok_iff {body : Bytes} {members : List (String × Value)}
    (object : Json.IsObject body members) (r : Refusal) :
    codec.decode body = .ok r ↔ r.ToldBy members :=
  (Json.Record.decode_eq_ok_iff record_agrees object r).trans (ofValue_eq_ok_iff object r)

end Refusal

namespace Http

/-- The answer is handed on as it came: its status, and its body as a text, which is the body itself if the
body is one. -/
def HandedOn {α : Type} (a : Answer) (result : Except CloudError α) : Prop :=
  ∃ body, result = .error (.transport (some a.status) body) ∧
    ∀ text, a.body = Text.Utf8.encode text → body = text

section

variable {c : Call} {url : Url} {a : Answer}

theorem handedOn_of_noise {fault : Json.Fault} (failure : a.isSuccess = false)
    (untold : Refusal.codec.decode a.body = .error fault) :
    HandedOn a (interpret c url (.ok a)) := by
  refine ⟨_, interpret_of_noise failure untold, fun text same => ?_⟩
  rw [same, Text.Utf8.lossy_encode]

theorem handedOn_of_unwritten (failure : a.isSuccess = false)
    (unwritten : ∀ t : Tree, t.Writes a.body → t.isScalar = true) :
    HandedOn a (interpret c url (.ok a)) := by
  cases told : Refusal.codec.decode a.body with
  | error fault => exact handedOn_of_noise failure told
  | ok refusal =>
    obtain ⟨t, other, writes⟩ := Record.exists_writes_of_decode Refusal.record_spells told
    rw [unwritten t writes] at other
    cases other

theorem interpret_object (failure : a.isSuccess = false) {members : List (String × Value)}
    (object : Json.IsObject a.body members) :
    (∃ r, Refusal.ToldBy r members ∧ interpret c url (.ok a) = .error (.refused r a.status)) ∨
    (∀ r, ¬ Refusal.ToldBy r members) ∧ HandedOn a (interpret c url (.ok a)) := by
  cases told : Refusal.codec.decode a.body with
  | ok r =>
    exact .inl ⟨r, (Refusal.decode_eq_ok_iff object r).mp told, interpret_of_refusal failure told⟩
  | error fault =>
    refine .inr ⟨fun r tells => ?_, handedOn_of_noise failure told⟩
    cases told.symm.trans ((Refusal.decode_eq_ok_iff object r).mpr tells)

end

/-- What a call comes to when it gets a complete answer. One request is sent for it. Only of a body that is
no text, and would be a document if its strings could hold any bytes, nothing is promised. -/
theorem answer_classified {target : String} {c : Call} {q : Request}
    (asked : request target c = .ok q) (a : Answer) (sent : List Request) :
    let run := answer (replying (.ok a)) target c sent
    run.2 = sent ++ [q] ∧
    (a.isSuccess = true →
      (∃ v, c.codec.decode a.body = .ok v ∧ run.1 = .ok v) ∨
      ∃ fault, c.codec.decode a.body = .error fault ∧
        run.1 = .error (.internal (.undecodable fault))) ∧
    (a.isSuccess = false →
      (∀ members, Json.IsObject a.body members →
        (∃ r, Refusal.ToldBy r members ∧ run.1 = .error (.refused r a.status)) ∨
        (∀ r, ¬ Refusal.ToldBy r members) ∧ HandedOn a run.1) ∧
      (∀ t : Tree, t.Writes a.body → t.isScalar = true → HandedOn a run.1) ∧
      (¬ Json.IsDocument a.body →
        Text.Utf8.IsText a.body ∨ (∀ t : Tree, ¬ t.Writes a.body) → HandedOn a run.1)) := by
  have run : answer (replying (.ok a)) target c sent = (interpret c q.url (.ok a), sent ++ [q]) := by
    rw [answer_replying, asked]
  rw [run]
  dsimp only
  refine ⟨rfl, fun success => ?_, fun failure => ⟨fun members object => ?_, fun t writes scalar => ?_,
    fun none kind => ?_⟩⟩
  · rw [interpret_of_success success, decodeContents_eq]
    cases c.codec.decode a.body with
    | ok v => exact .inl ⟨v, rfl, rfl⟩
    | error fault => exact .inr ⟨fault, rfl, rfl⟩
  · exact interpret_object failure object
  · exact handedOn_of_unwritten failure fun t' writes' => (writes'.isScalar_eq writes).trans scalar
  · refine handedOn_of_unwritten failure fun t writes => ?_
    rcases kind with text | unwritten
    · exact absurd (Json.isDocument_iff.mpr ⟨text, t, writes⟩) none
    · exact absurd writes (unwritten t)

theorem exists_request_poll : ∃ q, request "http://esx.test:9000" (.poll ⟨"t_1"⟩) = .ok q := by
  have asked : (request "http://esx.test:9000" (.poll ⟨"t_1"⟩)).toOption.isSome = true := by
    decide +kernel
  cases sends : request "http://esx.test:9000" (.poll ⟨"t_1"⟩) with
  | ok q => exact ⟨q, rfl⟩
  | error fault =>
    rw [sends] at asked
    cases asked

def curt : Bytes :=
  Text.Utf8.encode "\x7b\"code\":\"C\",\"message\":\"M\"\x7d"

theorem isObject_curt :
    Json.IsObject curt [("code", .string "C"), ("message", .string "M")] := by
  let code : Json.Literal := [.plain 'c' (by decide), .plain 'o' (by decide), .plain 'd' (by decide),
    .plain 'e' (by decide)]
  let message : Json.Literal := [.plain 'm' (by decide), .plain 'e' (by decide), .plain 's' (by decide),
    .plain 's' (by decide), .plain 'a' (by decide), .plain 'g' (by decide), .plain 'e' (by decide)]
  exact ⟨[(⟨⟨.none, .none⟩, code, .none, .none⟩, .string [.plain 'C' (by decide)]),
      (⟨⟨.none, .none⟩, message, .none, .none⟩, .string [.plain 'M' (by decide)])], .none,
    ⟨.none, .none, by decide +kernel⟩, rfl⟩

theorem answer_classified_curt :
    ∃ q, request "http://esx.test:9000" (.poll ⟨"t_1"⟩) = .ok q ∧
      let run := answer (replying (.ok ⟨404, curt⟩)) "http://esx.test:9000" (.poll ⟨"t_1"⟩) []
      run.2 = [q] ∧ ∃ r, r.code = "C" ∧ run.1 = .error (.refused r 404) := by
  obtain ⟨q, asked⟩ := exists_request_poll
  obtain ⟨sent, -, told⟩ := answer_classified asked ⟨404, curt⟩ []
  refine ⟨q, asked, sent, ?_⟩
  obtain ⟨r, ⟨code, -⟩, refused⟩ | ⟨none, -⟩ := (told rfl).1 _ isObject_curt
  · refine ⟨r, ?_, refused⟩
    simpa [Under, eq_comm] using code
  · exact absurd ⟨rfl, rfl, .inl ⟨rfl, rfl⟩⟩ (none ⟨"C", "M", []⟩)

/-- A refusal with a member that nobody asks for, which holds a byte of no character. -/
def garbled : Bytes :=
  Text.Utf8.encode "\x7b\"code\":\"C\",\"message\":\"M\",\"x\":\"" ++ [0xFF] ++ Text.Utf8.encode "\"\x7d"

theorem decode_garbled : Refusal.codec.decode garbled = .ok ⟨"C", "M", []⟩ := by
  have seen : (Refusal.codec.decode garbled).toOption.map
      (fun r => (r.code, r.message, r.data.isEmpty)) = some ("C", "M", true) := by
    decide +kernel
  rcases told : Refusal.codec.decode garbled with fault | ⟨code, message, data⟩
  · rw [told] at seen
    cases seen
  · rw [told] at seen
    obtain ⟨rfl, rest⟩ := Prod.mk.inj (Option.some.inj seen)
    obtain ⟨rfl, empty⟩ := Prod.mk.inj rest
    obtain rfl : data = [] := List.isEmpty_iff.mp empty
    rfl

theorem answer_garbled :
    ¬ Json.IsDocument garbled ∧
    (answer (replying (.ok ⟨500, garbled⟩)) "http://esx.test:9000" (.poll ⟨"t_1"⟩) []).1 =
      .error (.refused ⟨"C", "M", []⟩ 500) := by
  have broken : Text.Utf8.decode? garbled = none := by decide +kernel
  obtain ⟨q, asked⟩ := exists_request_poll
  refine ⟨fun document => ?_, ?_⟩
  · obtain ⟨text, -⟩ := Json.isDocument_iff.mp document
    obtain ⟨s, decoded⟩ := text.exists_decode?
    cases broken.symm.trans decoded
  · rw [answer_replying, asked]
    dsimp only
    exact interpret_of_refusal rfl decode_garbled

end Http
end CloudProvider
