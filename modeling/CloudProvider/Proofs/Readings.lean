import CloudProvider.Json.Record

/-! What can be said of every reader, whatever text it is given: it only ever passes bytes, so that
it ends somewhere behind the place where it began; what it has read is of some kind; and if it
collapses, then for one of some reasons. One judgement says the three at once. It is closed under the
ways in which readers are put together, and each token has it for any reasons at all. -/

namespace CloudProvider

theorem Text.Utf8.front_rest_suffix (b : UInt8) (rest : Bytes) :
    (front b rest).rest <:+ rest := by
  unfold front
  repeat' split
  all_goals simp [Front.rest, List.suffix_cons_iff]

namespace Text.Dictionary

variable {α : Type}

def Sorted (d : Dictionary α) : Prop :=
  d.Pairwise fun a b => a.1 < b.1

theorem Sorted.nil : Sorted ([] : Dictionary α) := List.Pairwise.nil

theorem mem_insert {key : String} {value : α} {d : Dictionary α} {m : String × α}
    (member : m ∈ d.insert key value) : m = (key, value) ∨ m ∈ d := by
  induction d with
  | nil => simpa [insert] using member
  | cons first rest ih =>
    obtain ⟨k, v⟩ := first
    simp only [insert] at member
    split at member
    · exact List.mem_cons.mp member
    split at member
    · exact (List.mem_cons.mp member).imp_right (List.mem_cons_of_mem _)
    · rcases List.mem_cons.mp member with rfl | member
      · exact .inr List.mem_cons_self
      · exact (ih member).imp_right (List.mem_cons_of_mem _)

theorem Sorted.insert {d : Dictionary α} (sorted : d.Sorted) (key : String) (value : α) :
    (d.insert key value).Sorted := by
  induction d with
  | nil => exact List.pairwise_singleton _ _
  | cons first rest ih =>
    obtain ⟨k, v⟩ := first
    obtain ⟨least, sorted⟩ := List.pairwise_cons.mp sorted
    simp only [Dictionary.insert]
    split
    · next before =>
      refine List.pairwise_cons.mpr ⟨fun m member => ?_, List.pairwise_cons.mpr ⟨least, sorted⟩⟩
      rcases List.mem_cons.mp member with rfl | member
      · exact before
      · exact String.lt_trans before (least m member)
    split
    · next same =>
      exact List.pairwise_cons.mpr ⟨fun m member => same ▸ least m member, sorted⟩
    · next after other =>
      refine List.pairwise_cons.mpr ⟨fun m member => ?_, ih sorted⟩
      rcases mem_insert member with rfl | member
      · exact Std.lt_of_le_of_ne (String.not_lt.mp after) (Ne.symm other)
      · exact least m member

theorem sorted_ofList (pairs : List (String × α)) : (ofList pairs).Sorted := by
  have grows (pairs : List (String × α)) (seen : Dictionary α) (sorted : seen.Sorted) :
      (pairs.foldl (fun d m => d.insert m.1 m.2) seen).Sorted := by
    induction pairs generalizing seen with
    | nil => exact sorted
    | cons m pairs ih => exact ih _ (sorted.insert m.1 m.2)
  exact grows pairs [] .nil

theorem Sorted.nodup_keys {d : Dictionary α} (sorted : d.Sorted) : (d.map Prod.fst).Nodup := by
  rw [List.nodup_iff_pairwise_ne, List.pairwise_map]
  exact sorted.imp Std.ne_of_lt

theorem insert_perm {key : String} {d : Dictionary α} (fresh : key ∉ d.map Prod.fst) (value : α) :
    (d.insert key value).Perm ((key, value) :: d) := by
  induction d with
  | nil => exact .refl _
  | cons first rest ih =>
    obtain ⟨k, v⟩ := first
    rw [List.map_cons, List.mem_cons, not_or] at fresh
    rw [Dictionary.insert, if_neg fresh.1]
    split
    · exact .refl _
    · exact ((ih fresh.2).cons _).trans (.swap ..)

theorem foldl_insert_perm (seen : Dictionary α) {pairs : List (String × α)}
    (distinct : ((seen ++ pairs).map Prod.fst).Nodup) :
    (pairs.foldl (fun d m => d.insert m.1 m.2) seen).Perm (seen ++ pairs) := by
  induction pairs generalizing seen with
  | nil => simp
  | cons m pairs ih =>
    obtain ⟨key, a⟩ := m
    have fresh : key ∉ seen.map Prod.fst := by
      rw [List.map_append, List.map_cons] at distinct
      exact fun inside => (List.nodup_append.mp distinct).2.2 key inside key List.mem_cons_self rfl
    have moved : (seen.insert key a ++ pairs).Perm (seen ++ (key, a) :: pairs) :=
      ((insert_perm fresh a).append_right pairs).trans List.perm_middle.symm
    exact (ih _ ((moved.map Prod.fst).nodup_iff.mpr distinct)).trans moved

theorem ofList_of_perm {pairs : List (String × α)} {d : Dictionary α} (sorted : d.Sorted)
    (perm : pairs.Perm d) : ofList pairs = d := by
  have distinct : (pairs.map Prod.fst).Nodup := (perm.map Prod.fst).nodup_iff.mpr sorted.nodup_keys
  have same : (ofList pairs).Perm d := (foldl_insert_perm [] distinct).trans perm
  exact same.eq_of_pairwise
    (fun a b _ _ before behind => absurd before (String.lt_asymm behind)) (sorted_ofList pairs) sorted

theorem ofList_of_sorted {d : Dictionary α} (sorted : d.Sorted) : ofList d = d :=
  ofList_of_perm sorted (.refl d)

end Text.Dictionary

namespace Json

open Text

namespace Reader

variable {α β : Type}

theorem bind_apply (r : Reader β) (k : β → Reader α) (c : Cursor) :
    (r >>= k) c =
      match r c with
      | (.ok b, c) => k b c
      | (.error f, c) => (.error f, c) := by
  change StateT.bind r (ExceptT.bindCont k) c = _
  unfold StateT.bind
  rcases r c with ⟨f | b, c'⟩ <;> rfl

theorem map_apply (r : Reader β) (g : β → α) (c : Cursor) :
    (g <$> r) c =
      match r c with
      | (.ok b, c) => (.ok (g b), c)
      | (.error f, c) => (.error f, c) := by
  change ExceptT.map g r c = _
  unfold ExceptT.map ExceptT.mk
  change StateT.bind r _ c = _
  unfold StateT.bind
  rcases r c with ⟨f | b, c'⟩ <;> rfl

/-- If the fault is a collapse, then for a reason of which `B` holds. -/
def Fault.Within (B : String → Prop) (f : Fault) : Prop :=
  ∀ reason, f.cause = .collapsed reason → B reason

/-- What has been read has the property `P`, or reading has failed within `B`. -/
def Settles (P : α → Prop) (B : String → Prop) : Except Fault α → Prop
  | .ok a => P a
  | .error f => Fault.Within B f

/-- Begun anywhere in `text`, the reader ends in `text`. What it has read has the property `P`, and
it collapses only for reasons of which `B` holds. -/
def Gives (text : Bytes) (r : Reader α) (P : α → Prop) (B : String → Prop) : Prop :=
  ∀ c : Cursor, c.rest <:+ text → (r c).2.rest <:+ text ∧ Settles P B (r c).1

section Rules

variable {text : Bytes} {P : α → Prop} {B : String → Prop}

theorem gives_pure {a : α} (holds : P a) : Gives text (pure a) P B :=
  fun _ inside => ⟨inside, holds⟩

theorem gives_throw {f : Fault} (within : Fault.Within B f) : Gives text (throw f) P B :=
  fun _ inside => ⟨inside, within⟩

theorem gives_fail {cause : Cause} (plain : ∀ reason, cause = .collapsed reason → B reason) :
    Gives text (fail cause) P B :=
  fun _ inside => ⟨inside, plain⟩

theorem gives_failNext {cause : Cause} (plain : ∀ reason, cause = .collapsed reason → B reason) :
    Gives text (failNext cause) P B :=
  fun _ inside => ⟨inside, plain⟩

theorem gives_refuse {cause : Cause} (plain : ∀ reason, cause = .collapsed reason → B reason) :
    Gives text (refuse cause) P B :=
  fun _ inside => ⟨inside, plain⟩

/-- Takes over what was made of the value that has been read. -/
def deliver : Except Cause α → Reader α
  | .ok a => pure a
  | .error cause => refuse cause

theorem gives_deliver {result : Except Cause α} (ok : ∀ a, result = .ok a → P a)
    (collapsed : ∀ reason, result = .error (.collapsed reason) → B reason) :
    Gives text (deliver result) P B := by
  cases result with
  | ok a => exact gives_pure (ok a rfl)
  | error cause => exact gives_refuse fun reason same => collapsed reason (same ▸ rfl)

theorem Gives.bind {r : Reader β} {k : β → Reader α} {Q : β → Prop} (first : Gives text r Q B)
    (next : ∀ b, Q b → Gives text (k b) P B) : Gives text (r >>= k) P B := by
  intro c inside
  obtain ⟨ends, gives⟩ := first c inside
  rw [bind_apply]
  rcases run : r c with ⟨f | b, c'⟩
  · rw [run] at ends gives
    exact ⟨ends, gives⟩
  · rw [run] at ends gives
    exact next b gives c' ends

theorem Gives.onward {b : β} {k : β → Reader α} (goes : Gives text (k b) P B) :
    Gives text (pure b >>= k) P B :=
  goes

theorem Gives.stop {r : Reader β} {k : β → Reader α} (gives : Gives text r (fun _ => False) B) :
    Gives text (r >>= k) P B :=
  gives.bind fun _ => False.elim

theorem Gives.map {r : Reader β} {g : β → α} (gives : Gives text r (fun b => P (g b)) B) :
    Gives text (g <$> r) P B := by
  intro c inside
  obtain ⟨ends, gives⟩ := gives c inside
  rw [map_apply]
  rcases run : r c with ⟨f | b, c'⟩ <;> rw [run] at ends gives <;> exact ⟨ends, gives⟩

theorem Gives.mono {r : Reader α} {Q : α → Prop} (gives : Gives text r Q B)
    (weaker : ∀ a, Q a → P a) : Gives text r P B := by
  intro c inside
  obtain ⟨ends, gives⟩ := gives c inside
  refine ⟨ends, ?_⟩
  rcases run : r c with ⟨f | a, c'⟩
  · rw [run] at gives
    exact gives
  · rw [run] at gives
    exact weaker a gives

theorem Gives.reached {r : Reader α} (gives : Gives text r P B) :
    Gives text r (fun a => ∃ c c', c.rest <:+ text ∧ r c = (.ok a, c')) B := by
  intro c inside
  obtain ⟨ends, gives⟩ := gives c inside
  refine ⟨ends, ?_⟩
  rcases run : r c with ⟨f | a, c'⟩
  · rw [run] at gives
    exact gives
  · exact ⟨c, c', inside, run⟩

theorem Gives.attempt {r : Reader α} (gives : Gives text r P B) :
    Gives text (attempt r) (Settles P B) B :=
  fun c inside => gives c inside

theorem Gives.located {r : Reader α} (gives : Gives text r P B) : Gives text (located r) P B := by
  intro c inside
  obtain ⟨ends, gives⟩ := gives c inside
  unfold Reader.located
  rcases run : r c with ⟨f | a, c'⟩ <;> rw [run] at ends gives <;> exact ⟨ends, gives⟩

theorem gives_cursor : Gives text cursor (fun c => c.rest <:+ text) B :=
  fun _ inside => ⟨inside, inside⟩

theorem gives_jump {c : Cursor} (inside : c.rest <:+ text) :
    Gives text (jump c) (fun _ => True) B :=
  fun _ _ => ⟨inside, trivial⟩

theorem gives_peek : Gives text peek (fun _ => True) B :=
  fun _ inside => ⟨inside, trivial⟩

theorem gives_advance : Gives text advance (fun _ => True) B :=
  fun c inside => ⟨(List.drop_suffix 1 c.rest).trans inside, trivial⟩

theorem skipSpace_suffix (c : Cursor) : c.skipSpace.rest <:+ c.rest := by
  have go (bytes : Bytes) (p : Position) : (Cursor.skipSpace.go bytes p).rest <:+ bytes := by
    induction bytes generalizing p with
    | nil => exact List.suffix_rfl
    | cons b rest ih =>
      rw [Cursor.skipSpace.go]
      split
      · exact (ih _).trans (List.suffix_cons b rest)
      · exact List.suffix_rfl
  exact go c.rest c.position

theorem gives_token : Gives text token (fun _ => True) B :=
  fun c inside => ⟨(skipSpace_suffix c).trans inside, trivial⟩

theorem gives_digits : Gives text digits (fun _ => True) B :=
  fun _ inside => ⟨(List.drop_suffix _ _).trans inside, trivial⟩

end Rules

section Tokens

variable {text : Bytes} {B : String → Prop}

theorem gives_word (cs : List Char) : Gives text (word cs) (fun _ => True) B := by
  induction cs with
  | nil => exact gives_pure trivial
  | cons expected more ih =>
    rw [word]
    refine gives_peek.bind fun found _ => ?_
    rcases found with _ | found
    · exact gives_fail nofun
    · refine gives_advance.bind fun _ _ => ?_
      split
      · exact ih
      · exact gives_fail nofun

/-! ### Numbers -/

theorem gives_finish (negative : Bool) (significand : Nat) (scale : Int) :
    Gives text (finish negative significand scale) (fun _ => True) B := by
  unfold finish
  split
  · exact gives_pure trivial
  · exact gives_fail nofun

theorem gives_exponentPart (negative : Bool) (significand : Nat) (scale : Int) :
    Gives text (exponentPart negative significand scale) (fun _ => True) B := by
  unfold exponentPart
  refine gives_advance.bind fun _ _ => gives_peek.bind fun sign _ => ?_
  extract_lets signed?
  have goes (down : Bool) : Gives text (signed? down) (fun _ => True) B := by
    refine gives_peek.bind fun found _ => ?_
    rcases found with _ | found
    · exact gives_fail nofun
    · dsimp only
      split
      · exact gives_failNext nofun
      · refine gives_cursor.bind fun start inside => gives_digits.bind fun ds _ => ?_
        split
        · exact gives_finish _ _ _
        · split
          · exact (gives_jump ((List.drop_suffix _ _).trans inside)).bind fun _ _ =>
              gives_fail nofun
          · exact gives_pure trivial
  clear_value signed?
  split
  · exact gives_advance.bind fun _ _ => (goes _).onward
  · exact gives_advance.bind fun _ _ => (goes _).onward
  · exact (goes _).onward

theorem gives_fractionPart (negative : Bool) (significand : Nat) (scale : Int) :
    Gives text (fractionPart negative significand scale) (fun _ => True) B := by
  unfold fractionPart
  refine gives_advance.bind fun _ _ => gives_digits.bind fun ds _ => ?_
  extract_lets scaled
  have goes : Gives text (scaled ()) (fun _ => True) B := by
    refine gives_peek.bind fun found _ => ?_
    split
    · exact gives_exponentPart _ _ _
    · exact gives_exponentPart _ _ _
    · exact gives_finish _ _ _
  clear_value scaled
  split
  · refine gives_peek.bind fun found _ => ?_
    rcases found with _ | found
    · exact (gives_fail nofun).stop
    · exact (gives_failNext nofun).stop
  · exact goes.onward

theorem gives_number (negative : Bool) : Gives text (number negative) (fun _ => True) B := by
  unfold number
  refine gives_peek.bind fun first _ => ?_
  rcases first with _ | first
  · exact gives_fail nofun
  dsimp -zeta only
  split
  · exact gives_failNext nofun
  extract_lets valued
  have goes (ds : List Nat) : Gives text (valued ds) (fun _ => True) B := by
    refine gives_peek.bind fun found _ => ?_
    split
    · exact gives_fractionPart _ _ _
    · exact gives_exponentPart _ _ _
    · exact gives_exponentPart _ _ _
    · split
      · exact gives_pure trivial
      · exact gives_finish _ _ _
  clear_value valued
  split
  · refine gives_advance.bind fun _ _ => gives_peek.bind fun next _ => ?_
    rcases next with _ | next
    · exact (goes _).onward
    · dsimp only
      split
      · exact (gives_failNext nofun).stop
      · exact (goes _).onward
  · exact gives_digits.bind fun ds _ => goes ds

/-! ### Strings -/

theorem gives_hexEscape : Gives text hexEscape (fun _ => True) B := by
  unfold hexEscape
  refine gives_cursor.bind fun c inside => ?_
  split
  · next rest eq =>
    have within : rest <:+ text := (List.suffix_append [_, _, _, _] rest).trans (eq ▸ inside)
    refine (gives_jump within).bind fun _ _ => ?_
    split
    · exact gives_pure trivial
    · exact gives_fail nofun
  · exact (gives_jump (List.nil_suffix)).bind fun _ _ => gives_fail nofun

theorem gives_surrogateSign (expected : Char) :
    Gives text (surrogateSign expected) (fun _ => True) B := by
  unfold surrogateSign
  refine gives_peek.bind fun found _ => ?_
  rcases found with _ | found
  · exact gives_fail nofun
  · dsimp only
    split
    · exact gives_advance
    · exact gives_failNext nofun

theorem gives_unicodeEscape : Gives text unicodeEscape (fun _ => True) B := by
  unfold unicodeEscape
  refine gives_hexEscape.bind fun n _ => ?_
  split
  · exact gives_fail nofun
  split
  · exact gives_pure trivial
  refine (gives_surrogateSign _).bind fun _ _ => (gives_surrogateSign _).bind fun _ _ =>
    gives_hexEscape.bind fun low _ => ?_
  split
  · exact gives_fail nofun
  · exact gives_pure trivial

theorem gives_escapedChar : Gives text escapedChar (fun _ => True) B := by
  unfold escapedChar
  refine gives_peek.bind fun found _ => ?_
  rcases found with _ | found
  · exact gives_fail nofun
  · dsimp only
    split
    case h_9 => exact gives_advance.bind fun _ _ => gives_unicodeEscape
    case h_10 => exact gives_failNext nofun
    all_goals exact gives_advance.bind fun _ _ => gives_pure trivial

theorem gives_stringChars (rounds : Nat) (seen : List Char) :
    Gives text (stringChars rounds seen) (fun _ => True) B := by
  induction rounds generalizing seen with
  | zero => exact gives_fail nofun
  | succ rounds ih =>
    rw [stringChars]
    refine gives_cursor.bind fun c inside => ?_
    split
    · exact gives_fail nofun
    · next b rest eq =>
      split
      · exact gives_advance.bind fun _ _ => gives_pure trivial
      split
      · exact gives_advance.bind fun _ _ => gives_escapedChar.bind fun _ _ => ih _
      split
      · exact gives_failNext nofun
      split
      · next char rest' front =>
        have ends : rest' <:+ rest := by
          have := Utf8.front_rest_suffix b rest
          rwa [front] at this
        have within : rest' <:+ text :=
          (ends.trans (List.suffix_cons b rest)).trans (eq ▸ inside)
        exact (gives_jump within).bind fun _ _ => ih _
      · exact gives_failNext nofun

theorem gives_string : Gives text string (fun _ => True) B :=
  gives_cursor.bind fun _ _ => gives_stringChars _ _

/-! ### Structure -/

theorem gives_moreElements (first : Bool) :
    Gives text (moreElements first) (fun _ => True) B := by
  unfold moreElements
  refine gives_token.bind fun found _ => ?_
  split
  · exact gives_failNext nofun
  · exact gives_pure trivial
  split
  · exact gives_pure trivial
  split
  · refine gives_advance.bind fun _ _ => gives_token.bind fun next _ => ?_
    split
    · exact gives_failNext nofun
    · exact gives_pure trivial
    · exact gives_failNext nofun
  · exact gives_failNext nofun

theorem gives_key : Gives text (do advance; some <$> string) (fun _ => True) B :=
  gives_advance.bind fun _ _ => gives_string.map

theorem gives_nextKey? (first : Bool) : Gives text (nextKey? first) (fun _ => True) B := by
  unfold nextKey?
  refine gives_token.bind fun found _ => ?_
  split
  · exact gives_failNext nofun
  · exact gives_pure trivial
  split
  · split
    · exact gives_key
    · exact gives_failNext nofun
  split
  · refine gives_advance.bind fun _ _ => gives_token.bind fun next _ => ?_
    split
    · exact gives_key
    all_goals exact gives_failNext nofun
  · exact gives_failNext nofun

theorem gives_colon : Gives text colon (fun _ => True) B := by
  unfold colon
  refine gives_token.bind fun found _ => ?_
  split
  · exact gives_advance
  all_goals exact gives_failNext nofun

theorem gives_endList : Gives text endList (fun _ => True) B := by
  unfold endList
  refine gives_token.bind fun found _ => ?_
  split
  · exact gives_advance
  · refine gives_advance.bind fun _ _ => gives_token.bind fun next _ => ?_
    split
    all_goals exact gives_failNext nofun
  all_goals exact gives_failNext nofun

theorem gives_endObject : Gives text endObject (fun _ => True) B := by
  unfold endObject
  refine gives_token.bind fun found _ => ?_
  split
  · exact gives_advance
  all_goals exact gives_failNext nofun

theorem gives_endText : Gives text endText (fun _ => True) B := by
  unfold endText
  refine gives_token.bind fun found _ => ?_
  split
  · exact gives_failNext nofun
  · exact gives_pure trivial

theorem gives_enter (room : Nat) : Gives text (enter room) (fun inner => room = inner + 1) B := by
  cases room with
  | zero => exact gives_failNext nofun
  | succ inner => exact gives_advance.bind fun _ _ => gives_pure rfl

theorem gives_wrongType {α : Type} {P : α → Prop} (wanted : String) :
    Gives text (wrongType wanted) P B := by
  refine Gives.located (gives_peek.bind fun found _ => ?_)
  split
  · exact gives_advance.bind fun _ _ => (gives_word _).bind fun _ _ => gives_refuse nofun
  · exact gives_advance.bind fun _ _ => (gives_word _).bind fun _ _ => gives_refuse nofun
  · exact gives_advance.bind fun _ _ => (gives_word _).bind fun _ _ => gives_refuse nofun
  · exact gives_advance.bind fun _ _ => (gives_number _).bind fun _ _ => gives_refuse nofun
  · exact gives_advance.bind fun _ _ => gives_string.bind fun _ _ => gives_refuse nofun
  · exact gives_refuse nofun
  · exact gives_refuse nofun
  · split
    · exact (gives_number _).bind fun _ _ => gives_refuse nofun
    · exact gives_failNext nofun
  · exact gives_failNext nofun

end Tokens

section Brackets

variable {α : Type} {text : Bytes} {P : α → Prop} {B : String → Prop} {r : Reader α}

theorem gives_bracketed {close : Reader Unit} (contents : Gives text r P B)
    (closing : Gives text close (fun _ => True) B) : Gives text (bracketed r close) P B := by
  refine contents.attempt.bind fun got gotten => closing.attempt.bind fun closed shut => ?_
  refine Gives.located ?_
  rcases got with f | a
  · exact gives_throw gotten
  · rcases closed with f | ⟨⟩
    · exact gives_throw shut
    · exact gives_pure gotten

theorem gives_elementRounds (each : Gives text r P B) (rounds : Nat) (first : Bool) :
    Gives text (elementRounds r rounds first) (fun as => ∀ a ∈ as, P a) B := by
  induction rounds generalizing first with
  | zero => exact gives_fail nofun
  | succ rounds ih =>
    rw [elementRounds]
    refine (gives_moreElements first).bind fun more _ => ?_
    split
    · refine each.bind fun a holds => (ih false).bind fun as all => gives_pure ?_
      exact List.forall_mem_cons.mpr ⟨holds, all⟩
    · exact gives_pure nofun

theorem gives_elements (each : Gives text r P B) :
    Gives text (elements r) (fun as => ∀ a ∈ as, P a) B :=
  gives_cursor.bind fun _ _ => gives_elementRounds each _ _

theorem gives_memberRounds (each : Gives text r P B) (rounds : Nat) (first : Bool)
    {seen : Dictionary α} (sorted : seen.Sorted) (all : ∀ m ∈ seen, P m.2) :
    Gives text (memberRounds r rounds first seen)
      (fun d => d.Sorted ∧ ∀ m ∈ d, P m.2) B := by
  induction rounds generalizing first seen with
  | zero => exact gives_fail nofun
  | succ rounds ih =>
    rw [memberRounds]
    refine (gives_nextKey? first).bind fun key _ => ?_
    rcases key with _ | key
    · exact gives_pure ⟨sorted, all⟩
    · refine gives_colon.bind fun _ _ => each.bind fun a holds => ih false (sorted.insert key a) ?_
      exact fun m member => (Dictionary.mem_insert member).elim (fun same => same ▸ holds) (all m)

theorem gives_members (each : Gives text r P B) :
    Gives text (members r) (fun d => d.Sorted ∧ ∀ m ∈ d, P m.2) B :=
  gives_cursor.bind fun _ _ => gives_memberRounds each _ _ .nil nofun

end Brackets

/-! ### Values that nobody wants -/

section Skipping

variable {text : Bytes} {B : String → Prop}

theorem gives_discard {α : Type} {P : α → Prop} {r : Reader α} (gives : Gives text r P B) :
    Gives text (discard r) (fun _ => True) B :=
  Gives.map (gives.mono fun _ _ => trivial)

theorem gives_skipDigit : Gives text skipDigit (fun _ => True) B := by
  unfold skipDigit
  refine gives_peek.bind fun found _ => ?_
  split
  · exact gives_fail nofun
  · refine gives_advance.bind fun _ _ => ?_
    split
    · exact gives_pure trivial
    · exact gives_fail nofun

theorem gives_skipExponent : Gives text skipExponent (fun _ => True) B := by
  unfold skipExponent
  refine gives_advance.bind fun _ _ => gives_peek.bind fun sign _ => ?_
  extract_lets unsigned
  have goes : Gives text (unsigned ()) (fun _ => True) B :=
    (gives_discard gives_skipDigit).bind fun _ _ => gives_discard gives_digits
  clear_value unsigned
  split
  · exact gives_advance.bind fun _ _ => goes
  · exact gives_advance.bind fun _ _ => goes
  · exact goes.onward

theorem gives_skipFraction : Gives text skipFraction (fun _ => True) B := by
  unfold skipFraction
  refine gives_advance.bind fun _ _ => gives_digits.bind fun ds _ => ?_
  extract_lets passed
  have goes : Gives text (passed ()) (fun _ => True) B := by
    refine gives_peek.bind fun found _ => ?_
    split
    · exact gives_skipExponent
    · exact gives_skipExponent
    · exact gives_pure trivial
  clear_value passed
  split
  · exact (gives_failNext nofun).stop
  · exact goes.onward

theorem gives_skipNumber : Gives text skipNumber (fun _ => True) B := by
  unfold skipNumber
  refine gives_skipDigit.bind fun first _ => ?_
  extract_lets passed
  have goes : Gives text (passed ()) (fun _ => True) B := by
    refine gives_peek.bind fun found _ => ?_
    split
    · exact gives_skipFraction
    · exact gives_skipExponent
    · exact gives_skipExponent
    · exact gives_pure trivial
  clear_value passed
  split
  · refine gives_peek.bind fun next _ => ?_
    split
    · split
      · exact (gives_failNext nofun).stop
      · exact goes.onward
    · exact goes.onward
  · exact (gives_discard gives_digits).bind fun _ _ => goes

theorem gives_skipEscape : Gives text skipEscape (fun _ => True) B := by
  unfold skipEscape
  refine gives_peek.bind fun found _ => ?_
  split
  · exact gives_fail nofun
  · exact gives_advance.bind fun _ _ => gives_discard gives_hexEscape
  · refine gives_advance.bind fun _ _ => ?_
    split
    · exact gives_fail nofun
    · exact gives_pure trivial

theorem gives_skipStringRounds (rounds : Nat) :
    Gives text (skipStringRounds rounds) (fun _ => True) B := by
  induction rounds with
  | zero => exact gives_fail nofun
  | succ rounds ih =>
    rw [skipStringRounds]
    refine gives_peek.bind fun found _ => ?_
    split
    · exact gives_fail nofun
    · exact gives_advance
    · exact gives_advance.bind fun _ _ => gives_skipEscape.bind fun _ _ => ih
    · split
      · exact gives_fail nofun
      · exact gives_advance.bind fun _ _ => ih

theorem gives_skipString : Gives text skipString (fun _ => True) B :=
  gives_cursor.bind fun _ _ => gives_skipStringRounds _

theorem gives_skipKey : Gives text skipKey (fun _ => True) B := by
  unfold skipKey
  refine gives_token.bind fun found _ => ?_
  extract_lets passed
  have goes : Gives text (passed ()) (fun _ => True) B :=
    gives_skipString.bind fun _ _ => gives_colon
  clear_value passed
  split
  · exact gives_advance.bind fun _ _ => goes
  all_goals exact (gives_failNext nofun).stop

theorem gives_skipScalar (first : Char) : Gives text (skipScalar first) (fun _ => True) B := by
  unfold skipScalar
  split
  · exact gives_advance.bind fun _ _ => gives_word _
  · exact gives_advance.bind fun _ _ => gives_word _
  · exact gives_advance.bind fun _ _ => gives_word _
  · exact gives_advance.bind fun _ _ => gives_skipNumber
  · exact gives_advance.bind fun _ _ => gives_skipString
  · split
    · exact gives_skipNumber
    · exact gives_failNext nofun

theorem gives_skipRounds (rounds : Nat) (standing : Standing) (outer : List Bracket) :
    Gives text (skipRounds rounds standing outer) (fun _ => True) B := by
  induction rounds generalizing standing outer with
  | zero => exact gives_fail nofun
  | succ rounds ih =>
    have inside (begun : standing = .before → False) (bracket : Bracket) (outer : List Bracket) :
        Gives text (skipRounds (rounds + 1) standing (bracket :: outer)) (fun _ => True) B := by
      rw [skipRounds]
      · refine gives_token.bind fun found _ => ?_
        extract_lets last keyed met
        have ends : Gives text (keyed ()) (fun _ => True) B := by
          dsimp only [keyed, last]
          split
          · exact ih _ _
          · exact gives_skipKey.bind fun _ _ => ih _ _
        clear_value keyed
        have goes (c : Char) : Gives text (met c) (fun _ => True) B := by
          dsimp only [met]
          split
          · exact gives_advance.bind fun _ _ => ih _ _
          split
          · split
            · exact gives_advance.bind fun _ _ => ends
            · exact (gives_failNext (by cases bracket <;> exact nofun)).stop
          · exact ends
        clear_value met
        split
        · exact (gives_failNext (by cases bracket <;> exact nofun)).stop
        · exact (goes _).onward
      · exact begun
    cases standing with
    | before =>
      rw [skipRounds]
      refine gives_token.bind fun found _ => ?_
      split
      · exact gives_failNext nofun
      · exact gives_advance.bind fun _ _ => ih _ _
      · exact gives_advance.bind fun _ _ => ih _ _
      · exact (gives_skipScalar _).bind fun _ _ => ih _ _
    | opened =>
      cases outer with
      | nil => exact gives_pure trivial
      | cons bracket outer => exact inside nofun bracket outer
    | after =>
      cases outer with
      | nil => exact gives_pure trivial
      | cons bracket outer => exact inside nofun bracket outer

theorem gives_skip : Gives text skip (fun _ => True) B :=
  gives_cursor.bind fun _ _ => gives_skipRounds _ _ _

end Skipping

end Reader
end Json
end CloudProvider
