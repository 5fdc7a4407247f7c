import CloudProvider.Archive.Gzip
import CloudProvider.Proofs.DeflateFormat
import Mathlib.Data.List.TakeWhile

/-! Members of gzip files: a head, a deflate stream, and a trailer on what the stream stands for. A source
unpacks just when it begins with a member, whatever comes behind that, and gives the contents of it.
Everything else is spoilt, in one of three places. -/

namespace CloudProvider.Archive.Gzip

def numberBytes : (count n : Nat) → Bytes
  | 0, _ => []
  | count + 1, n => UInt8.ofNat n :: numberBytes count (n / 256)

@[simp] theorem length_numberBytes (count n : Nat) : (numberBytes count n).length = count := by
  induction count generalizing n with
  | zero => rfl
  | succ count ih => rw [numberBytes, List.length_cons, ih]

theorem littleEndian_numberBytes (count n : Nat) :
    littleEndian (numberBytes count n) = n % 256 ^ count := by
  induction count generalizing n with
  | zero => exact (Nat.mod_one n).symm
  | succ count ih =>
    have split : littleEndian (numberBytes (count + 1) n) =
        (UInt8.ofNat n).toNat + 256 * littleEndian (numberBytes count (n / 256)) := rfl
    rw [split, ih, Nat.pow_succ', Nat.mod_mul, UInt8.toNat_ofNat']

theorem numberBytes_littleEndian (bytes : Bytes) : numberBytes bytes.length (littleEndian bytes) = bytes := by
  induction bytes with
  | nil => rfl
  | cons b bytes ih =>
    have split : littleEndian (b :: bytes) = b.toNat + 256 * littleEndian bytes := rfl
    have low : UInt8.ofNat (littleEndian (b :: bytes)) = b := by
      rw [split, ← UInt8.toNat_inj, UInt8.toNat_ofNat']
      have small := b.toNat_lt
      omega
    have high : littleEndian (b :: bytes) / 256 = littleEndian bytes := by
      rw [split]
      have small := b.toNat_lt
      omega
    rw [List.length_cons, numberBytes, low, high, ih]

theorem littleEndian_lt (bytes : Bytes) : littleEndian bytes < 256 ^ bytes.length := by
  rw [← numberBytes_littleEndian bytes, littleEndian_numberBytes, length_numberBytes]
  exact Nat.mod_lt _ (Nat.pow_pos (Nat.zero_lt_succ _))

theorem eq_numberBytes_iff {bytes : Bytes} {count n : Nat} :
    bytes = numberBytes count n ↔ bytes.length = count ∧ littleEndian bytes = n % 256 ^ count := by
  constructor
  · rintro rfl
    exact ⟨length_numberBytes .., littleEndian_numberBytes count n⟩
  · rintro ⟨rfl, same⟩
    rw [← littleEndian_numberBytes] at same
    calc bytes = numberBytes bytes.length (littleEndian bytes) := (numberBytes_littleEndian bytes).symm
      _ = numberBytes bytes.length (littleEndian (numberBytes bytes.length n)) := by rw [same]
      _ = numberBytes bytes.length n := by
        have back := numberBytes_littleEndian (numberBytes bytes.length n)
        rwa [length_numberBytes] at back

/-! Heads -/

def flagsOf (text checked extra name comment : Bool) : Nat :=
  text.toNat + 2 * checked.toNat + 4 * extra.toNat + 8 * name.toNat + 16 * comment.toNat

theorem flagsOf_lt : ∀ text checked extra name comment, flagsOf text checked extra name comment < 32 := by
  decide

theorem testBit_flagsOf : ∀ text checked extra name comment,
    let flags := flagsOf text checked extra name comment
    flags.testBit 1 = checked ∧ flags.testBit 2 = extra ∧ flags.testBit 3 = name ∧
      flags.testBit 4 = comment := by
  decide

theorem eq_flagsOf : ∀ n < 32,
    n = flagsOf (n.testBit 0) (n.testBit 1) (n.testBit 2) (n.testBit 3) (n.testBit 4) := by
  decide

/-- What a head says. Nothing but the extra bytes, the texts and the checksum is of variable length. -/
structure Head where
  isText : Bool
  details : Bytes
  extra : Option Bytes
  name : Option Bytes
  comment : Option Bytes
  isChecked : Bool
  six : details.length = 6
  extra_short : ∀ b ∈ extra, b.length < 65536
  name_plain : ∀ t ∈ name, 0 ∉ t
  comment_plain : ∀ t ∈ comment, 0 ∉ t

namespace Head

variable (h : Head)

def flags : Nat :=
  flagsOf h.isText h.isChecked h.extra.isSome h.name.isSome h.comment.isSome

theorem toNat_flags : (UInt8.ofNat h.flags).toNat = h.flags :=
  UInt8.toNat_ofNat_of_lt' (Nat.lt_trans (flagsOf_lt ..) (by decide))

def fixed : Bytes :=
  [0x1F, 0x8B, 8, UInt8.ofNat h.flags] ++ h.details

def extraPart : Option Bytes → Bytes
  | none => []
  | some b => numberBytes 2 b.length ++ b

def textPart : Option Bytes → Bytes
  | none => []
  | some t => t ++ [0]

def unchecked : Bytes :=
  h.fixed ++ extraPart h.extra ++ textPart h.name ++ textPart h.comment

def checkPart : Bytes :=
  if h.isChecked then numberBytes 2 (crc32 h.unchecked).toNat else []

def bytes : Bytes :=
  h.unchecked ++ h.checkPart

/-- The texts are not longer than a reader puts up with. -/
structure Short : Prop where
  name : ∀ t ∈ h.name, t.length ≤ textLimit
  comment : ∀ t ∈ h.comment, t.length ≤ textLimit

end Head

/-! Reading -/

/-- A part of a header is read just where it stands. -/
def Takes (r : HeaderReader Bytes) (P : Bytes → Prop) : Prop :=
  ∀ input part rest, r input = .ok (part, rest) ↔ P part ∧ input = part ++ rest

theorem bind_apply {α β : Type} (r : HeaderReader α) (f : α → HeaderReader β) (input : Bytes) :
    (r >>= f) input =
      match r input with
      | .ok (a, rest) => f a rest
      | .error e => .error e := by
  change Except.bind (r input) _ = _
  rcases r input with e | ⟨a, rest⟩ <;> rfl

theorem bind_of_ok {α β : Type} {r : HeaderReader α} {f : α → HeaderReader β} {input mid : Bytes} {a : α}
    (ran : r input = .ok (a, mid)) : (r >>= f) input = f a mid := by
  rw [bind_apply, ran]

theorem bind_of_error {α β : Type} {r : HeaderReader α} {f : α → HeaderReader β} {input : Bytes} {e : Fault}
    (failed : r input = .error e) : (r >>= f) input = .error e := by
  rw [bind_apply, failed]

theorem bind_eq_ok_iff {α β : Type} {r : HeaderReader α} {f : α → HeaderReader β} {input rest : Bytes}
    {b : β} :
    (r >>= f) input = .ok (b, rest) ↔ ∃ a mid, r input = .ok (a, mid) ∧ f a mid = .ok (b, rest) := by
  rw [bind_apply]
  rcases r input with e | ⟨a, mid⟩
  · simp
  · simp

theorem takes_takeMany (n : Nat) : Takes (takeMany n) (·.length = n) := by
  intro input part rest
  unfold takeMany
  split
  · next enough =>
    constructor
    · intro same
      obtain ⟨rfl, rfl⟩ := Prod.mk.inj (Except.ok.inj same)
      exact ⟨List.length_take_of_le enough, (List.take_append_drop ..).symm⟩
    · rintro ⟨rfl, rfl⟩
      rw [List.take_left, List.drop_left]
  · next short =>
    refine ⟨nofun, ?_⟩
    rintro ⟨rfl, rfl⟩
    simp at short

theorem takeWhile_append_zero {text rest : Bytes} (plain : 0 ∉ text) :
    (text ++ 0 :: rest).takeWhile (· ≠ 0) = text := by
  have each : ∀ b ∈ text, decide (b ≠ 0) = true := by
    intro b mem
    rw [decide_eq_true_iff]
    rintro rfl
    exact plain mem
  rw [List.takeWhile_append_of_pos each]
  simp

theorem run_takeText (text rest : Bytes) (plain : 0 ∉ text) :
    takeText (text ++ 0 :: rest) =
      if text.length ≤ textLimit then .ok (text, rest) else .error .headerFieldTooLong := by
  unfold takeText
  dsimp only
  rw [takeWhile_append_zero plain]
  rcases Nat.lt_or_ge textLimit text.length with long | short
  · rw [if_pos long, if_neg (Nat.not_le.mpr long)]
  · have behind : (text ++ 0 :: rest).drop (text.length + 1) = rest := by
      rw [List.append_cons, List.drop_left' (by simp)]
    rw [if_neg (Nat.not_lt.mpr short), if_pos short, if_neg (by simp), behind]

theorem takeText_of_not_mem {input : Bytes} (endless : 0 ∉ input) : ∃ e, takeText input = .error e := by
  have whole : input.takeWhile (· ≠ 0) = input := by
    refine List.takeWhile_eq_self_iff.mpr fun b mem => ?_
    rw [decide_eq_true_iff]
    rintro rfl
    exact endless mem
  unfold takeText
  dsimp only
  rw [whole]
  split
  · exact ⟨_, rfl⟩
  · rw [if_pos rfl]
    exact ⟨_, rfl⟩

theorem takes_takeLine :
    Takes takeLine fun part => ∃ text, 0 ∉ text ∧ text.length ≤ textLimit ∧ part = text ++ [0] := by
  intro input part rest
  unfold takeLine
  rw [bind_eq_ok_iff]
  constructor
  · rintro ⟨text, mid, took, ended⟩
    obtain ⟨rfl, rfl⟩ := Prod.mk.inj (Except.ok.inj ended)
    by_cases ends : 0 ∈ input
    · obtain ⟨text', rest, rfl, plain⟩ := List.eq_append_cons_of_mem ends
      rw [run_takeText text' rest plain] at took
      split at took
      · next short =>
        obtain ⟨rfl, rfl⟩ := Prod.mk.inj (Except.ok.inj took)
        exact ⟨⟨text', plain, short, rfl⟩, by simp⟩
      · cases took
    · obtain ⟨e, failed⟩ := takeText_of_not_mem ends
      rw [failed] at took
      cases took
  · rintro ⟨⟨text, plain, short, rfl⟩, rfl⟩
    refine ⟨text, rest, ?_, rfl⟩
    rw [List.append_assoc, List.singleton_append, run_takeText text rest plain, if_pos short]

theorem takes_takeExtra :
    Takes takeExtra fun part => ∃ b : Bytes, b.length < 65536 ∧ part = numberBytes 2 b.length ++ b := by
  intro input part rest
  unfold takeExtra
  rw [bind_eq_ok_iff]
  simp only [bind_eq_ok_iff]
  constructor
  · rintro ⟨size, _, sized, b, _, taken, ended⟩
    obtain ⟨rfl, rfl⟩ := Prod.mk.inj (Except.ok.inj ended)
    obtain ⟨two, rfl⟩ := (takes_takeMany 2 ..).mp sized
    obtain ⟨long, rfl⟩ := (takes_takeMany _ ..).mp taken
    have spelled := numberBytes_littleEndian size
    rw [two, ← long] at spelled
    refine ⟨⟨b, ?_, by rw [spelled]⟩, (List.append_assoc ..).symm⟩
    have fits := littleEndian_lt size
    rw [two] at fits
    omega
  · rintro ⟨⟨b, short, rfl⟩, rfl⟩
    have told : b.length = littleEndian (numberBytes 2 b.length) := by
      rw [littleEndian_numberBytes, Nat.mod_eq_of_lt short]
    exact ⟨_, _, (takes_takeMany 2 ..).mpr ⟨length_numberBytes .., List.append_assoc ..⟩, b, rest,
      (takes_takeMany _ ..).mpr ⟨told, rfl⟩, rfl⟩

theorem takes_ite {r : HeaderReader Bytes} {P : Bytes → Prop} (takes : Takes r P) {C : Bytes → Prop}
    [DecidablePred C] (e : Fault) :
    Takes (do
      let part ← r
      if C part then return part else fault e) fun part => P part ∧ C part := by
  intro input part rest
  rw [bind_eq_ok_iff]
  constructor
  · rintro ⟨part', mid, took, ended⟩
    obtain ⟨good, rfl⟩ := (takes ..).mp took
    split at ended
    · next holds =>
      obtain ⟨rfl, rfl⟩ := Prod.mk.inj (Except.ok.inj ended)
      exact ⟨⟨good, holds⟩, rfl⟩
    · cases ended
  · rintro ⟨⟨good, holds⟩, rfl⟩
    refine ⟨part, rest, (takes ..).mpr ⟨good, rfl⟩, ?_⟩
    rw [if_pos holds]
    rfl

theorem takes_takeCheck (before : Bytes) :
    Takes (takeCheck before) (· = numberBytes 2 (crc32 before).toNat) := by
  intro input part rest
  dsimp only
  rw [eq_numberBytes_iff]
  exact takes_ite (takes_takeMany 2) .gzipMismatch input part rest

theorem takes_takeFixed : Takes takeFixed fun part =>
    part.length = 10 ∧ part.take 3 = [0x1F, 0x8B, 8] ∧ (part.getD 3 0).toNat < 32 :=
  takes_ite (takes_takeMany 10) .invalidGzipHeader

theorem takes_unlessSet {r : HeaderReader Bytes} {P : Bytes → Prop} (takes : Takes r P) (flags bit : Nat) :
    Takes (unlessSet flags bit r) fun part => if flags.testBit bit then P part else part = [] := by
  intro input part rest
  unfold unlessSet
  split
  · exact takes input part rest
  · constructor
    · intro same
      obtain ⟨rfl, rfl⟩ := Prod.mk.inj (Except.ok.inj same)
      exact ⟨rfl, rfl⟩
    · rintro ⟨rfl, rfl⟩
      rfl

theorem line_iff (there : Bool) (part : Bytes) :
    (if there then ∃ text, 0 ∉ text ∧ text.length ≤ textLimit ∧ part = text ++ [0] else part = []) ↔
      ∃ o : Option Bytes, o.isSome = there ∧ (∀ t ∈ o, 0 ∉ t) ∧ (∀ t ∈ o, t.length ≤ textLimit) ∧
        part = Head.textPart o := by
  constructor
  · split
    · next yes =>
      rintro ⟨text, plain, short, rfl⟩
      exact ⟨some text, yes.symm, by simpa using plain, by simpa using short, rfl⟩
    · next no =>
      rintro rfl
      exact ⟨none, by simpa using no, by simp, by simp, rfl⟩
  · rintro ⟨_ | text, rfl, plain, short, rfl⟩
    · simp [Head.textPart]
    · exact ⟨text, plain text rfl, short text rfl, rfl⟩

theorem extra_iff (there : Bool) (part : Bytes) :
    (if there then ∃ b : Bytes, b.length < 65536 ∧ part = numberBytes 2 b.length ++ b else part = []) ↔
      ∃ o : Option Bytes, o.isSome = there ∧ (∀ b ∈ o, b.length < 65536) ∧ part = Head.extraPart o := by
  constructor
  · split
    · next yes =>
      rintro ⟨b, short, rfl⟩
      exact ⟨some b, yes.symm, by simpa using short, rfl⟩
    · next no =>
      rintro rfl
      exact ⟨none, by simpa using no, by simp, rfl⟩
  · rintro ⟨_ | b, rfl, short, rfl⟩
    · simp [Head.extraPart]
    · exact ⟨b, short b rfl, rfl⟩

theorem fixed_iff (fixed : Bytes) :
    (fixed.length = 10 ∧ fixed.take 3 = [0x1F, 0x8B, 8] ∧ (fixed.getD 3 0).toNat < 32) ↔
      ∃ (b : UInt8) (details : Bytes), details.length = 6 ∧ b.toNat < 32 ∧
        fixed = [0x1F, 0x8B, 8, b] ++ details := by
  constructor
  · rintro ⟨long, magic, known⟩
    match fixed, long with
    | b₀ :: b₁ :: b₂ :: b :: details, long =>
      obtain ⟨rfl, rfl, rfl⟩ : b₀ = 0x1F ∧ b₁ = 0x8B ∧ b₂ = 8 := by simpa using magic
      exact ⟨b, details, by simpa using long, known, rfl⟩
  · rintro ⟨b, details, six, known, rfl⟩
    exact ⟨by simp [six], rfl, known⟩

theorem header_eq_ok_iff {input rest : Bytes} :
    header input = .ok ((), rest) ↔ ∃ h : Head, h.Short ∧ input = h.bytes ++ rest := by
  unfold header
  simp only [bind_eq_ok_iff, takes_takeFixed _ _ _, takes_unlessSet takes_takeExtra _ _ _ _ _,
    takes_unlessSet takes_takeLine _ _ _ _ _, takes_unlessSet (takes_takeCheck _) _ _ _ _ _, line_iff,
    extra_iff, fixed_iff]
  constructor
  · rintro ⟨_, _, ⟨⟨b, details, six, known, rfl⟩, rfl⟩, _, _, ⟨⟨extra, there, short, rfl⟩, rfl⟩, _, _,
      ⟨⟨name, there', plain, short', rfl⟩, rfl⟩, _, _, ⟨⟨comment, there'', plain', short'', rfl⟩, rfl⟩,
      check, _, ⟨checked, rfl⟩, ended⟩
    obtain ⟨-, rfl⟩ := Prod.mk.inj (Except.ok.inj ended)
    have flag : ([0x1F, 0x8B, 8, b] ++ details).getD 3 0 = b := rfl
    rw [flag] at there there' there'' checked
    -- Flags are not free: each tells whether a part is there, and the parts have been taken accordingly.
    let h : Head :=
      ⟨b.toNat.testBit 0, details, extra, name, comment, b.toNat.testBit 1, six, short, plain, plain'⟩
    have flags : h.flags = b.toNat := by
      have spelled := eq_flagsOf b.toNat known
      rw [← there, ← there', ← there''] at spelled
      exact spelled.symm
    have fixed : h.fixed = [0x1F, 0x8B, 8, b] ++ details := by
      rw [Head.fixed, flags, UInt8.ofNat_toNat]
    have unchecked : [0x1F, 0x8B, 8, b] ++ details ++ Head.extraPart extra ++ Head.textPart name ++
        Head.textPart comment = h.unchecked := by
      rw [Head.unchecked, fixed]
    have sum : check = h.checkPart := by
      rw [unchecked] at checked
      rw [Head.checkPart]
      split
      · next yes => rwa [if_pos yes] at checked
      · next no => rwa [if_neg no] at checked
    refine ⟨h, ⟨short', short''⟩, ?_⟩
    rw [Head.bytes, ← unchecked, sum]
    simp only [List.append_assoc]
  · rintro ⟨h, short, rfl⟩
    obtain ⟨checked, extra, name, comment⟩ := testBit_flagsOf h.isText h.isChecked h.extra.isSome
      h.name.isSome h.comment.isSome
    have flag : (h.fixed.getD 3 0).toNat = h.flags := h.toNat_flags
    have parted : h.bytes ++ rest = h.fixed ++ (Head.extraPart h.extra ++ (Head.textPart h.name ++
        (Head.textPart h.comment ++ (h.checkPart ++ rest)))) := by
      simp only [Head.bytes, Head.unchecked, List.append_assoc]
    rw [parted]
    refine ⟨h.fixed, _, ⟨⟨_, h.details, h.six, ?_, rfl⟩, rfl⟩, _, _, ⟨⟨h.extra, ?_, h.extra_short, rfl⟩, rfl⟩,
      _, _, ⟨⟨h.name, ?_, h.name_plain, short.name, rfl⟩, rfl⟩, _, _,
      ⟨⟨h.comment, ?_, h.comment_plain, short.comment, rfl⟩, rfl⟩, h.checkPart, rest, ⟨?_, rfl⟩, rfl⟩
    · rw [h.toNat_flags]
      exact flagsOf_lt ..
    · rw [flag]
      exact extra.symm
    · rw [flag]
      exact name.symm
    · rw [flag]
      exact comment.symm
    · rw [flag, Head.flags, checked, Head.checkPart]
      split <;> rfl

theorem takeLine_of_long {text : Bytes} (plain : 0 ∉ text) (long : textLimit < text.length) (rest : Bytes) :
    takeLine (Head.textPart (some text) ++ rest) = .error .headerFieldTooLong := by
  refine bind_of_error ?_
  rw [Head.textPart, List.append_assoc, List.singleton_append, run_takeText text rest plain,
    if_neg (Nat.not_le.mpr long)]

theorem unlessSet_of_long {o : Option Bytes} {flags bit : Nat} (there : flags.testBit bit = o.isSome)
    (plain : ∀ t ∈ o, 0 ∉ t) (long : ¬ ∀ t ∈ o, t.length ≤ textLimit) (rest : Bytes) :
    unlessSet flags bit takeLine (Head.textPart o ++ rest) = .error .headerFieldTooLong := by
  cases o with
  | none => exact absurd (by simp) long
  | some text =>
    have set : flags.testBit bit = true := there
    rw [unlessSet, if_pos set]
    exact takeLine_of_long (plain text rfl) (Nat.not_le.mp fun short => long (by simpa using short)) rest

theorem header_of_not_short {h : Head} (long : ¬ h.Short) (rest : Bytes) :
    header (h.bytes ++ rest) = .error .headerFieldTooLong := by
  obtain ⟨-, extra, name, comment⟩ := testBit_flagsOf h.isText h.isChecked h.extra.isSome h.name.isSome
    h.comment.isSome
  have flag : (h.fixed.getD 3 0).toNat = h.flags := h.toNat_flags
  have parted : h.bytes ++ rest = h.fixed ++ (Head.extraPart h.extra ++ (Head.textPart h.name ++
      (Head.textPart h.comment ++ (h.checkPart ++ rest)))) := by
    simp only [Head.bytes, Head.unchecked, List.append_assoc]
  have first (more : Bytes) : takeFixed (h.fixed ++ more) = .ok (h.fixed, more) := by
    refine (takes_takeFixed ..).mpr ⟨(fixed_iff _).mpr ⟨_, h.details, h.six, ?_, rfl⟩, rfl⟩
    rw [h.toNat_flags]
    exact flagsOf_lt ..
  have second (more : Bytes) :
      unlessSet h.flags 2 takeExtra (Head.extraPart h.extra ++ more) = .ok (_, more) :=
    (takes_unlessSet takes_takeExtra ..).mpr ⟨(extra_iff ..).mpr ⟨_, extra.symm, h.extra_short, rfl⟩, rfl⟩
  rw [parted, header, bind_of_ok (first _), flag, bind_of_ok (second _)]
  -- The comment is looked at only behind a name that is short enough.
  by_cases short : ∀ t ∈ h.name, t.length ≤ textLimit
  · have third (more : Bytes) : unlessSet h.flags 3 takeLine (Head.textPart h.name ++ more) = .ok (_, more) :=
      (takes_unlessSet takes_takeLine ..).mpr
        ⟨(line_iff ..).mpr ⟨_, name.symm, h.name_plain, short, rfl⟩, rfl⟩
    rw [bind_of_ok (third _)]
    exact bind_of_error (unlessSet_of_long comment h.comment_plain (fun short' => long ⟨short, short'⟩) _)
  · exact bind_of_error (unlessSet_of_long name h.name_plain short _)

/-! Members -/

def trailer (contents : Bytes) : Bytes :=
  numberBytes 4 (crc32 contents).toNat ++ numberBytes 4 contents.length

theorem checkTrailer_eq_none_iff {output : Bytes} {rest : Source} :
    checkTrailer output rest = none ↔ trailer output <+: rest.bytes := by
  have sum : (crc32 output).toNat % 256 ^ 4 = (crc32 output).toNat :=
    Nat.mod_eq_of_lt (crc32 output).toNat_lt
  constructor
  · intro fine
    unfold checkTrailer at fine
    split at fine
    · cases fine
    next enough =>
    split at fine
    · cases fine
    next first =>
    split at fine
    · cases fine
    next second =>
    have low : rest.bytes.take 4 = numberBytes 4 (crc32 output).toNat :=
      eq_numberBytes_iff.mpr ⟨by rw [List.length_take]; omega, by rw [sum]; exact not_not.mp first⟩
    have high : (rest.bytes.drop 4).take 4 = numberBytes 4 output.length :=
      eq_numberBytes_iff.mpr ⟨by rw [List.length_take, List.length_drop]; omega, not_not.mp second⟩
    refine ⟨(rest.bytes.drop 4).drop 4, ?_⟩
    rw [trailer, ← low, ← high, List.append_assoc, List.take_append_drop, List.take_append_drop]
  · rintro ⟨more, front⟩
    have low : rest.bytes.take 4 = numberBytes 4 (crc32 output).toNat := by
      rw [← front, trailer, List.append_assoc, List.take_left' (length_numberBytes ..)]
    have high : (rest.bytes.drop 4).take 4 = numberBytes 4 output.length := by
      rw [← front, trailer, List.append_assoc, List.drop_left' (length_numberBytes ..),
        List.take_left' (length_numberBytes ..)]
    have long : ¬ rest.bytes.length < 8 := by
      rw [← front]
      simp [trailer]
      omega
    rw [checkTrailer, if_neg long, low, high, littleEndian_numberBytes, littleEndian_numberBytes, sum,
      if_neg (not_not.mpr rfl), if_neg (not_not.mpr rfl)]

/-- A member of a gzip file. -/
structure Member where
  head : Head
  data : Bytes
  contents : Bytes
  deflated : Deflated data contents

def Member.bytes (m : Member) : Bytes :=
  m.head.bytes ++ m.data ++ trailer m.contents

/-- The bytes begin with this member, which a reader puts up with. -/
structure Member.Begins (m : Member) (bytes : Bytes) : Prop where
  short : m.head.Short
  front : m.bytes <+: bytes

theorem Member.length_bytes (m : Member) : m.bytes.length = m.head.bytes.length + m.data.length + 8 := by
  simp only [Member.bytes, trailer, List.length_append, length_numberBytes]

theorem Member.begins_self {m : Member} (short : m.head.Short) : m.Begins m.bytes :=
  ⟨short, List.prefix_rfl⟩

theorem unpack_of_header_error {s : Source} {e : Fault} (failed : header s.bytes = .error e) :
    ∃ fault, unpack s = .broken fault := by
  rw [unpack, failed]
  cases e <;> exact ⟨_, rfl⟩

theorem contents_unpack_eq_ok_iff {s : Source} {contents : Bytes} :
    (unpack s).contents = .ok contents ↔ ∃ m : Member, m.Begins s.bytes ∧ m.contents = contents := by
  constructor
  · intro unpacked
    rcases headed : header s.bytes with e | ⟨⟨⟩, body⟩
    · obtain ⟨fault, broken⟩ := unpack_of_header_error headed
      rw [broken] at unpacked
      cases unpacked
    · obtain ⟨h, short, front⟩ := header_eq_ok_iff.mp headed
      rw [unpack, headed] at unpacked
      dsimp only at unpacked
      rcases inflated : inflate (s.bytes.length - body.length) body with ⟨output, ⟨_ | _⟩ | rest⟩
      · rw [inflated] at unpacked
        cases unpacked
      · rw [inflated] at unpacked
        cases unpacked
      · rw [inflated] at unpacked
        dsimp only at unpacked
        obtain ⟨data, rfl, deflated⟩ := inflate_eq_ok_iff.mp inflated
        rcases checked : checkTrailer output ⟨rest, s.ending⟩ with _ | fault
        · rw [checked] at unpacked
          obtain rfl := Except.ok.inj unpacked
          obtain ⟨more, behind⟩ := checkTrailer_eq_none_iff.mp checked
          have whole : trailer output ++ more = rest := behind
          refine ⟨⟨h, data, output, deflated⟩, ⟨short, more, ?_⟩, rfl⟩
          rw [front, ← whole, Member.bytes]
          simp only [List.append_assoc]
        · rw [checked] at unpacked
          cases unpacked
  · rintro ⟨m, ⟨short, more, front⟩, rfl⟩
    have headed : header s.bytes = .ok ((), m.data ++ (trailer m.contents ++ more)) := by
      refine header_eq_ok_iff.mpr ⟨m.head, short, ?_⟩
      rw [← front, Member.bytes]
      simp only [List.append_assoc]
    rw [unpack, headed]
    dsimp only
    rw [inflate_eq_ok_iff.mpr ⟨m.data, rfl, m.deflated⟩]
    dsimp only
    rw [checkTrailer_eq_none_iff.mpr ⟨more, rfl⟩]
    rfl

/-! What is no member -/

theorem Head.unique {h h' : Head} (short : h.Short) (short' : h'.Short) {rest rest' : Bytes}
    (same : h.bytes ++ rest = h'.bytes ++ rest') : h.bytes = h'.bytes ∧ rest = rest' := by
  have read : header (h.bytes ++ rest) = .ok ((), rest) := header_eq_ok_iff.mpr ⟨h, short, rfl⟩
  have read' : header (h.bytes ++ rest) = .ok ((), rest') := header_eq_ok_iff.mpr ⟨h', short', same⟩
  obtain rfl := (Prod.mk.inj (Except.ok.inj (read.symm.trans read'))).2
  exact ⟨List.append_cancel_right same, rfl⟩

theorem deflated_unique {data data' contents contents' rest rest' : Bytes} (deflated : Deflated data contents)
    (deflated' : Deflated data' contents') (same : data ++ rest = data' ++ rest') :
    data = data' ∧ contents = contents' ∧ rest = rest' := by
  have read : inflate 0 (data ++ rest) = _ := inflate_eq_ok_iff.mpr ⟨data, rfl, deflated⟩
  have read' : inflate 0 (data ++ rest) = _ := inflate_eq_ok_iff.mpr ⟨data', same, deflated'⟩
  obtain ⟨rfl, left⟩ := Inflated.mk.inj (read.symm.trans read')
  obtain rfl := Except.ok.inj left
  exact ⟨List.append_cancel_right same, rfl, rfl⟩

namespace Member

variable {m m' : Member} {bytes : Bytes}

theorem Begins.bytes_unique (begins : m.Begins bytes) (begins' : m'.Begins bytes) : m.bytes = m'.bytes := by
  obtain ⟨rest, front⟩ := begins.front
  obtain ⟨rest', front'⟩ := begins'.front
  have same := front.trans front'.symm
  simp only [Member.bytes, List.append_assoc] at same
  obtain ⟨heads, same⟩ := Head.unique begins.short begins'.short same
  obtain ⟨datas, contents, -⟩ := deflated_unique m.deflated m'.deflated same
  rw [Member.bytes, Member.bytes, heads, datas, contents]

end Member

/-- How bytes fail to begin with a member. -/
inductive Spoilt (bytes : Bytes) : Prop
  | head (none : ∀ h : Head, h.Short → ¬ h.bytes <+: bytes)
  | data {h : Head} {rest : Bytes} (short : h.Short) (front : bytes = h.bytes ++ rest)
      (none : ∀ data contents, Deflated data contents → ¬ data <+: rest)
  | trailer {h : Head} {data contents rest : Bytes} (short : h.Short)
      (front : bytes = h.bytes ++ (data ++ rest)) (deflated : Deflated data contents)
      (wrong : ¬ trailer contents <+: rest)

theorem spoilt_iff {bytes : Bytes} : Spoilt bytes ↔ ∀ m : Member, ¬ m.Begins bytes := by
  constructor
  · rintro spoilt m ⟨short, more, rfl⟩
    have parted : m.bytes ++ more = m.head.bytes ++ (m.data ++ (Gzip.trailer m.contents ++ more)) := by
      simp only [Member.bytes, List.append_assoc]
    rw [parted] at spoilt
    rcases spoilt with none | ⟨short', front, none⟩ | ⟨short', front, deflated, wrong⟩
    · exact none m.head short (List.prefix_append ..)
    · obtain ⟨-, rfl⟩ := Head.unique short short' front
      exact none _ _ m.deflated (List.prefix_append ..)
    · obtain ⟨-, behind⟩ := Head.unique short short' front
      obtain ⟨-, rfl, rfl⟩ := deflated_unique m.deflated deflated behind
      exact wrong (List.prefix_append ..)
  · intro none
    by_cases headed : ∃ h : Head, h.Short ∧ h.bytes <+: bytes
    · obtain ⟨h, short, rest, rfl⟩ := headed
      by_cases streamed : ∃ data contents, Deflated data contents ∧ data <+: rest
      · obtain ⟨data, contents, deflated, rest, rfl⟩ := streamed
        refine .trailer short rfl deflated ?_
        rintro ⟨more, rfl⟩
        exact none ⟨h, data, contents, deflated⟩ ⟨short, more, by simp only [Member.bytes, List.append_assoc]⟩
      · exact .data short rfl fun data contents deflated front => streamed ⟨data, contents, deflated, front⟩
    · exact .head fun h short front => headed ⟨h, short, front⟩

theorem contents_unpack_eq_error_iff {s : Source} :
    (∃ fault, (unpack s).contents = .error fault) ↔ Spoilt s.bytes := by
  rw [spoilt_iff]
  constructor
  · rintro ⟨fault, failed⟩ m begins
    rw [contents_unpack_eq_ok_iff.mpr ⟨m, begins, rfl⟩] at failed
    cases failed
  · intro none
    rcases unpacked : (unpack s).contents with fault | contents
    · exact ⟨fault, rfl⟩
    · obtain ⟨m, begins, -⟩ := contents_unpack_eq_ok_iff.mp unpacked
      exact absurd begins (none m)

theorem spoilt_of_not_short {m : Member} (long : ¬ m.head.Short) (more : Bytes) :
    Spoilt (m.bytes ++ more) := by
  refine spoilt_iff.mpr fun m' begins => ?_
  obtain ⟨rest, front⟩ := begins.front
  simp only [Member.bytes, List.append_assoc] at front
  have read := header_eq_ok_iff.mpr ⟨m'.head, begins.short, front.symm⟩
  rw [header_of_not_short long] at read
  cases read

theorem Member.begins_of_not_spoilt {m : Member} {more : Bytes} (fine : ¬ Spoilt (m.bytes ++ more)) :
    m.Begins (m.bytes ++ more) :=
  ⟨not_not.mp fun long => fine (spoilt_of_not_short long more), List.prefix_append ..⟩

theorem spoilt_take (m : Member) {n : Nat} (cut : n < m.bytes.length) : Spoilt (m.bytes.take n) := by
  by_cases short : m.head.Short
  · refine spoilt_iff.mpr fun m' begins => ?_
    -- What begins the part begins the whole, where there is room for one member only.
    have whole : m'.Begins m.bytes := ⟨begins.short, begins.front.trans (List.take_prefix ..)⟩
    have same := whole.bytes_unique (Member.begins_self short)
    have shorter := begins.front.length_le
    rw [same, List.length_take] at shorter
    omega
  · refine spoilt_iff.mpr fun m' begins => ?_
    have spoilt := spoilt_of_not_short short []
    rw [List.append_nil] at spoilt
    exact spoilt_iff.mp spoilt m' ⟨begins.short, begins.front.trans (List.take_prefix ..)⟩

/-! Members that hold their contents as they are -/

theorem lowFirst_flatMap_bitsOf (bytes : Bytes) :
    Inflate.lowFirst (bytes.flatMap Inflate.bitsOf) = littleEndian bytes := by
  induction bytes with
  | nil => rfl
  | cons b bytes ih =>
    have split : littleEndian (b :: bytes) = b.toNat + 256 * littleEndian bytes := rfl
    rw [List.flatMap_cons, Inflate.lowFirst_append, ih, Inflate.lowFirst_bitsOf, Inflate.length_bitsOf, split]

theorem numeral_numberBytes {count n : Nat} (fits : n < 256 ^ count) :
    Inflate.Numeral (8 * count) n ((numberBytes count n).flatMap Inflate.bitsOf) := by
  refine ⟨?_, ?_⟩
  · rw [Inflate.length_flatMap_bitsOf, length_numberBytes]
  · rw [lowFirst_flatMap_bitsOf, littleEndian_numberBytes, Nat.mod_eq_of_lt fits]

def storedBlock (final : Bool) (bytes : Bytes) : Bytes :=
  (if final then 1 else 0) ::
    (numberBytes 2 bytes.length ++ (numberBytes 2 (65535 - bytes.length) ++ bytes))

def stored (contents : Bytes) : Bytes :=
  if contents.length ≤ 65535 then storedBlock true contents
  else storedBlock false (contents.take 65535) ++ stored (contents.drop 65535)
termination_by contents.length
decreasing_by
  rw [List.length_drop]
  omega

def storedWord (bytes : Bytes) : List Bool :=
  [false, false] ++ (List.replicate 5 false ++ ((numberBytes 2 bytes.length).flatMap Inflate.bitsOf ++
    ((numberBytes 2 (65535 - bytes.length)).flatMap Inflate.bitsOf ++ bytes.flatMap Inflate.bitsOf)))

theorem flatMap_storedBlock (final : Bool) (bytes : Bytes) :
    (storedBlock final bytes).flatMap Inflate.bitsOf = final :: storedWord bytes := by
  rw [storedBlock, List.flatMap_cons, List.flatMap_append, List.flatMap_append]
  cases final <;> rfl

theorem length_storedWord (bytes : Bytes) : (storedWord bytes).length = 39 + 8 * bytes.length := by
  simp only [storedWord, List.length_append, Inflate.length_flatMap_bitsOf, length_numberBytes,
    List.length_replicate, List.length_cons, List.length_nil]
  omega

theorem block_storedWord {bytes : Bytes} (short : bytes.length ≤ 65535) {offset : Nat}
    (whole : offset % 8 = 0) (before : Bytes) :
    Deflate.Block (offset + 1) before (storedWord bytes) (before ++ bytes) := by
  have fills : Inflate.FillsByte (offset + 1 + 2) (List.replicate 5 false) := by
    refine ⟨by decide, ?_⟩
    rw [List.length_replicate]
    omega
  exact .stored ⟨rfl, rfl⟩ fills (numeral_numberBytes (by omega)) (numeral_numberBytes (by omega)) short

theorem blocks_stored (contents : Bytes) {offset : Nat} (whole : offset % 8 = 0) (before : Bytes) :
    Deflate.Blocks offset before ((stored contents).flatMap Inflate.bitsOf) (before ++ contents) := by
  induction contents using stored.induct generalizing offset before with
  | case1 contents short =>
    rw [stored, if_pos short, flatMap_storedBlock]
    exact .last (block_storedWord short whole before)
  | case2 contents long ih =>
    rw [stored, if_neg long, List.flatMap_append, flatMap_storedBlock, List.cons_append]
    have first := block_storedWord (List.length_take_le 65535 contents) whole before
    have whole' : (offset + 1 + (storedWord (contents.take 65535)).length) % 8 = 0 := by
      rw [length_storedWord]
      omega
    have later := ih whole' (before ++ contents.take 65535)
    rw [List.append_assoc, List.take_append_drop] at later
    exact .cons first later

theorem deflated_stored (contents : Bytes) : Deflated (stored contents) contents :=
  ⟨_, [], (List.append_nil _).symm, Nat.zero_lt_succ 7, blocks_stored contents rfl []⟩

def Head.plain : Head :=
  ⟨false, [0, 0, 0, 0, 0, 255], none, none, none, false, rfl, nofun, nofun, nofun⟩

theorem Head.short_plain : Head.plain.Short :=
  ⟨nofun, nofun⟩

def Member.plain (contents : Bytes) : Member :=
  ⟨.plain, stored contents, contents, deflated_stored contents⟩

theorem Member.length_bytes_plain {contents : Bytes} (short : contents.length ≤ 65535) :
    (Member.plain contents).bytes.length = contents.length + 23 := by
  have data : (stored contents).length = contents.length + 5 := by
    rw [stored, if_pos short]
    simp [storedBlock, length_numberBytes]
    omega
  have head : Head.plain.bytes.length = 10 := rfl
  rw [length_bytes, plain, head, data]
  omega

theorem Member.begins_plain (contents more : Bytes) :
    (Member.plain contents).Begins ((Member.plain contents).bytes ++ more) :=
  ⟨Head.short_plain, List.prefix_append ..⟩

end CloudProvider.Archive.Gzip
