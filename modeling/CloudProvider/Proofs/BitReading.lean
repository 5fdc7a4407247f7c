import CloudProvider.Archive.Inflate
import Mathlib.Tactic.Ring

/-! Readers of bits. To a reader an input is the list of the bits to come, those of the byte at hand
first. A meaning says which word a reader passes over, what it returns and what becomes of the output;
a reader has a meaning if it does no other thing, and does it wherever it can. Meanings follow each
other as readers do. -/

namespace CloudProvider.Archive.Inflate

def State.bits (s : State) : List Bool :=
  s.pending ++ s.rest.flatMap bitsOf

/-- Of an input of so many bytes, so many bits have been read. -/
structure State.At (s : State) (size offset : Nat) : Prop where
  partly : s.pending.length < 8
  read : offset + s.bits.length = 8 * size

@[simp] theorem length_bitsOf (b : UInt8) : (bitsOf b).length = 8 := by
  simp [bitsOf]

@[simp] theorem length_flatMap_bitsOf (bytes : Bytes) :
    (bytes.flatMap bitsOf).length = 8 * bytes.length := by
  induction bytes with
  | nil => rfl
  | cons b bytes ih =>
    rw [List.flatMap_cons, List.length_append, length_bitsOf, ih, List.length_cons]
    omega

def lowFirst (word : List Bool) : Nat :=
  word.foldr (fun bit n => bit.toNat + 2 * n) 0

@[simp] theorem lowFirst_nil : lowFirst [] = 0 := rfl

@[simp] theorem lowFirst_cons (bit : Bool) (word : List Bool) :
    lowFirst (bit :: word) = bit.toNat + 2 * lowFirst word := rfl

theorem lowFirst_append (u v : List Bool) :
    lowFirst (u ++ v) = lowFirst u + 2 ^ u.length * lowFirst v := by
  induction u with
  | nil => simp
  | cons bit u ih =>
    simp only [List.cons_append, lowFirst_cons, ih, List.length_cons, Nat.pow_succ]
    ring

theorem lowFirst_map_testBit (n : Nat) (width : Nat) :
    lowFirst ((List.range width).map n.testBit) = n % 2 ^ width := by
  induction width generalizing n with
  | zero => simp [Nat.mod_one]
  | succ width ih =>
    have shifted : n.testBit ∘ Nat.succ = (n / 2).testBit := by
      funext i
      simp [Nat.testBit_succ]
    rw [List.range_succ_eq_map, List.map_cons, List.map_map, shifted, lowFirst_cons, ih, Nat.pow_succ',
      Nat.mod_mul, Nat.testBit_zero]
    rcases Nat.mod_two_eq_zero_or_one n with even | odd <;> simp [*]

theorem lowFirst_lt (word : List Bool) : lowFirst word < 2 ^ word.length := by
  induction word with
  | nil => simp
  | cons bit word ih =>
    rw [lowFirst_cons, List.length_cons, Nat.pow_succ]
    cases bit <;> simp only [Bool.toNat_false, Bool.toNat_true] <;> omega

theorem lowFirst_inj {u v : List Bool} (long : u.length = v.length)
    (same : lowFirst u = lowFirst v) : u = v := by
  induction u generalizing v with
  | nil => exact (List.eq_nil_of_length_eq_zero long.symm).symm
  | cons bit u ih =>
    obtain ⟨bit', v, rfl⟩ := List.exists_cons_of_length_eq_add_one long.symm
    rw [lowFirst_cons, lowFirst_cons] at same
    have first : bit = bit' := by
      cases bit <;> cases bit' <;> simp only [Bool.toNat_false, Bool.toNat_true] at same <;>
        first | rfl | omega
    subst first
    rw [ih (by simpa using long) (by omega)]

theorem lowFirst_bitsOf (b : UInt8) : lowFirst (bitsOf b) = b.toNat := by
  rw [bitsOf, lowFirst_map_testBit]
  exact Nat.mod_eq_of_lt b.toNat_lt

theorem bitsOf_inj {a b : UInt8} (same : bitsOf a = bitsOf b) : a = b := by
  rw [← UInt8.toNat_inj, ← lowFirst_bitsOf, ← lowFirst_bitsOf, same]

theorem exists_bitsOf {word : List Bool} (long : word.length = 8) : ∃ b, bitsOf b = word := by
  refine ⟨UInt8.ofNat (lowFirst word), lowFirst_inj (by simp [long]) ?_⟩
  have fits := lowFirst_lt word
  rw [long] at fits
  rw [lowFirst_bitsOf, UInt8.toNat_ofNat_of_lt' fits]

theorem flatMap_bitsOf_inj {a b : Bytes} (same : a.flatMap bitsOf = b.flatMap bitsOf) : a = b := by
  induction a generalizing b with
  | nil =>
    cases b with
    | nil => rfl
    | cons y b => cases same
  | cons x a ih =>
    cases b with
    | nil => simpa using congrArg List.length same
    | cons y b =>
      obtain ⟨first, later⟩ := List.append_inj same (by simp)
      rw [bitsOf_inj first, ih later]

/-- What a reader does: from the output so far to what it returns, the word it passes over and the
output then. -/
abbrev Meaning (α : Type) := Bytes → α → List Bool → Bytes → Prop

/-- Where so many bits have been read, the reader has this meaning. -/
structure Reads (size offset : Nat) {α : Type} (p : Inflater α) (M : Meaning α) : Prop where
  sound {s s' : State} {a : α} : s.At size offset → p.run s = (.ok a, s') →
    ∃ word, s.bits = word ++ s'.bits ∧ s'.pending.length < 8 ∧
      M s.output.toList a word s'.output.toList
  complete {s : State} {a : α} {word rest : List Bool} {after : Bytes} : s.At size offset →
    s.bits = word ++ rest → M s.output.toList a word after →
    ∃ s', p.run s = (.ok a, s') ∧ s'.bits = rest ∧ s'.output.toList = after

variable {α β : Type} {size offset : Nat}

theorem run_bind (p : Inflater α) (f : α → Inflater β) (s : State) :
    (p >>= f).run s =
      match p.run s with
      | (.ok a, s) => (f a).run s
      | (.error e, s) => (.error e, s) := by
  change ExceptT.bindCont f (p.run s).1 (p.run s).2 = _
  rcases p.run s with ⟨⟨e⟩ | ⟨a⟩, s⟩ <;> rfl

theorem State.At.append {s s' : State} {word : List Bool} (here : s.At size offset)
    (split : s.bits = word ++ s'.bits) (partly : s'.pending.length < 8) :
    s'.At size (offset + word.length) := by
  refine ⟨partly, ?_⟩
  rw [← here.read, split, List.length_append, Nat.add_assoc]

namespace Reads

theorem congr {p : Inflater α} {M N : Meaning α} (reads : Reads size offset p M)
    (same : ∀ before a word after, M before a word after ↔ N before a word after) :
    Reads size offset p N := by
  obtain rfl : M = N := by
    funext before a word after
    exact propext (same before a word after)
  exact reads

theorem of_writes {p : Inflater α} {a : α} {f : Bytes → Bytes}
    (writes : ∀ s, ∃ s', p.run s = (.ok a, s') ∧ s'.pending = s.pending ∧ s'.rest = s.rest ∧
      s'.output.toList = f s.output.toList) :
    Reads size offset p fun before b word after => b = a ∧ word = [] ∧ after = f before where
  sound {s s' b} here ran := by
    obtain ⟨s₁, ran₁, pending, rest, output⟩ := writes s
    rw [ran₁] at ran
    obtain ⟨same, rfl⟩ := Prod.mk.inj ran
    refine ⟨[], ?_, ?_, (Except.ok.inj same).symm, rfl, output⟩
    · rw [State.bits, State.bits, pending, rest, List.nil_append]
    · rw [pending]
      exact here.partly
  complete {s b word rest after} here split means := by
    obtain ⟨rfl, rfl, rfl⟩ := means
    obtain ⟨s', ran, pending, untouched, output⟩ := writes s
    refine ⟨s', ran, ?_, output⟩
    rw [State.bits, pending, untouched]
    exact split

theorem pure (a : α) : Reads size offset (pure a) fun before b word after =>
    b = a ∧ word = [] ∧ after = before :=
  of_writes (f := id) fun s => ⟨s, rfl, rfl, rfl, rfl⟩

theorem stop (e : Stop) : Reads size offset (stop e : Inflater α) fun _ _ _ _ => False where
  sound _ ran := nomatch (Prod.mk.inj ran).1
  complete _ _ means := means.elim

theorem bind {p : Inflater α} {f : α → Inflater β} {M : Meaning α}
    {N : List Bool → α → Meaning β} (first : Reads size offset p M)
    (next : ∀ before a word mid, M before a word mid →
      Reads size (offset + word.length) (f a) (N word a)) :
    Reads size offset (p >>= f) fun before b word after =>
      ∃ a u mid v, word = u ++ v ∧ M before a u mid ∧ N u a mid b v after where
  sound {s s' b} here ran := by
    rw [run_bind] at ran
    rcases begun : p.run s with ⟨e | a, s₁⟩
    · rw [begun] at ran
      exact nomatch (Prod.mk.inj ran).1
    · rw [begun] at ran
      obtain ⟨u, split, partly, means⟩ := first.sound here begun
      obtain ⟨v, split', partly', means'⟩ :=
        (next _ _ _ _ means).sound (here.append split partly) ran
      exact ⟨u ++ v, by rw [split, split', List.append_assoc], partly', a, u, _, v, rfl, means,
        means'⟩
  complete {s b word rest after} here split means := by
    obtain ⟨a, u, mid, v, rfl, means, means'⟩ := means
    rw [List.append_assoc] at split
    obtain ⟨s₁, begun, left, output⟩ := first.complete here split means
    -- Completeness does not say that a byte is begun at most; the first reader's soundness does.
    obtain ⟨u', split', partly, -⟩ := first.sound here begun
    obtain rfl : u' = u := List.append_cancel_right (split'.symm.trans (left ▸ split))
    rw [run_bind, begun]
    exact (next _ _ _ _ means).complete (here.append split' partly) left (output ▸ means')

theorem of_each {ι : Type} {p : Inflater α} {C : ι → Prop} {M : ι → Meaning α} (some : ∃ i, C i)
    (each : ∀ i, C i → Reads size offset p (M i)) :
    Reads size offset p fun before a word after => ∃ i, C i ∧ M i before a word after where
  sound {s s' a} here ran := by
    obtain ⟨i, holds⟩ := some
    obtain ⟨word, split, partly, means⟩ := (each i holds).sound here ran
    exact ⟨word, split, partly, i, holds, means⟩
  complete {s a word rest after} here split means := by
    obtain ⟨i, holds, means⟩ := means
    exact (each i holds).complete here split means

end Reads

/-- A reader that leaves the output alone, and reads the same everywhere. -/
def Spells (p : Inflater α) (G : α → List Bool → Prop) : Prop :=
  ∀ size offset, Reads size offset p fun before a word after => G a word ∧ after = before

namespace Spells

variable {p : Inflater α} {f : α → Inflater β} {G G' : α → List Bool → Prop}
  {H : α → β → List Bool → Prop}

theorem congr (spells : Spells p G) (same : ∀ a word, G a word ↔ G' a word) : Spells p G' :=
  fun size offset => (spells size offset).congr fun _ a word _ => by rw [same a word]

theorem pure (a : α) : Spells (pure a) fun b word => b = a ∧ word = [] :=
  fun _ _ => (Reads.pure a).congr fun _ _ _ _ => by rw [and_assoc]

theorem stop (e : Stop) : Spells (stop e : Inflater α) fun _ _ => False :=
  fun _ _ => (Reads.stop e).congr fun _ _ _ _ => by rw [false_and]

/-- What follows has to be known only for what can have been read. -/
theorem bind_of (first : Spells p G) (next : ∀ a u, G a u → Spells (f a) (H a)) :
    Spells (p >>= f) fun b word => ∃ a u v, word = u ++ v ∧ G a u ∧ H a b v := by
  intro size offset
  refine ((first size offset).bind fun _ a u _ said => next a u said.1 _ _).congr
    fun before b word after => ?_
  constructor
  · rintro ⟨a, u, _, v, split, ⟨spelled, rfl⟩, spelled', rfl⟩
    exact ⟨⟨a, u, v, split, spelled, spelled'⟩, rfl⟩
  · rintro ⟨⟨a, u, v, split, spelled, spelled'⟩, rfl⟩
    exact ⟨a, u, _, v, split, ⟨spelled, rfl⟩, spelled', rfl⟩

theorem bind (first : Spells p G) (next : ∀ a, Spells (f a) (H a)) :
    Spells (p >>= f) fun b word => ∃ a u v, word = u ++ v ∧ G a u ∧ H a b v :=
  first.bind_of fun a _ _ => next a

end Spells

/-! Bits -/

theorem run_takeByte_of_nil {s : State} (ended : s.rest = []) : takeByte.run s = (.error .cut, s) := by
  obtain ⟨pending, rest, taken, output, settled⟩ := s
  subst ended
  rfl

theorem run_takeByte_of_cons {s : State} {b : UInt8} {rest : Bytes} (more : s.rest = b :: rest) :
    ∃ taken settled, takeByte.run s = (.ok b, { s with rest, taken, settled }) := by
  obtain ⟨pending, _, taken, output, settled⟩ := s
  subst more
  exact ⟨_, _, rfl⟩

theorem run_takeBit_of_nil {s : State} (ended : s.bits = []) :
    ∃ s', takeBit.run s = (.error .cut, s') := by
  obtain ⟨pending, rest, taken, output, settled⟩ := s
  obtain ⟨rfl, empty⟩ := List.append_eq_nil_iff.mp ended
  cases rest with
  | nil => exact ⟨_, rfl⟩
  | cons b rest => cases empty

theorem run_takeBit_of_cons {s : State} {bit : Bool} {rest : List Bool}
    (partly : s.pending.length < 8) (more : s.bits = bit :: rest) :
    ∃ s', takeBit.run s = (.ok bit, s') ∧ s'.bits = rest ∧ s'.pending.length < 8 ∧
      s'.output = s.output := by
  obtain ⟨pending, bytes, taken, output, settled⟩ := s
  cases pending with
  | cons first pending =>
    obtain ⟨rfl, rfl⟩ := List.cons.inj more
    exact ⟨_, rfl, rfl, Nat.lt_of_succ_lt partly, rfl⟩
  | nil =>
    cases bytes with
    | nil => cases more
    | cons b bytes =>
      obtain ⟨rfl, rfl⟩ := List.cons.inj more
      exact ⟨_, rfl, rfl, by simp, rfl⟩

theorem spells_takeBit : Spells takeBit fun bit word => word = [bit] := by
  intro size offset
  constructor
  case sound =>
    intro s s' bit here ran
    rcases bits : s.bits with _ | ⟨first, rest⟩
    · obtain ⟨_, failed⟩ := run_takeBit_of_nil bits
      rw [failed] at ran
      exact nomatch (Prod.mk.inj ran).1
    · obtain ⟨s₁, taken, left, partly, output⟩ := run_takeBit_of_cons here.partly bits
      rw [taken] at ran
      obtain ⟨same, rfl⟩ := Prod.mk.inj ran
      obtain rfl := Except.ok.inj same
      exact ⟨[first], by rw [left]; rfl, partly, rfl, by rw [output]⟩
  case complete =>
    rintro s bit word rest after here split ⟨rfl, rfl⟩
    obtain ⟨s', taken, left, -, output⟩ := run_takeBit_of_cons here.partly split
    exact ⟨s', taken, left, by rw [output]⟩

def Numeral (width n : Nat) (word : List Bool) : Prop :=
  word.length = width ∧ lowFirst word = n

theorem spells_takeBits (width : Nat) : Spells (takeBits width) (Numeral width) := by
  induction width with
  | zero =>
    refine (Spells.pure 0).congr fun n word => ?_
    constructor
    · rintro ⟨rfl, rfl⟩
      exact ⟨rfl, rfl⟩
    · rintro ⟨empty, rfl⟩
      obtain rfl := List.eq_nil_of_length_eq_zero empty
      exact ⟨rfl, rfl⟩
  | succ width ih =>
    refine (spells_takeBit.bind fun bit => ih.bind fun n => Spells.pure _).congr fun n word => ?_
    constructor
    · rintro ⟨bit, _, _, rfl, rfl, m, u, _, rfl, ⟨rfl, rfl⟩, rfl, rfl⟩
      exact ⟨by simp, by simp⟩
    · rintro ⟨long, rfl⟩
      obtain ⟨bit, u, rfl⟩ := List.exists_cons_of_length_eq_add_one long
      exact ⟨bit, [bit], u, rfl, rfl, _, u, [], by simp, ⟨by simpa using long, rfl⟩, rfl, rfl⟩

/-! Bytes -/

def FillsByte (offset : Nat) (padding : List Bool) : Prop :=
  padding.length < 8 ∧ (offset + padding.length) % 8 = 0

theorem State.At.fillsByte {s : State} (here : s.At size offset) : FillsByte offset s.pending := by
  refine ⟨here.partly, ?_⟩
  have read := here.read
  rw [State.bits, List.length_append, length_flatMap_bitsOf] at read
  omega

theorem reads_align : Reads size offset align fun before _ word after =>
    FillsByte offset word ∧ after = before where
  sound {s s' a} here ran := by
    obtain ⟨-, rfl⟩ := Prod.mk.inj ran
    exact ⟨s.pending, rfl, by simp, here.fillsByte, rfl⟩
  complete {s a word rest after} here split means := by
    obtain ⟨fills, rfl⟩ := means
    -- What fills up the byte is as long as what is pending, and so it is just that.
    have same : s.pending.length = word.length := by
      have ⟨short, whole⟩ := here.fillsByte
      have ⟨short', whole'⟩ := fills
      omega
    obtain ⟨-, rfl⟩ := List.append_inj split same
    exact ⟨_, rfl, rfl, rfl⟩

theorem State.At.pending_eq_nil {s : State} (here : s.At size offset) (whole : offset % 8 = 0) :
    s.pending = [] := by
  have ⟨short, fills⟩ := here.fillsByte
  exact List.eq_nil_of_length_eq_zero (by omega)

theorem reads_takeByte (whole : offset % 8 = 0) :
    Reads size offset takeByte fun before b word after => word = bitsOf b ∧ after = before where
  sound {s s' b} here ran := by
    have none := here.pending_eq_nil whole
    rcases more : s.rest with _ | ⟨b, rest⟩
    · rw [run_takeByte_of_nil more] at ran
      exact nomatch (Prod.mk.inj ran).1
    · obtain ⟨taken, settled, took⟩ := run_takeByte_of_cons more
      rw [took] at ran
      obtain ⟨same, rfl⟩ := Prod.mk.inj ran
      obtain rfl := Except.ok.inj same
      exact ⟨bitsOf b, by simp [State.bits, none, more], here.partly, rfl, rfl⟩
  complete {s b word rest after} here split means := by
    obtain ⟨rfl, rfl⟩ := means
    have none := here.pending_eq_nil whole
    rcases more : s.rest with _ | ⟨first, bytes⟩
    · have short := congrArg List.length split
      simp [State.bits, none, more] at short
      omega
    · rw [State.bits, none, more, List.nil_append, List.flatMap_cons] at split
      obtain ⟨same, rfl⟩ := List.append_inj split (by simp)
      obtain rfl := bitsOf_inj same
      obtain ⟨taken, settled, took⟩ := run_takeByte_of_cons more
      exact ⟨_, took, by simp [State.bits, none], rfl⟩

theorem reads_takeWord (whole : offset % 8 = 0) :
    Reads size offset takeWord fun before n word after => Numeral 16 n word ∧ after = before := by
  refine ((reads_takeByte whole).bind fun _ low _ _ said => (reads_takeByte ?_).bind fun _ high _ _ _ =>
    Reads.pure _).congr fun before n word after => ?_
  · rw [said.1, length_bitsOf]
    omega
  constructor
  · rintro ⟨low, _, _, _, rfl, ⟨rfl, rfl⟩, high, _, _, _, rfl, ⟨rfl, rfl⟩, rfl, rfl, rfl⟩
    exact ⟨⟨by simp, by simp [lowFirst_append, lowFirst_bitsOf]⟩, rfl⟩
  · rintro ⟨⟨long, rfl⟩, rfl⟩
    obtain ⟨low, first⟩ : ∃ b, bitsOf b = word.take 8 := exists_bitsOf (by simp [long])
    obtain ⟨high, second⟩ : ∃ b, bitsOf b = word.drop 8 := exists_bitsOf (by simp [long])
    obtain rfl : word = bitsOf low ++ bitsOf high := by rw [first, second, List.take_append_drop]
    exact ⟨low, _, _, _, rfl, ⟨rfl, rfl⟩, high, _, _, [], by simp, ⟨rfl, rfl⟩,
      by simp [lowFirst_append, lowFirst_bitsOf], rfl, rfl⟩

/-! The output -/

theorem run_put (b : UInt8) (s : State) :
    ∃ settled, (put b).run s = (.ok (), { s with output := s.output.push b, settled }) :=
  ⟨_, rfl⟩

theorem reads_put (b : UInt8) : Reads size offset (put b) fun before _ word after =>
    word = [] ∧ after = before ++ [b] := by
  refine (Reads.of_writes (a := ()) (f := fun before => before ++ [b]) fun s => ?_).congr
    fun _ _ _ _ => by simp
  obtain ⟨settled, ran⟩ := run_put b s
  exact ⟨_, ran, rfl, rfl, Array.toList_push⟩

/-- What stands so far before the end of the output; before its start there are zeros. -/
def lookBack (output : Bytes) (distance : Nat) : UInt8 :=
  if distance ≤ output.length then output.getD (output.length - distance) 0 else 0

def copied (distance : Nat) : Nat → Bytes → Bytes
  | 0, output => output
  | n + 1, output => copied distance n (output ++ [lookBack output distance])

theorem run_copy (distance n : Nat) (s : State) :
    ∃ s', (copy distance n).run s = (.ok (), s') ∧ s'.pending = s.pending ∧ s'.rest = s.rest ∧
      s'.output.toList = copied distance n s.output.toList := by
  induction n generalizing s with
  | zero => exact ⟨s, rfl, rfl, rfl, rfl⟩
  | succ n ih =>
    let b := if distance ≤ s.output.size then s.output.getD (s.output.size - distance) 0 else 0
    obtain ⟨settled, written⟩ := run_put b s
    obtain ⟨s', ran, pending, rest, output⟩ := ih { s with output := s.output.push b, settled }
    have opened : (copy distance (n + 1)).run s = (put b >>= fun _ => copy distance n).run s := rfl
    refine ⟨s', ?_, pending, rest, ?_⟩
    · rw [opened, run_bind, written]
      exact ran
    have looked : b = lookBack s.output.toList distance := by
      simp [b, lookBack, Array.getD_eq_getD_getElem?]
    rw [output, copied, ← looked]
    exact congrArg (copied distance n) Array.toList_push

theorem reads_copy (distance n : Nat) : Reads size offset (copy distance n) fun before _ word after =>
    word = [] ∧ after = copied distance n before :=
  (Reads.of_writes (run_copy distance n)).congr fun _ _ _ _ => by simp

theorem reads_storedBytes (n : Nat) (whole : offset % 8 = 0) :
    Reads size offset (storedBytes n) fun before _ word after =>
      ∃ bytes, bytes.length = n ∧ word = bytes.flatMap bitsOf ∧ after = before ++ bytes := by
  induction n generalizing offset with
  | zero =>
    refine (Reads.pure ()).congr fun before _ word after => ?_
    constructor
    · rintro ⟨-, rfl, rfl⟩
      exact ⟨[], rfl, rfl, (List.append_nil _).symm⟩
    · rintro ⟨bytes, empty, rfl, rfl⟩
      obtain rfl := List.eq_nil_of_length_eq_zero empty
      exact ⟨rfl, rfl, List.append_nil _⟩
  | succ n ih =>
    refine ((reads_takeByte whole).bind fun _ b _ _ said => (reads_put b).bind fun _ _ _ _ none =>
      ih ?_).congr fun before _ word after => ?_
    · rw [said.1, none.1, length_bitsOf, List.length_nil]
      omega
    constructor
    · rintro ⟨b, _, _, _, rfl, ⟨rfl, rfl⟩, _, _, _, _, rfl, ⟨rfl, rfl⟩, bytes, rfl, rfl, rfl⟩
      exact ⟨b :: bytes, by simp, by simp, by simp⟩
    · rintro ⟨bytes, long, rfl, rfl⟩
      obtain ⟨b, bytes, rfl⟩ := List.exists_cons_of_length_eq_add_one long
      exact ⟨b, _, _, _, rfl, ⟨rfl, rfl⟩, (), [], _, _, rfl, ⟨rfl, rfl⟩, bytes, by simpa using long,
        rfl, by simp⟩

end CloudProvider.Archive.Inflate
