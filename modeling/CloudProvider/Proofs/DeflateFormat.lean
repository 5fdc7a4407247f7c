import CloudProvider.Proofs.PrefixCodes

/-! The deflate format. A stream is a sequence of blocks, which hold bytes as they are or tokens in two
prefix codes, and a token is a byte or a copy of what has been written before. The format says which
words spell what; decompression is then shown to end properly just when the input begins with a stream
that is spelled so, and to give what it stands for. -/

namespace CloudProvider.Archive.Deflate

open Huffman Inflate

structure Lengths where
  literals : List Nat
  distances : List Nat

def Lengths.codes (l : Lengths) : Codes :=
  ⟨.ofLengths l.literals, .ofLengths l.distances⟩

def Lengths.fixed : Lengths where
  literals := List.replicate 144 8 ++ List.replicate 112 9 ++ List.replicate 24 7 ++ List.replicate 8 8
  distances := List.replicate 32 5

/-- A value at a place of a table: so many further bits are added to the least one. -/
inductive InTable (table : List (Nat × Nat)) (place : Nat) : Nat → List Bool → Prop
  | mk {least width n : Nat} {word : List Bool} (entry : table[place]? = some (least, width))
      (further : Numeral width n word) : InTable table place (least + n) word

inductive Token
  | literal (b : UInt8)
  | copy (distance length : Nat)

namespace Token

def write (output : Bytes) : Token → Bytes
  | literal b => output ++ [b]
  | copy distance length => copied distance length output

inductive Spelled (l : Lengths) : Token → List Bool → Prop
  | literal {b : UInt8} {word : List Bool} (symbol : IsWord l.literals b.toNat word) :
      Spelled l (literal b) word
  | copy {length distance p q : Nat} {u₁ u₂ u₃ u₄ : List Bool} (first : IsWord l.literals (257 + p) u₁)
      (second : InTable lengthTable p length u₂) (third : IsWord l.distances q u₃)
      (fourth : InTable distanceTable q distance u₄) :
      Spelled l (copy distance length) (u₁ ++ (u₂ ++ (u₃ ++ u₄)))

end Token

inductive Spelled (l : Lengths) : List Token → List Bool → Prop
  | ended {word : List Bool} (symbol : IsWord l.literals 256 word) : Spelled l [] word
  | cons {token : Token} {tokens : List Token} {u v : List Bool} (first : token.Spelled l u)
      (later : Spelled l tokens v) : Spelled l (token :: tokens) (u ++ v)

def Writes (l : Lengths) (before : Bytes) (word : List Bool) (after : Bytes) : Prop :=
  ∃ tokens, Spelled l tokens word ∧ after = tokens.foldl Token.write before

def WritesBehind (l : Lengths) (symbol : Nat) (before : Bytes) (word : List Bool) (after : Bytes) : Prop :=
  if symbol < 256 then Writes l (before ++ [UInt8.ofNat symbol]) word after
  else if symbol = 256 then word = [] ∧ after = before
  else ∃ length u, ∃ q v, ∃ distance w more, word = u ++ (v ++ (w ++ more)) ∧
    InTable lengthTable (symbol - 257) length u ∧ IsWord l.distances q v ∧
    InTable distanceTable q distance w ∧ Writes l (copied distance length before) more after

theorem writes_iff {l : Lengths} {before after : Bytes} {word : List Bool} :
    Writes l before word after ↔
      ∃ symbol u v, word = u ++ v ∧ IsWord l.literals symbol u ∧ WritesBehind l symbol before v after := by
  constructor
  · rintro ⟨_, ⟨symbol⟩ | ⟨⟨symbol⟩ | ⟨first, second, third, fourth⟩, later⟩, rfl⟩
    · exact ⟨256, _, [], (List.append_nil _).symm, symbol, by simp [WritesBehind]⟩
    · refine ⟨_, _, _, rfl, symbol, ?_⟩
      rw [WritesBehind, if_pos (UInt8.toNat_lt _)]
      exact ⟨_, later, by simp [Token.write]⟩
    · refine ⟨_, _, _, List.append_assoc .., first, ?_⟩
      rw [WritesBehind, if_neg (by omega), if_neg (by omega), Nat.add_sub_cancel_left]
      exact ⟨_, _, _, _, _, _, _, by simp, second, third, fourth, _, later, rfl⟩
  · rintro ⟨symbol, u, v, rfl, first, behind⟩
    unfold WritesBehind at behind
    split at behind
    · next low =>
      obtain ⟨tokens, later, rfl⟩ := behind
      have plain : Token.Spelled l (.literal (UInt8.ofNat symbol)) u := by
        refine .literal ?_
        rwa [UInt8.toNat_ofNat_of_lt' low]
      exact ⟨_, .cons plain later, rfl⟩
    · next high =>
      split at behind
      · next last =>
        obtain ⟨rfl, rfl⟩ := behind
        rw [List.append_nil]
        exact ⟨[], .ended (last ▸ first), rfl⟩
      · next other =>
        obtain ⟨length, u₂, q, u₃, distance, u₄, more, rfl, second, third, fourth, tokens, later, rfl⟩ :=
          behind
        obtain ⟨p, rfl⟩ : ∃ p, symbol = 257 + p := ⟨symbol - 257, by omega⟩
        rw [Nat.add_sub_cancel_left] at second
        have copies := Spelled.cons (.copy first second third fourth) later
        simp only [List.append_assoc] at copies
        exact ⟨_, copies, rfl⟩

inductive Numerals (width : Nat) : List Nat → List Bool → Prop
  | nil : Numerals width [] []
  | cons {n : Nat} {ns : List Nat} {u v : List Bool} (first : Numeral width n u)
      (later : Numerals width ns v) : Numerals width (n :: ns) (u ++ v)

/-- Code lengths that a symbol of the code of lengths stands for. -/
inductive Run (code got : List Nat) : List Nat → List Bool → Prop
  | single {symbol : Nat} {word : List Bool} (plain : symbol < 16) (first : IsWord code symbol word) :
      Run code got [symbol] word
  | again {latest n : Nat} {u v : List Bool} (before : got.head? = some latest)
      (first : IsWord code 16 u) (second : Numeral 2 n v) :
      Run code got (List.replicate (3 + n) latest) (u ++ v)
  | zeros {n : Nat} {u v : List Bool} (first : IsWord code 17 u) (second : Numeral 3 n v) :
      Run code got (List.replicate (3 + n) 0) (u ++ v)
  | manyZeros {n : Nat} {u v : List Bool} (first : IsWord code 18 u) (second : Numeral 7 n v) :
      Run code got (List.replicate (11 + n) 0) (u ++ v)

theorem Run.length_pos {code got added : List Nat} {word : List Bool} (run : Run code got added word) :
    0 < added.length := by
  cases run with
  | single => exact Nat.one_pos
  | again | zeros | manyZeros =>
    rw [List.length_replicate]
    omega

def RunBehind (got : List Nat) (symbol : Nat) (added : List Nat) (word : List Bool) : Prop :=
  if symbol < 16 then added = [symbol] ∧ word = []
  else if symbol = 16 then ∃ latest n, got.head? = some latest ∧ Numeral 2 n word ∧
    added = List.replicate (3 + n) latest
  else if symbol = 17 then ∃ n, Numeral 3 n word ∧ added = List.replicate (3 + n) 0
  else ∃ n, Numeral 7 n word ∧ added = List.replicate (11 + n) 0

theorem run_iff {code got added : List Nat} {word : List Bool} (few : code.length ≤ 19) :
    Run code got added word ↔
      ∃ symbol u v, word = u ++ v ∧ IsWord code symbol u ∧ RunBehind got symbol added v := by
  constructor
  · rintro (⟨plain, first⟩ | ⟨before, first, second⟩ | ⟨first, second⟩ | ⟨first, second⟩)
    · exact ⟨_, word, [], (List.append_nil _).symm, first, by simp [RunBehind, plain]⟩
    · exact ⟨16, _, _, rfl, first, _, _, before, second, rfl⟩
    · exact ⟨17, _, _, rfl, first, _, second, rfl⟩
    · exact ⟨18, _, _, rfl, first, _, second, rfl⟩
  · rintro ⟨symbol, u, v, rfl, first, behind⟩
    unfold RunBehind at behind
    split at behind
    · next plain =>
      obtain ⟨rfl, rfl⟩ := behind
      rw [List.append_nil]
      exact .single plain first
    split at behind
    · next same =>
      obtain ⟨latest, n, before, second, rfl⟩ := behind
      exact .again before (same ▸ first) second
    split at behind
    · next same =>
      obtain ⟨n, second, rfl⟩ := behind
      exact .zeros (same ▸ first) second
    · obtain ⟨n, second, rfl⟩ := behind
      obtain ⟨inside, -⟩ := List.getElem?_eq_some_iff.mp first.long
      obtain rfl : symbol = 18 := by omega
      exact .manyZeros first second

/-- How code lengths are completed; the latest comes first in what there is of them. -/
inductive Runs (code : List Nat) : List Nat → List Nat → List Bool → Prop
  | complete {got : List Nat} : Runs code got got.reverse []
  | cons {got added all : List Nat} {u v : List Bool} (first : Run code got added u)
      (later : Runs code (added ++ got) all v) : Runs code got all (u ++ v)

theorem Runs.length_le {code got all : List Nat} {word : List Bool} (runs : Runs code got all word) :
    got.length ≤ all.length := by
  induction runs with
  | complete => simp
  | cons first later ih =>
    rw [List.length_append] at ih
    omega

/-- The lengths of both codes in front of a block, in a code of their own. -/
inductive Lengths.Spelled (l : Lengths) : List Bool → Prop
  | mk {widths : List Nat} {u₁ u₂ u₃ u₄ u₅ : List Bool}
      (literals : 257 ≤ l.literals.length ∧ l.literals.length ≤ 286)
      (distances : 1 ≤ l.distances.length ∧ l.distances.length ≤ 30) (given : 4 ≤ widths.length)
      (first : Numeral 5 (l.literals.length - 257) u₁) (second : Numeral 5 (l.distances.length - 1) u₂)
      (third : Numeral 4 (widths.length - 4) u₃) (narrow : Numerals 3 widths u₄)
      (runs : Runs (arrange widths) [] (l.literals ++ l.distances) u₅)
      (usable : Usable (arrange widths) ∧ Usable l.literals ∧ Usable l.distances) :
      Spelled l (u₁ ++ (u₂ ++ (u₃ ++ (u₄ ++ u₅))))

/-- What a block makes of the output. It begins with two bits that tell its kind. -/
inductive Block (offset : Nat) (before : Bytes) : List Bool → Bytes → Prop
  | stored {bytes : Bytes} {kind padding u v : List Bool} (first : Numeral 2 0 kind)
      (fills : FillsByte (offset + 2) padding) (length : Numeral 16 bytes.length u)
      (complement : Numeral 16 (65535 - bytes.length) v) (short : bytes.length ≤ 65535) :
      Block offset before (kind ++ (padding ++ (u ++ (v ++ bytes.flatMap bitsOf)))) (before ++ bytes)
  | fixed {after : Bytes} {kind u : List Bool} (first : Numeral 2 1 kind)
      (tokens : Writes .fixed before u after) : Block offset before (kind ++ u) after
  | dynamic {l : Lengths} {after : Bytes} {kind u v : List Bool} (first : Numeral 2 2 kind)
      (codes : l.Spelled u) (tokens : Writes l before v after) :
      Block offset before (kind ++ (u ++ v)) after

/-- Blocks, each behind a bit that tells whether it is the last one. -/
inductive Blocks : Nat → Bytes → List Bool → Bytes → Prop
  | last {offset : Nat} {before after : Bytes} {word : List Bool}
      (block : Block (offset + 1) before word after) : Blocks offset before (true :: word) after
  | cons {offset : Nat} {before mid after : Bytes} {u v : List Bool}
      (block : Block (offset + 1) before u mid) (later : Blocks (offset + 1 + u.length) mid v after) :
      Blocks offset before (false :: (u ++ v)) after

end CloudProvider.Archive.Deflate

/-- The data are a stream that stands for these contents. What is left of the last byte means nothing. -/
def CloudProvider.Archive.Deflated (data contents : CloudProvider.Bytes) : Prop :=
  ∃ word padding, data.flatMap CloudProvider.Archive.Inflate.bitsOf = word ++ padding ∧
    padding.length < 8 ∧ CloudProvider.Archive.Deflate.Blocks 0 [] word contents

namespace CloudProvider.Archive.Inflate

open Deflate Huffman

variable {size offset : Nat}

/-! Tokens -/

theorem spells_takeFrom (table : List (Nat × Nat)) (place : Nat) :
    Spells (takeFrom table place) (InTable table place) := by
  unfold takeFrom
  split
  · next missing =>
    refine (Spells.stop .corrupt).congr fun n word => ⟨False.elim, ?_⟩
    rintro ⟨entry, -⟩
    rw [missing] at entry
    cases entry
  · next least width found =>
    refine ((spells_takeBits width).bind fun n => Spells.pure _).congr fun value word => ?_
    constructor
    · rintro ⟨n, u, _, rfl, further, rfl, rfl⟩
      rw [List.append_nil]
      exact .mk found further
    · rintro ⟨entry, further⟩
      obtain ⟨rfl, rfl⟩ := Prod.mk.inj (Option.some.inj (found.symm.trans entry))
      exact ⟨_, _, [], (List.append_nil _).symm, further, rfl, rfl⟩

theorem Reads.of_lt {α : Type} {p : Inflater α} {M : Meaning α} (beyond : 8 * size < offset) :
    Reads size offset p M where
  sound here _ := by
    have read := here.read
    omega
  complete here _ _ := by
    have read := here.read
    omega

theorem reads_behind {l : Lengths} {rounds : Nat} (symbol : Nat)
    (later : ∀ {offset'}, offset ≤ offset' → Reads size offset' (symbols l.codes rounds)
      fun before _ word after => Writes l before word after) :
    Reads size offset
      (if symbol < 256 then do
        put (UInt8.ofNat symbol)
        symbols l.codes rounds
      else if symbol = 256 then pure ()
      else do
        let length ← takeFrom lengthTable (symbol - 257)
        let distance ← takeFrom distanceTable (← takeSymbol l.codes.distances)
        copy distance length
        symbols l.codes rounds)
      fun before _ word after => WritesBehind l symbol before word after := by
  unfold WritesBehind
  split
  · refine ((reads_put _).bind fun _ _ _ _ _ => later (Nat.le_add_right ..)).congr
      fun before _ word after => ?_
    constructor
    · rintro ⟨_, _, _, _, rfl, ⟨rfl, rfl⟩, writes⟩
      exact writes
    · exact fun writes => ⟨(), [], _, word, rfl, ⟨rfl, rfl⟩, writes⟩
  · split
    · exact (Reads.pure ()).congr fun _ _ _ _ => and_iff_right rfl
    · refine ((spells_takeFrom lengthTable (symbol - 257) size offset).bind fun _ length u _ _ =>
        (spells_takeSymbol l.distances size _).bind fun _ q v _ _ =>
        (spells_takeFrom distanceTable q size _).bind fun _ distance w _ _ =>
        (reads_copy distance length).bind fun _ _ _ _ _ => later ?_).congr fun before _ word after => ?_
      · omega
      constructor
      · rintro ⟨length, u, _, _, rfl, ⟨second, rfl⟩, q, v, _, _, rfl, ⟨third, rfl⟩, distance, w, _, _, rfl,
          ⟨fourth, rfl⟩, _, _, _, more, rfl, ⟨rfl, rfl⟩, writes⟩
        exact ⟨length, u, q, v, distance, w, more, rfl, second, third, fourth, writes⟩
      · rintro ⟨length, u, q, v, distance, w, more, rfl, second, third, fourth, writes⟩
        exact ⟨length, u, _, _, rfl, ⟨second, rfl⟩, q, v, _, _, rfl, ⟨third, rfl⟩, distance, w, _, _, rfl,
          ⟨fourth, rfl⟩, (), [], _, more, rfl, ⟨rfl, rfl⟩, writes⟩

/-- Each round takes a bit at least, and so there are rounds enough. -/
theorem reads_symbols {rounds : Nat} (l : Lengths) (enough : 8 * size < offset + rounds) :
    Reads size offset (symbols l.codes rounds) fun before _ word after => Writes l before word after := by
  induction rounds generalizing offset with
  | zero => exact .of_lt enough
  | succ rounds ih =>
    refine ((spells_takeSymbol l.literals size offset).bind fun _ symbol u _ said =>
      reads_behind symbol fun {offset'} onward => ih ?_).congr fun before _ word after => ?_
    · have taken := List.length_pos_iff.mpr said.1.filled
      omega
    rw [writes_iff]
    constructor
    · rintro ⟨symbol, u, _, v, split, ⟨first, rfl⟩, behind⟩
      exact ⟨symbol, u, v, split, first, behind⟩
    · rintro ⟨symbol, u, v, split, first, behind⟩
      exact ⟨symbol, u, _, v, split, ⟨first, rfl⟩, behind⟩

/-! Lengths -/

theorem spells_takeMany (width n : Nat) :
    Spells (takeMany width n) fun ns word => ns.length = n ∧ Numerals width ns word := by
  induction n with
  | zero =>
    refine (Spells.pure []).congr fun ns word => ?_
    constructor
    · rintro ⟨rfl, rfl⟩
      exact ⟨rfl, .nil⟩
    · rintro ⟨_, ⟨⟩ | _⟩
      · exact ⟨rfl, rfl⟩
      · contradiction
  | succ n ih =>
    refine ((spells_takeBits width).bind fun first => ih.bind fun _ => Spells.pure _).congr fun ns word => ?_
    constructor
    · rintro ⟨first, u, _, rfl, numeral, ns, v, _, rfl, ⟨long, more⟩, rfl, rfl⟩
      rw [List.append_nil]
      exact ⟨congrArg (· + 1) long, .cons numeral more⟩
    · rintro ⟨long, _ | ⟨numeral, more⟩⟩
      · cases long
      · exact ⟨_, _, _, rfl, numeral, _, _, [], (List.append_nil _).symm, ⟨by simpa using long, more⟩, rfl,
          rfl⟩

theorem spells_replicate (least width latest : Nat) :
    Spells (do return List.replicate (least + (← takeBits width)) latest)
      fun added word => ∃ n, Numeral width n word ∧ added = List.replicate (least + n) latest := by
  refine ((spells_takeBits width).bind fun n => Spells.pure _).congr fun added word => ?_
  constructor
  · rintro ⟨n, u, _, rfl, numeral, rfl, rfl⟩
    rw [List.append_nil]
    exact ⟨n, numeral, rfl⟩
  · rintro ⟨n, numeral, rfl⟩
    exact ⟨n, word, [], (List.append_nil _).symm, numeral, rfl, rfl⟩

theorem spells_takeRun {code got : List Nat} (few : code.length ≤ 19) :
    Spells (takeRun (.ofLengths code) got) (Run code got) := by
  have spelled : Spells (takeRun (.ofLengths code) got) _ := (spells_takeSymbol code).bind
    (?behind : ∀ symbol, Spells _ (RunBehind got symbol))
  case behind =>
    intro symbol
    unfold RunBehind
    split
    · exact Spells.pure _
    split
    · split
      · refine (Spells.stop .corrupt).congr fun added word => ⟨False.elim, ?_⟩
        rintro ⟨_, _, ⟨⟩, -⟩
      · refine (spells_replicate 3 2 _).congr fun added word => ?_
        simp
    split
    · exact spells_replicate 3 3 0
    · exact spells_replicate 11 7 0
  exact spelled.congr fun added word => (run_iff few).symm

theorem spells_takeLengths {code : List Nat} {wanted rounds : Nat} {got : List Nat}
    (few : code.length ≤ 19) (enough : wanted < rounds + got.length) :
    Spells (takeLengths (.ofLengths code) wanted rounds got) fun all word =>
      all.length = wanted ∧ Runs code got all word := by
  induction rounds generalizing got with
  | zero =>
    refine (Spells.stop .corrupt).congr fun all word => ⟨False.elim, fun ⟨whole, runs⟩ => ?_⟩
    have grown := runs.length_le
    omega
  | succ rounds ih =>
    rw [takeLengths]
    split
    · next full =>
      split
      · next whole =>
        refine (Spells.pure _).congr fun all word => ?_
        constructor
        · rintro ⟨rfl, rfl⟩
          exact ⟨by simpa using whole, .complete⟩
        · rintro ⟨rfl, _ | ⟨first, later⟩⟩
          · exact ⟨rfl, rfl⟩
          · have grown := later.length_le
            have more := first.length_pos
            rw [List.length_append] at grown
            omega
      · next beyond =>
        refine (Spells.stop .corrupt).congr fun all word => ⟨False.elim, fun ⟨whole, runs⟩ => ?_⟩
        have grown := runs.length_le
        omega
    · next room =>
      refine ((spells_takeRun few).bind_of fun added u run => ih ?_).congr fun all word => ?_
      · have more := run.length_pos
        rw [List.length_append]
        omega
      constructor
      · rintro ⟨added, u, v, rfl, run, whole, runs⟩
        exact ⟨whole, .cons run runs⟩
      · rintro ⟨whole, _ | ⟨run, runs⟩⟩
        · rw [List.length_reverse] at whole
          omega
        · exact ⟨_, _, _, rfl, run, whole, runs⟩

theorem spells_usable (lengths : List Nat) :
    Spells (usable (.ofLengths lengths)) fun h word =>
      h = .ofLengths lengths ∧ Usable lengths ∧ word = [] := by
  unfold usable
  split
  · next fits =>
    refine (Spells.pure _).congr fun h word => ?_
    rw [and_iff_right ((isUsable_ofLengths lengths).mp fits)]
  · next unfit =>
    refine (Spells.stop .corrupt).congr fun h word => ⟨False.elim, fun ⟨_, fits, _⟩ => ?_⟩
    exact unfit ((isUsable_ofLengths lengths).mpr fits)

theorem length_arrange (widths : List Nat) : (arrange widths).length = 19 := by
  simp [arrange]

def TwoCodes (code : List Nat) (literals distances : Nat) (codes : Codes) (word : List Bool) : Prop :=
  ∃ l : Lengths, codes = l.codes ∧ l.literals.length = literals ∧ l.distances.length = distances ∧
    Runs code [] (l.literals ++ l.distances) word ∧ Usable l.literals ∧ Usable l.distances

theorem spells_twoCodes {code : List Nat} (few : code.length ≤ 19) (literals distances : Nat) :
    Spells
      (do
        let lengths ← takeLengths (.ofLengths code) (literals + distances) (literals + distances + 1) []
        return ⟨← usable (.ofLengths (lengths.take literals)),
          ← usable (.ofLengths (lengths.drop literals))⟩ : Inflater Codes)
      (TwoCodes code literals distances) := by
  refine ((spells_takeLengths few (by simp)).bind fun lengths => (spells_usable _).bind fun _ =>
    (spells_usable _).bind fun _ => Spells.pure _).congr fun codes word => ?_
  constructor
  · rintro ⟨lengths, u, _, rfl, ⟨whole, runs⟩, _, _, _, rfl, ⟨rfl, fits, rfl⟩, _, _, _, rfl,
      ⟨rfl, fits', rfl⟩, rfl, rfl⟩
    refine ⟨⟨lengths.take literals, lengths.drop literals⟩, rfl, ?_, ?_, ?_, fits, fits'⟩
    · simp [whole]
    · simp [whole]
    · simpa using runs
  · rintro ⟨l, rfl, rfl, rfl, runs, fits, fits'⟩
    have first : (l.literals ++ l.distances).take l.literals.length = l.literals := List.take_left ..
    have second : (l.literals ++ l.distances).drop l.literals.length = l.distances := List.drop_left ..
    exact ⟨_, word, [], (List.append_nil _).symm, ⟨List.length_append .., runs⟩, _, [], [], rfl,
      ⟨rfl, by rwa [first], rfl⟩, _, [], [], rfl, ⟨rfl, by rwa [second], rfl⟩,
      by rw [first, second]; rfl, rfl⟩

theorem spells_takeCodes :
    Spells takeCodes fun codes word => ∃ l : Lengths, codes = l.codes ∧ l.Spelled word := by
  have behind (literals distances given : Nat) : Spells
      (if 286 < literals ∨ 30 < distances then stop .corrupt
      else do
        let h ← usable (.ofLengths (arrange (← takeMany 3 given)))
        let lengths ← takeLengths h (literals + distances) (literals + distances + 1) []
        return ⟨← usable (.ofLengths (lengths.take literals)),
          ← usable (.ofLengths (lengths.drop literals))⟩ : Inflater Codes)
      fun codes word => literals ≤ 286 ∧ distances ≤ 30 ∧ ∃ widths u v, word = u ++ v ∧
        widths.length = given ∧ Numerals 3 widths u ∧ Usable (arrange widths) ∧
        TwoCodes (arrange widths) literals distances codes v := by
    split
    · next many =>
      exact (Spells.stop .corrupt).congr fun codes word => ⟨False.elim, fun h => by omega⟩
    · next few =>
      refine ((spells_takeMany 3 given).bind fun widths => (spells_usable _).bind_of fun h _ said =>
        (?_ : Spells _ (TwoCodes (arrange widths) literals distances))).congr fun codes word => ?_
      · obtain ⟨rfl, -, -⟩ := said
        exact spells_twoCodes (length_arrange widths).le literals distances
      constructor
      · rintro ⟨widths, u, _, rfl, ⟨long, narrow⟩, _, _, v, rfl, ⟨rfl, fits, rfl⟩, both⟩
        exact ⟨by omega, by omega, widths, u, v, rfl, long, narrow, fits, both⟩
      · rintro ⟨-, -, widths, u, v, rfl, long, narrow, fits, both⟩
        exact ⟨widths, u, v, rfl, ⟨long, narrow⟩, _, [], v, rfl, ⟨rfl, fits, rfl⟩, both⟩
  refine ((spells_takeBits 5).bind fun literals => (spells_takeBits 5).bind fun distances =>
    (spells_takeBits 4).bind fun given => behind (257 + literals) (1 + distances) (4 + given)).congr
    fun codes word => ?_
  constructor
  · rintro ⟨n₁, u₁, _, rfl, first, n₂, u₂, _, rfl, second, n₃, u₃, _, rfl, third, few, few',
      widths, u₄, u₅, rfl,
      long, narrow, fits, l, rfl, long₁, long₂, runs, fits₁, fits₂⟩
    refine ⟨l, rfl, .mk ⟨by omega, by omega⟩ ⟨by omega, by omega⟩ (by omega) ?_ ?_ ?_ narrow runs
      ⟨fits, fits₁, fits₂⟩⟩
    · rwa [long₁, Nat.add_sub_cancel_left]
    · rwa [long₂, Nat.add_sub_cancel_left]
    · rwa [long, Nat.add_sub_cancel_left]
  · rintro ⟨l, rfl, ⟨many, many', given, first, second, third, narrow, runs, fits, fits₁, fits₂⟩⟩
    exact ⟨_, _, _, rfl, first, _, _, _, rfl, second, _, _, _, rfl, third, by omega, by omega, _, _, _, rfl,
      by omega, narrow, fits, l, rfl, by omega, by omega, runs, fits₁, fits₂⟩

/-! Blocks -/

theorem reads_storedBlock : Reads size offset storedBlock fun before _ word after =>
    ∃ padding u v bytes, word = padding ++ (u ++ (v ++ bytes.flatMap bitsOf)) ∧ FillsByte offset padding ∧
      Numeral 16 bytes.length u ∧ Numeral 16 (65535 - bytes.length) v ∧ bytes.length ≤ 65535 ∧
      after = before ++ bytes := by
  have contents {offset : Nat} (whole : offset % 8 = 0) (length complement : Nat) : Reads size offset
      (if length + complement = 65535 then storedBytes length else stop .corrupt)
      fun before _ word after => length + complement = 65535 ∧
        ∃ bytes, bytes.length = length ∧ word = bytes.flatMap bitsOf ∧ after = before ++ bytes := by
    split
    · next fits => exact (reads_storedBytes length whole).congr fun _ _ _ _ => (and_iff_right fits).symm
    · next unfit =>
      exact (Reads.stop .corrupt).congr fun _ _ _ _ => ⟨False.elim, fun h => unfit h.1⟩
  refine (reads_align.bind fun _ _ padding _ fills => (reads_takeWord fills.1.2).bind fun _ length u _ said =>
    (reads_takeWord ?_).bind fun _ complement v _ said' => contents ?_ length complement).congr
    fun before _ word after => ?_
  · have whole := fills.1.2
    have long := said.1.1
    omega
  · have whole := fills.1.2
    have long := said.1.1
    have long' := said'.1.1
    omega
  constructor
  · rintro ⟨_, padding, _, _, rfl, ⟨fills, rfl⟩, _, u, _, _, rfl, ⟨length, rfl⟩, _, v, _, _, rfl,
      ⟨complement, rfl⟩, fits, bytes, rfl, rfl, rfl⟩
    refine ⟨padding, u, v, bytes, rfl, fills, length, ?_, by omega, rfl⟩
    rwa [← fits, Nat.add_sub_cancel_left]
  · rintro ⟨padding, u, v, bytes, rfl, fills, length, complement, short, rfl⟩
    exact ⟨(), padding, _, _, rfl, ⟨fills, rfl⟩, _, u, _, _, rfl, ⟨length, rfl⟩, _, v, _, _, rfl,
      ⟨complement, rfl⟩, by omega, bytes, rfl, rfl, rfl⟩

def BlockBehind (offset kind : Nat) (before : Bytes) (word : List Bool) (after : Bytes) : Prop :=
  kind = 0 ∧ (∃ padding u v bytes, word = padding ++ (u ++ (v ++ bytes.flatMap bitsOf)) ∧
    FillsByte offset padding ∧ Numeral 16 bytes.length u ∧ Numeral 16 (65535 - bytes.length) v ∧
    bytes.length ≤ 65535 ∧ after = before ++ bytes) ∨
  kind = 1 ∧ Writes .fixed before word after ∨
  kind = 2 ∧ ∃ l : Lengths, ∃ u v, word = u ++ v ∧ l.Spelled u ∧ Writes l before v after

theorem block_iff {before after : Bytes} {word : List Bool} :
    Block offset before word after ↔
      ∃ kind u v, word = u ++ v ∧ Numeral 2 kind u ∧ BlockBehind (offset + u.length) kind before v after := by
  constructor
  · rintro (⟨first, fills, length, complement, short⟩ | ⟨first, tokens⟩ | ⟨first, codes, tokens⟩)
    · rw [← first.1] at fills
      exact ⟨0, _, _, rfl, first, .inl ⟨rfl, _, _, _, _, rfl, fills, length, complement, short, rfl⟩⟩
    · exact ⟨1, _, _, rfl, first, .inr (.inl ⟨rfl, tokens⟩)⟩
    · exact ⟨2, _, _, rfl, first, .inr (.inr ⟨rfl, _, _, _, rfl, codes, tokens⟩)⟩
  · rintro ⟨kind, u, v, rfl, first, ⟨rfl, padding, _, _, bytes, rfl, fills, length, complement, short, rfl⟩ |
      ⟨rfl, tokens⟩ | ⟨rfl, l, _, _, rfl, codes, tokens⟩⟩
    · rw [first.1] at fills
      exact .stored first fills length complement short
    · exact .fixed first tokens
    · exact .dynamic first codes tokens

theorem reads_blockBehind {rounds : Nat} (enough : 8 * size < offset + rounds) (kind : Nat) :
    Reads size offset
      (match kind with
        | 0 => storedBlock
        | 1 => symbols fixedCodes rounds
        | 2 => do symbols (← takeCodes) rounds
        | _ => stop .corrupt)
      fun before _ word after => BlockBehind offset kind before word after := by
  unfold BlockBehind
  split
  · exact reads_storedBlock.congr fun _ _ _ _ => by simp
  · exact (reads_symbols .fixed enough).congr fun _ _ _ _ => by simp
  -- Lengths are not determined by the codes that they make, and so there is a meaning for each of them.
  · refine ((spells_takeCodes size offset).bind fun _ codes u _ said =>
      Reads.of_each said.1 fun l spelled => (?_ : Reads _ _ _ fun before _ word after =>
        Writes l before word after)).congr fun before _ word after => ?_
    · rw [spelled.1]
      exact reads_symbols l (by omega)
    constructor
    · rintro ⟨_, u, _, v, rfl, ⟨-, rfl⟩, l, ⟨rfl, codes⟩, tokens⟩
      exact .inr (.inr ⟨rfl, l, u, v, rfl, codes, tokens⟩)
    · rintro (⟨⟨⟩, -⟩ | ⟨⟨⟩, -⟩ | ⟨-, l, u, v, rfl, codes, tokens⟩)
      exact ⟨l.codes, u, _, v, rfl, ⟨⟨l, rfl, codes⟩, rfl⟩, l, ⟨rfl, codes⟩, tokens⟩
  · next other other' other'' =>
    refine (Reads.stop .corrupt).congr fun _ _ _ _ => ⟨False.elim, ?_⟩
    rintro (⟨same, -⟩ | ⟨same, -⟩ | ⟨same, -⟩)
    · exact other same
    · exact other' same
    · exact other'' same

theorem reads_block {rounds : Nat} (enough : 8 * size < offset + rounds) :
    Reads size offset (block rounds) fun before _ word after => Block offset before word after := by
  refine ((spells_takeBits 2 size offset).bind fun _ kind u _ _ =>
    reads_blockBehind (by omega) kind).congr fun before _ word after => ?_
  rw [block_iff]
  constructor
  · rintro ⟨kind, u, _, v, split, ⟨first, rfl⟩, behind⟩
    exact ⟨kind, u, v, split, first, behind⟩
  · rintro ⟨kind, u, v, split, first, behind⟩
    exact ⟨kind, u, _, v, split, ⟨first, rfl⟩, behind⟩

theorem reads_blocks {rounds n : Nat} (enough : 8 * size < offset + rounds)
    (enough' : 8 * size < offset + n) :
    Reads size offset (blocks rounds n) fun before _ word after => Blocks offset before word after := by
  induction n generalizing offset with
  | zero => exact .of_lt enough'
  | succ n ih =>
    have next {offset : Nat} (enough : 8 * size < offset + rounds) (enough' : 8 * size < offset + n)
        (final : Bool) : Reads size offset (if final then pure () else blocks rounds n)
        fun before _ word after =>
          if final then word = [] ∧ after = before else Blocks offset before word after := by
      cases final with
      | true => exact (Reads.pure ()).congr fun _ _ _ _ => by simp
      | false => exact (ih enough enough').congr fun _ _ _ _ => by simp
    refine ((spells_takeBit size offset).bind fun _ final _ _ said => (reads_block (by omega)).bind
      fun _ _ _ _ _ => next (by omega) ?_ final).congr fun before _ word after => ?_
    · have long := congrArg List.length said.1
      rw [List.length_singleton] at long
      omega
    constructor
    · rintro ⟨_ | _, _, _, _, rfl, ⟨rfl, rfl⟩, _, u, mid, v, rfl, block, ends⟩
      · have joined := Blocks.cons block ends
        exact joined
      · obtain ⟨rfl, rfl⟩ := ends
        rw [List.append_nil]
        exact .last block
    · rintro (block | ⟨block, later⟩)
      · exact ⟨true, [true], _, _, rfl, ⟨rfl, rfl⟩, (), _, _, [], (List.append_nil _).symm, block, rfl, rfl⟩
      · exact ⟨false, [false], _, _, rfl, ⟨rfl, rfl⟩, (), _, _, _, rfl, block, later⟩

end CloudProvider.Archive.Inflate

namespace CloudProvider.Archive

open Inflate Deflate

theorem flatMap_bitsOf_append_inj {bytes bytes' : Bytes} {bits bits' : List Bool}
    (partly : bits.length < 8) (partly' : bits'.length < 8)
    (same : bits ++ bytes.flatMap bitsOf = bits' ++ bytes'.flatMap bitsOf) :
    bits = bits' ∧ bytes = bytes' := by
  have long := congrArg List.length same
  rw [List.length_append, List.length_append, length_flatMap_bitsOf, length_flatMap_bitsOf] at long
  obtain ⟨first, later⟩ := List.append_inj same (by omega)
  exact ⟨first, flatMap_bitsOf_inj later⟩

/-- Decompression comes to a proper end just behind a stream, and gives the contents of it. -/
theorem inflate_eq_ok_iff {taken : Nat} {input output rest : Bytes} :
    inflate taken input = ⟨output, .ok rest⟩ ↔ ∃ data, input = data ++ rest ∧ Deflated data output := by
  let start : State := { pending := [], rest := input, taken, output := #[], settled := 0 }
  let rounds := 8 * input.length + 1
  have here : start.At input.length 0 :=
    ⟨Nat.zero_lt_succ 7, by rw [Nat.zero_add]; exact length_flatMap_bitsOf input⟩
  have reads : Reads input.length 0 (blocks rounds rounds) fun before _ word after =>
      Blocks 0 before word after :=
    reads_blocks (by omega) (by omega)
  have ran : inflate taken input = ⟨output, .ok rest⟩ ↔
      ∃ s, (blocks rounds rounds).run start = (.ok (), s) ∧ s.output.toList = output ∧ s.rest = rest := by
    unfold inflate
    dsimp only
    generalize (blocks rounds rounds).run start = result
    rcases result with ⟨stop | ⟨⟩, s⟩
    · have failed (s' : State) : (Except.error stop, s) ≠ (Except.ok (), s') := nofun
      cases stop <;> exact ⟨nofun, fun ⟨s', same, _⟩ => absurd same (failed s')⟩
    · constructor
      · intro same
        obtain ⟨output, rest⟩ := Inflated.mk.inj same
        exact ⟨s, rfl, output, Except.ok.inj rest⟩
      · rintro ⟨s', same, rfl, rfl⟩
        obtain ⟨-, rfl⟩ := Prod.mk.inj same
        rfl
  rw [ran]
  constructor
  · rintro ⟨s, ended, rfl, rfl⟩
    obtain ⟨word, split, partly, means⟩ := reads.sound here ended
    -- The stream is all that stands before what is left, with the pending bits as its padding.
    let data := input.take (input.length - s.rest.length)
    let behind := input.drop (input.length - s.rest.length)
    have parted : input = data ++ behind := (List.take_append_drop ..).symm
    have bits : data.flatMap bitsOf ++ behind.flatMap bitsOf =
        (word ++ s.pending) ++ s.rest.flatMap bitsOf := by
      rw [← List.flatMap_append, ← parted, List.append_assoc]
      exact split
    have long : behind.length = s.rest.length := by
      have whole := congrArg List.length bits
      rw [← List.flatMap_append, ← parted, List.length_append, length_flatMap_bitsOf,
        length_flatMap_bitsOf] at whole
      rw [List.length_drop]
      omega
    obtain ⟨first, second⟩ := List.append_inj' bits (by simp only [length_flatMap_bitsOf, long])
    rw [flatMap_bitsOf_inj second] at parted
    exact ⟨data, parted, word, s.pending, first, partly, means⟩
  · rintro ⟨data, rfl, word, padding, split, partly, means⟩
    have begun : start.bits = word ++ (padding ++ rest.flatMap bitsOf) := by
      rw [← List.append_assoc, ← split, ← List.flatMap_append]
      rfl
    obtain ⟨s, ended, left, output⟩ := reads.complete here begun means
    obtain ⟨_, -, partly', -⟩ := reads.sound here ended
    exact ⟨s, ended, output, (flatMap_bitsOf_append_inj partly' partly left).2⟩

end CloudProvider.Archive
