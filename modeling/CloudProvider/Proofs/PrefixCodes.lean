import CloudProvider.Proofs.BitReading
import Mathlib.Data.List.Induction

/-! Canonical prefix codes, by the lengths of their words alone. The words of a length are numbered in
the order of the symbols, and the first of them follows, one bit longer, behind the last one that is a
bit shorter. Walking down the levels finds just these words, whatever the lengths are; and whether the
walk can go astray is a matter of the room that the words take up together. -/

namespace CloudProvider.Archive.Huffman

/-- The value of a word whose first bit counts most. -/
def highFirst (word : List Bool) : Nat :=
  word.foldl (fun n bit => 2 * n + bit.toNat) 0

theorem highFirst_concat (word : List Bool) (bit : Bool) :
    highFirst (word ++ [bit]) = 2 * highFirst word + bit.toNat := by
  simp [highFirst]

def wordCount (lengths : List Nat) : Nat → Nat
  | 0 => 0
  | n + 1 => lengths.count (n + 1)

def firstWord (lengths : List Nat) : Nat → Nat
  | 0 => 0
  | n + 1 => 2 * (firstWord lengths n + wordCount lengths n)

structure IsWord (lengths : List Nat) (symbol : Nat) (word : List Bool) : Prop where
  filled : word ≠ []
  short : word.length ≤ maxLength
  long : lengths[symbol]? = some word.length
  value : highFirst word = firstWord lengths word.length + (lengths.take symbol).count word.length

/-- The symbols with words of a length, in order, if they are counted from `start`. -/
def symbolsFrom (start : Nat) (lengths : List Nat) (length : Nat) : List Nat :=
  ((lengths.zipIdx start).filter (·.1 = length)).map (·.2)

theorem symbolsFrom_cons (start l : Nat) (lengths : List Nat) (length : Nat) :
    symbolsFrom start (l :: lengths) length =
      if l = length then start :: symbolsFrom (start + 1) lengths length
      else symbolsFrom (start + 1) lengths length := by
  rw [symbolsFrom, List.zipIdx_cons, List.filter_cons]
  split <;> simp_all [symbolsFrom]

theorem length_symbolsFrom (start : Nat) (lengths : List Nat) (length : Nat) :
    (symbolsFrom start lengths length).length = lengths.count length := by
  induction lengths generalizing start with
  | nil => rfl
  | cons l lengths ih =>
    rw [symbolsFrom_cons, List.count_cons]
    split <;> simp_all

theorem getElem?_symbolsFrom (start : Nat) (lengths : List Nat) (length index symbol : Nat) :
    (symbolsFrom start lengths length)[index]? = some symbol ↔
      ∃ i, symbol = start + i ∧ lengths[i]? = some length ∧ (lengths.take i).count length = index := by
  induction lengths generalizing start index with
  | nil => simp [symbolsFrom]
  | cons l lengths ih =>
    rw [symbolsFrom_cons]
    constructor
    · intro found
      split at found
      · next same =>
        cases index with
        | zero => exact ⟨0, (Option.some.inj found).symm, congrArg some same, rfl⟩
        | succ index =>
          obtain ⟨i, rfl, long, before⟩ := (ih (start + 1) index).mp found
          exact ⟨i + 1, by omega, long, by simp [same, before]⟩
      · next other =>
        obtain ⟨i, rfl, long, before⟩ := (ih (start + 1) index).mp found
        exact ⟨i + 1, by omega, long, by simp [other, before]⟩
    · rintro ⟨_ | i, rfl, long, rfl⟩
      · rw [if_pos (Option.some.inj long)]
        rfl
      · rw [List.take_succ_cons, List.count_cons]
        have found := (ih (start + 1) _).mpr ⟨i, (Nat.succ_add_eq_add_succ start i).symm, long, rfl⟩
        by_cases same : l = length <;> simpa [same] using found

theorem ofLengths_levels (lengths : List Nat) :
    (ofLengths lengths).levels = (List.range maxLength).map fun n => symbolsFrom 0 lengths (n + 1) := rfl

/-! Words -/

/-- What goes before the end of a word is no word itself: it lies behind all words of its length. -/
theorem firstWord_add_le {lengths : List Nat} {before after : List Bool} (parted : after ≠ [])
    (high : firstWord lengths (before ++ after).length ≤ highFirst (before ++ after)) :
    firstWord lengths before.length + wordCount lengths before.length ≤ highFirst before := by
  -- Taking the last bit off halves the value, and the first word of a length is twice what lies behind
  -- all words that are a bit shorter.
  induction after using List.reverseRecOn with
  | nil => exact absurd rfl parted
  | append_singleton after bit ih =>
    rw [← List.append_assoc, highFirst_concat, List.length_append, List.length_singleton, firstWord] at high
    have shorter : firstWord lengths (before ++ after).length + wordCount lengths (before ++ after).length ≤
        highFirst (before ++ after) := by
      have bound := bit.toNat_le
      omega
    rcases eq_or_ne after [] with rfl | more
    · simpa using shorter
    · exact ih more (by omega)

theorem isWord_iff {lengths : List Nat} {symbol : Nat} {word : List Bool} (filled : word ≠ [])
    (short : word.length ≤ maxLength) (high : firstWord lengths word.length ≤ highFirst word) :
    IsWord lengths symbol word ↔
      (symbolsFrom 0 lengths word.length)[highFirst word - firstWord lengths word.length]? =
        some symbol := by
  rw [getElem?_symbolsFrom]
  constructor
  · rintro ⟨-, -, long, value⟩
    exact ⟨symbol, (Nat.zero_add _).symm, long, by omega⟩
  · rintro ⟨i, rfl, long, value⟩
    rw [Nat.zero_add]
    exact ⟨filled, short, long, by omega⟩

namespace IsWord

variable {lengths : List Nat} {symbol : Nat} {word : List Bool}

theorem high (h : IsWord lengths symbol word) : firstWord lengths word.length ≤ highFirst word := by
  rw [h.value]
  exact Nat.le_add_right _ _

theorem found (h : IsWord lengths symbol word) :
    (symbolsFrom 0 lengths word.length)[highFirst word - firstWord lengths word.length]? = some symbol :=
  (isWord_iff h.filled h.short h.high).mp h

theorem value_lt (h : IsWord lengths symbol word) :
    highFirst word < firstWord lengths word.length + wordCount lengths word.length := by
  obtain ⟨n, length⟩ := Nat.exists_eq_add_one_of_ne_zero (mt List.length_eq_zero_iff.mp h.filled)
  obtain ⟨inside, -⟩ := List.getElem?_eq_some_iff.mp h.found
  rw [length_symbolsFrom, length] at inside
  rw [length, wordCount]
  have high := h.high
  rw [length] at high
  omega

theorem prefix_free {symbol' : Nat} {after : List Bool} (h : IsWord lengths symbol word)
    (h' : IsWord lengths symbol' (word ++ after)) : after = [] ∧ symbol' = symbol := by
  rcases eq_or_ne after [] with rfl | more
  · have same := h'.found
    rw [List.append_nil, h.found] at same
    exact ⟨rfl, (Option.some.inj same).symm⟩
  · exact absurd h.value_lt (Nat.not_lt.mpr (firstWord_add_le more h'.high))

end IsWord

/-! Room -/

/-- How many of the longest words there could be instead of one of a length. -/
def share (longest length : Nat) : Nat :=
  if 1 ≤ length ∧ length ≤ longest then 2 ^ (longest - length) else 0

theorem share_succ (longest length : Nat) :
    share (longest + 1) length = 2 * share longest length + if length = longest + 1 then 1 else 0 := by
  unfold share
  rcases Nat.lt_trichotomy length (longest + 1) with shorter | rfl | longer
  · by_cases some : 1 ≤ length
    · rw [if_pos ⟨some, by omega⟩, if_pos ⟨some, by omega⟩, if_neg (by omega),
        Nat.sub_add_comm (by omega), Nat.pow_succ', Nat.add_zero]
    · rw [if_neg (by omega), if_neg (by omega), if_neg (by omega)]
  · simp
  · rw [if_neg (by omega), if_neg (by omega), if_neg (by omega)]

theorem sum_share_zero (lengths : List Nat) : (lengths.map (share 0)).sum = 0 := by
  induction lengths with
  | nil => rfl
  | cons l lengths ih =>
    rw [List.map_cons, List.sum_cons, ih]
    exact if_neg (by omega)

theorem sum_share_succ (longest : Nat) (lengths : List Nat) :
    (lengths.map (share (longest + 1))).sum =
      2 * (lengths.map (share longest)).sum + lengths.count (longest + 1) := by
  induction lengths with
  | nil => rfl
  | cons l lengths ih =>
    rw [List.map_cons, List.sum_cons, ih, share_succ, List.map_cons, List.sum_cons, List.count_cons]
    by_cases same : l = longest + 1 <;> simp [same] <;> omega

def taken : List (List Nat) → Nat
  | [] => 0
  | symbols :: deeper => symbols.length * 2 ^ deeper.length + taken deeper

theorem taken_concat (levels : List (List Nat)) (symbols : List Nat) :
    taken (levels ++ [symbols]) = 2 * taken levels + symbols.length := by
  induction levels with
  | nil => simp [taken]
  | cons first levels ih =>
    simp only [List.cons_append, taken, ih, List.length_append, List.length_singleton, Nat.pow_succ]
    ring

theorem taken_range (lengths : List Nat) (longest : Nat) :
    taken ((List.range longest).map fun n => symbolsFrom 0 lengths (n + 1)) =
      (lengths.map (share longest)).sum := by
  induction longest with
  | zero => exact (sum_share_zero lengths).symm
  | succ longest ih =>
    rw [List.range_succ, List.map_append, List.map_singleton, taken_concat, ih, sum_share_succ,
      length_symbolsFrom]

theorem room?_go_eq_some_iff (room left : Nat) (levels : List (List Nat)) :
    room?.go room levels = some left ↔ left + taken levels = room * 2 ^ levels.length := by
  induction levels generalizing room with
  | nil => simp [room?.go, taken, eq_comm]
  | cons symbols deeper ih =>
    have doubled : room * 2 ^ (symbols :: deeper).length = 2 * room * 2 ^ deeper.length := by
      rw [List.length_cons, Nat.pow_succ]
      ring
    rw [room?.go, taken, doubled]
    split
    · next full =>
      have more : 2 * room * 2 ^ deeper.length < symbols.length * 2 ^ deeper.length :=
        Nat.mul_lt_mul_of_pos_right full (Nat.two_pow_pos _)
      constructor
      · intro impossible
        cases impossible
      · intro fits
        omega
    · next fits =>
      have less : symbols.length * 2 ^ deeper.length ≤ 2 * room * 2 ^ deeper.length :=
        Nat.mul_le_mul_right _ (Nat.not_lt.mp fits)
      rw [ih, Nat.sub_mul]
      omega

/-- The words take up all the room, or there is one at most. -/
def Usable (lengths : List Nat) : Prop :=
  (lengths.map (share maxLength)).sum = 2 ^ maxLength ∨
    lengths.countP (fun l => 1 ≤ l ∧ l ≤ maxLength) ≤ 1

theorem length_flatten_range (lengths : List Nat) (longest : Nat) :
    ((List.range longest).map fun n => symbolsFrom 0 lengths (n + 1)).flatten.length =
      lengths.countP fun l => 1 ≤ l ∧ l ≤ longest := by
  induction longest with
  | zero =>
    symm
    simp [List.countP_eq_zero]
    omega
  | succ longest ih =>
    have split : lengths.countP (fun l => 1 ≤ l ∧ l ≤ longest + 1) =
        lengths.countP (fun l => 1 ≤ l ∧ l ≤ longest) + lengths.count (longest + 1) := by
      clear ih
      induction lengths with
      | nil => rfl
      | cons l lengths ih =>
        simp only [List.countP_cons, List.count_cons, ih]
        by_cases same : l = longest + 1
        · simp [same]
          omega
        · have within : (1 ≤ l ∧ l ≤ longest + 1) ↔ 1 ≤ l ∧ l ≤ longest := by omega
          simp [same, within]
          omega
    rw [List.range_succ, List.map_append, List.flatten_append, List.length_append, ih, split]
    simp [length_symbolsFrom]

theorem isUsable_ofLengths (lengths : List Nat) : (ofLengths lengths).isUsable ↔ Usable lengths := by
  rw [isUsable, Usable, room?, size, Bool.or_eq_true, decide_eq_true_iff, decide_eq_true_iff,
    room?_go_eq_some_iff, ofLengths_levels, taken_range, length_flatten_range]
  simp

instance (lengths : List Nat) : Decidable (Usable lengths) :=
  inferInstanceAs (Decidable (_ ∨ _))

end CloudProvider.Archive.Huffman

namespace CloudProvider.Archive.Inflate

open Huffman

variable {lengths : List Nat}

theorem takeSymbol_go_cons (fuel code first : Nat) (symbols : List Nat) (deeper : List (List Nat)) :
    takeSymbol.go (fuel + 1) code first (symbols :: deeper) = takeBit >>= fun bit =>
      match symbols[2 * code + bit.toNat - 2 * first]? with
      | some n => pure n
      | none => takeSymbol.go fuel (2 * code + bit.toNat) (2 * first + symbols.length) deeper := by
  change (takeBit >>= fun bit => _) = _
  refine bind_congr fun bit => ?_
  rw [walk]
  rcases symbols[2 * code + bit.toNat - 2 * first]? <;> rfl

theorem spells_lookup {word : List Bool} {further : Inflater Nat} (filled : word ≠ [])
    (short : word.length ≤ maxLength) (high : firstWord lengths word.length ≤ highFirst word)
    (spells : (symbolsFrom 0 lengths word.length)[highFirst word - firstWord lengths word.length]? = none →
      Spells further fun symbol more => more ≠ [] ∧ IsWord lengths symbol (word ++ more)) :
    Spells
      (match (symbolsFrom 0 lengths word.length)[highFirst word - firstWord lengths word.length]? with
        | some n => pure n
        | none => further)
      fun symbol more => IsWord lengths symbol (word ++ more) := by
  split
  · next n found =>
    have h : IsWord lengths n word := (isWord_iff filled short high).mpr found
    refine (Spells.pure n).congr fun symbol more => ?_
    constructor
    · rintro ⟨rfl, rfl⟩
      rwa [List.append_nil]
    · exact fun h' => (h.prefix_free h').symm
  · next missing =>
    refine (spells missing).congr fun symbol more => and_iff_right_of_imp ?_
    rintro h rfl
    rw [List.append_nil, isWord_iff filled short high, missing] at h
    cases h

def levelsBelow (lengths : List Nat) (depth : Nat) : List (List Nat) :=
  (Huffman.ofLengths lengths).levels.drop depth

theorem levelsBelow_of_lt {depth : Nat} (more : depth < maxLength) :
    levelsBelow lengths depth = symbolsFrom 0 lengths (depth + 1) :: levelsBelow lengths (depth + 1) := by
  have inside : depth < (Huffman.ofLengths lengths).levels.length := by
    simpa [ofLengths_levels] using more
  rw [levelsBelow, List.drop_eq_getElem_cons inside]
  simp [levelsBelow, ofLengths_levels]

theorem levelsBelow_of_le {depth : Nat} (deep : maxLength ≤ depth) : levelsBelow lengths depth = [] := by
  rw [levelsBelow, List.drop_eq_nil_iff]
  simpa [ofLengths_levels] using deep

theorem not_isWord_of_le {symbol : Nat} {word more : List Bool} (deep : maxLength ≤ word.length)
    (filled : more ≠ []) : ¬ IsWord lengths symbol (word ++ more) := by
  intro h
  have short := h.short
  rw [List.length_append] at short
  have := List.length_pos_iff.mpr filled
  omega

theorem spells_takeSymbol_go {fuel first : Nat} {word : List Bool}
    (enough : maxLength < fuel + word.length)
    (doubled : 2 * first = firstWord lengths (word.length + 1)) (high : first ≤ highFirst word) :
    Spells (takeSymbol.go fuel (highFirst word) first (levelsBelow lengths word.length))
      fun symbol more => more ≠ [] ∧ IsWord lengths symbol (word ++ more) := by
  -- Twice `first` is the first word of the next length, and what has been read lies behind all words that
  -- are as long as itself: a bit more keeps both true.
  induction fuel generalizing first word with
  | zero =>
    refine (Spells.stop .corrupt).congr fun symbol more => ?_
    exact ⟨False.elim, fun ⟨filled, h⟩ => not_isWord_of_le (by omega) filled h⟩
  | succ fuel ih =>
    rcases Nat.lt_or_ge word.length maxLength with room | deep
    · rw [levelsBelow_of_lt room, takeSymbol_go_cons]
      have next (bit : Bool) : Spells
          (match (symbolsFrom 0 lengths (word.length + 1))[2 * highFirst word + bit.toNat - 2 * first]? with
            | some n => pure n
            | none => takeSymbol.go fuel (2 * highFirst word + bit.toNat)
              (2 * first + (symbolsFrom 0 lengths (word.length + 1)).length)
              (levelsBelow lengths (word.length + 1)))
          fun symbol more => IsWord lengths symbol (word ++ [bit] ++ more) := by
        have longer : word.length + 1 = (word ++ [bit]).length := by simp
        have above : 2 * first ≤ highFirst (word ++ [bit]) := by
          rw [highFirst_concat]
          omega
        rw [doubled] at above ⊢
        rw [← highFirst_concat]
        rw [longer] at above ⊢
        refine spells_lookup (by simp) (by omega) above fun missing => ih (by omega) ?_ ?_
        · rw [firstWord, ← longer, wordCount, length_symbolsFrom]
        · have behind := List.getElem?_eq_none_iff.mp missing
          omega
      refine (spells_takeBit.bind next).congr fun symbol more => ?_
      constructor
      · rintro ⟨bit, _, more, rfl, rfl, h⟩
        exact ⟨by simp, by simpa using h⟩
      · rintro ⟨filled, h⟩
        obtain ⟨bit, more, rfl⟩ := List.exists_cons_of_ne_nil filled
        exact ⟨bit, [bit], more, rfl, rfl, by simpa using h⟩
    · rw [levelsBelow_of_le deep]
      refine (Spells.stop .corrupt).congr fun symbol more => ?_
      exact ⟨False.elim, fun ⟨filled, h⟩ => not_isWord_of_le deep filled h⟩

theorem spells_takeSymbol (lengths : List Nat) :
    Spells (takeSymbol (.ofLengths lengths)) (IsWord lengths) := by
  have whole : Spells (takeSymbol (.ofLengths lengths)) _ :=
    @spells_takeSymbol_go lengths (maxLength + 1) 0 [] (by simp) rfl (Nat.le_refl _)
  exact whole.congr fun symbol word => and_iff_right_of_imp IsWord.filled

end CloudProvider.Archive.Inflate
