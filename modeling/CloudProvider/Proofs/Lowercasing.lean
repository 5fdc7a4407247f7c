import CloudProvider.Text.Lowercase
import Mathlib.Data.List.Basic

/-! Lower case is its own lower case. That is a property of the table: no lower-case form that it gives
is a character that it maps itself. With it a text that has been lowered once stays as it is, although
the length of a text may change and a sigma depends on its neighbours. -/

namespace CloudProvider.Text

namespace LowerRun

def low (run : LowerRun) : Nat :=
  (run.first + run.shift).toNat

def high (run : LowerRun) : Nat :=
  (run.last + run.shift).toNat

/-- The forms lie before the characters of the other run, behind them, or in their gaps. -/
def misses (run other : LowerRun) : Bool :=
  Nat.blt run.high other.first || Nat.blt other.last run.low ||
    (run.step == 2 || run.first == run.last) && other.step == 2 && run.low % 2 != other.first % 2

/-- The forms are characters behind the capitals of ASCII, and the dotted capital I is none of
them. -/
def IsSound (run : LowerRun) : Prop :=
  0x5A < run.low ∧ (run.high < 0xD800 ∨ 0xDFFF < run.low ∧ run.high < 0x110000) ∧
    (run.high < 0x130 ∨ 0x130 < run.low)

instance (run : LowerRun) : Decidable run.IsSound :=
  inferInstanceAs (Decidable (_ ∧ _))

variable {run other : LowerRun} {n : Nat}

theorem holds_iff : run.holds n = true ↔
    run.first ≤ n ∧ n ≤ run.last ∧ (n - run.first) % run.step = 0 := by
  simp [holds, and_assoc]

theorem form_mem_range (held : run.holds n = true) :
    run.low ≤ (n + run.shift).toNat ∧ (n + run.shift).toNat ≤ run.high := by
  obtain ⟨least, most, -⟩ := holds_iff.mp held
  unfold low high
  omega

theorem not_holds_of_misses (sound : run.IsSound) (misses : run.misses other = true)
    (held : run.holds n = true) : other.holds (n + run.shift).toNat = false := by
  obtain ⟨above, below⟩ := form_mem_range held
  obtain ⟨least, most, stepped⟩ := holds_iff.mp held
  rw [Bool.eq_false_iff]
  intro taken
  obtain ⟨least', most', stepped'⟩ := holds_iff.mp taken
  simp only [LowerRun.misses, Bool.or_eq_true, Bool.and_eq_true, Nat.blt_eq, beq_iff_eq,
    bne_iff_ne] at misses
  rcases misses with (before | behind) | ⟨⟨even, gaps⟩, apart⟩
  · omega
  · omega
  · rw [gaps] at stepped'
    have positive : 0x5A < run.low := sound.1
    unfold low at apart positive
    rcases even with even | single
    · rw [even] at stepped
      omega
    · omega

end LowerRun

theorem lowerRuns_isSound : ∀ run ∈ lowerRuns, run.IsSound := by
  decide +kernel

/-- No form in the table has a form itself. -/
theorem lowerRuns_misses : ∀ run ∈ lowerRuns, ∀ other ∈ lowerRuns, run.misses other = true := by
  have all : (lowerRuns.all fun run => lowerRuns.all run.misses) = true := by
    decide +kernel
  intro run mem other mem'
  exact List.all_eq_true.mp (List.all_eq_true.mp all run mem) other mem'

/-- A character that lower-casing leaves as it is, wherever it stands. -/
def Settled (c : Char) : Prop :=
  lowerChar c = c ∧ c ≠ 'İ'

instance (c : Char) : Decidable (Settled c) :=
  inferInstanceAs (Decidable (_ ∧ _))

theorem Settled.ne_sigma {c : Char} (settled : Settled c) : c ≠ 'Σ' := by
  rintro rfl
  exact absurd settled.1 (by decide +kernel)

theorem toLower_of_lt {c : Char} (behind : 0x5A < c.toNat) : c.toLower = c := by
  refine dif_neg fun capital => ?_
  have most : c.toNat ≤ 0x5A := UInt32.le_iff_toNat_le.mp capital.2
  omega

theorem settled_toLower : ∀ n < 0x80, Settled (Char.ofNat n).toLower := by
  decide

theorem settled_lowerChar_of_ascii {c : Char} (ascii : c.toNat < 0x80) : Settled (lowerChar c) := by
  rw [lowerChar, if_pos ascii]
  have settled := settled_toLower c.toNat ascii
  rwa [Char.ofNat_toNat] at settled

theorem settled_form {run : LowerRun} {n : Nat} (mem : run ∈ lowerRuns)
    (held : run.holds n = true) : Settled (Char.ofNat (n + run.shift).toNat) := by
  have sound := lowerRuns_isSound run mem
  obtain ⟨above, below⟩ := LowerRun.form_mem_range held
  have misses : ∀ other ∈ lowerRuns, other.holds (n + run.shift).toNat = false :=
    fun other mem' => LowerRun.not_holds_of_misses sound (lowerRuns_misses run mem other mem') held
  obtain ⟨low, range, dotted⟩ := sound
  generalize (n + run.shift).toNat = m at above below misses
  have valid : m.isValidChar := by
    unfold Nat.isValidChar
    omega
  have code : (Char.ofNat m).toNat = m := by
    rw [Char.ofNat, dif_pos valid]
    rfl
  constructor
  · rw [lowerChar, code, List.find?_eq_none.mpr fun other mem' => by simp [misses other mem']]
    split
    case isTrue => exact toLower_of_lt (by omega)
    case isFalse => rfl
  · rintro same
    have dot : m = 0x130 := by
      rw [← code, same]
      rfl
    omega

theorem settled_lowerChar {c : Char} (plain : c ≠ 'İ') : Settled (lowerChar c) := by
  by_cases ascii : c.toNat < 0x80
  · exact settled_lowerChar_of_ascii ascii
  cases found : lowerRuns.find? (·.holds c.toNat) with
  | some run =>
    have form : lowerChar c = Char.ofNat (c.toNat + run.shift).toNat := by
      simp only [lowerChar, if_neg ascii, found]
    have held := List.find?_some found
    rw [form]
    exact settled_form (List.mem_of_find?_eq_some found) held
  | none =>
    have same : lowerChar c = c := by
      simp only [lowerChar, if_neg ascii, found]
    rw [same]
    exact ⟨same, plain⟩

theorem settled_of_mem_lowerChars {before cs : List Char} {c : Char}
    (mem : c ∈ lowerChars before cs) : Settled c := by
  induction cs generalizing before with
  | nil => cases mem
  | cons first rest ih =>
    rw [lowerChars] at mem
    rcases List.mem_append.mp mem with mem | mem
    · split at mem
      · rw [List.mem_singleton.mp mem]
        split <;> decide +kernel
      · split at mem
        · rcases List.mem_pair.mp mem with rfl | rfl <;> decide +kernel
        case isFalse plain =>
          rw [List.mem_singleton.mp mem]
          exact settled_lowerChar plain
    · exact ih mem

theorem lowerChars_of_settled {cs : List Char} (settled : ∀ c ∈ cs, Settled c)
    (before : List Char) : lowerChars before cs = cs := by
  induction cs generalizing before with
  | nil => rfl
  | cons c rest ih =>
    have first := settled c List.mem_cons_self
    rw [lowerChars, if_neg first.ne_sigma, if_neg first.2, first.1, List.singleton_append,
      ih fun d mem => settled d (List.mem_cons_of_mem c mem)]

@[simp] theorem lower_lower (s : String) : lower (lower s) = lower s := by
  rw [lower, lower, String.toList_ofList]
  exact congrArg String.ofList
    (lowerChars_of_settled (fun c mem => settled_of_mem_lowerChars mem) [])

/-! ### Texts in ASCII -/

theorem lowerChars_of_ascii {cs : List Char} (ascii : ∀ c ∈ cs, c.toNat < 0x80)
    (before : List Char) : lowerChars before cs = cs.map Char.toLower := by
  induction cs generalizing before with
  | nil => rfl
  | cons c rest ih =>
    have low := ascii c List.mem_cons_self
    have plain : c ≠ 'Σ' ∧ c ≠ 'İ' := by
      constructor <;> rintro rfl <;> exact absurd low (by decide)
    rw [lowerChars, if_neg plain.1, if_neg plain.2, lowerChar, if_pos low, List.singleton_append,
      ih fun d mem => ascii d (List.mem_cons_of_mem c mem), List.map_cons]

theorem toNat_toLower_lt_iff {c : Char} : c.toLower.toNat < 0x80 ↔ c.toNat < 0x80 := by
  by_cases capital : c.toNat ≤ 0x5A
  · have ascii : c.toNat < 0x80 := by omega
    have lowered : ∀ n < 0x80, (Char.ofNat n).toLower.toNat < 0x80 := by
      decide
    have here := lowered c.toNat ascii
    rw [Char.ofNat_toNat] at here
    exact iff_of_true here ascii
  · rw [toLower_of_lt (Nat.lt_of_not_le capital)]

theorem lower_eq_of_map_toLower {s t : String} (ascii : ∀ c ∈ s.toList, c.toNat < 0x80)
    (same : t.toList.map Char.toLower = s.toList.map Char.toLower) : lower t = lower s := by
  have ascii' : ∀ c ∈ t.toList, c.toNat < 0x80 := by
    intro c mem
    have lowered : c.toLower ∈ s.toList.map Char.toLower := same ▸ List.mem_map_of_mem mem
    obtain ⟨d, mem', form⟩ := List.mem_map.mp lowered
    rw [← toNat_toLower_lt_iff, ← form]
    exact toNat_toLower_lt_iff.mpr (ascii d mem')
  rw [lower, lower, lowerChars_of_ascii ascii', lowerChars_of_ascii ascii, same]

end CloudProvider.Text
