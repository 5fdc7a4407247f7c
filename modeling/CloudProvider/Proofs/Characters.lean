import CloudProvider.Text.Utf8
import Mathlib.Tactic.IntervalCases

/-! Characters read back from their UTF-8 form. The form of a character begins with a byte that says how
long it is, and the bytes of the form, put together again, are the code point. -/

namespace CloudProvider.Text.Utf8

theorem toNat_ranges (c : Char) : c.toNat < 0xD800 ∨ 0xDFFF < c.toNat ∧ c.toNat < 0x110000 :=
  c.valid

theorem utf8EncodeChar_eq (c : Char) :
    String.utf8EncodeChar c =
      if c.toNat ≤ 0x7F then [UInt8.ofNat c.toNat]
      else if c.toNat ≤ 0x7FF then
        [UInt8.ofNat (c.toNat / 64 % 32 + 192), UInt8.ofNat (c.toNat % 64 + 128)]
      else if c.toNat ≤ 0xFFFF then
        [UInt8.ofNat (c.toNat / 4096 % 16 + 224), UInt8.ofNat (c.toNat / 64 % 64 + 128),
          UInt8.ofNat (c.toNat % 64 + 128)]
      else
        [UInt8.ofNat (c.toNat / 262144 % 8 + 240), UInt8.ofNat (c.toNat / 4096 % 64 + 128),
          UInt8.ofNat (c.toNat / 64 % 64 + 128), UInt8.ofNat (c.toNat % 64 + 128)] := rfl

theorem toNat_byte {n : Nat} (fits : n < 256) : (UInt8.ofNat n).toNat = n := by
  rw [UInt8.toNat_ofNat']
  exact Nat.mod_eq_of_lt fits

theorem join_byte {bits n : Nat} (fits : n < 64) :
    join bits (UInt8.ofNat (n + 128)) = bits * 64 + n := by
  have byte : (UInt8.ofNat (n + 128)).toNat = n + 128 := toNat_byte (by omega)
  unfold join
  rw [byte, Nat.add_sub_cancel n 128]

theorem isTail_byte {n : Nat} (fits : n < 64) : isTail (UInt8.ofNat (n + 128)) = true := by
  have low : (0x80 : UInt8).toNat = 128 := rfl
  have high : (0xBF : UInt8).toNat = 191 := rfl
  simp only [isTail, Bool.and_eq_true, decide_eq_true_eq, UInt8.le_iff_toNat_le, low, high,
    toNat_byte (show n + 128 < 256 by omega)]
  omega

section Fronts

variable {b : UInt8} {l : Lead} {n₁ n₂ n₃ : Nat} (rest : Bytes)

def Lead.Admits (l : Lead) (n : Nat) : Prop :=
  n < 64 ∧ l.low.toNat ≤ n + 128 ∧ n + 128 ≤ l.high.toNat

theorem Lead.Admits.within (admits : l.Admits n₁) :
    ¬ (decide (UInt8.ofNat (n₁ + 128) < l.low) || decide (l.high < UInt8.ofNat (n₁ + 128))) = true := by
  obtain ⟨fits, low, high⟩ := admits
  simp only [Bool.or_eq_true, decide_eq_true_eq, UInt8.lt_iff_toNat_lt,
    toNat_byte (show n₁ + 128 < 256 by omega)]
  omega

theorem Lead.Admits.narrowed {tails bits n : Nat} {low high : UInt8} {p q : Prop} [Decidable p]
    [Decidable q] (fits : n < 64) (above : p → low.toNat ≤ n + 128)
    (below : q → n + 128 ≤ high.toNat) :
    (Lead.mk tails (if p then low else 0x80) (if q then high else 0xBF) bits).Admits n := by
  have least : (0x80 : UInt8).toNat = 128 := rfl
  have most : (0xBF : UInt8).toNat = 191 := rfl
  refine ⟨fits, ?_, ?_⟩
  · dsimp only
    split
    · next narrow => exact above narrow
    · omega
  · dsimp only
    split
    · next narrow => exact below narrow
    · omega

theorem front_two (high : ¬ b < 0x80) (leads : lead? b = some l) (tails : l.tails = 1)
    (admits : l.Admits n₁) :
    front b (UInt8.ofNat (n₁ + 128) :: rest) = .char (Char.ofNat (l.bits * 64 + n₁)) rest := by
  simp only [front, if_neg high, leads, if_neg admits.within, if_pos tails, join_byte admits.1]

theorem front_three (high : ¬ b < 0x80) (leads : lead? b = some l) (tails : l.tails = 2)
    (admits : l.Admits n₁) (fits₂ : n₂ < 64) :
    front b (UInt8.ofNat (n₁ + 128) :: UInt8.ofNat (n₂ + 128) :: rest) =
      .char (Char.ofNat ((l.bits * 64 + n₁) * 64 + n₂)) rest := by
  have other : ¬ l.tails = 1 := by omega
  simp only [front, if_neg high, leads, if_neg admits.within, if_neg other, if_pos tails,
    isTail_byte fits₂, Bool.not_true, Bool.false_eq_true, if_false, join_byte admits.1,
    join_byte fits₂]

theorem front_four (high : ¬ b < 0x80) (leads : lead? b = some l) (tails : l.tails = 3)
    (admits : l.Admits n₁) (fits₂ : n₂ < 64) (fits₃ : n₃ < 64) :
    front b (UInt8.ofNat (n₁ + 128) :: UInt8.ofNat (n₂ + 128) :: UInt8.ofNat (n₃ + 128) :: rest) =
      .char (Char.ofNat (((l.bits * 64 + n₁) * 64 + n₂) * 64 + n₃)) rest := by
  have other : ¬ l.tails = 1 := by omega
  have another : ¬ l.tails = 2 := by omega
  simp only [front, if_neg high, leads, if_neg admits.within, if_neg other, if_neg another,
    isTail_byte fits₂, isTail_byte fits₃, Bool.not_true, Bool.false_eq_true, if_false,
    join_byte admits.1, join_byte fits₂, join_byte fits₃]

theorem byte_high {n : Nat} (high : 0x80 ≤ n) (fits : n < 256) : ¬ UInt8.ofNat n < 0x80 := by
  rw [UInt8.lt_iff_toNat_lt, toNat_byte fits]
  exact Nat.not_lt_of_le high

end Fronts

theorem lead?_two {n : Nat} (low : 2 ≤ n) (high : n < 32) :
    lead? (UInt8.ofNat (n + 192)) = some ⟨1, 0x80, 0xBF, n⟩ := by
  interval_cases n <;> rfl

theorem lead?_three {n : Nat} (high : n < 16) :
    lead? (UInt8.ofNat (n + 224)) =
      some ⟨2, if n = 0 then 0xA0 else 0x80, if n = 13 then 0x9F else 0xBF, n⟩ := by
  interval_cases n <;> rfl

theorem lead?_four {n : Nat} (high : n < 5) :
    lead? (UInt8.ofNat (n + 240)) =
      some ⟨3, if n = 0 then 0x90 else 0x80, if n = 4 then 0x8F else 0xBF, n⟩ := by
  interval_cases n <;> rfl

theorem exists_front (c : Char) (rest : Bytes) :
    ∃ b tail, String.utf8EncodeChar c = b :: tail ∧ front b (tail ++ rest) = .char c rest := by
  have ranges := toNat_ranges c
  have low : (0x80 : UInt8).toNat = 128 := rfl
  have back {n : Nat} (same : n = c.toNat) : Front.char (Char.ofNat n) rest = .char c rest := by
    rw [same, Char.ofNat_toNat]
  rw [utf8EncodeChar_eq]
  split
  · next small =>
    have first : UInt8.ofNat c.toNat < 0x80 := by
      rw [UInt8.lt_iff_toNat_lt, toNat_byte (by omega), low]
      omega
    refine ⟨_, [], rfl, ?_⟩
    have same : Char.ofUInt8 (UInt8.ofNat c.toNat) = c :=
      Char.ext (UInt32.toNat_inj.mp (toNat_byte (by omega)))
    unfold front
    rw [if_pos first, same]
    rfl
  split
  · next small more =>
    have admits : (Lead.mk 1 0x80 0xBF (c.toNat / 64 % 32)).Admits (c.toNat % 64) :=
      ⟨by omega, Nat.le_add_left .., show c.toNat % 64 + 128 ≤ 191 by omega⟩
    refine ⟨_, _, rfl, (front_two rest (byte_high (by omega) (by omega))
      (lead?_two (by omega) (by omega)) rfl admits).trans (back ?_)⟩
    dsimp only
    omega
  split
  · -- Narrowed for overlong forms and for surrogates.
    have above (zero : c.toNat / 4096 % 16 = 0) : 160 ≤ c.toNat / 64 % 64 + 128 := by omega
    have below (last : c.toNat / 4096 % 16 = 13) : c.toNat / 64 % 64 + 128 ≤ 159 := by omega
    refine ⟨_, _, rfl, (front_three rest (byte_high (by omega) (by omega))
      (lead?_three (by omega)) rfl (.narrowed (by omega) above below) (by omega)).trans (back ?_)⟩
    dsimp only
    omega
  · -- Narrowed for overlong forms and for what lies beyond the code points.
    have above (zero : c.toNat / 262144 % 8 = 0) : 144 ≤ c.toNat / 4096 % 64 + 128 := by omega
    have below (last : c.toNat / 262144 % 8 = 4) : c.toNat / 4096 % 64 + 128 ≤ 143 := by omega
    refine ⟨_, _, rfl, (front_four rest (byte_high (by omega) (by omega))
      (lead?_four (by omega)) rfl (.narrowed (by omega) above below) (by omega)
      (by omega)).trans (back ?_)⟩
    dsimp only
    omega

theorem chars?_encode (cs : List Char) : chars? (cs.flatMap String.utf8EncodeChar) = some cs := by
  induction cs with
  | nil => simp [chars?]
  | cons c cs ih =>
    obtain ⟨b, tail, form, reads⟩ := exists_front c (cs.flatMap String.utf8EncodeChar)
    rw [List.flatMap_cons, form, List.cons_append, chars?]
    split
    · next found =>
      obtain ⟨rfl, rfl⟩ := Front.char.inj (reads.symm.trans found)
      rw [ih]
      rfl
    · next found => cases reads.symm.trans found

theorem exists_tails {b : UInt8} {rest rest' : Bytes} {c : Char}
    (passed : front b rest = .char c rest') :
    ∃ tails : Bytes, (∀ t ∈ tails, 0x80 ≤ t) ∧ rest = tails ++ rest' := by
  have least {l : Lead} (leads : lead? b = some l) : 0x80 ≤ l.low := by
    unfold lead? at leads
    dsimp only at leads
    split_ifs at leads <;> obtain rfl := Option.some.inj leads <;> exact of_decide_eq_true rfl
  have tail {t : UInt8} (found : isTail t = true) : 0x80 ≤ t := by
    simp only [isTail, Bool.and_eq_true, decide_eq_true_eq] at found
    exact found.1
  unfold front at passed
  split at passed
  · obtain ⟨-, rfl⟩ := Front.char.inj passed
    exact ⟨[], nofun, rfl⟩
  split at passed
  · cases passed
  · cases passed
  next l t₁ rest₁ leads =>
  split at passed
  · cases passed
  next within =>
  simp only [Bool.or_eq_true, decide_eq_true_eq, not_or, UInt8.not_lt] at within
  have first := UInt8.le_trans (least leads) within.1
  split at passed
  · obtain ⟨-, rfl⟩ := Front.char.inj passed
    exact ⟨[t₁], List.forall_mem_singleton.mpr first, rfl⟩
  split at passed
  · cases passed
  next t₂ rest₂ =>
  split at passed
  · cases passed
  next second =>
  have second := tail (by simpa using second)
  split at passed
  · obtain ⟨-, rfl⟩ := Front.char.inj passed
    exact ⟨[t₁, t₂], by simp [first, second], rfl⟩
  split at passed
  · cases passed
  next t₃ rest₃ =>
  split at passed
  · cases passed
  next third =>
  have third := tail (by simpa using third)
  obtain ⟨-, rfl⟩ := Front.char.inj passed
  exact ⟨[t₁, t₂, t₃], by simp [first, second, third], rfl⟩

theorem decode?_encode (s : String) : decode? (encode s) = some s := by
  rw [decode?, encode, chars?_encode, Option.map_some, String.ofList_toList]

theorem lossyChars_encode (cs : List Char) :
    lossyChars (cs.flatMap String.utf8EncodeChar) = cs := by
  induction cs with
  | nil => simp [lossyChars]
  | cons c cs ih =>
    obtain ⟨b, tail, form, reads⟩ := exists_front c (cs.flatMap String.utf8EncodeChar)
    rw [List.flatMap_cons, form, List.cons_append, lossyChars]
    split
    · next found =>
      obtain ⟨rfl, rfl⟩ := Front.char.inj (reads.symm.trans found)
      rw [ih]
    · next found => cases reads.symm.trans found

theorem lossy_encode (s : String) : lossy (encode s) = s := by
  rw [lossy, encode, lossyChars_encode, String.ofList_toList]

theorem encode_injective {s t : String} (same : encode s = encode t) : s = t := by
  have decoded := congrArg decode? same
  rw [decode?_encode, decode?_encode] at decoded
  exact Option.some.inj decoded

end CloudProvider.Text.Utf8
