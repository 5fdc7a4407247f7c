/-! UTF-8 on lists of bytes. `encode` writes a text; `front` reads what stands at the front of a
byte list, a character or bytes that begin none; `decode?` accepts exactly the texts, and `lossy`
accepts everything, with U+FFFD for each longest run of bytes that begins a character and does not
finish it. -/

namespace CloudProvider

abbrev Bytes := List UInt8

namespace Text.Utf8

def encode (s : String) : Bytes :=
  s.toList.flatMap String.utf8EncodeChar

/-- What a lead byte announces: the number of bytes to follow, the range the first of them has to
lie in, and the high bits that the lead byte itself carries. -/
structure Lead where
  tails : Nat
  low : UInt8
  high : UInt8
  bits : Nat

/-- The narrowed ranges leave out overlong forms, surrogates and what lies beyond U+10FFFF. -/
def lead? (b : UInt8) : Option Lead :=
  let n := b.toNat
  if n < 0xC2 then none
  else if n < 0xE0 then some ⟨1, 0x80, 0xBF, n - 0xC0⟩
  else if n = 0xE0 then some ⟨2, 0xA0, 0xBF, 0⟩
  else if n = 0xED then some ⟨2, 0x80, 0x9F, 0xD⟩
  else if n < 0xF0 then some ⟨2, 0x80, 0xBF, n - 0xE0⟩
  else if n = 0xF0 then some ⟨3, 0x90, 0xBF, 0⟩
  else if n < 0xF4 then some ⟨3, 0x80, 0xBF, n - 0xF0⟩
  else if n = 0xF4 then some ⟨3, 0x80, 0x8F, 4⟩
  else none

def isTail (b : UInt8) : Bool :=
  0x80 ≤ b && b ≤ 0xBF

inductive Front
  | char (c : Char) (rest : Bytes)
  | broken (rest : Bytes)

def Front.rest : Front → Bytes
  | .char _ rest => rest
  | .broken rest => rest

def join (bits : Nat) (tail : UInt8) : Nat :=
  bits * 64 + (tail.toNat - 0x80)

/-- Reads at least the byte `b`; a broken front ends before the byte that broke it. -/
def front (b : UInt8) (rest : Bytes) : Front :=
  if b < 0x80 then .char (Char.ofUInt8 b) rest
  else
    match lead? b, rest with
    | none, _ => .broken rest
    | some _, [] => .broken []
    | some lead, t₁ :: rest₁ =>
      if t₁ < lead.low || lead.high < t₁ then .broken rest
      else if lead.tails = 1 then .char (Char.ofNat (join lead.bits t₁)) rest₁
      else
        match rest₁ with
        | [] => .broken []
        | t₂ :: rest₂ =>
          if !isTail t₂ then .broken rest₁
          else if lead.tails = 2 then .char (Char.ofNat (join (join lead.bits t₁) t₂)) rest₂
          else
            match rest₂ with
            | [] => .broken []
            | t₃ :: rest₃ =>
              if !isTail t₃ then .broken rest₂
              else .char (Char.ofNat (join (join (join lead.bits t₁) t₂) t₃)) rest₃

theorem front_rest_length (b : UInt8) (rest : Bytes) :
    (front b rest).rest.length ≤ rest.length := by
  unfold front
  repeat' split
  all_goals simp [Front.rest]
  all_goals omega

/-- The characters of `bytes`, with U+FFFD for each broken front. -/
def lossyChars : Bytes → List Char
  | [] => []
  | b :: rest =>
    match _ : front b rest with
    | .char c rest' => c :: lossyChars rest'
    | .broken rest' => '\uFFFD' :: lossyChars rest'
termination_by bytes => bytes.length
decreasing_by
  all_goals
    have := front_rest_length b rest
    simp_all only [Front.rest, List.length_cons]
    omega

def lossy (bytes : Bytes) : String :=
  String.ofList (lossyChars bytes)

/-- The characters of `bytes` if no front is broken. -/
def chars? : Bytes → Option (List Char)
  | [] => some []
  | b :: rest =>
    match _ : front b rest with
    | .char c rest' => (chars? rest').map (c :: ·)
    | .broken _ => none
termination_by bytes => bytes.length
decreasing_by
  have := front_rest_length b rest
  simp_all only [Front.rest, List.length_cons]
  omega

def decode? (bytes : Bytes) : Option String :=
  (chars? bytes).map String.ofList

end Text.Utf8
end CloudProvider
