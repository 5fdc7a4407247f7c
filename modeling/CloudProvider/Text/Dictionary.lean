/-! Dictionaries: pairs of a key and a value in increasing order of their keys, each key once. Keys
are compared character by character, which is also the order of their UTF-8 bytes. -/

namespace CloudProvider.Text

abbrev Dictionary (α : Type) := List (String × α)

namespace Dictionary

variable {α : Type}

def insert (key : String) (value : α) : Dictionary α → Dictionary α
  | [] => [(key, value)]
  | (k, v) :: rest =>
    if key < k then (key, value) :: (k, v) :: rest
    else if key = k then (key, value) :: rest
    else (k, v) :: insert key value rest

def get? (d : Dictionary α) (key : String) : Option α :=
  List.lookup key d

def ofList (pairs : List (String × α)) : Dictionary α :=
  pairs.foldl (fun d (k, v) => d.insert k v) []

theorem get?_insert_self (key : String) (value : α) (d : Dictionary α) :
    (d.insert key value).get? key = some value := by
  induction d with
  | nil => simp [insert, get?]
  | cons p rest ih =>
    obtain ⟨k, v⟩ := p
    simp only [insert]
    split
    · simp [get?]
    · split
      · simp [get?]
      · next h =>
        have other : (key == k) = false := by simpa using h
        simpa [get?, List.lookup_cons, other] using ih

theorem get?_insert_of_ne {key other : String} (ne : other ≠ key) (value : α) (d : Dictionary α) :
    (d.insert key value).get? other = d.get? other := by
  have apart : (other == key) = false := by simpa using ne
  induction d with
  | nil => simp [insert, get?, List.lookup_cons, apart]
  | cons p rest ih =>
    obtain ⟨k, v⟩ := p
    simp only [insert]
    split
    · simp [get?, List.lookup_cons, apart]
    · split
      · next same =>
        subst same
        simp [get?, List.lookup_cons, apart]
      · simp only [get?, List.lookup_cons] at ih ⊢
        rw [ih]

end Dictionary
end CloudProvider.Text
