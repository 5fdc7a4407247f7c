/-! How alike two words are, between zero and one: common characters count if they lie close enough
to each other, and less if their order differs. -/

namespace CloudProvider.Text.Similarity

/-- How far apart the places of a common character may be. -/
def reach (a b : List Char) : Nat :=
  max a.length b.length / 2 - 1

/-- The first free place of `c` between two bounds, the lower one included. -/
def findFree (b : List Char) (taken : List Nat) (c : Char) (low high : Nat) : Option Nat :=
  (List.range (min high b.length)).find? fun j => low ≤ j && b[j]? == some c && !taken.contains j

/-- The places of the common characters in both words, each as a pair, in the order of the first. -/
def common (a b : List Char) : List (Nat × Nat) :=
  let r := reach a b
  (a.zipIdx.foldl (fun pairs (c, i) =>
    match findFree b (pairs.map Prod.snd) c (i - r) (i + r + 1) with
    | some j => (i, j) :: pairs
    | none => pairs) []).reverse

/-- How many common characters stand elsewhere in the order of the other word. -/
def displaced (a b : List Char) (pairs : List (Nat × Nat)) : Nat :=
  let inOrder := (pairs.map Prod.snd).mergeSort
  ((pairs.map Prod.fst).zip inOrder).countP fun (i, j) => a[i]? != b[j]?

def measure (a b : List Char) : Rat :=
  let pairs := common a b
  let m := pairs.length
  if a.isEmpty ∧ b.isEmpty then 1
  else if m = 0 then 0
  else
    let swapped := displaced a b pairs / 2
    ((m : Rat) / a.length + (m : Rat) / b.length + ((m - swapped : Nat) : Rat) / m) / 3

/-- The candidate that is most like the word, if any is like it at all. Of equals the last one. -/
def nearest (word : String) (candidates : List String) : Option String :=
  let rated := candidates.map fun c => (measure word.toList c.toList, c)
  let alike := rated.filter fun (r, _) => 7 / 10 < r
  (alike.foldl (fun best (r, c) =>
    match best with
    | some (s, _) => if s ≤ r then some (r, c) else best
    | none => some (r, c)) none).map Prod.snd

end CloudProvider.Text.Similarity
