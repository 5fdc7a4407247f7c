import CloudProvider.Archive.Stemcell
import CloudProvider.Proofs.Records

/-! What a tape archive lists: its entries in order, up to its end or to what is wrong with it. A search
finds the first entry that it wants in the listing, and meets what is wrong only if there is none. An
archive that is written entry by entry lists just these. -/

namespace CloudProvider.Archive.Tar

/-- The entries up to the end of an archive, or up to a fault. -/
structure Listing where
  entries : List Entry
  fault : Option Fault

def listRounds (total : Nat) : Nat → Described → Source → Listing
  | 0, _, _ => ⟨[], none⟩
  | rounds + 1, said, s =>
    match next total said s with
    | .error fault => ⟨[], some fault⟩
    | .ok .ended => ⟨[], none⟩
    | .ok (.saying said rest) => listRounds total rounds said rest
    | .ok (.entry e (.error fault)) => ⟨[e], some fault⟩
    | .ok (.entry e (.ok rest)) =>
      let later := listRounds total rounds .nothing rest
      ⟨e :: later.entries, later.fault⟩

/-- What is listed by the last part of an archive that has `total` bytes. -/
def listingIn (total : Nat) (s : Source) : Listing :=
  listRounds total (s.bytes.length + 1) .nothing s

def listing (s : Source) : Listing :=
  listingIn s.bytes.length s

def Listing.first {α : Type} (l : Listing) (f : Entry → Option α) : Except Fault (Option α) :=
  match l.entries.findSome? f, l.fault with
  | some a, _ => .ok (some a)
  | none, none => .ok none
  | none, some fault => .error fault

namespace Listing

variable {α : Type} {l : Listing} {f : Entry → Option α}

theorem first_cons (e : Entry) (l : Listing) (f : Entry → Option α) :
    Listing.first ⟨e :: l.entries, l.fault⟩ f =
      match f e with
      | some a => .ok (some a)
      | none => l.first f := by
  unfold Listing.first
  rw [List.findSome?_cons]
  rcases f e with _ | a <;> rfl

theorem first_of_mem {before after : List Entry} {e : Entry} {a : α}
    (split : l.entries = before ++ e :: after) (none : ∀ b ∈ before, f b = none) (found : f e = some a) :
    l.first f = .ok (some a) := by
  have answer : l.entries.findSome? f = some a := by
    rw [split, List.findSome?_append, List.findSome?_eq_none_iff.mpr none, List.findSome?_cons, found]
    rfl
  rw [Listing.first, answer]

theorem first_of_none (none : ∀ e ∈ l.entries, f e = none) :
    l.first f = match l.fault with
      | .none => .ok .none
      | some fault => .error fault := by
  rw [Listing.first, List.findSome?_eq_none_iff.mpr none]
  rcases l.fault <;> rfl

end Listing

theorem findRounds_eq {α : Type} (f : Entry → Option α) (total rounds : Nat) (said : Described) (s : Source) :
    findRounds f total rounds said s = (listRounds total rounds said s).first f := by
  induction rounds generalizing said s with
  | zero => rfl
  | succ rounds ih =>
    rw [findRounds, listRounds]
    rcases next total said s with fault | (_ | ⟨said, rest⟩ | ⟨e, fault | rest⟩)
    · rfl
    · rfl
    · exact ih said rest
    · have first := Listing.first_cons e ⟨[], some fault⟩ f
      refine Eq.trans ?_ first.symm
      change (match f e with
        | some a => Except.ok (some a)
        | none => Except.error fault) = _
      rcases f e <;> rfl
    · refine Eq.trans ?_ (Listing.first_cons e (listRounds total rounds .nothing rest) f).symm
      rw [← ih]
      change (match f e with
        | some a => Except.ok (some a)
        | none => findRounds f total rounds .nothing rest) = _
      rfl

theorem find_eq {α : Type} (f : Entry → Option α) (s : Source) : find f s = (listing s).first f :=
  findRounds_eq f _ _ _ s

/-! Rounds -/

def Next.remainder : Next → Option Source
  | saying _ rest => some rest
  | entry _ (.ok rest) => some rest
  | _ => none

theorem block_of_header? {s : Source} {h : Header} (headed : header? s = .ok (some h)) :
    blockSize ≤ s.bytes.length ∧ h.block = s.bytes.take blockSize := by
  unfold header? at headed
  dsimp only at headed
  split at headed
  · split at headed
    · cases headed
    · split at headed <;> cases headed
  · next long =>
    split at headed
    · cases headed
    · obtain rfl := Option.some.inj (Except.ok.inj headed)
      rw [List.length_take] at long
      exact ⟨by omega, rfl⟩

theorem length_of_skip {s rest : Source} {n : Nat} (skipped : skip s n = .ok rest) :
    rest.bytes.length ≤ s.bytes.length := by
  unfold skip at skipped
  split at skipped
  · obtain rfl := Except.ok.inj skipped
    simp [Source.drop]
  · cases skipped

theorem Stretches.length_of_goOn {size rounds : Nat} {more : Bool} {s rest : Source} {m m' : Stretches}
    (went : goOn size s rounds more m = .ok (m', rest)) : rest.bytes.length ≤ s.bytes.length := by
  induction rounds generalizing s more m with
  | zero =>
    cases went
    exact Nat.le_refl _
  | succ rounds ih =>
    cases more with
    | false =>
      cases went
      exact Nat.le_refl _
    | true =>
      rw [goOn] at went
      split at went
      · split at went <;> cases went
      · obtain ⟨m, -, went⟩ := bind_eq_ok.mp went
        have shorter := ih went
        rw [Source.drop, List.length_drop] at shorter
        omega

theorem length_of_passStretches {size : Nat} {h : Header} {s rest : Source}
    (passed : passStretches size h s = .ok rest) : rest.bytes.length ≤ s.bytes.length := by
  obtain ⟨listed, -, passed⟩ := bind_eq_ok.mp passed
  obtain ⟨⟨listed, behind⟩, went, passed⟩ := bind_eq_ok.mp passed
  obtain ⟨full, -, passed⟩ := bind_eq_ok.mp passed
  split at passed
  · cases passed
  · split at passed
    · cases passed
    · cases passed
      exact Stretches.length_of_goOn went

/-- Every look takes a block off. -/
theorem length_of_next {total : Nat} {said : Described} {s rest : Source} {n : Next}
    (looked : next total said s = .ok n) (left : n.remainder = some rest) :
    rest.bytes.length < s.bytes.length := by
  unfold next at looked
  obtain ⟨_ | h, headed, looked⟩ := bind_eq_ok.mp looked
  · dsimp only at looked
    split at looked
    · obtain rfl := Except.ok.inj looked
      cases left
    · cases looked
  -- The header's own block is what makes the rest shorter; all else may be empty.
  have body : (s.drop blockSize).bytes.length < s.bytes.length := by
    have long := (block_of_header? headed).1
    have block : 0 < blockSize := by decide
    rw [Source.drop, List.length_drop]
    omega
  have behind {e : Entry} {front : Source} {size : Nat} (shorter : front.bytes.length < s.bytes.length)
      (left : (Next.entry e (skip front size)).remainder = some rest) :
      rest.bytes.length < s.bytes.length := by
    rcases ends : skip front size with fault | rest'
    · rw [ends] at left
      cases left
    · rw [ends] at left
      obtain rfl := Option.some.inj left
      exact Nat.lt_of_le_of_lt (length_of_skip ends) shorter
  obtain ⟨_, -, looked⟩ := bind_eq_ok.mp looked
  obtain ⟨size, -, looked⟩ := bind_eq_ok.mp looked
  dsimp only at looked
  split at looked
  · cases looked
  obtain ⟨_ | said, -, looked⟩ := bind_eq_ok.mp looked
  · dsimp only at looked
    split at looked
    · obtain rfl := Except.ok.inj looked
      exact behind body left
    split at looked
    · cases looked
    obtain ⟨past, passed, looked⟩ := bind_eq_ok.mp looked
    obtain rfl := Except.ok.inj looked
    exact behind (Nat.lt_of_le_of_lt (length_of_passStretches passed) body) left
  · obtain ⟨rest', skipped, looked⟩ := bind_eq_ok.mp looked
    obtain rfl := Except.ok.inj looked
    obtain rfl := Option.some.inj left
    exact Nat.lt_of_le_of_lt (length_of_skip skipped) body

theorem listRounds_congr {total : Nat} {s : Source} {rounds rounds' : Nat} (enough : s.bytes.length < rounds)
    (enough' : s.bytes.length < rounds') (said : Described) :
    listRounds total rounds said s = listRounds total rounds' said s := by
  induction rounds generalizing s rounds' said with
  | zero => omega
  | succ rounds ih =>
    obtain ⟨rounds', rfl⟩ := Nat.exists_eq_add_one_of_ne_zero (Nat.ne_zero_of_lt enough')
    rw [listRounds, listRounds]
    rcases looked : next total said s with fault | (_ | ⟨said, rest⟩ | ⟨e, fault | rest⟩)
    · rfl
    · rfl
    · have shorter := length_of_next looked rfl
      exact ih (by omega) (by omega) said
    · rfl
    · have shorter := length_of_next looked rfl
      have later : listRounds total rounds .nothing rest = listRounds total rounds' .nothing rest :=
        ih (by omega) (by omega) .nothing
      dsimp only
      rw [later]

theorem listingIn_of_next {total : Nat} {s rest : Source} {e : Entry}
    (looked : next total .nothing s = .ok (.entry e (.ok rest))) :
    listingIn total s = ⟨e :: (listingIn total rest).entries, (listingIn total rest).fault⟩ := by
  have shorter := length_of_next looked rfl
  rw [listingIn, listRounds, looked]
  dsimp only
  rw [listingIn, listRounds_congr (by omega) (Nat.lt_succ_self _) .nothing]

/-! Archives entry by entry -/

/-- An entry that needs no other one to describe it. -/
structure Plain where
  header : Header
  contents : Bytes
  whole : header.block.length = blockSize
  filled : ¬ header.block.all (· = 0)
  checked : header.check = .ok ()
  sized : header.size = .ok contents.length
  own : header.kind ≠ 'L' ∧ header.kind ≠ 'K' ∧ header.kind ≠ 'x' ∧ header.kind ≠ 'S'

namespace Plain

def entry (p : Plain) : Entry :=
  ⟨p.header, .ofBytes p.contents, none, none⟩

def bytes (p : Plain) : Bytes :=
  p.header.block ++ (p.contents ++ List.replicate (padded p.contents.length - p.contents.length) 0)

end Plain

theorem le_padded (n : Nat) : n ≤ padded n := by
  have block : blockSize = 512 := rfl
  rw [padded, block]
  omega

namespace Plain

variable (p : Plain)

theorem length_bytes : p.bytes.length = blockSize + padded p.contents.length := by
  have fits := le_padded p.contents.length
  rw [bytes, List.length_append, List.length_append, List.length_replicate, p.whole]
  omega

theorem header?_append (rest : Bytes) : header? (.ofBytes (p.bytes ++ rest)) = .ok (some p.header) := by
  have front : (p.bytes ++ rest).take blockSize = p.header.block := by
    rw [bytes, List.append_assoc, List.take_left' p.whole]
  unfold header?
  dsimp only [Source.ofBytes]
  rw [front, if_neg (by rw [p.whole]; exact Nat.lt_irrefl _), if_neg p.filled]
  rfl

theorem sizeWith_none : Entry.sizeWith p.header none = .ok p.contents.length := by
  rw [Entry.sizeWith, p.sized]
  change (if p.contents.length = 0 then Except.ok 0 else Except.ok p.contents.length) = _
  split
  · next empty => rw [empty]
  · rfl

theorem describe_nothing (contents : Source) : describe .nothing p.header contents = .ok none := by
  obtain ⟨noL, noK, noX, -⟩ := p.own
  simp [describe, noL, noK, noX]
  rfl

theorem drop_append (rest : Bytes) :
    (Source.ofBytes (p.bytes ++ rest)).drop blockSize = .ofBytes
      (p.contents ++ (List.replicate (padded p.contents.length - p.contents.length) 0 ++ rest)) := by
  rw [Source.drop, Source.ofBytes, bytes, List.append_assoc, List.drop_left' p.whole, List.append_assoc]
  rfl

theorem take_contents (more : Bytes) :
    (Source.ofBytes (p.contents ++ more)).take p.contents.length = .ofBytes p.contents := by
  rw [Source.take, Source.ofBytes, if_pos (by simp), List.take_left]
  rfl

theorem skip_contents (rest : Bytes) :
    skip (.ofBytes (p.contents ++ (List.replicate (padded p.contents.length - p.contents.length) 0 ++ rest)))
      (padded p.contents.length) = .ok (.ofBytes rest) := by
  have fits := le_padded p.contents.length
  have long : (p.contents ++ List.replicate (padded p.contents.length - p.contents.length) 0).length =
      padded p.contents.length := by
    rw [List.length_append, List.length_replicate]
    omega
  rw [← List.append_assoc, skip, Source.ofBytes, if_pos (by rw [List.length_append, long]; omega),
    Source.drop, List.drop_left' long]
  rfl

end Plain

theorem next_plain (p : Plain) (rest : Bytes) {total : Nat} (fits : (p.bytes ++ rest).length ≤ total)
    (small : total < 2 ^ 64) :
    next total .nothing (.ofBytes (p.bytes ++ rest)) = .ok (.entry p.entry (.ok (.ofBytes rest))) := by
  have long : (p.bytes ++ rest).length = blockSize + (padded p.contents.length + rest.length) := by
    rw [List.length_append, p.length_bytes, Nat.add_assoc]
  have behind : ((Source.ofBytes (p.bytes ++ rest)).drop blockSize).bytes.length =
      padded p.contents.length + rest.length := by
    change ((p.bytes ++ rest).drop blockSize).length = _
    rw [List.length_drop, long, Nat.add_sub_cancel_left]
  unfold next
  rw [p.header?_append]
  change (do
    p.header.check
    let size ← Entry.sizeWith p.header none
    _) = _
  rw [p.checked, p.sizeWith_none]
  change (if 2 ^ 64 ≤ total - _ + padded p.contents.length then _ else _) = _
  rw [behind, if_neg (by omega), p.drop_append, p.take_contents, p.describe_nothing]
  change (if p.header.kind ≠ 'S' then Except.ok (Next.entry _ (skip _ _)) else _) = _
  rw [if_pos p.own.2.2.2, p.skip_contents]
  rfl

theorem listingIn_plain (ps : List Plain) (rest : Bytes) {total : Nat}
    (fits : (ps.flatMap Plain.bytes ++ rest).length ≤ total) (small : total < 2 ^ 64) :
    listingIn total (.ofBytes (ps.flatMap Plain.bytes ++ rest)) =
      ⟨ps.map Plain.entry ++ (listingIn total (.ofBytes rest)).entries,
        (listingIn total (.ofBytes rest)).fault⟩ := by
  induction ps with
  | nil => rfl
  | cons p ps ih =>
    rw [List.flatMap_cons, List.append_assoc] at fits ⊢
    rw [listingIn_of_next (next_plain p _ fits small), ih ?_]
    · rfl
    · rw [List.length_append] at fits
      omega

theorem listingIn_ended (total : Nat) {rest : Bytes}
    (ended : rest = [] ∨ ∃ more, rest = List.replicate blockSize 0 ++ more) :
    listingIn total (.ofBytes rest) = ⟨[], none⟩ := by
  have headed : header? (.ofBytes rest) = .ok none := by
    rcases ended with rfl | ⟨more, rfl⟩
    · rfl
    · have front : (List.replicate blockSize (0 : UInt8) ++ more).take blockSize =
          List.replicate blockSize 0 :=
        List.take_left' List.length_replicate
      have zeros : (List.replicate blockSize (0 : UInt8)).all (· = 0) = true := by
        simp
      unfold header?
      dsimp only [Source.ofBytes]
      rw [front, if_neg (by simp), if_pos zeros]
      rfl
  have looked : next total .nothing (.ofBytes rest) = .ok .ended := by
    unfold next
    rw [headed]
    rfl
  rw [listingIn, listRounds, looked]

theorem listing_plain (ps : List Plain) {rest : Bytes}
    (ended : rest = [] ∨ ∃ more, rest = List.replicate blockSize 0 ++ more)
    (small : (ps.flatMap Plain.bytes ++ rest).length < 2 ^ 64) :
    listing (.ofBytes (ps.flatMap Plain.bytes ++ rest)) = ⟨ps.map Plain.entry, none⟩ := by
  have listed := listingIn_plain ps rest (Nat.le_refl _) small
  rw [listingIn_ended _ ended, List.append_nil] at listed
  exact listed

end CloudProvider.Archive.Tar
