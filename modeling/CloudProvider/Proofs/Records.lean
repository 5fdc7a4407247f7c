import CloudProvider.Json.Record

/-! What a record makes of a value that has been read. A field takes the member that bears its name,
wherever it stands, or in a list the element at its own place; where there is none it takes what its
absence stands for, and nothing else has a say in it. No member may bear a name twice, and no list may
be too long. -/

namespace CloudProvider

theorem bind_eq_ok {ε α β : Type} {x : Except ε α} {k : α → Except ε β} {b : β} :
    x >>= k = .ok b ↔ ∃ a, x = .ok a ∧ k a = .ok b := by
  cases x with
  | error e => simp [bind, Except.bind]
  | ok a => simp [bind, Except.bind]

namespace Json

theorem lookup_eq_none_iff_count {members : List (String × Value)} {name : String} :
    members.lookup name = none ↔ (members.map (·.1)).count name = 0 := by
  rw [List.lookup_eq_none_iff, List.count_eq_zero, List.mem_map]
  constructor
  · rintro other ⟨member, mem, rfl⟩
    simpa using other member mem
  · intro never member mem
    simpa using fun same => never ⟨member, mem, same.symm⟩

/-- A field takes `a` if this is what is said of it. -/
def Field.Takes {α : Type} (f : Field α) (said : Option Value) (a : α) : Prop :=
  match said with
  | none => f.absent = some a
  | some v => f.codec.ofValue v = .ok a

namespace Fields

def names : {kinds : List Type} → Fields kinds → List String
  | _, .nil => []
  | _, .cons f rest => f.name :: rest.names

def TakesMembers (members : List (String × Value)) :
    {kinds : List Type} → Fields kinds → Row kinds → Prop
  | _, .nil, _ => True
  | _, .cons f rest, (a, row) => f.Takes (members.lookup f.name) a ∧ rest.TakesMembers members row

def TakesItems : List Value → {kinds : List Type} → Fields kinds → Row kinds → Prop
  | _, _, .nil, _ => True
  | items, _, .cons f rest, (a, row) => f.Takes items.head? a ∧ rest.TakesItems items.tail row

/-- What members add to the slots: each of them is filled once, and none is filled twice. -/
def Fills (members : List (String × Value)) :
    {kinds : List Type} → Fields kinds → Slots kinds → Slots kinds → Prop
  | _, .nil, _, _ => True
  | _, .cons f rest, (slot, slots), (out, outs) =>
    (match members.lookup f.name with
      | none => out = slot
      | some v => slot = none ∧ ∃ a, f.codec.ofValue v = .ok a ∧ out = some a) ∧
    rest.Fills members slots outs

theorem fills_nil {kinds : List Type} (fields : Fields kinds) (slots : Slots kinds) :
    fields.Fills [] slots slots := by
  induction fields with
  | nil => trivial
  | cons f rest ih => exact ⟨rfl, ih slots.2⟩

theorem Fills.cons_of_unnamed {kinds : List Type} {fields : Fields kinds} {key : String}
    {members : List (String × Value)} {slots outs : Slots kinds} (unnamed : key ∉ fields.names)
    (v : Value) (fills : fields.Fills members slots outs) :
    fields.Fills ((key, v) :: members) slots outs := by
  induction fields with
  | nil => trivial
  | cons f rest ih =>
    rw [names, List.mem_cons, not_or] at unnamed
    have other : (f.name == key) = false := by simpa using Ne.symm unnamed.1
    refine ⟨?_, ih unnamed.2 fills.2⟩
    rw [List.lookup_cons, other]
    exact fills.1

theorem unnamed_of_ofMember {kinds : List Type} {fields : Fields kinds} {key : String} {v : Value}
    {slots : Slots kinds} (passed : fields.ofMember key v slots = none) : key ∉ fields.names := by
  induction fields with
  | nil => simp [names]
  | cons f rest ih =>
    obtain ⟨slot, slots⟩ := slots
    rw [ofMember] at passed
    split at passed
    · cases passed
    · next other =>
      rw [names, List.mem_cons, not_or]
      exact ⟨Ne.symm other, ih (Option.map_eq_none_iff.mp passed)⟩

theorem Fills.cons_of_ofMember {kinds : List Type} {fields : Fields kinds} {key : String} {v : Value}
    {members : List (String × Value)} {slots next outs : Slots kinds}
    (distinct : fields.names.Nodup) (taken : fields.ofMember key v slots = some (.ok next))
    (fills : fields.Fills members next outs) : fields.Fills ((key, v) :: members) slots outs := by
  induction fields with
  | nil => trivial
  | cons f rest ih =>
    obtain ⟨slot, slots⟩ := slots
    rw [names, List.nodup_cons] at distinct
    rw [ofMember] at taken
    split at taken
    · next same =>
      subst same
      rcases slot with _ | held
      · obtain ⟨a, decoded, filled⟩ := bind_eq_ok.mp (Option.some.inj taken)
        obtain rfl := Except.ok.inj filled
        obtain ⟨first, later⟩ := fills
        refine ⟨?_, later.cons_of_unnamed distinct.1 v⟩
        rw [List.lookup_cons_self]
        refine ⟨rfl, a, decoded, ?_⟩
        split at first
        · exact first
        · cases first.1
      · simp at taken
    · next other =>
      have apart : (f.name == key) = false := by simpa using other
      obtain ⟨tail, inner, same⟩ := Option.map_eq_some_iff.mp taken
      rcases tail with cause | tail
      · cases same
      obtain rfl := Except.ok.inj same
      refine ⟨?_, ih distinct.2 inner fills.2⟩
      rw [List.lookup_cons, apart]
      exact fills.1

theorem takesMembers_of_complete {kinds : List Type} {fields : Fields kinds}
    {members : List (String × Value)} {slots : Slots kinds} {row : Row kinds}
    (fills : fields.Fills members (Slots.empty kinds) slots)
    (complete : fields.complete slots = .ok row) : fields.TakesMembers members row := by
  induction fields with
  | nil => trivial
  | cons f rest ih =>
    obtain ⟨slot, slots⟩ := slots
    obtain ⟨a, row⟩ := row
    obtain ⟨first, later⟩ := fills
    rw [Fields.complete] at complete
    split at complete
    · cases complete
    next found =>
    obtain ⟨tail, inner, same⟩ := bind_eq_ok.mp complete
    obtain ⟨rfl, rfl⟩ := Prod.mk.inj (Except.ok.inj same)
    refine ⟨?_, ih later inner⟩
    split at first
    · next missing =>
      rw [missing]
      rw [first] at found
      exact found
    · next said =>
      obtain ⟨-, b, decoded, filled⟩ := first
      rw [filled] at found
      obtain rfl := Option.some.inj found
      rw [said]
      exact decoded

theorem takesItems_of_ofItems {wanted : String} {kinds : List Type} {fields : Fields kinds}
    {index : Nat} {items left : List Value} {row : Row kinds}
    (taken : fields.ofItems wanted index items = .ok (row, left)) :
    fields.TakesItems items row := by
  induction fields generalizing index items with
  | nil => trivial
  | cons f rest ih =>
    obtain ⟨a, row⟩ := row
    cases items with
    | nil =>
      rw [ofItems] at taken
      split at taken
      · cases taken
      next absent =>
      obtain ⟨⟨tail, rest⟩, inner, same⟩ := bind_eq_ok.mp taken
      obtain ⟨⟨rfl, rfl⟩, rfl⟩ := by simpa using Except.ok.inj same
      exact ⟨absent, ih inner⟩
    | cons v items =>
      rw [ofItems] at taken
      obtain ⟨a, decoded, taken⟩ := bind_eq_ok.mp taken
      obtain ⟨⟨tail, rest⟩, inner, same⟩ := bind_eq_ok.mp taken
      obtain ⟨⟨rfl, rfl⟩, rfl⟩ := by simpa using Except.ok.inj same
      exact ⟨decoded, ih inner⟩

section Exactly

variable {kinds : List Type} {fields : Fields kinds}

def NamesOnce (members : List (String × Value)) (fields : Fields kinds) : Prop :=
  ∀ name ∈ fields.names, (members.map (·.1)).count name ≤ 1

theorem lookup_eq_none_of_ofMember {key : String} {v : Value} {members : List (String × Value)}
    {slots next outs : Slots kinds} (taken : fields.ofMember key v slots = some (.ok next))
    (fills : fields.Fills members next outs) : members.lookup key = none := by
  induction fields with
  | nil => cases taken
  | cons f rest ih =>
    obtain ⟨slot, slots⟩ := slots
    rw [ofMember] at taken
    split at taken
    · next same =>
      subst same
      rcases slot with _ | held
      · obtain ⟨a, decoded, filled⟩ := bind_eq_ok.mp (Option.some.inj taken)
        obtain rfl := Except.ok.inj filled
        have first := fills.1
        split at first
        · assumption
        · cases first.1
      · simp at taken
    · next other =>
      obtain ⟨tail, inner, same⟩ := Option.map_eq_some_iff.mp taken
      rcases tail with cause | tail
      · cases same
      obtain rfl := Except.ok.inj same
      exact ih inner fills.2

def Fits (members : List (String × Value)) :
    {kinds : List Type} → Fields kinds → Slots kinds → Prop
  | _, .nil, _ => True
  | _, .cons f rest, (slot, slots) =>
    (∀ v, members.lookup f.name = some v → slot = none ∧ ∃ a, f.codec.ofValue v = .ok a) ∧
    rest.Fits members slots

theorem fits_of_takesMembers {members : List (String × Value)} {row : Row kinds}
    (takes : fields.TakesMembers members row) : fields.Fits members (Slots.empty kinds) := by
  induction fields with
  | nil => trivial
  | cons f rest ih =>
    refine ⟨fun v said => ⟨rfl, row.1, ?_⟩, ih takes.2⟩
    have first := takes.1
    rwa [said] at first

theorem Fits.of_unnamed {key : String} {v : Value} {members : List (String × Value)}
    {slots : Slots kinds} (unnamed : key ∉ fields.names)
    (fits : fields.Fits ((key, v) :: members) slots) : fields.Fits members slots := by
  induction fields with
  | nil => trivial
  | cons f rest ih =>
    rw [names, List.mem_cons, not_or] at unnamed
    have other : (f.name == key) = false := by simpa using Ne.symm unnamed.1
    refine ⟨fun w said => fits.1 w ?_, ih unnamed.2 fits.2⟩
    rwa [List.lookup_cons, other]

theorem ofMember_of_unnamed {key : String} {v : Value} {slots : Slots kinds}
    (unnamed : key ∉ fields.names) : fields.ofMember key v slots = none := by
  induction fields with
  | nil => rfl
  | cons f rest ih =>
    rw [names, List.mem_cons, not_or] at unnamed
    rw [ofMember, if_neg (Ne.symm unnamed.1), ih unnamed.2]
    rfl

theorem Fits.step {key : String} {v : Value} {members : List (String × Value)}
    {slots : Slots kinds} (distinct : fields.names.Nodup) (last : members.lookup key = none)
    (fits : fields.Fits ((key, v) :: members) slots) (named : key ∈ fields.names) :
    ∃ next, fields.ofMember key v slots = some (.ok next) ∧ fields.Fits members next := by
  induction fields with
  | nil => cases named
  | cons f rest ih =>
    obtain ⟨slot, slots⟩ := slots
    obtain ⟨first, later⟩ := fits
    rw [names, List.nodup_cons] at distinct
    rw [ofMember]
    split
    · next same =>
      subst same
      obtain ⟨rfl, a, decoded⟩ := first v List.lookup_cons_self
      refine ⟨(some a, slots), ?_, fun w said => ?_, later.of_unnamed distinct.1⟩
      · rw [decoded]
        rfl
      · rw [last] at said
        cases said
    · next other =>
      have apart : (f.name == key) = false := by simpa using other
      have named : key ∈ rest.names := by
        simpa [names, Ne.symm other] using named
      obtain ⟨next, taken, fits⟩ := ih distinct.2 later named
      refine ⟨(slot, next), ?_, fun w said => first w ?_, fits⟩
      · rw [taken]
        rfl
      · rwa [List.lookup_cons, apart]

theorem complete_of_takesMembers {members : List (String × Value)} {slots : Slots kinds}
    {row : Row kinds} (fills : fields.Fills members (Slots.empty kinds) slots)
    (takes : fields.TakesMembers members row) : fields.complete slots = .ok row := by
  induction fields with
  | nil => rfl
  | cons f rest ih =>
    obtain ⟨slot, slots⟩ := slots
    obtain ⟨first, later⟩ := fills
    obtain ⟨a, row⟩ := row
    obtain ⟨said, takes⟩ := takes
    have found : (slot <|> f.absent) = some a := by
      split at first
      · next missing =>
        rw [missing] at said
        rw [first]
        exact said
      · next v held =>
        obtain ⟨-, b, decoded, rfl⟩ := first
        rw [held] at said
        rw [Except.ok.inj (decoded.symm.trans said)]
        rfl
    rw [complete, found, ih later takes]
    rfl

theorem ofItems_of_takesItems {wanted : String} {index : Nat} {items : List Value}
    {row : Row kinds} (takes : fields.TakesItems items row) (few : items.length ≤ kinds.length) :
    fields.ofItems wanted index items = .ok (row, []) := by
  induction fields generalizing index items with
  | nil =>
    obtain rfl := List.length_eq_zero_iff.mp (Nat.le_zero.mp few)
    rfl
  | cons f rest ih =>
    obtain ⟨a, row⟩ := row
    obtain ⟨first, later⟩ := takes
    cases items with
    | nil =>
      have absent : f.absent = some a := first
      have left : rest.ofItems wanted (index + 1) [] = .ok (row, []) := ih later (Nat.zero_le _)
      rw [ofItems, absent]
      change (rest.ofItems wanted (index + 1) [] >>= _) = _
      rw [left]
      rfl
    | cons v items =>
      have decoded : f.codec.ofValue v = .ok a := first
      have left : rest.ofItems wanted (index + 1) items = .ok (row, []) :=
        ih later (by simpa using few)
      rw [ofItems, decoded]
      change (rest.ofItems wanted (index + 1) items >>= _) = _
      rw [left]
      rfl

theorem length_le_of_ofItems {wanted : String} {index : Nat} {items : List Value}
    {row : Row kinds} (taken : fields.ofItems wanted index items = .ok (row, [])) :
    items.length ≤ kinds.length := by
  induction fields generalizing index items with
  | nil =>
    obtain ⟨-, rfl⟩ := by simpa using Except.ok.inj taken
    simp
  | cons f rest ih =>
    cases items with
    | nil => simp
    | cons v items =>
      rw [ofItems] at taken
      obtain ⟨a, -, taken⟩ := bind_eq_ok.mp taken
      obtain ⟨⟨tail, left⟩, inner, same⟩ := bind_eq_ok.mp taken
      obtain ⟨-, rfl⟩ := Prod.mk.inj (Except.ok.inj same)
      simpa using ih inner

end Exactly
end Fields

namespace Record

variable {σ : Type} {r : Record σ}

theorem fills_of_ofMembers (distinct : r.fields.names.Nodup) {members : List (String × Value)}
    {slots outs : Slots r.kinds} (taken : r.ofMembers members slots = .ok outs) :
    r.fields.Fills members slots outs := by
  induction members generalizing slots with
  | nil =>
    obtain rfl := Except.ok.inj taken
    exact r.fields.fills_nil slots
  | cons member rest ih =>
    obtain ⟨key, v⟩ := member
    rw [ofMembers] at taken
    split at taken
    · next found passed =>
      rcases found with cause | next
      · cases taken
      · exact (ih taken).cons_of_ofMember distinct passed
    · next passed => exact (ih taken).cons_of_unnamed (Fields.unnamed_of_ofMember passed) v

theorem namesOnce_of_ofMembers (distinct : r.fields.names.Nodup)
    {members : List (String × Value)} {slots outs : Slots r.kinds}
    (taken : r.ofMembers members slots = .ok outs) : r.fields.NamesOnce members := by
  induction members generalizing slots with
  | nil => simp [Fields.NamesOnce]
  | cons member rest ih =>
    obtain ⟨key, v⟩ := member
    intro name mem
    rw [ofMembers] at taken
    rw [List.map_cons, List.count_cons]
    split at taken
    · next found passed =>
      rcases found with cause | next
      · cases taken
      have once := ih taken name mem
      split
      · next same =>
        obtain rfl : key = name := by simpa using same
        have last := Fields.lookup_eq_none_of_ofMember passed (fills_of_ofMembers distinct taken)
        rw [lookup_eq_none_iff_count] at last
        omega
      · omega
    · next passed =>
      have other : (key == name) = false := by
        simpa using fun same : key = name => Fields.unnamed_of_ofMember passed (same ▸ mem)
      rw [other]
      exact ih taken name mem

theorem exists_ofMembers (distinct : r.fields.names.Nodup) {members : List (String × Value)}
    {slots : Slots r.kinds} (once : r.fields.NamesOnce members)
    (fits : r.fields.Fits members slots) : ∃ outs, r.ofMembers members slots = .ok outs := by
  induction members generalizing slots with
  | nil => exact ⟨slots, rfl⟩
  | cons member rest ih =>
    obtain ⟨key, v⟩ := member
    have later : r.fields.NamesOnce rest := fun name mem =>
      Nat.le_trans List.count_le_count_cons (once name mem)
    by_cases named : key ∈ r.fields.names
    · have last : (rest.map (·.1)).count key = 0 := by
        have := once key named
        rw [List.map_cons, List.count_cons_self] at this
        omega
      obtain ⟨next, taken, fits⟩ := fits.step distinct (lookup_eq_none_iff_count.mpr last) named
      obtain ⟨outs, filled⟩ := ih later fits
      exact ⟨outs, by rw [ofMembers, taken]; exact filled⟩
    · have fits := fits.of_unnamed named
      obtain ⟨outs, filled⟩ := ih later fits
      refine ⟨outs, ?_⟩
      rw [ofMembers, Fields.ofMember_of_unnamed named]
      exact filled

theorem ofValue_eq_ok_iff (distinct : r.fields.names.Nodup) {v : Value} {b : σ} :
    r.codec.ofValue v = .ok b ↔ ∃ row, b = r.build row ∧
      ((∃ members, v = .object members ∧ r.fields.TakesMembers members row ∧
        r.fields.NamesOnce members) ∨
      ∃ items, v = .array items ∧ r.fields.TakesItems items row ∧
        items.length ≤ r.kinds.length) := by
  constructor
  · intro taken
    dsimp only [codec] at taken
    split at taken
    · next items =>
      obtain ⟨⟨row, left⟩, inner, same⟩ := bind_eq_ok.mp taken
      dsimp only at same
      split at same
      · next none =>
        obtain rfl := List.isEmpty_iff.mp none
        obtain rfl := Except.ok.inj same
        exact ⟨row, rfl, .inr ⟨items, rfl, Fields.takesItems_of_ofItems inner,
          Fields.length_le_of_ofItems inner⟩⟩
      · cases same
    · next members =>
      obtain ⟨slots, filled, taken⟩ := bind_eq_ok.mp taken
      obtain ⟨row, complete, same⟩ := bind_eq_ok.mp taken
      obtain rfl := Except.ok.inj same
      have fills := fills_of_ofMembers distinct filled
      exact ⟨row, rfl, .inl ⟨members, rfl, Fields.takesMembers_of_complete fills complete,
        namesOnce_of_ofMembers distinct filled⟩⟩
    · cases taken
  · rintro ⟨row, rfl, ⟨members, rfl, takes, once⟩ | ⟨items, rfl, takes, few⟩⟩
    · obtain ⟨slots, filled⟩ :=
        exists_ofMembers distinct once (Fields.fits_of_takesMembers takes)
      have fills := fills_of_ofMembers distinct filled
      change (r.ofMembers members (Slots.empty r.kinds) >>= _) = _
      rw [filled]
      change (r.fields.complete slots >>= _) = _
      rw [Fields.complete_of_takesMembers fills takes]
      rfl
    · change (r.fields.ofItems r.describedAsList 0 items >>= _) = _
      rw [Fields.ofItems_of_takesItems takes few]
      rfl

end Record
end Json
end CloudProvider
