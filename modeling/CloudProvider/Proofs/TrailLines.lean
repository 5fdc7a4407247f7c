import CloudProvider.Trail
import Mathlib.Data.List.Basic

/-! The lines of a trail. What is written of an event is not cut at newlines, nor are these escaped, so
an event has a line of its own exactly if there is no newline in its message or in a text beside it.
As long as that holds of every event, the lines of a trail are those of its events, and they tell the
events apart; a newline in a text can make two events of one. -/

namespace CloudProvider

open Time (Moment)

namespace Text

def IsSolid (s : String) : Prop :=
  ∀ c ∈ s.toList, ' ' < c

instance (s : String) : Decidable (IsSolid s) :=
  List.decidableBAll (' ' < ·) s.toList

namespace IsSolid

variable {s t : String}

theorem blank_notMem (solid : IsSolid s) : ' ' ∉ s.toList :=
  fun mem => absurd (solid ' ' mem) (by decide)

theorem newline_notMem (solid : IsSolid s) : '\n' ∉ s.toList :=
  fun mem => absurd (solid '\n' mem) (by decide)

end IsSolid

@[simp] theorem isSolid_append {s t : String} : IsSolid (s ++ t) ↔ IsSolid s ∧ IsSolid t := by
  simp only [IsSolid, String.toList_append, List.forall_mem_append]

@[simp] theorem isSolid_ofList {cs : List Char} :
    IsSolid (String.ofList cs) ↔ ∀ c ∈ cs, ' ' < c := by
  rw [IsSolid, String.toList_ofList]

theorem lt_digitChar (d : Nat) : ' ' < Nat.digitChar d := by
  by_cases digit : d < 16
  · exact (by decide : ∀ d < 16, ' ' < Nat.digitChar d) d digit
  · rw [Nat.digitChar_eq_star.mpr (Nat.le_of_not_lt digit)]
    decide

theorem lt_of_mem_toDigits {base n : Nat} (large : 1 < base) {c : Char}
    (mem : c ∈ Nat.toDigits base n) : ' ' < c := by
  induction n using Nat.strongRecOn generalizing c with
  | ind n ih =>
    rw [Nat.toDigits_eq_if large] at mem
    split at mem
    · rw [List.mem_singleton.mp mem]
      exact lt_digitChar n
    case isFalse more =>
      rcases List.mem_append.mp mem with mem | mem
      · exact ih (n / base) (Nat.div_lt_self (by omega) large) mem
      · rw [List.mem_singleton.mp mem]
        exact lt_digitChar _

theorem isSolid_nat (n : Nat) : IsSolid (toString n) := by
  intro c mem
  rw [Nat.toString_eq_repr, Nat.toList_repr] at mem
  exact lt_of_mem_toDigits (by decide) mem

theorem isSolid_int (i : Int) : IsSolid (toString i) := by
  cases i with
  | ofNat n => exact isSolid_nat n
  | negSucc n => exact isSolid_append.mpr ⟨by decide, isSolid_nat (n + 1)⟩

theorem newline_notMem_quoteChar (c : Char) : '\n' ∉ quoteChar c := by
  unfold quoteChar
  split_ifs with null tab back newline sign hidden
  · decide
  · decide
  · decide
  · decide
  · rcases Bool.or_eq_true_iff.mp sign with same | same <;>
      rw [of_decide_eq_true same] <;> decide
  · intro mem
    rw [codePointEscape, List.mem_append, List.mem_append] at mem
    rcases mem with (mem | mem) | mem
    · exact absurd mem (by decide)
    · exact absurd (lt_of_mem_toDigits (by decide) mem) (by decide)
    · exact absurd mem (by decide)
  · exact fun mem => newline (List.mem_singleton.mp mem).symm

theorem newline_notMem_quoted (s : String) : '\n' ∉ (quoted s).toList := by
  rw [quoted, String.toList_ofList]
  intro mem
  rcases List.mem_append.mp mem with mem | mem
  · rcases List.mem_cons.mp mem with same | mem
    · exact absurd same (by decide)
    · obtain ⟨c, -, mem⟩ := List.mem_flatMap.mp mem
      exact newline_notMem_quoteChar c mem
  · exact absurd mem (by decide)

end Text

open Text (IsSolid isSolid_append isSolid_ofList isSolid_nat isSolid_int)

namespace Decimal

theorem isSolid_zeros (n : Nat) : IsSolid (zeros n) := by
  refine isSolid_ofList.mpr fun c mem => ?_
  rw [List.eq_of_mem_replicate mem]
  decide

theorem isSolid_unsigned (layout : Layout) (d : Scaled) : IsSolid (unsigned layout d) := by
  have digits : ∀ c ∈ d.text, ' ' < c := fun c mem => Text.lt_of_mem_toDigits (by decide) mem
  have whole : IsSolid (String.ofList d.text) := isSolid_ofList.mpr digits
  have front (n : Nat) : IsSolid (String.ofList (d.text.take n)) :=
    isSolid_ofList.mpr fun c mem => digits c (List.mem_of_mem_take mem)
  have back (n : Nat) : IsSolid (String.ofList (d.text.drop n)) :=
    isSolid_ofList.mpr fun c mem => digits c (List.mem_of_mem_drop mem)
  unfold unsigned
  dsimp only
  split
  · split
    · simp only [isSolid_append, isSolid_zeros, whole, and_true]
      decide
    · split
      · simp only [isSolid_append, isSolid_zeros, whole, true_and]
        decide
      · simp only [isSolid_append, front, back, true_and, and_true]
        decide
  · have sign : IsSolid (if layout.plus ∧ 0 ≤ d.leading then "+" else "") := by
      split <;> decide
    have single (c : Char) (mem : c ∈ d.text) : IsSolid c.toString := by
      rw [IsSolid, Char.toString_eq_singleton, String.toList_singleton]
      exact fun other here => List.mem_singleton.mp here ▸ digits c mem
    simp only [isSolid_append, sign, isSolid_int, and_true]
    refine ⟨?_, by decide⟩
    split
    · decide
    case h_2 c only => exact single c (only ▸ List.mem_singleton_self c)
    case h_3 c more _ form =>
      have rest : ∀ other ∈ more, ' ' < other := fun other mem =>
        digits other (form ▸ List.mem_cons_of_mem c mem)
      simp only [isSolid_append, single c (form ▸ List.mem_cons_self), isSolid_ofList.mpr rest,
        true_and, and_true]
      decide

theorem Binary64.isSolid_render (layout : Layout) (x : Binary64) : IsSolid (x.render layout) := by
  have sign : IsSolid (if x.isNegative then "-" else "") := by
    split <;> decide
  unfold render
  split
  · decide
  dsimp only
  split
  · exact isSolid_append.mpr ⟨sign, by decide⟩
  split
  · exact isSolid_append.mpr ⟨sign, by decide⟩
  · exact isSolid_append.mpr ⟨sign, isSolid_unsigned _ _⟩

end Decimal

namespace Time.Moment

theorem isSolid_padded (width n : Nat) : IsSolid (padded width n) := by
  refine isSolid_append.mpr ⟨isSolid_ofList.mpr fun c mem => ?_, isSolid_nat n⟩
  rw [List.eq_of_mem_replicate mem]
  decide

theorem isSolid_yearText (year : Int) : IsSolid (yearText year) := by
  have sign : IsSolid (if year < 0 then "-" else "+") := by
    split <;> decide
  unfold yearText
  split
  · exact isSolid_padded _ _
  · exact isSolid_append.mpr ⟨sign, isSolid_padded _ _⟩

theorem isSolid_stamp (m : Moment) : IsSolid m.stamp := by
  simp only [stamp, isSolid_append, isSolid_yearText, isSolid_padded, true_and, and_true]
  decide

end Time.Moment

theorem Level.isSolid_name (l : Level) : IsSolid l.name := by
  cases l <;> decide

theorem Level.name_injective {l l' : Level} (same : l.name = l'.name) : l = l' := by
  cases l <;> cases l' <;> first | rfl | exact absurd same (by decide)

theorem Detail.newline_mem_render {d : Detail} :
    '\n' ∈ d.render.toList ↔ ∃ s, d = .text s ∧ '\n' ∈ s.toList := by
  constructor
  · intro mem
    cases d with
    | text s => exact ⟨s, rfl, mem⟩
    | quoted s => exact absurd mem (Text.newline_notMem_quoted s)
    | integer i => exact absurd mem (isSolid_int i).newline_notMem
    | bool b => cases b <;> exact absurd mem (by decide)
    | fraction x => exact absurd mem (Decimal.Binary64.isSolid_render _ x).newline_notMem
  · rintro ⟨s, rfl, mem⟩
    exact mem

namespace Event

variable {e : Event}

def HasLongText (e : Event) : Prop :=
  ∃ name s, (name, Detail.text s) ∈ e.details ∧ '\n' ∈ s.toList

theorem detailsText_toList (e : Event) :
    e.detailsText.toList =
      e.details.flatMap fun d => ' ' :: (d.1.toList ++ '=' :: d.2.render.toList) := by
  rw [detailsText, String.toList_join, List.flatMap_map]
  refine List.flatMap_congr fun d _ => ?_
  simp [String.toList_append]

theorem newline_mem_detailsText (named : ∀ d ∈ e.details, '\n' ∉ d.1.toList) :
    '\n' ∈ e.detailsText.toList ↔ e.HasLongText := by
  rw [detailsText_toList, List.mem_flatMap]
  constructor
  · rintro ⟨⟨name, d⟩, mem, newline⟩
    have inside : '\n' ∈ d.render.toList := by
      simpa [named _ mem] using newline
    obtain ⟨s, rfl, long⟩ := Detail.newline_mem_render.mp inside
    exact ⟨name, s, mem, long⟩
  · rintro ⟨name, s, mem, newline⟩
    exact ⟨_, mem, by simp [Detail.render, newline]⟩

/-- Of the blanks that are dropped in front none is a newline: they end before the first sign of
equality. -/
theorem newline_mem_trimStart {s : String} {name rest : List Char} (named : '\n' ∉ name)
    (form : s.toList = ' ' :: (name ++ '=' :: rest)) :
    '\n' ∈ (Text.trimStart s).toList ↔ '\n' ∈ s.toList := by
  have stops : ('=' :: rest).dropWhile Text.isBlank = '=' :: rest :=
    List.dropWhile_cons_of_neg (by decide)
  have shorter : (' ' :: name ++ '=' :: rest).dropWhile Text.isBlank =
      (' ' :: name).dropWhile Text.isBlank ++ '=' :: rest := by
    rw [List.dropWhile_append, stops]
    split
    case isTrue empty => rw [List.isEmpty_iff.mp empty, List.nil_append]
    case isFalse => rfl
  have gone : '\n' ∉ (' ' :: name).dropWhile Text.isBlank := fun mem => by
    rcases List.mem_cons.mp ((List.dropWhile_sublist _).subset mem) with same | mem
    · exact absurd same (by decide)
    · exact named mem
  rw [Text.trimStart, String.toList_ofList, form, ← List.cons_append, shorter]
  simp [gone, named]

theorem newline_mem_line (named : ∀ d ∈ e.details, '\n' ∉ d.1.toList) :
    '\n' ∈ e.line.toList ↔ '\n' ∈ e.message.toList ∨ e.HasLongText := by
  have texts := newline_mem_detailsText named
  unfold line
  split
  case isTrue none =>
    have without : ¬ e.HasLongText := by
      rintro ⟨name, s, mem, -⟩
      rw [List.isEmpty_iff.mp none] at mem
      cases mem
    simp [without]
  split
  case isTrue some empty =>
    obtain ⟨⟨name, d⟩, more, first⟩ :=
      List.exists_cons_of_ne_nil fun none => some (List.isEmpty_iff.mpr none)
    have form : e.detailsText.toList = ' ' :: (name.toList ++ '=' :: (d.render.toList ++
        more.flatMap fun d => ' ' :: (d.1.toList ++ '=' :: d.2.render.toList))) := by
      rw [detailsText_toList, first]
      simp
    have plain : '\n' ∉ name.toList := named (name, d) (first ▸ List.mem_cons_self)
    rw [newline_mem_trimStart plain form, texts, String.isEmpty_iff.mp empty]
    simp
  case isFalse => rw [String.toList_append, List.mem_append, texts]

end Event

def Entry.row (e : Entry) : String :=
  e.moment.stamp ++ " " ++ e.event.level.name ++ " " ++ e.event.line

def Entry.columns (e : Entry) : String × Level × String :=
  (e.moment.stamp, e.event.level, e.event.line)

def Trail.recorded (t : Trail) : Trail :=
  t.filter (·.event.level.isRecorded)

namespace Entry

variable {e e' : Entry}

theorem row_toList (e : Entry) :
    e.row.toList = e.moment.stamp.toList ++ ' ' :: (e.event.level.name.toList ++
      ' ' :: e.event.line.toList) := by
  simp [row, String.toList_append]

theorem count_newline_row (e : Entry) :
    e.row.toList.count '\n' = e.event.line.toList.count '\n' := by
  have stamp := List.count_eq_zero_of_not_mem e.moment.isSolid_stamp.newline_notMem
  have level := List.count_eq_zero_of_not_mem e.event.level.isSolid_name.newline_notMem
  simp [row_toList, List.count_append, stamp, level]

theorem newline_mem_row : '\n' ∈ e.row.toList ↔ '\n' ∈ e.event.line.toList := by
  rw [← List.count_pos_iff, count_newline_row, List.count_pos_iff]

theorem eq_and_eq_of_blank {first first' rest rest' : List Char} (solid : ' ' ∉ first)
    (solid' : ' ' ∉ first') (same : first ++ ' ' :: rest = first' ++ ' ' :: rest') :
    first = first' ∧ rest = rest' := by
  have front {cs rest : List Char} (solid : ' ' ∉ cs) :
      (cs ++ ' ' :: rest).takeWhile (· ≠ ' ') = cs := by
    have visible : ∀ c ∈ cs, decide (c ≠ ' ') = true := by
      intro c mem
      simpa using ne_of_mem_of_not_mem mem solid
    rw [List.takeWhile_append_of_pos visible, List.takeWhile_cons_of_neg (by decide),
      List.append_nil]
  have heads : first = first' := by
    rw [← front solid, ← front solid', same]
  subst heads
  exact ⟨rfl, (List.cons_inj_right _).mp (List.append_cancel_left same)⟩

/-- No stamp and no name of a level holds a blank, so the first two blanks of a row part its columns. -/
theorem row_inj : e.row = e'.row ↔ e.columns = e'.columns := by
  constructor
  · intro same
    have texts := congrArg String.toList same
    rw [row_toList, row_toList] at texts
    obtain ⟨stamps, texts⟩ := eq_and_eq_of_blank e.moment.isSolid_stamp.blank_notMem
      e'.moment.isSolid_stamp.blank_notMem texts
    obtain ⟨levels, lines⟩ := eq_and_eq_of_blank e.event.level.isSolid_name.blank_notMem
      e'.event.level.isSolid_name.blank_notMem texts
    exact Prod.ext (String.toList_inj.mp stamps)
      (Prod.ext (Level.name_injective (String.toList_inj.mp levels)) (String.toList_inj.mp lines))
  · intro same
    obtain ⟨stamps, levels, lines⟩ : _ ∧ _ ∧ _ := by simpa [columns] using same
    rw [row, row, stamps, levels, lines]

end Entry

namespace Trail

variable {t t' : Trail}

theorem text_eq_join (t : Trail) :
    t.text = String.join ((t.recorded.map Entry.row).map (· ++ "\n")) := by
  rw [List.map_map]
  rfl

theorem toList_text (t : Trail) :
    t.text.toList = t.recorded.flatMap fun e => e.row.toList ++ ['\n'] := by
  rw [text_eq_join, String.toList_join, List.map_map, List.flatMap_map]
  exact List.flatMap_congr fun e _ => String.toList_append

theorem notMem_of_mem_splitOn {cs piece : List Char} (mem : piece ∈ cs.splitOn '\n') :
    '\n' ∉ piece := by
  induction cs generalizing piece with
  | nil =>
    rw [List.mem_singleton.mp mem]
    exact List.not_mem_nil
  | cons c rest ih =>
    rw [List.splitOn_cons_eq_if_modifyHead] at mem
    split at mem
    case isTrue =>
      rcases List.mem_cons.mp mem with rfl | mem
      · exact List.not_mem_nil
      · exact ih mem
    case isFalse other =>
      obtain ⟨head, tail, form⟩ := List.exists_cons_of_ne_nil (List.splitOn_ne_nil '\n' rest)
      rw [form] at mem ih
      rcases List.mem_cons.mp mem with rfl | mem
      · have apart : c ≠ '\n' := by simpa using other
        exact List.not_mem_cons_of_ne_of_not_mem apart.symm (ih List.mem_cons_self)
      · exact ih (List.mem_cons_of_mem head mem)

theorem splitOn_flatMap (f : Entry → List Char) (t : Trail) :
    (t.flatMap fun e => f e ++ ['\n']).splitOn '\n' =
      (t.flatMap fun e => (f e).splitOn '\n') ++ [[]] := by
  induction t with
  | nil => rfl
  | cons e rest ih =>
    rw [List.flatMap_cons, List.flatMap_cons, List.append_assoc, List.append_assoc,
      List.singleton_append, List.splitOn_append_cons_self, ih]

theorem splitOn_text (t : Trail) :
    t.text.toList.splitOn '\n' =
      (t.recorded.flatMap fun e => e.row.toList.splitOn '\n') ++ [[]] := by
  rw [toList_text, splitOn_flatMap]

theorem splitOn_text_eq_iff :
    t.text.toList.splitOn '\n' = t.recorded.map (·.row.toList) ++ [[]] ↔
      ∀ e ∈ t.recorded, '\n' ∉ e.event.line.toList := by
  constructor
  · intro whole e mem
    have piece : e.row.toList ∈ t.text.toList.splitOn '\n' := by
      rw [whole]
      exact List.mem_append_left _ (List.mem_map_of_mem mem)
    exact fun newline => notMem_of_mem_splitOn piece (Entry.newline_mem_row.mpr newline)
  · intro short
    rw [splitOn_text, List.map_eq_flatMap]
    refine congrArg (· ++ [[]]) (List.flatMap_congr fun e mem => ?_)
    exact List.splitOn_eq_singleton fun newline => short e mem (Entry.newline_mem_row.mp newline)

theorem count_newline_text (t : Trail) :
    t.text.toList.count '\n' =
      t.recorded.length + (t.recorded.flatMap (·.event.line.toList)).count '\n' := by
  rw [toList_text]
  induction t.recorded with
  | nil => rfl
  | cons e rest ih =>
    have one : ['\n'].count '\n' = 1 := List.count_singleton_self
    rw [List.flatMap_cons, List.count_append, List.count_append, Entry.count_newline_row, one, ih,
      List.flatMap_cons, List.count_append, List.length_cons]
    omega

theorem map_row_inj :
    t.map Entry.row = t'.map Entry.row ↔ t.map Entry.columns = t'.map Entry.columns := by
  induction t generalizing t' with
  | nil => cases t' <;> simp
  | cons e rest ih =>
    cases t' with
    | nil => simp
    | cons e' rest' => simp only [List.map_cons, List.cons.injEq, Entry.row_inj, ih]

theorem text_inj (short : ∀ e ∈ t.recorded, '\n' ∉ e.event.line.toList)
    (short' : ∀ e ∈ t'.recorded, '\n' ∉ e.event.line.toList) :
    t.text = t'.text ↔ t.recorded.map Entry.columns = t'.recorded.map Entry.columns := by
  rw [← map_row_inj]
  constructor
  · intro same
    have lines := splitOn_text_eq_iff.mpr short
    rw [same, splitOn_text_eq_iff.mpr short'] at lines
    have rows := congrArg (List.map String.ofList) (List.append_cancel_right lines)
    simpa [Function.comp_def] using rows.symm
  · intro same
    rw [text_eq_join, text_eq_join, same]

/-- What a trail is, line by line. Each recorded event adds the lines of its own row and no other, in
order, and that is one line exactly if its own line holds no newline, which can only come from its
message or a text beside it. If there is none, no text passes for another event. -/
theorem text_lines (t : Trail) :
    t.text.toList.splitOn '\n' =
        (t.recorded.flatMap fun e => e.row.toList.splitOn '\n') ++ [[]] ∧
      t.text.toList.count '\n' =
        t.recorded.length + (t.recorded.flatMap (·.event.line.toList)).count '\n' ∧
      (t.text.toList.splitOn '\n' = t.recorded.map (·.row.toList) ++ [[]] ↔
        ∀ e ∈ t.recorded, '\n' ∉ e.event.line.toList) ∧
      (∀ e ∈ t.recorded, (∀ d ∈ e.event.details, '\n' ∉ d.1.toList) →
        ('\n' ∈ e.event.line.toList ↔ '\n' ∈ e.event.message.toList ∨ e.event.HasLongText)) ∧
      ((∀ e ∈ t.recorded, '\n' ∉ e.event.line.toList) →
        ∀ t' : Trail, (∀ e ∈ t'.recorded, '\n' ∉ e.event.line.toList) →
          (t.text = t'.text ↔ t.recorded.map Entry.columns = t'.recorded.map Entry.columns)) :=
  ⟨splitOn_text t, count_newline_text t, splitOn_text_eq_iff,
    fun _ _ named => Event.newline_mem_line named, fun short _ short' => text_inj short short'⟩

/-- One event whose message is written as two, and the two. -/
theorem text_forged :
    let now : Moment := ⟨1700000000, 0⟩
    let one : Trail := [⟨now, .info "Starting x\n2023-11-14T22:13:20Z INFO Ending x"⟩]
    let two : Trail := [⟨now, .info "Starting x"⟩, ⟨now, .info "Ending x"⟩]
    one.text = two.text ∧ one.recorded.length = 1 ∧ two.recorded.length = 2 ∧
      one.text.toList.splitOn '\n' ≠ one.recorded.map (·.row.toList) ++ [[]] ∧
      two.text.toList.splitOn '\n' = two.recorded.map (·.row.toList) ++ [[]] := by
  decide

end Trail

end CloudProvider
