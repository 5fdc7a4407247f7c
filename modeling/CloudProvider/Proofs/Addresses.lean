import CloudProvider.Http.Request
import CloudProvider.Proofs.PercentCoding
import Mathlib.Data.List.DropRight
import Mathlib.Data.List.TakeDrop
import Mathlib.Data.List.TakeWhile

/-! Where the request of a call goes. The names of a route are put into the text of an address as they
are, and the address is read from that text. A name that has no mark of an address in it, that is no
dots and no escape, is found again as one name of the path; any other name is taken for something
else. -/

namespace CloudProvider

namespace Submission

def names : Submission → List String
  | .createVm project _ => ["projects", project, "vms"]
  | .deleteVm id => ["vms", id.text]
  | .operateVm id _ => ["vms", id.text, "operations"]
  | .attachDisk id _ => ["vms", id.text, "attach_disk"]
  | .detachDisk id _ => ["vms", id.text, "detach_disk"]
  | .attachIso id _ => ["vms", id.text, "attach_iso"]
  | .createDisk project _ => ["projects", project, "disks"]
  | .deleteDisk id => ["disks", id.text]
  | .createImage _ _ => ["images"]
  | .deleteImage id => ["images", id.text]

end Submission

namespace Call

def names : Call → List String
  | .poll id => ["tasks", id.text]
  | .submit submission => submission.names
  | .getVm id => ["vms", id.text]
  | .getDisk id => ["disks", id.text]
  | .listDisks project => ["projects", project, "disks"]

def named? (c : Call) : Option String :=
  c.names[1]?

def words : List String :=
  ["tasks", "vms", "disks", "images", "projects", "operations", "attach_disk", "detach_disk",
    "attach_iso"]

theorem mem_names {c : Call} {name : String} (member : name ∈ c.names) :
    name ∈ c.named? ∨ name ∈ words := by
  rcases c with id | submission | id | id | project
  case submit =>
    cases submission <;>
      (simp [names, named?, Submission.names, words] at member ⊢; grind)
  all_goals (simp [names, named?, words] at member ⊢; grind)

end Call

namespace Http

open Text (Percent.decode)

def below (names : List String) : List Char :=
  names.flatMap fun name => '/' :: name.toList

theorem path_toList (c : Call) : c.route.path.toList = below c.names := by
  rcases c with id | submission | id | id | project
  case submit => cases submission <;> simp [Call.route, Submission.route, Call.names, Submission.names, below]
  all_goals simp [Call.route, Call.names, below]

theorem exists_below_concat {names : List String} {last : String} (given : last ≠ "")
    (ends : names.getLast? = some last) :
    ∃ front c, below names = front ++ [c] ∧ last.toList.getLast? = some c := by
  obtain ⟨front, rfl⟩ := List.getLast?_eq_some_iff.mp ends
  have written : last.toList ≠ [] := by simpa using given
  refine ⟨below front ++ '/' :: last.toList.dropLast, last.toList.getLast written, ?_,
    List.getLast?_eq_some_getLast written⟩
  rw [List.append_assoc, List.cons_append, List.dropLast_concat_getLast]
  simp [below]

namespace Url

/-- The marks of an address, and what is left out of its text. -/
def marks : List Char := ['/', '\\', '?', '#', '\t', '\n', '\r']

/-- A name that can only be read as one name of a path. -/
structure PlainName (name : String) : Prop where
  given : name ≠ ""
  down : name ≠ "." ∧ name ≠ ".."
  unmarked : ∀ c ∈ name.toList, c ∉ marks
  verbatim : Text.Percent.Verbatim name.toList

def escaped (name : String) : String :=
  escapeName name.toList

def isLetter (c : Char) : Bool :=
  c.isAlphanum || c = '_'

theorem PlainName.of_letters {name : String} (given : name ≠ "")
    (letters : name.toList.all isLetter = true) : PlainName name where
  given := given
  down := by
    constructor <;> rintro rfl <;> exact absurd letters (by decide)
  unmarked c inside marked := by
    have unlettered := List.all_eq_true.mp (show marks.all (!isLetter ·) = true from rfl) c marked
    rw [List.all_eq_true.mp letters c inside] at unlettered
    cases unlettered
  verbatim a b _ _ inside :=
    absurd (List.all_eq_true.mp letters '%' (inside.subset List.mem_cons_self)) (by decide)

theorem decode_escaped {name : String} (plain : PlainName name) :
    Percent.decode (escaped name).toList = Text.Utf8.encode name := by
  rw [escaped, escapeName, Text.Percent.decode_encode plain.verbatim, String.ofList_toList]

theorem toNat_toLower (c : Char) :
    c.toLower.toNat = if 65 ≤ c.toNat ∧ c.toNat ≤ 90 then c.toNat + 32 else c.toNat := by
  unfold Char.toLower
  simp only [ge_iff_le, UInt32.le_iff_toNat_le, Char.toNat]
  have shift : ('a'.val - 'A'.val).toNat = 32 := by decide
  split <;> rename_i capital
  · have capital : 65 ≤ c.val.toNat ∧ c.val.toNat ≤ 90 := capital
    rw [if_pos capital, UInt32.toNat_add]
    omega
  · have capital : ¬ (65 ≤ c.val.toNat ∧ c.val.toNat ≤ 90) := capital
    rw [if_neg capital]

theorem eq_of_toLower {c mark : Char} (unlettered : mark.toNat < 65) (same : c.toLower = mark) :
    c = mark := by
  have lower := toNat_toLower c
  rw [same] at lower
  refine Char.toNat_inj.mp ?_
  split at lower <;> omega

theorem eq_or_eq_of_toLower {c : Char} (same : c.toLower = 'e') : c = 'e' ∨ c = 'E' := by
  have lower := toNat_toLower c
  have small : 'e'.toNat = 101 := rfl
  have great : 'E'.toNat = 69 := rfl
  rw [same] at lower
  rw [← Char.toNat_inj, ← Char.toNat_inj]
  split at lower <;> omega

def dots : List String := [".", "%2e"]

theorem exists_decode_of_dot {cs rest : List Char} {dot : String} (spelling : dot ∈ dots)
    (lower : cs.map Char.toLower = dot.toList ++ rest) :
    ∃ tail, tail.map Char.toLower = rest ∧
      Percent.decode cs = Text.Utf8.encode "." ++ Percent.decode tail := by
  simp only [dots, List.mem_cons, List.not_mem_nil, or_false] at spelling
  rcases spelling with rfl | rfl
  · obtain ⟨c, tail, rfl, point, rest⟩ := List.map_eq_cons_iff.mp lower
    obtain rfl := eq_of_toLower (by decide) point
    exact ⟨tail, rest, Text.Percent.decode_cons (by decide) tail⟩
  · obtain ⟨a, cs, rfl, percent, lower⟩ := List.map_eq_cons_iff.mp lower
    obtain ⟨b, cs, rfl, two, lower⟩ := List.map_eq_cons_iff.mp lower
    obtain ⟨c, tail, rfl, letter, rest⟩ := List.map_eq_cons_iff.mp lower
    obtain rfl := eq_of_toLower (by decide) percent
    obtain rfl := eq_of_toLower (by decide) two
    refine ⟨tail, rest, ?_⟩
    rcases eq_or_eq_of_toLower letter with rfl | rfl <;> rfl

theorem map_toLower {name lower : String} (same : name.toLower = lower) :
    name.toList.map Char.toLower = lower.toList := by
  rw [← same]
  exact String.toList_map.symm

theorem decode_of_isHere {name : String} (here : isHere name = true) :
    Percent.decode name.toList = Text.Utf8.encode "." := by
  obtain ⟨dot, spelling, lower⟩ : ∃ dot ∈ dots, name.toLower = dot := by
    simpa [isHere, dots] using here
  obtain ⟨tail, none, decoded⟩ :=
    exists_decode_of_dot spelling ((map_toLower lower).trans (List.append_nil _).symm)
  obtain rfl := List.map_eq_nil_iff.mp none
  rw [decoded]
  rfl

theorem decode_of_isUp {name : String} (up : isUp name = true) :
    Percent.decode name.toList = Text.Utf8.encode ".." := by
  obtain ⟨first, spelled, second, spelling, lower⟩ :
      ∃ first ∈ dots, ∃ second ∈ dots, name.toLower = first ++ second := by
    simpa [isUp, dots, or_assoc] using up
  have lower := map_toLower lower
  rw [String.toList_append] at lower
  obtain ⟨rest, lower, decoded⟩ := exists_decode_of_dot spelled lower
  obtain ⟨tail, none, later⟩ :=
    exists_decode_of_dot spelling (lower.trans (List.append_nil _).symm)
  obtain rfl := List.map_eq_nil_iff.mp none
  rw [decoded, later]
  rfl

theorem isHere_escaped {name : String} (plain : PlainName name) : isHere (escaped name) = false := by
  by_contra here
  have decoded := decode_of_isHere (Bool.not_eq_false _ ▸ here)
  rw [decode_escaped plain] at decoded
  exact plain.down.1 (Text.Utf8.encode_injective decoded)

theorem isUp_escaped {name : String} (plain : PlainName name) : isUp (escaped name) = false := by
  by_contra up
  have decoded := decode_of_isUp (Bool.not_eq_false _ ▸ up)
  rw [decode_escaped plain] at decoded
  exact plain.down.2 (Text.Utf8.encode_injective decoded)

theorem walk_plain {names : List String}
    (plain : ∀ name ∈ names, isHere name = false ∧ isUp name = false) (kept : List String) :
    walk kept names = kept.reverse ++ names := by
  induction names generalizing kept with
  | nil => simp [walk]
  | cons name rest ih =>
    obtain ⟨⟨here, up⟩, later⟩ := List.forall_mem_cons.mp plain
    cases rest with
    | nil => simp [walk, here, up]
    | cons next rest =>
      have onward := ih later (name :: kept)
      simpa [walk, here, up] using onward

theorem isSlash_of_unmarked {c : Char} (unmarked : c ∉ marks) : isSlash true c = false := by
  simp only [marks, List.mem_cons, not_or] at unmarked
  simp [isSlash, unmarked]

theorem splitNames_below {name : String} {names : List String}
    (unmarked : ∀ n ∈ name :: names, ∀ c ∈ n.toList, c ∉ marks) :
    splitNames true (name.toList ++ below names) = (name :: names).map String.toList := by
  induction names generalizing name with
  | nil =>
    have whole (c : Char) (inside : c ∈ name.toList) : isSlash true c = false :=
      isSlash_of_unmarked (unmarked name List.mem_cons_self c inside)
    simpa [below, splitNames] using List.splitOnP_eq_singleton whole
  | cons next rest ih =>
    obtain ⟨first, later⟩ := List.forall_mem_cons.mp unmarked
    have whole (c : Char) (inside : c ∈ name.toList) : isSlash true c = false :=
      isSlash_of_unmarked (first c inside)
    have rest := ih later
    simp only [below, List.flatMap_cons, splitNames, List.cons_append] at rest ⊢
    rw [List.splitOnP_append_cons_of_forall_mem whole '/' (by decide), rest]
    rfl

theorem parsePath_below {name : String} {names : List String}
    (plain : ∀ n ∈ name :: names, PlainName n) :
    parsePath true (below (name :: names)) = .names ((name :: names).map escaped) := by
  have split := splitNames_below fun n inside => (plain n inside).unmarked
  have apart : ∀ n ∈ (name :: names).map escaped, isHere n = false ∧ isUp n = false := by
    rw [List.forall_mem_map]
    exact fun n inside => ⟨isHere_escaped (plain n inside), isUp_escaped (plain n inside)⟩
  have walked := walk_plain apart []
  simp only [below, List.flatMap_cons, List.cons_append, parsePath] at split ⊢
  rw [if_pos (by decide), split, List.map_map]
  exact congrArg Path.names walked

theorem tidy_eq {s : String} {first last : Char} {front : List Char} (back : List Char)
    (begins : s.toList = first :: front) (seen : ' ' < first)
    (ends : s.toList = back ++ [last]) (ended : ' ' < last)
    (whole : ∀ c ∈ s.toList, c ≠ '\t' ∧ c ≠ '\n' ∧ c ≠ '\r') : tidy s = s.toList := by
  have forth : s.toList.dropWhile (· ≤ ' ') = s.toList := by
    rw [begins, List.dropWhile_cons_of_neg (by simpa using seen)]
  have back : s.toList.reverse.dropWhile (· ≤ ' ') = s.toList.reverse := by
    rw [ends, List.reverse_append, List.reverse_singleton, List.singleton_append,
      List.dropWhile_cons_of_neg (by simpa using ended)]
  simp only [tidy, forth, back, List.reverse_reverse]
  exact List.filter_eq_self.mpr fun c inside => by simpa [and_assoc] using whole c inside

theorem span_of_forall {p : Char → Bool} {front : List Char} (passing : ∀ c ∈ front, p c = true)
    (mark : Char) (stopping : p mark = false) (rest : List Char) :
    (front ++ mark :: rest).span p = (front, mark :: rest) := by
  simp [List.span_eq_takeWhile_dropWhile, List.takeWhile_append_of_pos passing,
    List.dropWhile_append_of_pos passing, stopping]

theorem splitAt?_of_forall {mark : Char} {cs : List Char} (free : ∀ c ∈ cs, c ≠ mark) :
    splitAt? mark cs = (cs, none) := by
  have passing : ∀ c ∈ cs, (decide (c ≠ mark)) = true := by simpa using free
  have taken := List.takeWhile_eq_self_iff.mpr passing
  have dropped := List.dropWhile_eq_nil_iff.mpr passing
  simp only [splitAt?, List.span_eq_takeWhile_dropWhile, taken, dropped]

end Url

namespace Host

variable {s : List Char} {host : Host}

theorem ne_of_parseIpv4 (parsed : parseIpv4 s = some host) : host ≠ .name "" := by
  simp only [parseIpv4, Option.bind_eq_bind, Option.bind_eq_some_iff] at parsed
  obtain ⟨numbers, -, last, -, parsed⟩ := parsed
  split at parsed
  · cases parsed
  · split at parsed <;> cases parsed
    nofun

theorem ne_of_parseIpv6 (parsed : parseIpv6 s = some host) : host ≠ .name "" := by
  simp only [parseIpv6, Option.bind_eq_bind] at parsed
  split at parsed
  · obtain ⟨pieces, -, parsed⟩ := Option.bind_eq_some_iff.mp parsed
    split at parsed <;> cases parsed
    nofun
  · split at parsed
    · cases parsed
    · obtain ⟨left, -, parsed⟩ := Option.bind_eq_some_iff.mp parsed
      obtain ⟨right, -, parsed⟩ := Option.bind_eq_some_iff.mp parsed
      split at parsed <;> cases parsed
      nofun

theorem ne_of_parseName (parsed : parseName s = some host) : host ≠ .name "" := by
  simp only [parseName, Option.bind_eq_bind] at parsed
  obtain ⟨decoded, -, parsed⟩ := Option.bind_eq_some_iff.mp parsed
  split at parsed
  · cases parsed
  · rename_i written
    split at parsed
    · exact ne_of_parseIpv4 parsed
    · cases parsed
      intro same
      have same := congrArg String.toList (Host.name.inj same)
      rw [String.toList_ofList] at same
      exact written (.inl (by simp [same]))

theorem ne_of_parse (parsed : parse s = some host) : host ≠ .name "" := by
  unfold parse at parsed
  split at parsed
  · split at parsed
    · exact ne_of_parseIpv6 parsed
    · cases parsed
  · exact ne_of_parseName parsed

end Host

def origin : List Char := ['h', 't', 't', 'p', ':', '/', '/']

/-- A configured target: a place of the network, names below it, and slashes behind them. -/
structure Root where
  place : List Char
  authority : Url.Authority
  names : List String
  slashes : Nat
  parsed : Url.parseAuthority "http" place = some authority
  unmarked : ∀ c ∈ place, c ∉ Url.marks ∧ c ≠ '@'
  plain : ∀ name ∈ names, Url.PlainName name

namespace Root

variable (r : Root)

def chars : List Char :=
  origin ++ r.place ++ below r.names

def text : String :=
  String.ofList (r.chars ++ List.replicate r.slashes '/')

def address (names : List String) : Url where
  scheme := "http"
  user := ""
  password := ""
  host := some r.authority.host
  port := r.authority.port
  path := .names ((r.names ++ "v1" :: names).map Url.escaped)
  query := none
  fragment := none

theorem splitUser_place : Url.splitUser r.place = (none, r.place) := by
  have passing : ∀ c ∈ r.place.reverse, decide (c ≠ '@') = true := by
    simpa using fun c inside => (r.unmarked c inside).2
  have taken := List.takeWhile_eq_self_iff.mpr passing
  have dropped := List.dropWhile_eq_nil_iff.mpr passing
  simp only [Url.splitUser, List.span_eq_takeWhile_dropWhile, taken, dropped, List.reverse_reverse]

theorem authority_spec : r.place ≠ [] ∧ r.authority.user = "" ∧ r.authority.password = "" ∧
    r.authority.host ≠ .name "" := by
  have parsed := r.parsed
  simp only [Url.parseAuthority, splitUser_place, Option.bind_eq_bind] at parsed
  split at parsed
  · cases parsed
  · rename_i given
    rw [if_pos (by decide)] at parsed
    obtain ⟨host, named, parsed⟩ := Option.bind_eq_some_iff.mp parsed
    obtain ⟨port, -, parsed⟩ := Option.bind_eq_some_iff.mp parsed
    rw [← Option.some.inj parsed]
    refine ⟨?_, rfl, rfl, Host.ne_of_parse named⟩
    intro empty
    exact given (by rw [empty]; decide)

variable {names : List String}

theorem mem_below {c : Char} (inside : c ∈ below names) :
    c = '/' ∨ ∃ name ∈ names, c ∈ name.toList := by
  obtain ⟨name, member, inside⟩ := List.mem_flatMap.mp inside
  rcases List.mem_cons.mp inside with rfl | inside
  · exact .inl rfl
  · exact .inr ⟨name, member, inside⟩

theorem ne_of_mem_chars (plain : ∀ name ∈ names, Url.PlainName name) {c mark : Char}
    (marked : mark ∈ Url.marks) (other : mark ≠ '/') (inside : c ∈ r.place ++ below names) :
    c ≠ mark := by
  rintro rfl
  rcases List.mem_append.mp inside with inside | inside
  · exact (r.unmarked c inside).1 marked
  · rcases mem_below inside with rfl | ⟨name, member, inside⟩
    · exact other rfl
    · exact (plain name member).unmarked c inside marked

theorem splitScheme_origin (rest : List Char) :
    Url.splitScheme (origin ++ rest) = some ("http", '/' :: '/' :: rest) := by
  have letters : ∀ c ∈ ['h', 't', 't', 'p'],
      (c.isAlphanum || c = '+' || c = '-' || c = '.') = true := List.all_eq_true.mp rfl
  have stopping : (':'.isAlphanum || ':' = '+' || ':' = '-' || ':' = '.') = false := by decide
  have split := Url.span_of_forall letters ':' stopping ('/' :: '/' :: rest)
  simp only [List.cons_append, List.nil_append] at split
  simp only [origin, List.cons_append, List.nil_append, Url.splitScheme, split]
  rfl

theorem parsePlace_chars {name : String} (plain : ∀ n ∈ name :: names, Url.PlainName n) :
    Url.parsePlace "http" ('/' :: '/' :: (r.place ++ below (name :: names))) =
      some ⟨some r.authority, .names ((name :: names).map Url.escaped)⟩ := by
  have unslashed (c : Char) (inside : c ∈ r.place) : (!Url.isSlash true c) = true := by
    rw [Url.isSlash_of_unmarked (r.unmarked c inside).1]
    rfl
  have split := Url.span_of_forall unslashed '/' (by decide)
    (name.toList ++ below names)
  obtain ⟨c, place, begins⟩ := List.exists_cons_of_ne_nil r.authority_spec.1
  have first : Url.isSlash true c = false :=
    Url.isSlash_of_unmarked (r.unmarked c (begins ▸ List.mem_cons_self)).1
  have dropped :
      ('/' :: '/' :: (r.place ++ below (name :: names))).dropWhile (Url.isSlash true) =
        r.place ++ '/' :: (name.toList ++ below names) := by
    have slash : Url.isSlash true '/' = true := by decide
    simp [begins, below, first, slash]
  have path := Url.parsePath_below plain
  simp only [below, List.flatMap_cons, List.cons_append] at path dropped split
  simp only [Url.parsePlace]
  rw [if_neg (by decide), if_pos (by decide)]
  simp only [below, List.flatMap_cons, List.cons_append, dropped, split, r.parsed, path,
    Option.bind_eq_bind, Option.bind_some]

theorem exists_chars_concat : ∃ front c, r.chars = front ++ [c] ∧ c ≠ '/' := by
  rcases ends : r.names.getLast? with _ | name
  · have none := List.getLast?_eq_none_iff.mp ends
    have inside := List.getLast_mem r.authority_spec.1
    refine ⟨origin ++ r.place.dropLast, r.place.getLast r.authority_spec.1, ?_, ?_⟩
    · rw [List.append_assoc, List.dropLast_concat_getLast, chars, none, below, List.flatMap_nil,
        List.append_nil]
    · rintro slash
      exact (r.unmarked _ inside).1 (slash ▸ by decide)
  · have plain := r.plain name (List.mem_of_getLast? ends)
    obtain ⟨front, c, form, last⟩ := exists_below_concat plain.given ends
    refine ⟨origin ++ r.place ++ front, c, ?_, ?_⟩
    · rw [chars, form, ← List.append_assoc]
    · rintro rfl
      exact plain.unmarked '/' (List.mem_of_getLast? last) (by decide)

theorem base_text : (base r.text).toList = r.chars ++ below ["v1"] := by
  obtain ⟨front, c, form, last⟩ := r.exists_chars_concat
  have dropped : (r.chars ++ List.replicate r.slashes '/').rdropWhile (· = '/') = r.chars := by
    generalize r.slashes = slashes
    induction slashes with
    | zero =>
      rw [List.replicate_zero, List.append_nil, form]
      exact List.rdropWhile_concat_neg _ _ _ (by simpa using last)
    | succ n ih =>
      rw [List.replicate_succ', ← List.append_assoc, List.rdropWhile_concat_pos _ _ _ (by simp), ih]
  have same := congrArg (· ++ below ["v1"]) dropped
  simpa [base, text, List.rdropWhile, below] using same

theorem plain_all (plain : ∀ name ∈ names, Url.PlainName name) :
    ∀ name ∈ r.names ++ "v1" :: names, Url.PlainName name := by
  rw [List.forall_mem_append, List.forall_mem_cons]
  exact ⟨r.plain, .of_letters (by decide) (by decide), plain⟩

theorem ne_of_mem_rest (plain : ∀ name ∈ names, Url.PlainName name) {c mark : Char}
    (marked : mark ∈ Url.marks) (other : mark ≠ '/')
    (inside : c ∈ '/' :: '/' :: (r.place ++ below (r.names ++ "v1" :: names))) : c ≠ mark := by
  simp only [List.mem_cons] at inside
  rcases inside with rfl | rfl | inside
  · exact other.symm
  · exact other.symm
  · exact r.ne_of_mem_chars (r.plain_all plain) marked other inside

section Written

variable {s : String} (written : s.toList = r.chars ++ below ("v1" :: names))
  (plain : ∀ name ∈ names, Url.PlainName name)

include written

theorem toList_eq : s.toList = origin ++ (r.place ++ below (r.names ++ "v1" :: names)) := by
  simp [written, chars, below]

include plain

theorem tidy_written (ended : ∀ last ∈ names.getLast?, ∀ c ∈ last.toList.getLast?, ' ' < c) :
    Url.tidy s = s.toList := by
  obtain ⟨last, ends, final⟩ : ∃ last, (r.names ++ "v1" :: names).getLast? = some last ∧
      ∀ c ∈ last.toList.getLast?, ' ' < c := by
    rcases final : names.getLast? with _ | last
    · have digit : ∀ c ∈ "v1".toList.getLast?, ' ' < c := by simp
      exact ⟨"v1", by simp [List.getLast?_cons, final], digit⟩
    · exact ⟨last, by simp [List.getLast?_cons, final], ended last final⟩
  obtain ⟨front, c, form, closing⟩ :=
    exists_below_concat (r.plain_all plain last (List.mem_of_getLast? ends)).given ends
  have begins : s.toList = ['h', 't', 't', 'p', ':'] ++
      '/' :: '/' :: (r.place ++ below (r.names ++ "v1" :: names)) := r.toList_eq written
  refine Url.tidy_eq (origin ++ (r.place ++ front)) begins (by decide) ?_ (final c closing) ?_
  · rw [r.toList_eq written, form]
    simp
  · rw [begins, List.forall_mem_append]
    refine ⟨by simp, fun c inside => ⟨?_, ?_, ?_⟩⟩
    all_goals exact r.ne_of_mem_rest plain (by decide) (by decide) inside

theorem parse_eq (ended : ∀ last ∈ names.getLast?, ∀ c ∈ last.toList.getLast?, ' ' < c) :
    Url.parse s = some (r.address names) := by
  have shape := r.toList_eq written
  have tidied := r.tidy_written written plain ended
  obtain ⟨first, rest, split⟩ :=
    List.exists_cons_of_ne_nil (List.append_ne_nil_of_right_ne_nil r.names (List.cons_ne_nil "v1" names))
  have place := r.parsePlace_chars (split ▸ r.plain_all plain)
  rw [← split] at place
  have fragment := Url.splitAt?_of_forall fun _ =>
    r.ne_of_mem_rest plain (show '#' ∈ Url.marks by decide) (by decide)
  have query := Url.splitAt?_of_forall fun _ =>
    r.ne_of_mem_rest plain (show '?' ∈ Url.marks by decide) (by decide)
  simp only [Url.parse, tidied, shape, splitScheme_origin, fragment, query, place,
    Option.bind_eq_bind, Option.bind_some]
  simp [address, r.authority_spec]

end Written

end Root

end Http

namespace Call

open Http

def operation : Call → String
  | .poll _ => "get_task"
  | .getVm _ => "get_vm"
  | .getDisk _ => "get_disk"
  | .listDisks _ => "list_disks"
  | .submit (.createVm ..) => "create_vm"
  | .submit (.deleteVm ..) => "delete_vm"
  | .submit (.operateVm ..) => "vm_operation"
  | .submit (.attachDisk ..) => "attach_disk"
  | .submit (.detachDisk ..) => "detach_disk"
  | .submit (.attachIso ..) => "attach_iso"
  | .submit (.createDisk ..) => "create_disk"
  | .submit (.deleteDisk ..) => "delete_disk"
  | .submit (.createImage ..) => "create_image"
  | .submit (.deleteImage ..) => "delete_image"

def forces : Call → Bool
  | .submit (.deleteVm _) | .submit (.deleteDisk _) => true
  | _ => false

theorem route_forced (c : Call) : c.route.forced = c.forces := by
  rcases c with id | submission | id | id | project
  case submit => cases submission <;> rfl
  all_goals rfl

structure Addressable (c : Call) : Prop where
  plain : ∀ name ∈ c.named?, Url.PlainName name
  ended : ∀ last ∈ c.names.getLast?, ∀ char ∈ last.toList.getLast?, ' ' < char

theorem Addressable.names_plain {c : Call} (addressable : c.Addressable) :
    ∀ name ∈ c.names, Url.PlainName name := by
  have letters : ∀ word ∈ words, word ≠ "" ∧ word.toList.all Url.isLetter = true := by decide
  intro name member
  rcases mem_names member with named | word
  · exact addressable.plain name named
  · exact .of_letters (letters name word).1 (letters name word).2

end Call

namespace Http

open Text (Percent.decode)

/-- What a server takes a request for: the operation, and what it is about. -/
def served : Method → List String → Option (String × Option String)
  | .get, ["tasks", id] => some ("get_task", some id)
  | .get, ["vms", id] => some ("get_vm", some id)
  | .get, ["disks", id] => some ("get_disk", some id)
  | .get, ["projects", project, "disks"] => some ("list_disks", some project)
  | .post, ["projects", project, "vms"] => some ("create_vm", some project)
  | .post, ["projects", project, "disks"] => some ("create_disk", some project)
  | .post, ["vms", id, "operations"] => some ("vm_operation", some id)
  | .post, ["vms", id, "attach_disk"] => some ("attach_disk", some id)
  | .post, ["vms", id, "detach_disk"] => some ("detach_disk", some id)
  | .post, ["vms", id, "attach_iso"] => some ("attach_iso", some id)
  | .post, ["images"] => some ("create_image", none)
  | .delete, ["vms", id] => some ("delete_vm", some id)
  | .delete, ["disks", id] => some ("delete_disk", some id)
  | .delete, ["images", id] => some ("delete_image", some id)
  | _, _ => none

theorem served_names (c : Call) : served c.route.method c.names = some (c.operation, c.named?) := by
  rcases c with id | submission | id | id | project
  case submit => cases submission <;> rfl
  all_goals rfl

theorem Url.map_decode_escaped {names : List String} (plain : ∀ name ∈ names, PlainName name) :
    (names.map escaped).map (fun name => Percent.decode name.toList) =
      names.map Text.Utf8.encode := by
  rw [List.map_map]
  refine List.map_congr_left fun name member => ?_
  rw [Function.comp_apply]
  exact decode_escaped (plain name member)

theorem Url.eq_of_map_escaped {names others : List String}
    (plain : ∀ name ∈ names, PlainName name) (others_plain : ∀ name ∈ others, PlainName name)
    (same : names.map escaped = others.map escaped) : names = others := by
  have decoded := congrArg (List.map fun name => Percent.decode name.toList) same
  rw [map_decode_escaped plain, map_decode_escaped others_plain] at decoded
  exact List.map_injective_iff.mpr (fun _ _ => Text.Utf8.encode_injective) decoded

namespace Root

variable (r : Root) (c : Call)

def url : Url :=
  { r.address c.names with query := if c.forces then some "force=true" else none }

theorem hasHost_address (names : List String) : (r.address names).hasHost = true := by
  have host : (r.address names).host = some r.authority.host := rfl
  have named := r.authority_spec.2.2.2
  rw [Url.hasHost, host]
  split
  · rename_i none
    cases none
  · rename_i empty
    exact absurd (Option.some.inj empty) named
  · rfl

theorem request_eq (addressable : c.Addressable) :
    request r.text c = (do
      let payload ← c.payload
      if (r.url c).isSendable then .ok ⟨c.route.method, r.url c, none, payload⟩
      else .error (.unusable (r.url c))) := by
  have written : (base r.text ++ c.route.path).toList = r.chars ++ below ("v1" :: c.names) := by
    rw [String.toList_append, base_text, path_toList, List.append_assoc]
    simp [below]
  have parsed := r.parse_eq written addressable.names_plain addressable.ended
  have hosted := r.hasHost_address c.names
  have query : (if c.route.forced then (r.address c.names).withParameter "force" "true"
      else r.address c.names) = r.url c := by
    rw [Call.route_forced, url]
    split <;> rfl
  have login : (r.address c.names).takeLogin = (none, r.address c.names) := rfl
  simp only [request, parsed, hosted, login, query]
  cases c.payload with
  | error fault => rfl
  | ok payload =>
    cases (r.url c).isSendable <;> rfl

theorem eq_of_request {q : Request} (addressable : c.Addressable)
    (sent : request r.text c = .ok q) : q.method = c.route.method ∧ q.url = r.url c := by
  rw [r.request_eq c addressable] at sent
  cases ready : c.payload with
  | error fault => rw [ready] at sent; cases sent
  | ok payload =>
    rw [ready] at sent
    cases able : (r.url c).isSendable
    · rw [able] at sent; cases sent
    · rw [able] at sent; cases sent
      exact ⟨rfl, rfl⟩

/-- A call asks for what it names, and for nothing that another call asks for. -/
theorem request_addresses (addressable : c.Addressable) :
    request r.text c = (do
      let payload ← c.payload
      if (r.url c).isSendable then .ok ⟨c.route.method, r.url c, none, payload⟩
      else .error (.unusable (r.url c))) ∧
    (∃ names, (r.url c).path = .names (r.names.map Url.escaped ++ "v1" :: names) ∧
      names.map (fun name => Percent.decode name.toList) = c.names.map Text.Utf8.encode) ∧
    (r.url c).query = (if c.forces then some "force=true" else none) ∧
    ∀ (d : Call) (q p : Request), d.Addressable →
      request r.text c = .ok q → request r.text d = .ok p → p.method = q.method → p.url = q.url →
        d.operation = c.operation ∧ d.named? = c.named? := by
  refine ⟨r.request_eq c addressable, ⟨c.names.map Url.escaped, ?_, ?_⟩, rfl, ?_⟩
  · simp only [url, address, List.map_append, List.map_cons]
    rfl
  · exact Url.map_decode_escaped addressable.names_plain
  · intro d q p others sent sentToo sameMethod sameUrl
    obtain ⟨method, url⟩ := r.eq_of_request c addressable sent
    obtain ⟨methodToo, urlToo⟩ := r.eq_of_request d others sentToo
    rw [url, urlToo] at sameUrl
    rw [method, methodToo] at sameMethod
    have names : d.names = c.names := by
      have path := congrArg Url.path sameUrl
      simp only [Root.url, address, Path.names.injEq, List.map_append, List.map_cons,
        List.append_cancel_left_eq, List.cons.injEq, true_and] at path
      exact Url.eq_of_map_escaped others.names_plain addressable.names_plain path
    have served := served_names d
    rw [sameMethod, names, served_names c] at served
    simpa [eq_comm] using served

def sample : Root where
  place := "esx.test:9000".toList
  authority := (Url.parseAuthority "http" "esx.test:9000".toList).get (by decide +kernel)
  names := ["api"]
  slashes := 1
  parsed := (Option.some_get _).symm
  unmarked := by
    have free : "esx.test:9000".toList.all (fun c => !Url.marks.contains c && c ≠ '@') = true := by
      decide +kernel
    simpa using List.all_eq_true.mp free
  plain := by
    rw [List.forall_mem_singleton]
    exact .of_letters (by decide) (by decide)

theorem request_addresses_sample :
    (Call.submit (.deleteVm ⟨"vm_1"⟩)).Addressable ∧
    (sample.url (.submit (.deleteVm ⟨"vm_1"⟩))).text =
      "http://esx.test:9000/api/v1/vms/vm_1?force=true" ∧
    request "http://esx.test:9000/api/" (.submit (.deleteVm ⟨"vm_1"⟩)) =
      .ok ⟨.delete, sample.url (.submit (.deleteVm ⟨"vm_1"⟩)), none, .nothing⟩ := by
  have addressable : (Call.submit (.deleteVm ⟨"vm_1"⟩)).Addressable := by
    constructor
    · rintro name ⟨⟩
      exact .of_letters (by decide) (by decide)
    · rintro last ⟨⟩ char ⟨⟩
      decide
  have sendable : (sample.url (.submit (.deleteVm ⟨"vm_1"⟩))).isSendable = true := by
    decide +kernel
  have sent := (sample.request_addresses _ addressable).1
  refine ⟨addressable, by decide +kernel, sent.trans ?_⟩
  rw [sendable]
  rfl

end Root

/-- An identifier that leads away from itself: the request is the one for another machine. -/
theorem request_astray :
    (request "http://esx.test:9000" (.submit (.deleteVm ⟨"vm-1/../vm-2"⟩))).toOption.map
        (fun q => (q.method, q.url)) =
      (request "http://esx.test:9000" (.submit (.deleteVm ⟨"vm-2"⟩))).toOption.map
        (fun q => (q.method, q.url)) ∧
    (request "http://esx.test:9000" (.submit (.deleteVm ⟨"vm-1/../vm-2"⟩))).toOption.map
        (fun q => q.url.text) = some "http://esx.test:9000/v1/vms/vm-2?force=true" := by
  decide +kernel

end Http
end CloudProvider
