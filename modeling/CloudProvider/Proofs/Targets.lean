import CloudProvider.Http.Request
import Mathlib.Data.List.TakeDrop
import Mathlib.Data.List.TakeWhile

/-! Addresses below a target. Whatever text is put behind an address in the network, as long as it
begins with a slash, leads to the same place: scheme, login, host and port have been read before it.
Every call so has a request, unless its address is too long to go into a message. -/

namespace CloudProvider.Http

namespace Url

variable {p : Char → Bool} {cs before after more : List Char} {mark : Char}

theorem span_append_of_stopped {c : Char} (split : cs.span p = (before, c :: after)) :
    (cs ++ more).span p = (before, c :: after ++ more) := by
  rw [List.span_eq_takeWhile_dropWhile] at split ⊢
  induction cs generalizing before with
  | nil => cases split
  | cons first cs ih =>
    by_cases passing : p first
    · obtain ⟨rfl, rest⟩ := Prod.mk.inj split
      rw [List.dropWhile_cons_of_pos passing] at rest
      obtain ⟨taken, dropped⟩ := Prod.mk.inj (ih (congrArg (Prod.mk _) rest))
      rw [List.cons_append, List.takeWhile_cons_of_pos passing, List.takeWhile_cons_of_pos passing,
        List.dropWhile_cons_of_pos passing, taken, dropped]
    · rw [List.takeWhile_cons_of_neg passing, List.dropWhile_cons_of_neg passing] at split
      rw [List.cons_append, List.takeWhile_cons_of_neg passing, List.dropWhile_cons_of_neg passing,
        ← List.cons_append]
      obtain ⟨rfl, rest⟩ := Prod.mk.inj split
      rw [rest]

theorem span_append_of_ended (split : cs.span p = (before, [])) :
    (cs ++ more).span p = (before ++ more.takeWhile p, more.dropWhile p) := by
  rw [List.span_eq_takeWhile_dropWhile] at split ⊢
  obtain ⟨rfl, none⟩ := Prod.mk.inj split
  have passing : ∀ c ∈ cs, p c = true := by simpa [List.dropWhile_eq_nil_iff] using none
  rw [List.takeWhile_append_of_pos passing, List.dropWhile_append_of_pos passing,
    List.takeWhile_eq_self_iff.mpr passing]

theorem span_append_cons (split : cs.span p = (before, after)) (stops : p mark = false) :
    (cs ++ mark :: more).span p = (before, after ++ mark :: more) := by
  cases after with
  | nil =>
    rw [span_append_of_ended split, List.takeWhile_cons_of_neg (by simp [stops]),
      List.dropWhile_cons_of_neg (by simp [stops]), List.append_nil, List.nil_append]
  | cons c after => exact span_append_of_stopped split

theorem dropWhile_append_cons (stops : p mark = false) :
    (cs ++ mark :: more).dropWhile p = cs.dropWhile p ++ mark :: more := by
  have split : (cs ++ mark :: more).span p = (cs.takeWhile p, cs.dropWhile p ++ mark :: more) :=
    span_append_cons (List.span_eq_takeWhile_dropWhile ..) stops
  rw [List.span_eq_takeWhile_dropWhile] at split
  exact (Prod.mk.inj split).2

theorem exists_tidy_append {s t : String} {front path : List Char} (ends : s.toList = front ++ ['1'])
    (begins : t.toList = '/' :: path) :
    ∃ more, tidy (s ++ t) = tidy s ++ '/' :: more := by
  have one : decide ('1' ≤ ' ') = false := by decide
  have slash : decide ('/' ≤ ' ') = false := by decide
  have seen : (front ++ ['1']).dropWhile (· ≤ ' ') = front.dropWhile (· ≤ ' ') ++ ['1'] :=
    dropWhile_append_cons one
  generalize front.dropWhile (· ≤ ' ') = front at seen
  have whole : (front ++ ['1']).reverse.dropWhile (· ≤ ' ') = (front ++ ['1']).reverse := by
    rw [List.reverse_append, List.reverse_singleton, List.singleton_append,
      List.dropWhile_cons_of_neg (by simp)]
  have trimmed : (front ++ ['1'] ++ '/' :: path).reverse.dropWhile (· ≤ ' ') =
      path.reverse.dropWhile (· ≤ ' ') ++ '/' :: (front ++ ['1']).reverse := by
    rw [List.reverse_append, List.reverse_cons, List.append_assoc, List.singleton_append]
    exact dropWhile_append_cons slash
  have forth : (s ++ t).toList.dropWhile (· ≤ ' ') = front ++ ['1'] ++ '/' :: path := by
    rw [String.toList_append, ends, begins, ← seen]
    exact dropWhile_append_cons slash
  refine ⟨(path.reverse.dropWhile (· ≤ ' ')).reverse.filter
    fun c => c ≠ '\t' && c ≠ '\n' && c ≠ '\r', ?_⟩
  rw [tidy, tidy, forth, trimmed, ends, seen, whole]
  simp

theorem splitScheme_append {scheme : String} (split : splitScheme cs = some (scheme, after)) :
    splitScheme (cs ++ '/' :: more) = some (scheme, after ++ '/' :: more) := by
  have stops : ('/'.isAlphanum || '/' = '+' || '/' = '-' || '/' = '.') = false := by decide
  unfold splitScheme at split ⊢
  rcases spanned : cs.span (fun c => c.isAlphanum || c = '+' || c = '-' || c = '.') with ⟨name, rest⟩
  rw [spanned] at split
  rw [span_append_cons spanned stops]
  dsimp only at split ⊢
  split at split
  · next first name rest =>
    split at split
    · next alpha =>
      change (if first.isAlpha then
        some (String.ofList ((first :: name).map Char.toLower), rest ++ '/' :: more) else none) = _
      rw [if_pos alpha]
      obtain ⟨rfl, rfl⟩ := Prod.mk.inj (Option.some.inj split)
      rfl
    · cases split
  · cases split

def IsOnward (tail : List Char) : Prop :=
  tail = [] ∨ ∃ path, tail = '/' :: path

variable {tail : List Char}

theorem exists_splitAt?_append (mark : Char) (other : mark ≠ '/') (cs : List Char) (onward : IsOnward tail) :
    ∃ left rest, splitAt? mark (cs ++ tail) = ((splitAt? mark cs).1 ++ left, rest) ∧
      IsOnward left := by
  obtain rfl | ⟨path, rfl⟩ := onward
  · exact ⟨[], (splitAt? mark cs).2, by rw [List.append_nil, List.append_nil], .inl rfl⟩
  unfold splitAt?
  rcases spanned : cs.span (· ≠ mark) with ⟨before, _ | ⟨c, after⟩⟩
  · rw [span_append_of_ended spanned, List.takeWhile_cons_of_pos (by simpa using Ne.symm other)]
    rcases ('/' :: path).dropWhile (· ≠ mark) with _ | ⟨c, rest⟩
    · exact ⟨_, none, rfl, .inr ⟨_, rfl⟩⟩
    · exact ⟨_, some rest, rfl, .inr ⟨_, rfl⟩⟩
  · rw [span_append_of_stopped spanned]
    exact ⟨[], _, by rw [List.append_nil]; rfl, .inl rfl⟩

theorem parsePlace_append {scheme : String} (web : scheme = "http" ∨ scheme = "https") {place : Place}
    (parsed : parsePlace scheme cs = some place) (onward : IsOnward tail) :
    ∃ path, parsePlace scheme (cs ++ tail) = some ⟨place.authority, path⟩ := by
  obtain rfl | ⟨more, rfl⟩ := onward
  · exact ⟨place.path, by rw [List.append_nil, parsed]⟩
  have unfiled : scheme ≠ "file" := by rcases web with rfl | rfl <;> decide
  have special : isSpecial scheme = true := by rcases web with rfl | rfl <;> decide
  have slash : isSlash true '/' = true := by decide
  have nowhere : parseAuthority scheme [] = none := by
    rcases web with rfl | rfl <;> rfl
  simp only [parsePlace, if_neg unfiled, special, if_true] at parsed ⊢
  rcases begun : cs.dropWhile (isSlash true) with _ | ⟨c, rest⟩
  · rw [begun, List.span_eq_takeWhile_dropWhile, List.takeWhile_nil, nowhere] at parsed
    cases parsed
  · have before : cs.span (isSlash true) = (cs.takeWhile (isSlash true), c :: rest) := by
      rw [List.span_eq_takeWhile_dropWhile, begun]
    have onward : (cs ++ '/' :: more).span (isSlash true) =
        (cs.takeWhile (isSlash true), c :: rest ++ '/' :: more) :=
      span_append_of_stopped before
    rw [List.span_eq_takeWhile_dropWhile] at onward
    rw [(Prod.mk.inj onward).2]
    rw [begun] at parsed
    rcases spanned : (c :: rest).span (!isSlash true ·) with ⟨authority, path⟩
    rw [spanned] at parsed
    rw [span_append_cons spanned (by rw [slash]; rfl)]
    obtain ⟨found, told, same⟩ := Option.bind_eq_some_iff.mp parsed
    obtain rfl := Option.some.inj same
    exact ⟨parsePath true (path ++ '/' :: more), Option.bind_eq_some_iff.mpr ⟨found, told, rfl⟩⟩

/-- Wherever an address leads in the network, an address below it leads to the same place. -/
theorem exists_parse_append {s t : String} {front path : List Char} (ends : s.toList = front ++ ['1'])
    (begins : t.toList = '/' :: path) {u : Url} (read : parse s = some u)
    (web : u.scheme = "http" ∨ u.scheme = "https") :
    ∃ v, parse (s ++ t) = some v ∧ v.scheme = u.scheme ∧ v.user = u.user ∧
      v.password = u.password ∧ v.host = u.host ∧ v.port = u.port := by
  obtain ⟨more, tidied⟩ := exists_tidy_append ends begins
  rw [parse] at read ⊢
  obtain ⟨⟨scheme, rest⟩, schemed, read⟩ := Option.bind_eq_some_iff.mp read
  rw [tidied, splitScheme_append schemed]
  obtain ⟨place, placed, read⟩ := Option.bind_eq_some_iff.mp read
  obtain rfl := Option.some.inj read
  have placed : parsePlace scheme (splitAt? '?' (splitAt? '#' rest).1).1 = some place := placed
  obtain ⟨left, fragment, split, onward⟩ :=
    exists_splitAt?_append '#' (by decide) rest (.inr ⟨more, rfl⟩)
  obtain ⟨left, query, parted, onward⟩ :=
    exists_splitAt?_append '?' (by decide) (splitAt? '#' rest).1 onward
  obtain ⟨path, found⟩ := parsePlace_append web placed onward
  simp only [Option.bind_eq_bind, Option.bind_some, split, parted, found]
  exact ⟨_, rfl, rfl, rfl, rfl, rfl, rfl⟩

theorem takeLogin_place (u : Url) :
    u.takeLogin.2.scheme = u.scheme ∧ u.takeLogin.2.host = u.host ∧ u.takeLogin.2.port = u.port := by
  unfold takeLogin
  split
  · exact ⟨rfl, rfl, rfl⟩
  · dsimp only
    split <;> exact ⟨rfl, rfl, rfl⟩

end Url

/-- The interface below the target is at this address, to which messages can be sent. -/
structure IsInterface (target : String) (u : Url) : Prop where
  read : Url.parse (base target) = some u
  web : u.scheme = "http" ∨ u.scheme = "https"
  hosted : u.hasHost = true
  /-- The name of the host can be written in the head of a message. -/
  writable : ((u.host.elim "" Host.text).toList.any fun c => "\"\x60\x7b\x7d".toList.contains c) = false

/-- Where the request of a call goes, and the login that it takes along. -/
def destination (target : String) (c : Call) : Option (Option (String × String) × Url) :=
  (Url.parse (base target ++ c.route.path)).map Url.takeLogin

section Interface

variable {target : String} {u address : Url} {login : Option (String × String)} {c : Call}

theorem exists_path_toList (c : Call) : ∃ path, c.route.path.toList = '/' :: path := by
  rcases c with id | submission | id | id | project
  case submit => cases submission <;> simp [Call.route, Submission.route]
  all_goals simp [Call.route]

theorem exists_parse_route (target_is : IsInterface target u) (c : Call) :
    ∃ v, Url.parse (base target ++ c.route.path) = some v ∧ v.scheme = u.scheme ∧ v.user = u.user ∧
      v.password = u.password ∧ v.host = u.host ∧ v.port = u.port := by
  obtain ⟨path, begins⟩ := exists_path_toList c
  have ends : (base target).toList =
      (target.toList.reverse.dropWhile (· = '/')).reverse ++ ['/', 'v'] ++ ['1'] := by
    simp [base]
  exact Url.exists_parse_append ends begins target_is.read target_is.web

theorem exists_destination (target_is : IsInterface target u) (c : Call) :
    ∃ login address, destination target c = some (login, address) ∧
      address.scheme = u.scheme ∧ address.host = u.host ∧ address.port = u.port := by
  obtain ⟨v, read, scheme, -, -, host, port⟩ := exists_parse_route target_is c
  obtain ⟨scheme', host', port'⟩ := v.takeLogin_place
  exact ⟨v.takeLogin.1, v.takeLogin.2, by rw [destination, read]; rfl, scheme'.trans scheme,
    host'.trans host, port'.trans port⟩

theorem IsInterface.isSendable_eq (target_is : IsInterface target u) (scheme : address.scheme = u.scheme)
    (host : address.host = u.host) :
    address.isSendable = decide (address.text.utf8ByteSize ≤ Url.lengthLimit) := by
  have web : (address.scheme = "http" || address.scheme = "https") = true := by
    rw [scheme]
    simpa using target_is.web
  rw [Url.isSendable, web, host, target_is.writable, Bool.true_and, Bool.not_false, Bool.and_true]

theorem request_of_destination (target_is : IsInterface target u)
    (goes : destination target c = some (login, address)) (bare : c.payload = .ok .nothing)
    (unforced : c.route.forced = false) :
    request target c =
      if address.text.utf8ByteSize ≤ Url.lengthLimit then
        .ok ⟨c.route.method, address, login, .nothing⟩
      else .error (.unusable address) := by
  obtain ⟨v, read, scheme, -, -, host, -⟩ := exists_parse_route target_is c
  rw [destination, read] at goes
  have hosted : v.hasHost = true := by rw [Url.hasHost, host]; exact target_is.hosted
  have same : v.takeLogin = (login, address) := Option.some.inj goes
  obtain ⟨scheme', host', -⟩ := v.takeLogin_place
  rw [same] at scheme' host'
  have sendable := target_is.isSendable_eq (scheme'.trans scheme) (host'.trans host)
  simp only [request, bare, read, hosted, same, unforced]
  by_cases short : address.text.utf8ByteSize ≤ Url.lengthLimit
  · rw [if_pos short]
    simp [sendable, short]
  · rw [if_neg short]
    simp [sendable, short]
    rfl

end Interface
end CloudProvider.Http
