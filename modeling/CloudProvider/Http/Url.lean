import CloudProvider.Http.Host

/-! Addresses of the web, in their normal form: parts that do not matter, such as the case of the
scheme, dots among the names of a path, and the usual port, are gone, and what cannot stand for itself
is escaped. -/

namespace CloudProvider.Http

open Text (Percent.encode)

inductive Path
  /-- Names that lead down from the root. -/
  | names (ns : List String)
  /-- Without a host an address may go on with any text. -/
  | free (text : String)
deriving DecidableEq

structure Url where
  scheme : String
  user : String
  password : String
  host : Option Host
  port : Option Nat
  path : Path
  query : Option String
  fragment : Option String
deriving DecidableEq

namespace Url

/-- Schemes of addresses that always have a host, each with its usual port. -/
def hosted : List (String × Nat) :=
  [("http", 80), ("https", 443), ("ws", 80), ("wss", 443), ("ftp", 21)]

def usualPort (scheme : String) : Option Nat :=
  hosted.lookup scheme

/-- In these addresses a backslash is a slash. -/
def isSpecial (scheme : String) : Bool :=
  scheme = "file" || (usualPort scheme).isSome

def isControl (c : Char) : Bool :=
  c < ' ' || c = '\x7f'

def among (set : String) (c : Char) : Bool :=
  isControl c || set.toList.contains c

def escapeName (cs : List Char) : String :=
  Percent.encode (among " \"<>\x60#?\x7b\x7d") cs

def escapeUser (cs : List Char) : String :=
  Percent.encode (among " \"<>\x60#?\x7b\x7d/:;=@[\\]^|") cs

def escapeQuery (special : Bool) (cs : List Char) : String :=
  Percent.encode (among (if special then " \"#<>'" else " \"#<>")) cs

def escapeFragment (cs : List Char) : String :=
  Percent.encode (among " \"<>\x60") cs

/-- Without the blanks around it, and without tabs and line breaks anywhere. -/
def tidy (s : String) : List Char :=
  let cs := (s.toList.dropWhile (· ≤ ' ')).reverse.dropWhile (· ≤ ' ')
  cs.reverse.filter fun c => c ≠ '\t' && c ≠ '\n' && c ≠ '\r'

def splitScheme (cs : List Char) : Option (String × List Char) :=
  let (scheme, rest) := cs.span fun c => c.isAlphanum || c = '+' || c = '-' || c = '.'
  match scheme, rest with
  | first :: _, ':' :: rest =>
    if first.isAlpha then some (String.ofList (scheme.map Char.toLower), rest) else none
  | _, _ => none

/-- Splits at the first mark. The mark itself is in neither part. -/
def splitAt? (mark : Char) (cs : List Char) : List Char × Option (List Char) :=
  match cs.span (· ≠ mark) with
  | (before, []) => (before, none)
  | (before, _ :: after) => (before, some after)

def isSlash (special : Bool) (c : Char) : Bool :=
  c = '/' || (special && c = '\\')

/-- One dot, which may be escaped. -/
def isHere (name : String) : Bool :=
  name.toLower = "." || name.toLower = "%2e"

def isUp (name : String) : Bool :=
  ["..", ".%2e", "%2e.", "%2e%2e"].contains name.toLower

/-- Goes through the names from the root. One dot stays, and two dots go back by one name. The names
kept so far come last first. -/
def walk (kept : List String) : List String → List String
  | [] => kept.reverse
  | [last] =>
    if isUp last then ("" :: kept.tail).reverse
    else if isHere last then ("" :: kept).reverse
    else (last :: kept).reverse
  | name :: rest =>
    if isUp name then walk kept.tail rest
    else if isHere name then walk kept rest
    else walk (name :: kept) rest

def splitNames (special : Bool) (cs : List Char) : List (List Char) :=
  cs.splitOnP (isSlash special)

def parsePath (special : Bool) (cs : List Char) : Path :=
  match cs with
  | [] => .names (if special then [""] else [])
  | c :: rest =>
    let below := if isSlash special c then rest else c :: rest
    .names (walk [] ((splitNames special below).map escapeName))

/-- Splits at the last at-sign, before which user and password stand. -/
def splitUser (cs : List Char) : Option (List Char) × List Char :=
  match cs.reverse.span (· ≠ '@') with
  | (host, []) => (none, host.reverse)
  | (host, _ :: user) => (some user.reverse, host.reverse)

/-- Splits at the first colon outside of brackets. -/
def splitPort (inside : Bool) : List Char → List Char × Option (List Char)
  | [] => ([], none)
  | c :: rest =>
    if c = ':' && !inside then ([], some rest)
    else
      let inside := if c = '[' then true else if c = ']' then false else inside
      let (host, port) := splitPort inside rest
      (c :: host, port)

/-- The usual port is not told. -/
def parsePort (scheme : String) (digits : List Char) : Option (Option Nat) :=
  if digits.isEmpty then some none
  else if !digits.all Char.isDigit then none
  else
    let n := digits.foldl (fun n c => n * 10 + (c.toNat - '0'.toNat)) 0
    if 65535 < n then none
    else if usualPort scheme = some n then some none
    else some (some n)

structure Authority where
  user : String
  password : String
  host : Host
  port : Option Nat

/-- What stands between the two slashes and the path. -/
def parseAuthority (scheme : String) (cs : List Char) : Option Authority := do
  let (login, place) := splitUser cs
  let (host, port) := splitPort false place
  if host.isEmpty ∧ (isSpecial scheme ∨ login.isSome ∨ port.isSome) then none
  else
    let host ← if isSpecial scheme then Host.parse host else Host.parseOpen host
    let port ← port.elim (some none) (parsePort scheme)
    let (user, password) := splitAt? ':' (login.getD [])
    some ⟨escapeUser user, escapeUser (password.getD []), host, port⟩

/-- The host of a file. The machine itself is no host. -/
def parseFileHost (cs : List Char) : Option Host := do
  if cs.isEmpty then some (.name "")
  else
    let host ← Host.parse cs
    if host = .name "localhost" then some (.name "") else some host

structure Place where
  authority : Option Authority
  path : Path

def parsePlace (scheme : String) (cs : List Char) : Option Place := do
  let special := isSpecial scheme
  if scheme = "file" then
    let (slashes, rest) := cs.span (isSlash true)
    let (host, path) :=
      if slashes.length < 2 then ([], cs)
      else
        let behind := slashes.drop 2 ++ rest
        behind.span (!isSlash true ·)
    some ⟨some ⟨"", "", ← parseFileHost host, none⟩, parsePath true path⟩
  else if special then
    let (authority, path) := (cs.dropWhile (isSlash true)).span (!isSlash true ·)
    some ⟨some (← parseAuthority scheme authority), parsePath true path⟩
  else
    match cs with
    | '/' :: '/' :: rest =>
      let (authority, path) := rest.span (· ≠ '/')
      some ⟨some (← parseAuthority scheme authority), parsePath false path⟩
    | '/' :: _ => some ⟨none, parsePath false cs⟩
    | _ => some ⟨none, .free (Percent.encode isControl cs)⟩

def parse (s : String) : Option Url := do
  let (scheme, rest) ← splitScheme (tidy s)
  let (rest, fragment) := splitAt? '#' rest
  let (rest, query) := splitAt? '?' rest
  let place ← parsePlace scheme rest
  let authority := place.authority
  some {
    scheme
    user := authority.elim "" Authority.user
    password := authority.elim "" Authority.password
    host := authority.map Authority.host
    port := authority.bind Authority.port
    path := place.path
    query := query.map (escapeQuery (isSpecial scheme))
    fragment := fragment.map escapeFragment }

def loginText (u : Url) : String :=
  if u.user.isEmpty ∧ u.password.isEmpty then ""
  else u.user ++ (if u.password.isEmpty then "" else ":" ++ u.password) ++ "@"

def hostText (u : Url) : String :=
  match u.host with
  | none => ""
  | some host =>
    "//" ++ u.loginText ++ host.text ++ u.port.elim "" fun n => s!":{n}"

def pathText (u : Url) : String :=
  match u.path with
  | .free text => text
  | .names ns =>
    let text := String.join (ns.map ("/" ++ ·))
    if u.host.isNone ∧ text.toList.take 2 = ['/', '/'] then "/." ++ text else text

def text (u : Url) : String :=
  u.scheme ++ ":" ++ u.hostText ++ u.pathText ++ (u.query.elim "" ("?" ++ ·))
    ++ (u.fragment.elim "" ("#" ++ ·))

/-- An empty host is none. -/
def hasHost (u : Url) : Bool :=
  match u.host with
  | none | some (.name "") => false
  | _ => true

def withParameter (u : Url) (name value : String) : Url :=
  let pair := name ++ "=" ++ value
  let query :=
    match u.query with
    | none | some "" => pair
    | some query => query ++ "&" ++ pair
  { u with query := some query }

/-- User and password, which do not stay in the address. -/
def takeLogin (u : Url) : Option (String × String) × Url :=
  if u.user.isEmpty ∧ u.password.isEmpty then (none, u)
  else
    let plain (s : String) := Text.Utf8.decode? (Text.Percent.decode s.toList)
    match plain u.user, plain u.password with
    | some user, some password => (some (user, password), { u with user := "", password := "" })
    | _, _ => (none, u)

def lengthLimit : Nat := 65534

/-- Whether a message can be sent there: only some of the names that hosts may have can be written in
its head. -/
def isSendable (u : Url) : Bool :=
  (u.scheme = "http" || u.scheme = "https") && u.text.utf8ByteSize ≤ lengthLimit &&
    !(u.host.elim "" Host.text).toList.any fun c => "\"\x60\x7b\x7d".toList.contains c

end Url
end CloudProvider.Http
