import CloudProvider.Http.Remote
import CloudProvider.Text.Base64

/-! Messages as they travel: a head of lines, an empty line, and the body. A connection carries one
request and one answer, and is closed after them. -/

namespace CloudProvider.Http

private def lineBreak : String := "\r\n"

private def bytes (s : String) : Bytes :=
  Text.Utf8.encode s

namespace Part

private def head (p : Part) : String :=
  "Content-Disposition: form-data; name=\"" ++ p.name ++ "\""
    ++ p.fileName.elim "" fun name => "; filename=\"" ++ quoted name ++ "\""
where
  quoted (name : String) : String :=
    String.join (name.toList.map fun c =>
      if c = '"' then "\\\"" else if c = '\\' then "\\\\"
      else if c = '\r' then "\\\r" else if c = '\n' then "\\\n" else c.toString)

/-- A part between two boundaries. There is none if its contents cannot be read. -/
def encode? (boundary : String) (p : Part) : Option Bytes := do
  let contents ← p.contents.toOption
  some (bytes ("--" ++ boundary ++ lineBreak ++ p.head ++ lineBreak ++ lineBreak) ++ contents
    ++ bytes lineBreak)

end Part

namespace Payload

def encode? (boundary : String) : Payload → Option (Option String × Bytes)
  | .nothing => some (none, [])
  | .json text => some (some "application/json", bytes text)
  | .form parts => do
    let encoded ← parts.mapM (Part.encode? boundary)
    some (some ("multipart/form-data; boundary=" ++ boundary),
      encoded.flatten ++ bytes ("--" ++ boundary ++ "--" ++ lineBreak))

end Payload

namespace Request

/-- What stands behind the method: the address without host and fragment. -/
def target (r : Request) : String :=
  let u : Url := { r.url with scheme := "", host := none, port := none, fragment := none }
  (u.text.drop 1).toString

private def hostLine (r : Request) : String :=
  r.url.host.elim "" Host.text ++ r.url.port.elim "" fun n => s!":{n}"

private def loginLine (r : Request) : List String :=
  match r.login with
  | none => []
  | some (user, password) =>
    ["Authorization: Basic "
      ++ String.ofList (Text.Base64.encode (bytes (user ++ ":" ++ password)))]

/-- The whole message. The boundary must not occur in any part of a form. -/
def encode? (r : Request) (boundary : String) : Option Bytes := do
  let (type, body) ← r.payload.encode? boundary
  let lines :=
    [r.method.name ++ " " ++ r.target ++ " HTTP/1.1", "Host: " ++ r.hostLine, "Accept: */*",
      "Connection: close"] ++ r.loginLine ++ (type.elim [] fun t => ["Content-Type: " ++ t])
      ++ (if type.isSome then [s!"Content-Length: {body.length}"] else [])
  some (bytes (String.join (lines.map (· ++ lineBreak)) ++ lineBreak) ++ body)

end Request

namespace Answer

def splitHead : Bytes → Option (Bytes × Bytes)
  | 13 :: 10 :: 13 :: 10 :: body => some ([], body)
  | b :: rest => (splitHead rest).map fun (head, body) => (b :: head, body)
  | [] => none

def splitLine : Bytes → Option (Bytes × Bytes)
  | 13 :: 10 :: rest => some ([], rest)
  | b :: rest => (splitLine rest).map fun (line, rest) => (b :: line, rest)
  | [] => none

private def field? (lines : List String) (name : String) : Option String :=
  lines.findSome? fun line =>
    match line.splitOn ":" with
    | key :: value =>
      if key.toLower = name then some ((":".intercalate value).trimAscii.toString) else none
    | [] => none

private def status? (line : String) : Option UInt16 :=
  match line.splitOn " " with
  | _ :: code :: _ => (code.toNat?.filter (· < 1000)).map UInt16.ofNat
  | _ => none

private def hexNumber? (line : Bytes) : Option Nat :=
  let digits := line.takeWhile fun b => (Text.Percent.hexValue? (Char.ofUInt8 b)).isSome
  if digits.isEmpty then none
  else digits.foldlM (fun n b => do
    some (n * 16 + (← Text.Percent.hexValue? (Char.ofUInt8 b)))) 0

/-- A body in chunks, each with its length before it. An empty one ends the body. `room` bounds their
number. -/
def joinChunks : Nat → Bytes → Option Bytes
  | 0, _ => none
  | room + 1, b => do
    let (line, rest) ← splitLine b
    let n ← hexNumber? line
    if n = 0 then some []
    else if rest.length < n + 2 then none
    else some (rest.take n ++ (← joinChunks room (rest.drop (n + 2))))

private def body? (status : UInt16) (lines : List String) (rest : Bytes) : Option Bytes :=
  if status = 204 ∨ status = 304 then some []
  else if ((field? lines "transfer-encoding").getD "").toLower = "chunked" then
    joinChunks (rest.length + 1) rest
  else
    match (field? lines "content-length").bind String.toNat? with
    | some n => if rest.length < n then none else some (rest.take n)
    | none => some rest

def decode (b : Bytes) : Except NetworkFault Answer :=
  match splitHead b with
  | none => .error .unanswered
  | some (head, rest) =>
    let lines := (Text.Utf8.lossy head).splitOn lineBreak
    match lines.head?.bind status? with
    | none => .error .unanswered
    | some status =>
      match body? status lines.tail rest with
      | none => .error .brokenOff
      | some body => .ok ⟨status, body⟩

end Answer
end CloudProvider.Http
