import CloudProvider.Exponent
import CloudProvider.Http.Message
import CloudProvider.Names.Generator
import CloudProvider.Setup
import Std.Async.DNS
import Std.Async.TCP
import Std.Time.DateTime.Timestamp

/-! The program: one request on the standard input, one envelope on the standard output. All effects
are answered by the host here. Commands cannot be started from this program, so that none is ever
found. -/

namespace CloudProvider.Main

open Std.Net (IPAddr IPv4Addr IPv6Addr SocketAddress)

def fault (e : IO.Error) : Files.Fault :=
  let known (code : UInt32) : Option Files.Fault :=
    [(2, .notFound), (13, .notPermitted), (17, .alreadyExists), (20, .notDirectory),
      (21, .isDirectory), (36, .nameTooLong)].lookup code
  let code? : Option UInt32 :=
    match e with
    | .noFileOrDirectory _ code _ | .permissionDenied _ code _ | .alreadyExists _ code _
    | .inappropriateType _ code _ | .resourceExhausted _ code _ | .invalidArgument _ code _
    | .otherError code _ => some code
    | _ => none
  (code?.bind known).getD (.stated (toString e))

def attempt {α : Type} (action : IO α) : IO (Except Files.Fault α) := do
  try return .ok (← action)
  catch e => return .error (fault e)

/-- A path that no file can have never reaches the operating system. -/
def atPath {α : Type} (path : String) (action : IO α) : IO (Except Files.Fault α) :=
  if path.contains '\x00' then return .error .nulInPath else attempt action

def read (path : String) : IO (Except Files.Fault Bytes) :=
  atPath path do return (← IO.FS.readBinFile path).toList

partial def receive (client : Std.Async.TCP.Socket.Client) (past : ByteArray) : IO ByteArray := do
  match ← (client.recv? 65536).block with
  | some more => receive client (past ++ more)
  | none => return past

def places (host : Http.Host) (port : UInt16) : IO (List SocketAddress) := do
  let place : IPAddr → SocketAddress
    | .v4 a => .v4 ⟨a, port⟩
    | .v6 a => .v6 ⟨a, port⟩
  match host with
  | .ipv4 a =>
    let byte (n : Nat) := UInt8.ofNat (a / 256 ^ n)
    return [place (.v4 (IPv4Addr.ofParts (byte 3) (byte 2) (byte 1) (byte 0)))]
  | .ipv6 pieces =>
    let piece (i : Nat) := UInt16.ofNat (pieces.getD i 0)
    return [place (.v6 (IPv6Addr.ofParts (piece 0) (piece 1) (piece 2) (piece 3) (piece 4) (piece 5)
      (piece 6) (piece 7)))]
  | .name text =>
    return (← (Std.Async.DNS.getAddrInfo text (toString port)).block).toList.map place

def exchange (message : Bytes) (place : SocketAddress) : IO Bytes := do
  let client ← Std.Async.TCP.Socket.Client.mk
  (client.connect place).block
  (client.send ⟨message.toArray⟩).block
  return (← receive client .empty).toList

def exchangeAny (message : Bytes) : List SocketAddress → IO (Option Bytes)
  | [] => return none
  | place :: rest => do
    try return some (← exchange message place)
    catch _ => exchangeAny message rest

/-- Only plain connections are made. -/
def network : Http.Network IO := fun r => do
  let boundary := String.join ((← IO.getRandomBytes 16).toList.map fun b => s!"-{b.toNat}")
  match r.url.scheme, r.url.host, r.encode? boundary with
  | "http", some host, some message =>
    let port := UInt16.ofNat (r.url.port.getD 80)
    let found ← attempt (places host port)
    match ← exchangeAny message (found.toOption.getD []) with
    | some b => return Http.Answer.decode b
    | none => return .error .unanswered
  | _, _, _ => return .error .unanswered

def clock : IO Time.Moment := do
  let d := (← Std.Time.Timestamp.now).toDurationSinceUnixEpoch
  return ⟨d.second.val, d.nano.val.toNat⟩

def freshName (kind : String) : IO String := do
  let draw := (← IO.getRandomBytes 10).toList.foldl (fun n b => n * 256 + b.toNat) 0
  return Names.nameAt kind (← clock) draw

def scratchPath (name : String) : IO String := do
  return ((← IO.getEnv "TMPDIR").getD "/tmp") ++ "/" ++ name

/-- Rests for so many milliseconds. One rest of the host is at most 2³² of them long. -/
def rest (millis : Nat) : IO Unit := do
  for _ in List.range (millis / 2 ^ 32) do IO.sleep (UInt32.ofNat (2 ^ 32 - 1))
  IO.sleep (UInt32.ofNat (millis % 2 ^ 32))

def handle (target : String) : (e : Effect) → IO e.Reply
  | .emit _ => return ()
  | .call c => Http.answer network target c
  | .now => IO.monoNanosNow
  | .pause deadline _ => do
    rest ((deadline - (← IO.monoNanosNow) + 999999) / 10 ^ 6)
    return false
  | .signalled => return false
  | .clock => clock
  | .freshName kind => freshName kind
  | .makeScratch name => do
    let path ← scratchPath name
    atPath path do
      IO.FS.createDir path
      return path
  | .discardScratch path => do let _ ← attempt (IO.FS.removeDirAll path)
  | .makeDirectory path => atPath path (IO.FS.createDir path)
  | .writeFile path contents => atPath path (IO.FS.writeBinFile path ⟨contents.toArray⟩)
  | .readFile path => read path
  | .run _ => return .error .notFound

def readInput : IO (Except Files.Fault String) := do
  match ← attempt ((← IO.getStdin).readBinToEnd) with
  | .error f => return .error f
  | .ok b =>
    match Text.Utf8.decode? b.toList with
    | some text => return .ok text
    | none => return .error .notUtf8

def tell (e : Envelope) : IO UInt32 := do
  let out ← IO.getStdout
  out.putStrLn (Envelope.codec.encode e)
  out.flush
  return 0

def giveUp (message : String) : IO UInt32 := do
  IO.eprintln message
  return 101

def answer (preset : Option String) (line : CommandLine.Outcome) : IO UInt32 := do
  match ← Setup.respond handle preset line (← readInput) with
  | .error message => giveUp message
  | .ok (.answered e) => tell e
  | .ok (.raised reason) => giveUp reason
  | .ok .unfinished => giveUp "the wait does not end"

/-- Questions are answered without a request. -/
def run (arguments : List String) : IO UInt32 := do
  let preset ← IO.getEnv CommandLine.presetName
  match CommandLine.parse preset arguments with
  | .asked question =>
    IO.print (question.answer preset)
    return 0
  | line => answer preset line

end CloudProvider.Main

def main (arguments : List String) : IO UInt32 :=
  CloudProvider.Main.run arguments
