import AlertFilter.CommandLine.Run
import AlertFilter.Store.Message
import Std.Async.DNS
import Std.Async.TCP
import Std.Async.Timer

/-!
# The program

The command line on a real machine: its files, its environment and connections without encryption.
-/

open AlertFilter Std.Async

namespace AlertFilter

partial def receive (client : TCP.Socket.Client) (done : ByteArray) : Async ByteArray := do
  match ← client.recv? 65536 with
  | some more => receive client (done ++ more)
  | none => return done

def connect (host : String) (service : UInt16) : Async TCP.Socket.Client := do
  match (← DNS.getAddrInfo host (toString service))[0]? with
  | none => throw (IO.userError "no address")
  | some address =>
    let client ← TCP.Socket.Client.mk
    client.connect <| match address with
      | .v4 a => .v4 ⟨a, service⟩
      | .v6 a => .v6 ⟨a, service⟩
    return client

def talk (r : Request) : Async Reply := do
  if r.address.secure then throw (IO.userError "no encryption")
  let client ← connect r.address.host (r.address.service.getD 80).toUInt16
  client.send r.message.toUTF8
  return Reply.ofBytes r.address.text (← receive client .empty).toList

def wait (d : Duration) : Async Unit := sleep (.ofNat d.milliseconds)

/-- The network of the machine. What takes too long or fails counts as unanswered. -/
def tcpNetwork (timeout : Duration) : Network IO where
  send r := do
    let unanswered := Reply.failure (.unanswered r.address.text)
    let late : Async (Option Reply) := do
      wait timeout
      return none
    let talked : Async (Option Reply) := some <$> talk r
    try
      return (← (Async.race talked late).block).getD unanswered
    catch _ => return unanswered
  sleep d := (wait d).block

def readFile (path : String) : IO (Except FileError String) := do
  try
    match String.fromUTF8? (← IO.FS.readBinFile path) with
    | some text => return .ok text
    | none => return .error .notText
  catch
    | .noFileOrDirectory .. => return .error .missing
    | .inappropriateType .. => return .error .directory
    | .permissionDenied .. => return .error (.other "Permission denied (os error 13)")
    | e => return .error (.other (toString e))

end AlertFilter

def main (words : List String) : IO UInt32 := do
  let values ← StoreConfig.variableNames.mapM fun name => do return (name, ← IO.getEnv name)
  let machine : Machine IO :=
    { environment := fun name => (values.lookup name).join
      file := readFile
      network := tcpNetwork }
  let ending ← machine.run words
  IO.print ending.output
  match ending.error with
  | some message => IO.eprintln message
  | none => if ending.exitCode ≠ 0 then IO.eprintln "For more information, try '--help'."
  return ending.exitCode
