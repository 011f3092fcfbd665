import Std.Async.TCP
import Webroot.Files.Snapshot
import Webroot.Host

/-!
# The command line

`webroot FILE…` starts the host. It reads its settings from `config/development.toml`, takes the
named files into memory, and answers one request on each connection until it is stopped. The
names are paths seen from the working directory, which is the root of the served tree; the files
count as changed at the start of the host. There are no home directories.
-/

open Std.Async Std.Async.TCP Std.Net

namespace Webroot.CommandLine

/-- The file with the settings. -/
def settingsFile : String := "config/development.toml"

/-- The content of a file, if it can be read. -/
def contentOf? (name : String) : IO (Option Octets) := do
  try
    let bytes ← IO.FS.readBinFile name
    return some bytes.toList
  catch _ => return none

/-- The present moment. -/
def now : IO Instant := do
  let nanos := (← Std.Time.Timestamp.now).toNanosecondsSinceUnixEpoch.val
  return ⟨nanos / 1000000000, (nanos % 1000000000).toNat⟩

/-- The tree of the files that can be read. -/
def loadTree (names : List String) : IO FileTree := do
  let files ← names.filterMapM fun name => do
    return (← contentOf? name).map fun content => (name.toList, content)
  return .ofFiles (← now) files

/-- The address at which the host listens. -/
def addressOf (c : Config) : SocketAddress :=
  let host := if c.localOnly then IPv4Addr.ofParts 127 0 0 1 else IPv4Addr.ofParts 0 0 0 0
  .v4 ⟨host, c.port.toUInt16⟩

/-- Answers the request on one connection. -/
def answer (m : Mount) (s : Setting) (chunk id : Nat) (client : Socket.Client) : Async Unit := do
  match ← client.recv? Host.maxRequest.toUInt64 with
  | none => return
  | some bytes =>
    let reply := Host.connection m s chunk (fun _ => chunk) id bytes.toList
    client.send ⟨reply.toArray⟩
    client.shutdown

/-- Answers one connection after another. -/
def serve (c : Config) (tree : FileTree) : IO Unit := do
  let m := Host.mountOf "/" c
  let process := (← IO.getTID).toNat
  let server ← Socket.Server.mk
  server.bind (addressOf c)
  server.listen 1024
  let mut id := 0
  repeat
    let client ← server.accept.block
    let s : Setting := { tree, now := ← now, process }
    discard <| IO.asTask (answer m s c.chunkSize id client).block
    id := id + 1

end Webroot.CommandLine

/-- Starts the host for the named files. -/
def main (files : List String) : IO Unit := do
  let settings ← Webroot.CommandLine.contentOf? Webroot.CommandLine.settingsFile
  let tree ← Webroot.CommandLine.loadTree files
  Webroot.CommandLine.serve (Webroot.Config.load 1 settings) tree
