import Std.Async.Signal
import Std.Async.Timer
import Std.Async.UDP
import Std.Http.Server
import TorrentTracker.Config.Document
import TorrentTracker.Tracker.Datagram
import TorrentTracker.Tracker.Upkeep
import TorrentTracker.Tracker.Web

/-
The program: read the settings, bring back what the last run saved, serve
both transports, and save again when told to stop.

All that is decided is decided by the tracker, a value behind one lock.
What is left here is to read the clock and the source of chance, to move
bytes, and to make the changes to files for real that the library only
lists. The runtime spreads the work over processors by itself, so the
counts of threads and of workers are checked but not used.
-/

namespace TorrentTracker.Program

-- ==================================================== clock and chance

/-- The seconds since the epoch; a clock that is set earlier reads
zero. -/
def now : IO Seconds := do
  let t ← Std.Time.Timestamp.now
  return Int64.ofInt (max 0 t.toSecondsSinceUnixEpoch.toInt)

/-- A draw wide enough that reducing it into a range shows no bias. -/
def draw : IO Nat := do
  return ofBigEndian (← IO.getRandomBytes 16).toList

/-- The moment of a request: a pick for each peer that a reply can name. -/
def moment (t : Tracker) : IO Moment := do
  let picks ← (List.range (min t.config.tracker.maxNumwant.toNat t.store.totalPeers)).mapM
    fun _ => draw
  return ⟨← now, { connection := ← draw, jitter := ← draw, picks }⟩

-- ============================================================ the lock

/-- What runs for others to use is built to wrap. -/
def build : Build := .wrapping

/-- The result of an operation. One that stopped fails with what it said. -/
def settled {α : Type} : Except Overflow α → IO α
  | .ok result => return result
  | .error o => throw (IO.userError o.message)

/-- The running tracker. -/
abbrev Cell := Std.Mutex Tracker

/-- Work on the tracker while nobody else does. -/
def Cell.use {α : Type} (cell : Cell) (work : Tracker → Moment → Except Overflow (Tracker × α)) :
    IO α :=
  cell.atomically do
    let t ← get
    let (t, answer) ← settled (work t (← moment t))
    set t
    return answer

-- ============================================================ addresses

/-- The source of a datagram or a connection. -/
def sourceOf : Std.Net.SocketAddress → SocketAddress
  | .v4 a => .v4 ⟨a.addr.octets.toList, by simp⟩ a.port
  | .v6 a =>
    let bytes := a.addr.segments.toList.flatMap Word.write
    .v6 ((Octets.ofBytes? 16 bytes).getD default) a.port 0

/-- Where to listen, if the host can spell the address. -/
def hostAddress (a : SocketAddress) : IO Std.Net.SocketAddress :=
  let found : Option Std.Net.SocketAddress := match a.ip with
    | .v4 o => (Std.Net.IPv4Addr.ofString (Ip.text (.v4 o))).map fun ip => .v4 ⟨ip, a.port⟩
    | .v6 o => (Std.Net.IPv6Addr.ofString (Ip.text (.v6 o))).map fun ip => .v6 ⟨ip, a.port⟩
  match found with
  | some host => return host
  | none => throw <| IO.userError ("cannot listen on " ++ a.text)

-- ================================================================ files

/-- Make one elementary change for real. -/
def perform : Disk.Step → IO Unit
  | .makeDirectory p => unless p.text.isEmpty do IO.FS.createDirAll p.text
  | .create p => IO.FS.writeBinFile p.text .empty
  | .append p data => IO.FS.withFile p.text .append fun h => h.write ⟨data.toArray⟩
  | .sync p => IO.FS.withFile p.text .append fun h => h.flush
  | .rename source target => IO.FS.rename source.text target.text

/-- The bytes of a file, if it can be read. -/
def readFile? (path : Path) : IO (Option Bytes) :=
  try
    return some (← IO.FS.readBinFile path.text).toList
  catch _ => return none

/-- The files at some paths as a tree of their own. -/
def readTree (paths : List Path) : IO Disk :=
  paths.foldlM
    (fun disk path => do
      match ← readFile? path with
      | some data =>
        return (disk.run (Disk.directorySteps path.parent ++ Disk.writeSteps path data)).1
      | none => return disk)
    Disk.empty

/-- The files that outlive the process. -/
def keptFiles (c : Config) : List Path :=
  let backup := match c.backup.kind with
    | .file => c.backup.path.toList
    | .memory => []
  backup ++ c.connections.persistPath.toList

/-- Do something, and say what it was when it fails. -/
def named {α : Type} (what : String) (work : IO α) : IO α :=
  try
    work
  catch e => throw <| IO.userError (what ++ ": " ++ e.toString)

/-- Do something that may fail, and go on when it does. -/
def attempt (what : String) (work : IO Unit) : IO Unit :=
  try
    work
  catch e => IO.eprintln (what ++ ": " ++ e.toString)

/-- Save a snapshot of the store. -/
def saveBackup (cell : Cell) : IO Unit :=
  attempt "cannot save the backup" do
    let t ← cell.use fun t _ =>
      let (_, t, _) := t.saveBackup .empty
      .ok (t, t)
    match t.backup.medium with
    | .file path => (Backup.saveSteps path t.store.encode).forM perform
    | .memory _ => return ()

/-- Write the connection ids to their file. -/
def saveConnections (cell : Cell) : IO Unit :=
  attempt "cannot save the connection ids" do
    let t ← cell.use fun t _ => .ok (t, t)
    match t.config.connections.persistPath with
    | some path => (t.connectionsSteps path).forM perform
    | none => return ()

-- ============================================================= services

/-- Answer datagrams, each reply in the buffer of the one before. One that
cannot be received or answered is passed over. -/
def serveDatagrams (cell : Cell) (socket : Std.Async.UDP.Socket) :
    Std.Async.Async Unit := do
  let mut out := (BufferPool.empty 1 Wire.receiveSize).acquire.2
  repeat
    try
      match ← socket.recv (UInt64.ofNat Wire.receiveSize) with
      | (data, some source) =>
        let held := out
        out ← cell.use fun t m => t.serveIn build m (sourceOf source) data.toList held
        socket.send ⟨out.content.toArray⟩ source
      | (_, none) => pure ()
    catch _ => pure ()

/-- The head of a request. -/
def requestOf (head : Std.Http.Request.Head) : Http.Request where
  method := toString head.method
  target := Http.Target.ofBytes (utf8 (toString head.uri))
  headers := head.headers.toList.map fun h => (toString h.1, utf8 (toString h.2))

/-- A response as it is sent. -/
def sendable (r : Http.Response) :
    Std.Async.Async (Std.Http.Response Std.Http.Body.Any) := do
  let status := (Std.Http.Status.ofCode none (UInt16.ofNat r.status)).getD .ok
  let blank := Std.Http.Response.Builder.new.status status
  let builder := match r.contentType with
    | some t => (blank.header? "content-type" t).getD blank
    | none => blank
  let body ← Std.Http.Body.Full.ofByteArray ⟨r.body.render.toArray⟩
  return builder.body (Std.Http.Body.Any.ofBody body)

/-- Answer requests. One whose source is unknown cannot be an announce, so
it is turned away. -/
def answerRequests (cell : Cell) : Std.Http.Server.StatelessHandler :=
  Std.Http.Server.Handler.ofFn fun request => do
    match request.extensions.get Std.Http.Server.RemoteAddr with
    | some remote =>
      let response ← cell.use fun t m =>
        t.respondIn build m (sourceOf remote.addr) (requestOf request.line)
      sendable response
    | none => sendable Http.Failure.internal.response

/-- Run the tasks of each second as it comes. -/
def keepUp (cell : Cell) (config : Config) : Std.Async.Async Unit := do
  let mut second := 0
  repeat
    Std.Async.sleep 1000
    second := second + 1
    for task in Task.due config second do
      match task with
      | .saveBackup => saveBackup cell
      | task => attempt "cannot sweep" <| cell.use fun t m => do
        return ((← t.performIn build m.now .empty task).1, ())

/-- Wait for an interrupt or a request to terminate. -/
def untilStopped : Std.Async.Async Unit := do
  let interrupt ← Std.Async.Signal.Waiter.mk .sigint false
  let terminate ← Std.Async.Signal.Waiter.mk .sigterm false
  Std.Async.Selectable.one #[
    .case interrupt.selector fun _ => pure (),
    .case terminate.selector fun _ => pure ()]

/-- Serve what the settings enable until told to stop. -/
def serve (cell : Cell) (config : Config) : Std.Async.Async Unit := do
  Std.Async.background (keepUp cell config)
  if config.udp.enabled then
    let socket ← named ("Failed to bind UDP socket to " ++ config.udp.bind.text) do
      let socket ← Std.Async.UDP.Socket.mk
      socket.bind (← hostAddress config.udp.bind)
      return socket
    Std.Async.background (serveDatagrams cell socket)
  if config.http.enabled then
    discard <| named ("Failed to bind TCP listener to " ++ config.http.bind.text)
      (Std.Http.Server.serve (← hostAddress config.http.bind) (answerRequests cell)).block
  untilStopped

-- ============================================================== running

/-- Start from what the last run saved, serve, and save again. -/
def run (config : Config) : IO Unit := do
  let config := config.seenFrom (Path.ofText (← IO.currentDir).toString)
  let disk ← readTree (keptFiles config)
  match ← settled (Tracker.startIn build config disk (← now)) with
  | (.error _, _) => throw <| IO.userError "Failed to initialise backup backend"
  | (.ok t, disk) =>
    if let .file path := t.backup.medium then
      named "Failed to initialise backup backend"
        ((Disk.directorySteps path.parent).forM perform)
    let cell : Cell ← Std.Mutex.new (t.restore disk)
    (serve cell config).block
    saveBackup cell
    saveConnections cell

/-- What to say when there are no settings. -/
def complaint (path : String) (e : Config.LoadError) : String :=
  "Error: Failed to load configuration from '" ++ path ++ "'. If this is your first time running "
    ++ "the tracker, copy config.example.toml to config.toml and adjust the values.\n\n"
    ++ "Caused by:\n    " ++ (e.message?.getD ("Failed to read config file: " ++ path))

end TorrentTracker.Program

open TorrentTracker in
/-- Run a tracker with the settings in the file that the first argument
names. -/
def main (args : List String) : IO UInt32 := do
  let path := args.headD "config.toml"
  match Config.ofFile (← Program.readFile? (Path.ofText path)) with
  | .error e =>
    IO.eprintln (Program.complaint path e)
    return 1
  | .ok config =>
    try
      Program.run config
      return 0
    catch e =>
      IO.eprintln ("Error: " ++ e.toString)
      return 1
