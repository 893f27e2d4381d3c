import TorrentTracker.Backup
import TorrentTracker.BufferPool
import TorrentTracker.Connections.Snapshot
import TorrentTracker.Metrics

/-
The state of a running tracker: both transports serve it, the sweeps tidy
it, and it is carried over a restart.

What a request needs from outside is a `Moment`: the time on the clock and
the numbers it may draw.
-/

namespace TorrentTracker

/-- The clock and the chance of one request. -/
structure Moment where
  now : Seconds
  draws : Draws := {}

/-- The state of a tracker. -/
structure Tracker where
  config : Config
  store : Store
  connections : Connections
  metrics : Metrics
  backup : Backup

namespace Tracker

/-- A tracker as it starts up, with its backup open and nothing
restored. -/
def start (config : Config) (disk : Disk) (now : Seconds) :
    Except Backup.Error Tracker × Disk :=
  match Backup.ofConfig config.backup with
  | .error e => (.error e, disk)
  | .ok closed =>
    let (outcome, disk) := closed.openOn disk
    let tracker (backup : Backup) : Tracker :=
      { config, backup
        store := Store.empty
        connections := Connections.empty config.connections.maxAge
        metrics := { startTime := now } }
    (outcome.map tracker, disk)

/-- A tracker as it starts up, in either build. The pool of its store comes
before all else. -/
def startIn (build : Build) (config : Config) (disk : Disk) (now : Seconds) :
    Except Overflow (Except Backup.Error Tracker × Disk) :=
  build.settle (BufferPool.forPeerListsFault? config.tracker.maxNumwant) (start config disk now)

/-- The pool that lists of peers are packed in. -/
def listPool (t : Tracker) : BufferPool :=
  BufferPool.forPeerLists t.config.peers.listPoolCapacity t.config.tracker.maxNumwant

/-- Count something that happened. -/
def count (t : Tracker) (c : Counter) : Tracker := { t with metrics := t.metrics.bump c }

/-- The figures at a moment. -/
def figures (t : Tracker) (now : Seconds) : Figures :=
  t.metrics.figures t.store t.connections now

-- ============================================================== restart

/-- Save a snapshot of the store. -/
def saveBackup (t : Tracker) (disk : Disk) : Except Backup.Error Unit × Tracker × Disk :=
  let (outcome, backup, disk) := t.backup.save disk t.store
  (outcome, { t with backup }, disk)

/-- Load the latest snapshot of the store, and say how many peers it
had. -/
def loadBackup (t : Tracker) (disk : Disk) : Except Backup.Error (Tracker × Nat) := do
  let (store, loaded) ← t.backup.load disk t.store
  return ({ t with store }, loaded)

/-- The changes that write the connection ids to their file. -/
def connectionsSteps (t : Tracker) (path : Path) : List Disk.Step :=
  Disk.directorySteps path.parent ++ Disk.writeSteps path t.connections.encode

/-- Take the connection ids back from their file. A file that is not
there, empty or unreadable brings none. -/
def restoreConnections (t : Tracker) (path : Path) (disk : Disk) : Tracker :=
  match disk.read path with
  | .ok [] => t
  | .ok data => match t.connections.restore? data with
    | some (connections, _) => { t with connections }
    | none => t
  | .error _ => t

/-- Save what outlives the process. Where that fails the rest is still
done. -/
def persist (t : Tracker) (disk : Disk) : Tracker × Disk :=
  let (_, t, disk) := t.saveBackup disk
  match t.config.connections.persistPath with
  | some path => (t, (disk.run (t.connectionsSteps path)).1)
  | none => (t, disk)

/-- Bring back what the process before this one saved, as far as it can be
read. -/
def restore (t : Tracker) (disk : Disk) : Tracker :=
  let t := match t.loadBackup disk with
    | .ok (t, _) => t
    | .error _ => t
  match t.config.connections.persistPath with
  | some path => t.restoreConnections path disk
  | none => t

-- =============================================================== sweeps

/-- Drop the peers that have been silent too long, and say how many went. -/
def sweepPeers (t : Tracker) (now : Seconds) : Tracker × Nat :=
  let (store, removed) := t.store.trim now t.config.peers.ttl
  ({ t with store }, removed)

/-- Drop the peers that have been silent too long, in either build. -/
def sweepPeersIn (build : Build) (t : Tracker) (now : Seconds) :
    Except Overflow (Tracker × Nat) :=
  build.settle (t.store.trimFault? now t.config.peers.ttl) (t.sweepPeers now)

/-- Take back the connection ids that are too old, and say how many they
were. -/
def sweepConnections (t : Tracker) (now : Seconds) : Tracker × Nat :=
  let (connections, evicted) := t.connections.collect now
  ({ t with connections }, evicted)

/-- Take back the connection ids that are too old, in either build. -/
def sweepConnectionsIn (build : Build) (t : Tracker) (now : Seconds) :
    Except Overflow (Tracker × Nat) :=
  build.settle (t.connections.collectFault? now) (t.sweepConnections now)

end Tracker

end TorrentTracker
