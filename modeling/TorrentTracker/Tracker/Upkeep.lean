import TorrentTracker.Tracker

/-
What a running tracker does on its own: sweeps and snapshots, each with a
period of its own.

A task with period `p` is due `p`, `2 p`, `3 p`, … seconds after the start.
Tasks that are due in the same second run in the order they are listed in,
so a snapshot never keeps what a sweep of that second drops.
-/

namespace TorrentTracker

/-- The tasks. -/
inductive Task where
  | trimPeers
  | collectConnections
  | saveBackup
deriving DecidableEq

namespace Task

/-- All tasks, in the order they run. -/
def all : List Task := [trimPeers, collectConnections, saveBackup]

/-- The seconds from one run of a task to the next. -/
def period (c : Config) : Task → UInt64
  | trimPeers => c.peers.trimInterval
  | collectConnections => c.connections.gcInterval
  | saveBackup => c.backup.interval

/-- The tasks that are due a number of seconds after the start. -/
def due (c : Config) (second : Nat) : List Task :=
  all.filter fun task =>
    0 < second && 0 < (task.period c).toNat && second % (task.period c).toNat = 0

end Task

namespace Tracker

/-- Run a task. A snapshot that cannot be saved is left to the next
time. -/
def perform (t : Tracker) (now : Seconds) (disk : Disk) : Task → Tracker × Disk
  | .trimPeers => ((t.sweepPeers now).1, disk)
  | .collectConnections => ((t.sweepConnections now).1, disk)
  | .saveBackup =>
    let (_, t, disk) := t.saveBackup disk
    (t, disk)

/-- What a task runs into. -/
def performFault? (t : Tracker) (now : Seconds) : Task → Option Overflow
  | .trimPeers => t.store.trimFault? now t.config.peers.ttl
  | .collectConnections => t.connections.collectFault? now
  | .saveBackup => none

/-- Run a task, in either build. -/
def performIn (build : Build) (t : Tracker) (now : Seconds) (disk : Disk) (task : Task) :
    Except Overflow (Tracker × Disk) :=
  build.settle (t.performFault? now task) (t.perform now disk task)

/-- Run the tasks of the seconds from the start to a given one, each at
the time that the clock shows then. -/
def upkeep (t : Tracker) (clock : Nat → Seconds) (disk : Disk) (seconds : Nat) :
    Tracker × Disk :=
  (List.range (seconds + 1)).foldl
    (fun state second =>
      (Task.due t.config second).foldl
        (fun (t, disk) task => t.perform (clock second) disk task) state)
    (t, disk)

/-- Run the tasks of the seconds from the start to a given one, in either
build, as long as none of them stops. -/
def upkeepIn (build : Build) (t : Tracker) (clock : Nat → Seconds) (disk : Disk)
    (seconds : Nat) : Except Overflow (Tracker × Disk) :=
  (List.range (seconds + 1)).foldlM
    (fun state second =>
      (Task.due t.config second).foldlM
        (fun (t, disk) task => t.performIn build (clock second) disk task) state)
    (t, disk)

end Tracker

end TorrentTracker
