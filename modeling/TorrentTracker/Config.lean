import TorrentTracker.Endpoint
import TorrentTracker.Overflow
import TorrentTracker.Path

/-
The settings of a tracker, and the two that requests consult.

Every setting has a default, so an empty configuration is a complete one.
A worker count that is not given means one per processor.
-/

namespace TorrentTracker

namespace Config

/-- Where both transports listen unless told otherwise: every IPv4
interface. -/
def defaultBind : SocketAddress := .v4 (Octets.replicate 4 0) 1337

/-- The process as a whole. -/
structure Server where
  numThreads : Option UInt64 := none
deriving DecidableEq

/-- The datagram transport. -/
structure Udp where
  enabled : Bool := true
  bind : SocketAddress := defaultBind
  workers : Option UInt64 := none
  /-- Whether a request needs the connection id that its source was given.
  Without the check nothing stands against forged sources. -/
  validateConnectionId : Bool := true
deriving DecidableEq

/-- The query transport. -/
structure Http where
  enabled : Bool := true
  bind : SocketAddress := defaultBind
deriving DecidableEq

/-- What replies to announces promise. -/
structure Announce where
  /-- Seconds until the next announce. -/
  announceInterval : Int32 := 1800
  /-- How many seconds of jitter may come on top. -/
  announceFuzz : Int32 := 120
  /-- How many peers a client gets that does not say. -/
  defaultNumwant : UInt64 := 50
  /-- How many peers a client gets at most. -/
  maxNumwant : UInt64 := 100
deriving DecidableEq

/-- The swarm database. -/
structure Peers where
  /-- Seconds after which a silent peer counts as gone. -/
  ttl : Int64 := 3600
  /-- Seconds from one sweep for such peers to the next. -/
  trimInterval : UInt64 := 300
  /-- How many buffers for packed peer lists may be idle. -/
  listPoolCapacity : UInt64 := 256
deriving DecidableEq

/-- The connection ids. -/
structure ConnectionIds where
  /-- Seconds after which an id is too old. -/
  maxAge : Int64 := 120
  /-- Seconds from one sweep for such ids to the next. -/
  gcInterval : UInt64 := 60
  /-- The file they are kept in while the tracker is down. -/
  persistPath : Option Path := none
deriving DecidableEq

/-- Where snapshots of the swarm database go. -/
inductive BackupKind where
  | file
  | memory
deriving DecidableEq

/-- The snapshots of the swarm database. -/
structure Backup where
  kind : BackupKind := .memory
  path : Option Path := none
  /-- Seconds from one snapshot to the next. -/
  interval : UInt64 := 600
deriving DecidableEq

/-- The log. -/
structure Logging where
  level : String := "info"
  format : String := "json"
  console : Bool := false
deriving DecidableEq

end Config

/-- All settings. -/
structure Config where
  server : Config.Server := {}
  udp : Config.Udp := {}
  http : Config.Http := {}
  tracker : Config.Announce := {}
  peers : Config.Peers := {}
  connections : Config.ConnectionIds := {}
  backup : Config.Backup := {}
  logging : Config.Logging := {}
deriving DecidableEq, Inhabited

/-- The settings with the paths of files as they are seen from a
directory. -/
def Config.seenFrom (home : Path) (c : Config) : Config :=
  { c with
    connections.persistPath := c.connections.persistPath.map (Path.seenFrom home)
    backup.path := c.backup.path.map (Path.seenFrom home) }

namespace Config.Announce

/-- How many peers a client gets: what it asks for up to the ceiling, and
the default if it does not ask or asks for a negative number. -/
def clampNumwant (c : Announce) (requested : Option Int64) : UInt64 :=
  match requested with
  | some n => if 0 ≤ n then min n.toUInt64 c.maxNumwant else c.defaultNumwant
  | none => c.defaultNumwant

/-- The seconds of jitter that a draw gives. -/
def jitter (c : Announce) (draw : Nat) : Nat :=
  if 0 < c.announceFuzz.toInt then draw % c.announceFuzz.toInt.toNat else 0

/-- The interval with a draw of jitter on top; what is left after whole
turns when the sum does not fit 32 bits. -/
def jitteredInterval (c : Announce) (draw : Nat) : Int32 :=
  if 0 < c.announceFuzz then
    c.announceInterval + Int32.ofNat (draw % c.announceFuzz.toInt.toNat)
  else c.announceInterval

/-- The sum has to be exact. -/
def jitterFault? (c : Announce) (draw : Nat) : Option Overflow :=
  Overflow.add.ifNot
    ((c.jitteredInterval draw).toInt = c.announceInterval.toInt + c.jitter draw)

/-- The interval with a draw of jitter on top, in either build. -/
def jitteredIntervalIn (build : Build) (c : Announce) (draw : Nat) : Except Overflow Int32 :=
  build.settle (c.jitterFault? draw) (c.jitteredInterval draw)

end Config.Announce

end TorrentTracker
