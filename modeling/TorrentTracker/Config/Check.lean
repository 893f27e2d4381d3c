import TorrentTracker.Config

/-
Which settings make sense together.

The checks run in a fixed order and the first that fails is reported.
-/

namespace TorrentTracker.Config

/-- What is wrong with the settings. -/
inductive Problem where
  | noThreads
  | noTransport
  | noWorkers
  | announceInterval
  | announceFuzz
  | maxNumwant
  | defaultNumwant (default max : UInt64)
  | trimInterval
  | ttl (lifetime : Int64) (trimInterval : UInt64)
  | maxAge
  | gcInterval
  | backupInterval
  | backupPath
  | logLevel (level : String)
  | logFormat (format : String)
deriving DecidableEq

/-- The log levels there are. -/
def logLevels : List String := ["trace", "debug", "info", "warn", "error"]

/-- The log formats there are. -/
def logFormats : List String := ["json", "console"]

/-- The wording of a problem. -/
def Problem.message : Problem → String
  | noThreads => "num_threads must be greater than 0"
  | noTransport => "At least one of udp or http must be enabled"
  | noWorkers => "udp.workers must be greater than 0"
  | announceInterval => "announce_interval must be greater than 0"
  | announceFuzz => "announce_fuzz must be non-negative"
  | maxNumwant => "max_numwant must be greater than 0"
  | defaultNumwant default max =>
    "default_numwant (" ++ numeral 10 default.toNat ++ ") must not exceed max_numwant ("
      ++ numeral 10 max.toNat ++ ")"
  | trimInterval => "peers.trim_interval must be greater than 0"
  | ttl lifetime interval =>
    "peers.ttl (" ++ signedNumeral lifetime.toInt ++ ") must be greater than peers.trim_interval ("
      ++ numeral 10 interval.toNat ++ ")"
  | maxAge => "connections.max_age must be greater than 0"
  | gcInterval => "connections.gc_interval must be greater than 0"
  | backupInterval => "backup.interval must be greater than 0"
  | backupPath => "backup.path is required when backup.kind is \"file\""
  | logLevel level =>
    "Invalid log level '" ++ level ++ "'. Must be one of: " ++ String.intercalate ", " logLevels
  | logFormat format =>
    "Invalid log format '" ++ format ++ "'. Must be one of: "
      ++ String.intercalate ", " logFormats

/-- The checks in order, each with what holds when it fails. The sweep
interval is compared with the lifetime as a signed number. -/
def checks (c : Config) : List (Bool × Problem) :=
  [ (c.server.numThreads = some 0, .noThreads)
  , (!c.udp.enabled && !c.http.enabled, .noTransport)
  , (c.udp.enabled && c.udp.workers = some 0, .noWorkers)
  , (c.tracker.announceInterval ≤ 0, .announceInterval)
  , (c.tracker.announceFuzz < 0, .announceFuzz)
  , (c.tracker.maxNumwant = 0, .maxNumwant)
  , (c.tracker.maxNumwant < c.tracker.defaultNumwant,
      .defaultNumwant c.tracker.defaultNumwant c.tracker.maxNumwant)
  , (c.peers.trimInterval = 0, .trimInterval)
  , (c.peers.ttl ≤ c.peers.trimInterval.toInt64, .ttl c.peers.ttl c.peers.trimInterval)
  , (c.connections.maxAge ≤ 0, .maxAge)
  , (c.connections.gcInterval = 0, .gcInterval)
  , (c.backup.interval = 0, .backupInterval)
  , (c.backup.kind = .file && c.backup.path.isNone, .backupPath)
  , (!logLevels.contains c.logging.level, .logLevel c.logging.level)
  , (!logFormats.contains c.logging.format, .logFormat c.logging.format) ]

/-- The first problem with the settings. -/
def problem? (c : Config) : Option Problem :=
  (c.checks.find? Prod.fst).map Prod.snd

/-- Accept the settings, or say what is wrong with them. -/
def validate (c : Config) : Except Problem Unit :=
  match c.problem? with
  | none => .ok ()
  | some p => .error p

end TorrentTracker.Config
