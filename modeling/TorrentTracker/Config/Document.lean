import TorrentTracker.Config.Check
import TorrentTracker.Toml.Document

/-
Settings as a TOML document.

A section is usually a table with its settings by name; it may also be an
array with its settings in order. What is not given keeps its default, and
what is not known is passed over. A path has no default to fall back on
when settings are given in order, so there it has to be among them.
-/

namespace TorrentTracker.Config

open Toml (Node Entries)

/-- Why there are no settings. -/
inductive LoadError where
  /-- The file cannot be read as text. -/
  | unreadable
  /-- The text is not a document of settings. -/
  | malformed
  /-- The settings make no sense. -/
  | invalid (problem : Problem)
deriving DecidableEq

/-- The wording of an error, if it has one of its own. -/
def LoadError.message? : LoadError → Option String
  | unreadable => none
  | malformed => some "Failed to parse config file"
  | invalid problem => some problem.message

-- ============================================================== values

/-- A node as an integer from `lo` to `hi`. -/
def integerIn? (lo hi : Int) : Node → Option Int
  | .integer n => if lo ≤ n ∧ n ≤ hi then some n else none
  | _ => none

/-- A node as a signed number of 32 bits. -/
def int32? (n : Node) : Option Int32 :=
  (integerIn? Int32.minValue.toInt Int32.maxValue.toInt n).map Int32.ofInt

/-- A node as a signed number of 64 bits. -/
def int64? (n : Node) : Option Int64 :=
  (integerIn? Int64.minValue.toInt Int64.maxValue.toInt n).map Int64.ofInt

/-- A node as an unsigned number of 64 bits. -/
def uint64? (n : Node) : Option UInt64 :=
  (integerIn? 0 (UInt64.size - 1) n).map fun i => UInt64.ofNat i.toNat

/-- A node as a truth value. -/
def boolean? : Node → Option Bool
  | .boolean b => some b
  | _ => none

/-- A node as a text. -/
def text? : Node → Option String
  | .string s => some s
  | _ => none

/-- A node as a socket address. -/
def address? (n : Node) : Option SocketAddress := (text? n).bind SocketAddress.parse?

/-- Whether a node has no parts. -/
def isVoid : Node → Bool
  | .table _ _ es => es.isEmpty
  | .inline es => es.isEmpty
  | .array items => items.isEmpty
  | .tables elements => elements.isEmpty
  | _ => false

/-- A kind of backup by its name. -/
def backupKindNamed? (name : String) : Option BackupKind :=
  if name = "file" then some .file
  else if name = "memory" then some .memory
  else none

/-- A node as a kind of backup: its name, or a table of that one name with
nothing in it. -/
def backupKind? : Node → Option BackupKind
  | .string s => backupKindNamed? s
  | .table _ _ [(name, n)] => if isVoid n then backupKindNamed? name else none
  | .inline [(name, n)] => if isVoid n then backupKindNamed? name else none
  | _ => none

-- ============================================================ sections

/-- The settings of a section. -/
inductive Section where
  | named (entries : Entries)
  | ordered (items : List Node)

/-- A node as a section. A moment counts as a table without settings. -/
def section? : Node → Option Section
  | .table _ _ es => some (.named es)
  | .inline es => some (.named es)
  | .array items => some (.ordered items)
  | .tables elements => some (.ordered (elements.map (.table false false)))
  | .moment => some (.named [])
  | _ => none

/-- The node of a setting, by its place or by its name. -/
def Section.get? (s : Section) (place : Nat) (name : String) : Option Node :=
  match s with
  | named es => es.get? name
  | ordered items => items[place]?

/-- A setting with a default. -/
def Section.setting {α : Type} (s : Section) (place : Nat) (name : String)
    (read : Node → Option α) (default : α) : Option α :=
  match s.get? place name with
  | some n => read n
  | none => some default

/-- A path, which may be absent from a table. -/
def Section.path (s : Section) (place : Nat) (name : String) : Option (Option Path) :=
  match s, s.get? place name with
  | _, some n => (text? n).map fun t => some (Path.ofText t)
  | named _, none => some none
  | ordered _, none => none

/-- A count of workers: one per processor unless given. -/
def workers? (n : Node) : Option (Option UInt64) := (uint64? n).map some

/-- The section of the process. -/
def Server.ofSection (s : Section) : Option Server := do
  return { numThreads := ← s.setting 0 "num_threads" workers? none }

/-- The section of the datagram transport. -/
def Udp.ofSection (s : Section) : Option Udp := do
  let d : Udp := {}
  return {
    enabled := ← s.setting 0 "enabled" boolean? d.enabled
    bind := ← s.setting 1 "bind" address? d.bind
    workers := ← s.setting 2 "workers" workers? d.workers
    validateConnectionId :=
      ← s.setting 3 "validate_connection_id" boolean? d.validateConnectionId }

/-- The section of the query transport. -/
def Http.ofSection (s : Section) : Option Http := do
  let d : Http := {}
  return {
    enabled := ← s.setting 0 "enabled" boolean? d.enabled
    bind := ← s.setting 1 "bind" address? d.bind }

/-- The section of the announce replies. -/
def Announce.ofSection (s : Section) : Option Announce := do
  let d : Announce := {}
  return {
    announceInterval := ← s.setting 0 "announce_interval" int32? d.announceInterval
    announceFuzz := ← s.setting 1 "announce_fuzz" int32? d.announceFuzz
    defaultNumwant := ← s.setting 2 "default_numwant" uint64? d.defaultNumwant
    maxNumwant := ← s.setting 3 "max_numwant" uint64? d.maxNumwant }

/-- The section of the swarm database. -/
def Peers.ofSection (s : Section) : Option Peers := do
  let d : Peers := {}
  return {
    ttl := ← s.setting 0 "ttl" int64? d.ttl
    trimInterval := ← s.setting 1 "trim_interval" uint64? d.trimInterval
    listPoolCapacity := ← s.setting 2 "list_pool_capacity" uint64? d.listPoolCapacity }

/-- The section of the connection ids. -/
def ConnectionIds.ofSection (s : Section) : Option ConnectionIds := do
  let d : ConnectionIds := {}
  return {
    maxAge := ← s.setting 0 "max_age" int64? d.maxAge
    gcInterval := ← s.setting 1 "gc_interval" uint64? d.gcInterval
    persistPath := ← s.path 2 "persist_path" }

/-- The section of the snapshots. -/
def Backup.ofSection (s : Section) : Option Backup := do
  let d : Backup := {}
  return {
    kind := ← s.setting 0 "kind" backupKind? d.kind
    path := ← s.path 1 "path"
    interval := ← s.setting 2 "interval" uint64? d.interval }

/-- The section of the log. -/
def Logging.ofSection (s : Section) : Option Logging := do
  let d : Logging := {}
  return {
    level := ← s.setting 0 "level" text? d.level
    format := ← s.setting 1 "format" text? d.format
    console := ← s.setting 2 "console" boolean? d.console }

-- ============================================================ document

/-- The settings of a document. -/
def ofEntries (es : Entries) : Option Config := do
  let root := Section.named es
  let d : Config := {}
  let part {α : Type} (name : String) (read : Section → Option α) (default : α) : Option α :=
    root.setting 0 name (fun n => (section? n).bind read) default
  return {
    server := ← part "server" Server.ofSection d.server
    udp := ← part "udp" Udp.ofSection d.udp
    http := ← part "http" Http.ofSection d.http
    tracker := ← part "tracker" Announce.ofSection d.tracker
    peers := ← part "peers" Peers.ofSection d.peers
    connections := ← part "connections" ConnectionIds.ofSection d.connections
    backup := ← part "backup" Backup.ofSection d.backup
    logging := ← part "logging" Logging.ofSection d.logging }

/-- The settings that a text spells and that make sense together. -/
def ofText (text : String) : Except LoadError Config :=
  match (Toml.parse? text).bind ofEntries with
  | none => .error .malformed
  | some c => match c.validate with
    | .ok () => .ok c
    | .error problem => .error (.invalid problem)

/-- The settings in the content of a file, if there is a file. -/
def ofFile (content : Option Bytes) : Except LoadError Config :=
  match content.bind TorrentTracker.text? with
  | none => .error .unreadable
  | some text => ofText text

end TorrentTracker.Config
