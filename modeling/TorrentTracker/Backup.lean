import TorrentTracker.Config
import TorrentTracker.Disk
import TorrentTracker.Store.Snapshot

/-
Backups: where snapshots of the store go, and how they come back.

A snapshot is kept in a file or in memory. A file is replaced by writing
the new snapshot beside it and moving it into place, so that a save which
fails or is cut off leaves the old snapshot as it was. A backup has to be
opened before it is used.
-/

namespace TorrentTracker

/-- What holds the latest snapshot. -/
inductive Backup.Medium where
  | file (path : Path)
  | memory (snapshot : Option Bytes)
deriving DecidableEq

/-- A place for snapshots. -/
structure Backup where
  medium : Backup.Medium
  opened : Bool
deriving DecidableEq

namespace Backup

/-- Why a backup operation fails. -/
inductive Error where
  | notInitialized
  | missingPath
  | disk (cause : Disk.Error)
  | decode
deriving DecidableEq

/-- The wording of an error, for those that have one of their own. -/
def Error.message? : Error → Option String
  | notInitialized => some "backup backend used before init"
  | missingPath => some "file backup requires a path"
  | disk _ => none
  | decode => none

/-- A backup in a file. -/
def inFile (path : Path) : Backup := ⟨.file path, false⟩

/-- A backup in memory, without a snapshot. -/
def inMemory : Backup := ⟨.memory none, false⟩

/-- Where the next snapshot is written before it is moved into place. -/
def besidePath (path : Path) : Path := path.extend ".tmp"

/-- The changes that replace the snapshot in a file. -/
def saveSteps (path : Path) (data : Bytes) : List Disk.Step :=
  Disk.writeSteps (besidePath path) data
    ++ [.sync (besidePath path), .rename (besidePath path) path]

/-- Make a backup ready for use. A file gets the directory it will stand
in. -/
def openOn (b : Backup) (disk : Disk) : Except Error Backup × Disk :=
  let ready : Backup := { b with opened := true }
  match b.medium with
  | .file path =>
    let (disk, outcome) := disk.run (Disk.directorySteps path.parent)
    ((outcome.mapError .disk).map fun _ => ready, disk)
  | .memory _ => (.ok ready, disk)

/-- Save a snapshot of the store. -/
def save (b : Backup) (disk : Disk) (store : Store) : Except Error Unit × Backup × Disk :=
  if b.opened then
    match b.medium with
    | .file path =>
      let (disk', outcome) := disk.run (saveSteps path store.encode)
      (outcome.mapError .disk, b, disk')
    | .memory _ => (.ok (), { b with medium := .memory (some store.encode) }, disk)
  else (.error .notInitialized, b, disk)

/-- The store that a snapshot holds, and how many peers were loaded. -/
def decode (data : Bytes) : Except Error (Store × Nat) :=
  match Store.decode? data with
  | some found => .ok found
  | none => .error .decode

/-- Replace the store by the latest snapshot, and say how many peers were
loaded. Where there is no snapshot, or only an empty file, nothing is
loaded and the store stays. -/
def load (b : Backup) (disk : Disk) (store : Store) : Except Error (Store × Nat) :=
  if b.opened then
    match b.medium with
    | .file path =>
      match disk.read path with
      | .ok [] => .ok (store, 0)
      | .ok data => decode data
      | .error .notFound => .ok (store, 0)
      | .error e => .error (.disk e)
    | .memory none => .ok (store, 0)
    | .memory (some data) => decode data
  else .error .notInitialized

/-- The backup that the settings ask for. -/
def ofConfig (c : Config.Backup) : Except Error Backup :=
  match c.kind, c.path with
  | .file, some path => .ok (inFile path)
  | .file, none => .error .missingPath
  | .memory, _ => .ok inMemory

end Backup

end TorrentTracker
