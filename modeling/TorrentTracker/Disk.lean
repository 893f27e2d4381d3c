import TorrentTracker.Path
import TorrentTracker.Table

/-
A directory tree with the few operations that snapshots need.

Every operation takes paths as they are written and follows them through
the tree as it is then. It either changes the tree or fails and leaves it
as it was. A sequence of operations stops at the first failure, so what a
crash can leave behind is what some first part of the sequence leaves
behind.
-/

namespace TorrentTracker

/-- The names on the way down from the root. -/
abbrev Disk.Place := List String

/-- What can stand at a place. -/
inductive Disk.Node where
  | directory
  | file (content : Bytes)
deriving DecidableEq

/-- A directory tree: what stands at each place below the root. -/
structure Disk where
  nodes : Table Disk.Place Disk.Node
deriving DecidableEq

namespace Disk

/-- Why an operation fails. -/
inductive Error where
  /-- Nothing stands where a path leads. -/
  | notFound
  /-- What stands there is of the wrong kind. -/
  | wrongKind
  /-- No file can have such a path. -/
  | badPath
deriving DecidableEq

/-- The tree that is only a root. -/
def empty : Disk := ⟨Table.empty⟩

instance : Inhabited Disk := ⟨empty⟩

/-- What stands at a place. The root is a directory. -/
def node? (d : Disk) : Place → Option Node
  | [] => some .directory
  | q => d.nodes.get? q

/-- Put something at a place. -/
def put (d : Disk) (q : Place) (n : Node) : Disk := ⟨d.nodes.insert q n⟩

-- ======================================================== finding a way

/-- Go on from a place along the pieces of a path. There is nothing above
the root, so going up from it stays there. -/
def walk (d : Disk) : Place → Path → Except Error Place
  | here, [] => .ok here
  | here, piece :: rest => match d.node? here with
    | none => .error .notFound
    | some (.file _) => .error .wrongKind
    | some .directory =>
      if Path.stays piece then d.walk here rest
      else if piece = ".." then d.walk here.dropLast rest
      else if Path.maxName < piece.utf8ByteSize then .error .badPath
      else d.walk (here ++ [piece]) rest

/-- The place that a path leads to from the root, whether or not something
stands there. -/
def locate (d : Disk) (p : Path) : Except Error Place :=
  if p.isEmpty then .error .notFound
  else if p.usable then d.walk [] p
  else .error .badPath

/-- The content of a file. -/
def read (d : Disk) (p : Path) : Except Error Bytes := do
  match d.node? (← d.locate p) with
  | some (.file content) => .ok content
  | some .directory => .error .wrongKind
  | none => .error .notFound

-- ============================================================= changes

/-- The elementary changes. -/
inductive Step where
  /-- Make a directory unless it is there. -/
  | makeDirectory (p : Path)
  /-- Make a file, or empty the one that is there. -/
  | create (p : Path)
  /-- Add to the end of a file. -/
  | append (p : Path) (data : Bytes)
  /-- Wait until a file is safe from a power cut. -/
  | sync (p : Path)
  /-- Move a file, replacing any file at its new place. -/
  | rename (source target : Path)
deriving DecidableEq

/-- Make one elementary change. -/
def perform (d : Disk) : Step → Except Error Disk
  | .makeDirectory p => do
    let q ← d.locate p.unslashed
    match d.node? q with
    | some .directory => .ok d
    | some (.file _) => .error .wrongKind
    | none => .ok (d.put q .directory)
  | .create p => do
    let q ← d.locate p
    match d.node? q with
    | some .directory => .error .wrongKind
    | _ => .ok (d.put q (.file []))
  | .append p data => do
    let content ← d.read p
    .ok (d.put (← d.locate p) (.file (content ++ data)))
  | .sync p => do
    let _ ← d.read p
    .ok d
  | .rename source target => do
    let content ← d.read source
    let q ← d.locate target
    match d.node? q with
    | some .directory => .error .wrongKind
    | _ => .ok ((⟨d.nodes.erase (← d.locate source)⟩ : Disk).put q (.file content))

/-- Make changes one after the other up to the first that fails: the tree
as it is then, and the failure. -/
def run (d : Disk) : List Step → Disk × Except Error Unit
  | [] => (d, .ok ())
  | step :: rest => match d.perform step with
    | .ok d' => d'.run rest
    | .error e => (d, .error e)

/-- The changes that make a directory and all on the way to it that are
not there. A path that stays where it is needs none, and one that cannot be
used is refused before anything is made. -/
def directorySteps (p : Path) : List Step :=
  if p.trim.isEmpty then []
  else if p.usable then p.stages.map .makeDirectory
  else [.makeDirectory p]

/-- The changes that give a file a content. -/
def writeSteps (p : Path) (data : Bytes) : List Step := [.create p, .append p data]

/-- The places of all files. -/
def files (d : Disk) : List Place :=
  d.nodes.toList.filterMap fun entry => match entry.2 with
    | .file _ => some entry.1
    | .directory => none

end Disk

end TorrentTracker
