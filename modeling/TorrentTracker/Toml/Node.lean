import TorrentTracker.Bytes

/-
The tree that a TOML document builds, and the rules by which it grows.

A table comes about in one of four ways: a header defines it; a header
passes through it (it is *implicit*, and a header of its own may still
define it); a dotted key passes through it (it is *dotted*, and only dotted
keys may add to it); or it is written inline, and then it is closed. The
rules below decide which of these may meet.
-/

namespace TorrentTracker.Toml

/-- A value or a table of a document. The moments and the floating-point
numbers of a document are told apart from the rest but not kept. -/
inductive Node where
  | string (s : String)
  | integer (n : Int)
  | float
  | boolean (b : Bool)
  | moment
  | array (items : List Node)
  /-- A table written inline. -/
  | inline (entries : List (String × Node))
  /-- A table that headers or dotted keys made. -/
  | table (implicit dotted : Bool) (entries : List (String × Node))
  /-- The tables of an array that headers made, first to last. -/
  | tables (elements : List (List (String × Node)))

/-- The entries of a table. -/
abbrev Entries := List (String × Node)

namespace Entries

/-- The node under a key. -/
def get? (es : Entries) (key : String) : Option Node :=
  (es.find? fun e => e.1 = key).map Prod.snd

/-- Put a node under a key, in the place of the one that is there. -/
def set (es : Entries) (key : String) (n : Node) : Entries :=
  if es.any fun e => e.1 = key then es.map fun e => if e.1 = key then (key, n) else e
  else es ++ [(key, n)]

/-- Take a key out. -/
def erase (es : Entries) (key : String) : Entries := es.filter fun e => e.1 ≠ key

/-- Change the table at the end of a path. Tables that are not there yet
are made on the way, by a dotted key or by a header; an array of tables
stands for its last one. A dotted key enters no table that a header
defined. The change is told whether the table it works on is dotted. -/
def change (byKey : Bool) (f : Bool → Entries → Option Entries) :
    List String → Bool → Entries → Option Entries
  | [], dotted, es => f dotted es
  | key :: path, _, es =>
    match es.get? key with
    | none => do
      let inner ← change byKey f path byKey []
      return es.set key (.table true byKey inner)
    | some (.table implicit dotted inner) =>
      if byKey && !implicit then none
      else do
        let inner ← change byKey f path dotted inner
        return es.set key (.table implicit dotted inner)
    | some (.tables elements) =>
      match elements.getLast? with
      | none => none
      | some last => do
        let last ← change byKey f path false last
        return es.set key (.tables (elements.dropLast ++ [last]))
    | some _ => none

/-- Add a node under a key of a table that is or is not dotted. A table is
added to either by plain keys or by dotted keys, and a key is given only
once. -/
def addKey (viaDots : Bool) (key : String) (n : Node) (dotted : Bool) (es : Entries) :
    Option Entries :=
  if dotted != viaDots || (es.get? key).isSome then none else some (es.set key n)

/-- Add what a line `path.key = node` says. -/
def assign (es : Entries) (path : List String) (key : String) (n : Node) : Option Entries :=
  change true (addKey (!path.isEmpty) key n) path false es

/-- The entries that a header `[path.key]` starts with: those of a table
that was only passed through so far, or none. -/
def opened (es : Entries) (path : List String) (key : String) : Option Entries :=
  match path with
  | [] => match es.get? key with
    | none => some []
    | some (.table true false inner) => some inner
    | some _ => none
  | k :: path => match es.get? k with
    | none => some []
    | some (.table _ _ inner) => opened inner path key
    | some (.tables elements) => (elements.getLast?).bind fun last => opened last path key
    | some _ => none

/-- Put the finished table of a header `[path.key]` in its place. -/
def close (es : Entries) (path : List String) (key : String) (table : Entries) :
    Option Entries :=
  change false (fun _ inner => some (inner.set key (.table false false table))) path false es

/-- Make sure that a header `[[path.key]]` names an array of tables. -/
def openArray (es : Entries) (path : List String) (key : String) : Option Entries :=
  change false
    (fun _ inner => match inner.get? key with
      | none => some (inner.set key (.tables []))
      | some (.tables _) => some inner
      | some _ => none)
    path false es

/-- Put the finished table of a header `[[path.key]]` at the end of its
array. -/
def closeArray (es : Entries) (path : List String) (key : String) (table : Entries) :
    Option Entries :=
  change false
    (fun _ inner => match inner.get? key with
      | none => some (inner.set key (.tables [table]))
      | some (.tables elements) => some (inner.set key (.tables (elements ++ [table])))
      | some _ => none)
    path false es

end Entries

end TorrentTracker.Toml
