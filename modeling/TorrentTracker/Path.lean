import TorrentTracker.Bytes

/-
Paths: ways through a directory tree, as they are written.

A path is the list of its pieces between slashes, and nothing is tidied
away: an empty piece or `.` stays where it is and `..` goes up, but each
of them needs a directory to do it in. So a path that ends in a slash can
only lead to a directory, and `a/../b` needs an `a`.
-/

namespace TorrentTracker

/-- The pieces of a path between its slashes. -/
abbrev Path := List String

namespace Path

/-- The path that a text spells. An empty text has no pieces. -/
def ofText (text : String) : Path :=
  if text.isEmpty then [] else (text.toList.splitOn '/').map String.ofList

/-- A path as text. -/
def text (p : Path) : String := String.intercalate "/" p

/-- A path as it is seen from a directory. One that starts with a slash is
the same from everywhere. -/
def seenFrom (home p : Path) : Path :=
  match p with
  | [] => home ++ [""]
  | piece :: _ => if piece = "" then p else home ++ p

/-- A piece that stays where it is. -/
def stays (piece : String) : Bool := piece = "" || piece = "."

/-- A path without the last pieces that stay where they are. -/
def trim (p : Path) : Path := (p.reverse.dropWhile stays).reverse

/-- A path without the slashes at its end. Of a path of slashes only, one
stays. -/
def unslashed (p : Path) : Path :=
  p.take 1 ++ ((p.drop 1).reverse.dropWhile (· = "")).reverse

/-- The way to the directory that the last step of a path is taken in. -/
def parent (p : Path) : Path := trim p.trim.dropLast

/-- The same way with a longer last name. -/
def extend (p : Path) (ending : String) : Path :=
  p.dropLast ++ [p.getLastD "" ++ ending]

/-- The ways to the directories above the last step of a path, from the
first piece on, and then the whole path. -/
def stages (p : Path) : List Path :=
  ((List.range p.parent.length).map fun i => p.take (i + 1)) ++ [p]

-- ============================================================== limits

/-- How many bytes a name can have. -/
def maxName : Nat := 255

/-- How many bytes a path can have. -/
def maxText : Nat := 4095

/-- Whether a text can be used as a path at all. -/
def usable (p : Path) : Bool :=
  p.text.utf8ByteSize ≤ maxText && p.all fun piece => !piece.toList.contains '\x00'

end Path

end TorrentTracker
