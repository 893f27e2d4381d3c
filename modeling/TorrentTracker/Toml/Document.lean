import TorrentTracker.Toml.Scalar

/-
TOML documents.

A document is read line by line into the tree of `Toml.Node`. The table
that the last header opened is kept apart while its lines come in, and put
in its place when the next header or the end closes it.

Recursion is bounded twice: by the depth to which values may be nested, and
by the length of the text that is left.
-/

namespace TorrentTracker.Toml

open TextReader

-- ============================================================== values

/-- The items of an array after its opening bracket. -/
def arrayItems (item : TextReader Node) : Nat → TextReader (List Node)
  | 0 => fail
  | fuel + 1 => do
    bounded openTrivia
    match ← optional (char ']') with
    | some _ => return []
    | none =>
      let first ← item
      bounded openTrivia
      match ← optional (char ',') with
      | some _ => return first :: (← arrayItems item fuel)
      | none =>
        char ']'
        return [first]

/-- A key, an equals sign and a value. -/
def pair (value : TextReader Node) : TextReader (Key × Node) := do
  let k ← key
  char '='
  blanks
  return (k, ← value)

/-- The pairs of an inline table after its opening brace, at least one. -/
def inlinePairs (value : TextReader Node) :
    Nat → TextReader (List (Key × Node))
  | 0 => fail
  | fuel + 1 => do
    let first ← pair value
    blanks
    match ← optional (char ',') with
    | some _ => return first :: (← inlinePairs value fuel)
    | none =>
      char '\x7d'
      return [first]

/-- An inline table of pairs. -/
def inlineTable (pairs : List (Key × Node)) : Option Node :=
  (pairs.foldlM (fun es p => Entries.assign es p.1.path p.1.name p.2) []).map .inline

/-- A value without parts. -/
def scalar : TextReader Node := do
  match ← peek with
  | some '"' | some '\'' => return .string (← string)
  | some 't' =>
    literal "true"
    return .boolean true
  | some 'f' =>
    literal "false"
    return .boolean false
  | _ =>
    (do
      moment
      return .moment)
    <|> (do
      float
      return .float)
    <|> (do
      return .integer (← integer))

/-- A value whose parts are nested no deeper than a bound. -/
def value : Nat → TextReader Node
  | 0 => scalar
  | depth + 1 => do
    match ← peek with
    | some '[' =>
      char '['
      return .array (← bounded (arrayItems (value depth)))
    | some '\x7b' =>
      char '\x7b'
      blanks
      match ← optional (char '\x7d') with
      | some _ => return .inline []
      | none =>
        let pairs ← bounded (inlinePairs (value depth))
        match inlineTable pairs with
        | some n => return n
        | none => fail
    | _ => scalar

-- =============================================================== lines

/-- What a line says. -/
inductive Line where
  | assignment (key : Key) (node : Node)
  | tableHeader (key : Key)
  | arrayHeader (key : Key)

/-- The rest of a header after its opening brackets. -/
def headerRest (closing : String) : TextReader Key := do
  let k ← key
  literal closing
  lineRest
  return k

/-- A line that says something, with its end. -/
def line : TextReader Line := fun text =>
  match text with
  | '[' :: '[' :: rest => (Line.arrayHeader <$> headerRest "]]").run rest
  | '[' :: rest => (Line.tableHeader <$> headerRest "]").run rest
  | text =>
    (do
      let (k, n) ← pair (value (maxDepth - 1))
      lineRest
      return Line.assignment k n).run text

/-- The lines of a document that say something, in order. -/
def lines : Nat → TextReader (List Line)
  | 0 => fail
  | fuel + 1 => do
    blanks
    match ← peek with
    | none => return []
    | some '#' =>
      comment
      lineEnd
      lines fuel
    | some '\n' | some '\x0d' =>
      newline
      lines fuel
    | _ =>
      let first ← line
      return first :: (← lines fuel)

-- ============================================================ document

/-- A document while its lines come in: the tree so far, and the table
that the last header opened with its place. There is no header yet at the
start, and then the table is the root. -/
structure Draft where
  root : Entries
  current : Entries
  place : Option Key
  isArray : Bool

/-- The tree with the open table in its place. -/
def Draft.close (d : Draft) : Option Entries :=
  match d.place with
  | none => some d.current
  | some k =>
    if d.isArray then d.root.closeArray k.path k.name d.current
    else d.root.close k.path k.name d.current

/-- Take in a line. -/
def Draft.add (d : Draft) : Line → Option Draft
  | .assignment k node => do
    return { d with current := ← d.current.assign k.path k.name node }
  | .tableHeader k => do
    let root ← d.close
    let current ← root.opened k.path k.name
    return ⟨root, current, some k, false⟩
  | .arrayHeader k => do
    let root ← (← d.close).openArray k.path k.name
    return ⟨root, [], some k, true⟩

/-- The tree of a document's lines. -/
def ofLines (ls : List Line) : Option Entries := do
  (← ls.foldlM Draft.add ⟨[], [], none, false⟩).close

/-- A text without the mark that says how its bytes are ordered. -/
def withoutMark (text : String) : String :=
  match text.toList with
  | '\ufeff' :: rest => String.ofList rest
  | _ => text

/-- Read a document. -/
def parse? (text : String) : Option Entries := do
  ofLines (← whole? (bounded lines) (withoutMark text))

end TorrentTracker.Toml
