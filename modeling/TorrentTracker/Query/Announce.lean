import TorrentTracker.Query

/-
The query of an announce.

Pairs are taken one after the other into a draft; the first pair that
cannot be taken decides the error, and of two pairs with one key the later
counts. Only a query without a bad pair can be short of a parameter.
-/

namespace TorrentTracker

/-- An announce as a query spells it. -/
structure AnnounceQuery where
  infoHash : InfoHash
  peerId : PeerId
  port : UInt16
  uploaded : Int64
  downloaded : Int64
  left : Int64
  event : Event
  /-- As the client sent it; the settings resolve and cap it. -/
  numwant : Option Int64
  compact : Bool
  noPeerId : Bool
deriving DecidableEq

namespace AnnounceQuery

/-- The parameters an announce knows. Any other key is passed over. -/
inductive Parameter where
  | infoHash
  | peerId
  | port
  | uploaded
  | downloaded
  | left
  | event
  | numwant
  | compact
  | noPeerId
deriving DecidableEq

/-- The key of a parameter. -/
def Parameter.name : Parameter → String
  | infoHash => "info_hash"
  | peerId => "peer_id"
  | port => "port"
  | uploaded => "uploaded"
  | downloaded => "downloaded"
  | left => "left"
  | event => "event"
  | numwant => "numwant"
  | compact => "compact"
  | noPeerId => "no_peer_id"

/-- All parameters. -/
def Parameter.all : List Parameter :=
  [infoHash, peerId, port, uploaded, downloaded, left, event, numwant, compact, noPeerId]

/-- The parameter of a key. -/
def Parameter.ofKey? (key : Bytes) : Option Parameter :=
  all.find? fun p => utf8 p.name = key

@[simp]
theorem Parameter.ofKey?_name (p : Parameter) : ofKey? (utf8 p.name) = some p := by
  cases p <;> decide

/-- What the pairs so far have said. -/
structure Draft where
  infoHash : Option InfoHash := none
  peerId : Option PeerId := none
  port : Option UInt16 := none
  uploaded : Int64 := 0
  downloaded : Int64 := 0
  left : Option Int64 := none
  event : Event := .none
  numwant : Option Int64 := none
  compact : Bool := true
  noPeerId : Bool := false
deriving DecidableEq

/-- The value read, or the error of the parameter it was read for. -/
def required {α : Type} (error : Query.Error) : Option α → Except Query.Error α
  | some a => .ok a
  | none => .error error

/-- Take the value of a parameter into a draft. -/
def Draft.set (draft : Draft) (p : Parameter) (value : Bytes) : Except Query.Error Draft :=
  let integer := required (.invalidFormat p.name) (Query.integer? value)
  let flag := required (.invalidFormat p.name) (Query.flag? value)
  match p with
  | .infoHash => do
    let id ← required .invalidInfoHash (Query.id? value)
    return { draft with infoHash := some id }
  | .peerId => do
    let id ← required .invalidPeerId (Query.id? value)
    return { draft with peerId := some id }
  | .port => do
    let port ← required .invalidPort (Query.port? value)
    return { draft with port := some port }
  | .uploaded => do
    let n ← integer
    return { draft with uploaded := n }
  | .downloaded => do
    let n ← integer
    return { draft with downloaded := n }
  | .left => do
    let n ← integer
    return { draft with left := some n }
  | .event => do
    let event ← required .invalidEvent (Query.event? value)
    return { draft with event }
  | .numwant => do
    let n ← required .invalidNumwant (Query.integer? value)
    return { draft with numwant := some n }
  | .compact => do
    let b ← flag
    return { draft with compact := b }
  | .noPeerId => do
    let b ← flag
    return { draft with noPeerId := b }

/-- Take a pair into a draft. -/
def Draft.take (draft : Draft) (pair : Bytes × Bytes) : Except Query.Error Draft :=
  match Parameter.ofKey? pair.1 with
  | some p => draft.set p pair.2
  | none => .ok draft

/-- Turn a draft into an announce. What has no default has to be there;
the first absent one is named. -/
def Draft.finish (draft : Draft) : Except Query.Error AnnounceQuery := do
  let infoHash ← required (.missing Parameter.infoHash.name) draft.infoHash
  let peerId ← required (.missing Parameter.peerId.name) draft.peerId
  let port ← required (.missing Parameter.port.name) draft.port
  let left ← required (.missing Parameter.left.name) draft.left
  return {
    infoHash, peerId, port, left
    uploaded := draft.uploaded
    downloaded := draft.downloaded
    event := draft.event
    numwant := draft.numwant
    compact := draft.compact
    noPeerId := draft.noPeerId }

/-- What the pairs of a query leave in a draft. -/
def draft (query : Bytes) : Except Query.Error Draft :=
  (Query.pairs query).foldlM Draft.take {}

/-- Read the query of an announce. -/
def parse (query : Bytes) : Except Query.Error AnnounceQuery := do
  (← draft query).finish

end AnnounceQuery

end TorrentTracker
