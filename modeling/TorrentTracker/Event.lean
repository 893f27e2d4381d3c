import TorrentTracker.Bytes

/-
The events of a download, and what an announce with one does to the swarm.

Datagrams carry an event as a number, queries as a word; both name the same
four.
-/

namespace TorrentTracker

/-- Where a client says it is in its download. -/
inductive Event where
  | none
  | completed
  | started
  | stopped
deriving DecidableEq

/-- What an announce does to the swarm. -/
inductive Transition where
  /-- The peer is in the swarm, complete if it says so or was so before. -/
  | join (complete : Bool)
  /-- The peer is no longer in the swarm. -/
  | leave
deriving DecidableEq

namespace Event

/-- A stop leaves; otherwise the peer joins, and it is complete if it just
completed or has nothing left to fetch. -/
def transition (left : Int64) : Event → Transition
  | stopped => .leave
  | completed => .join true
  | none | started => .join (decide (left = 0))

/-- The number a datagram carries. -/
def number : Event → Int32
  | none => 0
  | completed => 1
  | started => 2
  | stopped => 3

/-- The event a datagram's number stands for. -/
def ofNumber? (n : Int32) : Option Event :=
  if n = 0 then some none
  else if n = 1 then some completed
  else if n = 2 then some started
  else if n = 3 then some stopped
  else Option.none

@[simp]
theorem ofNumber?_number (e : Event) : ofNumber? e.number = some e := by
  cases e <;> decide

theorem number_of_ofNumber? {n : Int32} {e : Event} (h : ofNumber? n = some e) :
    e.number = n := by
  grind [ofNumber?, number]

/-- The word a query carries; no event is the empty word. -/
def word : Event → Bytes
  | none => []
  | completed => utf8 "completed"
  | started => utf8 "started"
  | stopped => utf8 "stopped"

/-- The event a query's word stands for. -/
def ofWord? (text : Bytes) : Option Event :=
  [none, started, stopped, completed].find? fun e => e.word = text

@[simp]
theorem ofWord?_word (e : Event) : ofWord? e.word = some e := by
  cases e <;> decide

end Event

end TorrentTracker
