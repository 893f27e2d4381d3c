/-
Byte strings, byte strings of a fixed width, and the reader that takes
both apart.

Datagrams, query values, snapshots and reply bodies are all `Bytes`. The
identifiers and addresses inside them are `Octets n`, which carry their
width in the type, so a value that was read once is never measured again.

# The reader

A `Reader α` consumes bytes from the front and hands on the rest, or
stops without an answer. Every reader below has one law of the form
`run (written a ++ rest) = some (a, rest)`: it gives back what was
written and leaves the continuation alone, whatever that is.
-/

namespace TorrentTracker

/-- A string of bytes. -/
abbrev Bytes := List UInt8

/-- The bytes of a text in UTF-8. -/
def utf8 (text : String) : Bytes :=
  text.toList.flatMap String.utf8EncodeChar

/-- The text that bytes spell in UTF-8, if they spell one. -/
def text? (bytes : Bytes) : Option String :=
  String.fromUTF8? (ByteArray.mk bytes.toArray)

-- ======================================================= octet strings

/-- A string of exactly `n` bytes. -/
structure Octets (n : Nat) where
  bytes : Bytes
  length_bytes : bytes.length = n
deriving DecidableEq

namespace Octets

variable {n : Nat}

attribute [simp] length_bytes

/-- Octets are their bytes; the length is a proof and carries nothing. -/
theorem bytes_injective {a b : Octets n} (h : a.bytes = b.bytes) : a = b := by
  obtain ⟨front, hfront⟩ := a
  subst h
  rfl

/-- The bytes as an octet string, when there are `n` of them. -/
def ofBytes? (n : Nat) (bytes : Bytes) : Option (Octets n) :=
  if h : bytes.length = n then some ⟨bytes, h⟩ else none

@[simp]
theorem ofBytes?_bytes (o : Octets n) : ofBytes? n o.bytes = some o := by
  simp [ofBytes?]

/-- Octets come of the bytes they have and of no others. -/
theorem ofBytes?_eq_some_iff {bytes : Bytes} {o : Octets n} :
    ofBytes? n bytes = some o ↔ o.bytes = bytes := by
  constructor
  · intro h
    unfold ofBytes? at h
    split at h <;> simp_all
    rw [← h]
  · rintro rfl
    simp

/-- The same byte `n` times. -/
def replicate (n : Nat) (b : UInt8) : Octets n :=
  ⟨List.replicate n b, by simp⟩

instance : Inhabited (Octets n) := ⟨replicate n 0⟩

end Octets

-- ============================================================= readers

/-- A reader takes a value off the front of a byte string. -/
abbrev Reader := StateT Bytes Option

namespace Reader

variable {α : Type}

/-- Stop without an answer. -/
def fail : Reader α := fun _ => none

/-- Take `n` bytes as they are. -/
def bytes (n : Nat) : Reader Bytes := fun data =>
  let front := data.take n
  if front.length = n then some (front, data.drop n) else none

/-- Take one byte. -/
def byte : Reader UInt8
  | [] => none
  | b :: rest => some (b, rest)

/-- Take an octet string of width `n`. -/
def octets (n : Nat) : Reader (Octets n) := fun data =>
  if h : n ≤ data.length then
    some (⟨data.take n, by simp [h]⟩, data.drop n)
  else none

/-- Read `count` values one after the other. -/
def times (count : Nat) (one : Reader α) : Reader (List α) :=
  match count with
  | 0 => pure []
  | count + 1 => do
    let first ← one
    let others ← times count one
    return first :: others

theorem run_bytes (n : Nat) (data : Bytes) :
    (bytes n).run data = if n ≤ data.length then some (data.take n, data.drop n) else none := by
  have hmin : min n data.length = n ↔ n ≤ data.length := by omega
  simp [bytes, StateT.run, hmin]

@[simp]
theorem run_bytes_append (front rest : Bytes) :
    (bytes front.length).run (front ++ rest) = some (front, rest) := by
  simp [bytes, StateT.run]

@[simp]
theorem run_octets_append {n : Nat} (o : Octets n) (rest : Bytes) :
    (octets n).run (o.bytes ++ rest) = some (o, rest) := by
  obtain ⟨front, rfl⟩ := o
  simp [octets, StateT.run]

end Reader

end TorrentTracker
