import TorrentTracker.Bytes
import TorrentTracker.Overflow

/-
A pool of reusable buffers.

A buffer is lent out empty and with room for at least the pool's buffer
size, and comes back to be cleared. The pool keeps a bounded number of
buffers idle; when none is idle it makes a new one, and when enough are
idle it lets a returned one go. Buffers carry a serial number, so that "the
same buffer" has a meaning.
-/

namespace TorrentTracker

/-- A growing buffer. -/
structure Buffer where
  serial : Nat
  content : Bytes
  /-- How many bytes it can hold as it is. -/
  room : Nat
deriving DecidableEq

/-- Append to a buffer, which grows if it has to. -/
def Buffer.append (b : Buffer) (data : Bytes) : Buffer :=
  { b with
    content := b.content ++ data
    room := max b.room (b.content.length + data.length) }

/-- The buffer without its content. The room stays. -/
def Buffer.clear (b : Buffer) : Buffer := { b with content := [] }

/-- Why bytes cannot be written somewhere: the text of the error. -/
structure WriteError where
  text : String
deriving DecidableEq

/-- Write to a buffer. It grows, so there is always room. -/
def Buffer.write (b : Buffer) (data : Bytes) : Except WriteError Buffer :=
  .ok (b.append data)

/-- A pool of buffers that are not on loan. -/
structure BufferPool where
  /-- How many buffers may be idle. -/
  capacity : Nat
  /-- How much room a lent buffer has at least. -/
  bufferSize : Nat
  idle : List Buffer
  /-- How many buffers were ever made. -/
  made : Nat
deriving DecidableEq

namespace BufferPool

/-- A pool without buffers. -/
def empty (capacity bufferSize : Nat) : BufferPool := ⟨capacity, bufferSize, [], 0⟩

/-- The pool for packed peer lists: a buffer takes as many of the wider
entries as a client can get. The size is a machine word, or what is left of
it after whole turns. -/
def forPeerLists (capacity maxNumwant : UInt64) : BufferPool :=
  empty capacity.toNat (maxNumwant * 18).toNat

/-- The size of a buffer has to be exact. -/
def forPeerListsFault? (maxNumwant : UInt64) : Option Overflow :=
  Overflow.multiply.ifNot ((maxNumwant * 18).toNat = maxNumwant.toNat * 18)

/-- The pool for packed peer lists, in either build. -/
def forPeerListsIn (build : Build) (capacity maxNumwant : UInt64) : Except Overflow BufferPool :=
  build.settle (forPeerListsFault? maxNumwant) (forPeerLists capacity maxNumwant)

/-- Lend a buffer: the one that came back last, or a new one. -/
def acquire (pool : BufferPool) : BufferPool × Buffer :=
  match pool.idle with
  | b :: rest => ({ pool with idle := rest }, b)
  | [] => ({ pool with made := pool.made + 1 }, ⟨pool.made, [], pool.bufferSize⟩)

/-- Take a buffer back and clear it. -/
def release (pool : BufferPool) (b : Buffer) : BufferPool :=
  if pool.idle.length < pool.capacity then
    { pool with idle := b.clear :: pool.idle }
  else pool

end BufferPool

end TorrentTracker
