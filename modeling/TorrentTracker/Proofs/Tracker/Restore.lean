import TorrentTracker.Proofs.Backup
import TorrentTracker.Proofs.Connections.History
import TorrentTracker.Tracker

/-
What a restart takes over of the snapshots it finds: all or nothing.

Restoring goes through two snapshots and puts up with whatever is the
matter with either. `restore_eq` says what comes of it in one equation. The
store is replaced by what a load answers with and else stays, and the
connection ids likewise, so bytes that are rejected leave no trace.

What is rejected for certain is a snapshot that was cut off, as it is when
the disk is full or the power fails. Every reader of the format asks for
all that a header announces before it answers (`Reader.Reads.needs`), and a
header is the first thing it reads; so a cut anywhere, in the middle of a
number, between two peers or before the first byte, leaves it without an
answer. A header has room for `2 ^ 32` elements. Of a listing that is longer
it announces a first part, and bytes after that part are not missed.

# Main statement

- `all_or_nothing`: nothing comes of bytes that are rejected, and all
  proper first parts of a snapshot are.
-/

namespace TorrentTracker

open MessagePack

/-- Bytes that are no list of tickets are merged into none. -/
theorem Connections.restore?_of_rejected {data : Bytes} (h : decodeEntries? data = none)
    (c : Connections) : c.restore? data = none := by
  rw [restore?, h]
  rfl

namespace Tracker

variable {t : Tracker} {disk : Disk} {path : Path} {data : Bytes}

/-- The store after a load that may fail. -/
def storeFrom (t : Tracker) (disk : Disk) : Store :=
  match t.backup.load disk t.store with
  | .ok (store, _) => store
  | .error _ => t.store

/-- The connection ids after bytes were merged into them that may be
missing or unreadable. -/
def connectionsFrom (t : Tracker) (disk : Disk) : Connections :=
  ((t.config.connections.persistPath.bind fun path => (disk.read path).toOption).bind
    t.connections.restore?).elim t.connections Prod.fst

/-- What a restart does to the tickets, in one line: whatever cannot be read
brings none. -/
theorem restoreConnections_eq (t : Tracker) (path : Path) (disk : Disk) :
    t.restoreConnections path disk
      = { t with connections :=
          ((disk.read path).toOption.bind t.connections.restore?).elim t.connections Prod.fst } := by
  unfold restoreConnections
  cases disk.read path with
  | error e => rfl
  | ok data =>
      cases data with
      | nil => rfl
      | cons byte rest =>
          cases hrestore : t.connections.restore? (byte :: rest) with
          | none => simp [hrestore, Except.toOption]
          | some pair => simp [hrestore, Except.toOption]

/-- A restart takes over a store and connection ids, and changes nothing
else. -/
theorem restore_eq (t : Tracker) (disk : Disk) :
    t.restore disk
      = { t with store := t.storeFrom disk, connections := t.connectionsFrom disk } := by
  unfold restore loadBackup storeFrom connectionsFrom
  cases t.backup.load disk t.store with
  | error e =>
      cases hpath : t.config.connections.persistPath with
      | none => simp [hpath, bind, Except.bind]
      | some path => simp [hpath, bind, Except.bind, restoreConnections_eq]
  | ok pair =>
      cases hpath : t.config.connections.persistPath with
      | none => simp [hpath, bind, Except.bind, pure, Except.pure]
      | some path => simp [hpath, bind, Except.bind, pure, Except.pure, restoreConnections_eq]

theorem storeFrom_of_error {e : Backup.Error} (h : t.backup.load disk t.store = .error e) :
    t.storeFrom disk = t.store := by
  rw [storeFrom, h]

theorem storeFrom_of_ok {found : Store × Nat} (h : t.backup.load disk t.store = .ok found) :
    t.storeFrom disk = found.1 := by
  rw [storeFrom, h]

/-- Bytes that are no snapshot leave the store. -/
theorem storeFrom_of_rejected (hheld : t.backup.held? disk = some data)
    (hdata : Store.decode? data = none) : t.storeFrom disk = t.store := by
  cases hload : t.backup.load disk t.store with
  | error e => exact storeFrom_of_error hload
  | ok found =>
      rw [storeFrom_of_ok hload]
      rcases Backup.load_eq_ok hload with rfl | ⟨other, hother, hfound⟩
      · rfl
      · rw [hheld] at hother
        cases hother
        rw [hdata] at hfound
        cases hfound

theorem loadBackup_of_rejected (hopened : t.backup.opened = true)
    (hheld : t.backup.held? disk = some data) (hdata : Store.decode? data = none)
    (hsome : data ≠ []) : t.loadBackup disk = .error .decode := by
  have hload : t.backup.load disk t.store = .error .decode := by
    rw [Backup.load_of_held hopened hheld hsome, Backup.decode, hdata]
  rw [loadBackup, hload]
  rfl

/-- From bytes that are read the tickets are those that are taken, or as before
if none are. -/
theorem connectionsFrom_of_read (hpath : t.config.connections.persistPath = some path)
    (hread : disk.read path = .ok data) :
    t.connectionsFrom disk = (t.connections.restore? data).elim t.connections Prod.fst := by
  rw [connectionsFrom, hpath, Option.bind_some, hread]
  rfl

end Tracker

/-- Nothing comes of bytes that are rejected, and bytes are rejected that a
snapshot of the store, or of the connection ids, begins with and that are
less than its header announces, whatever order it is in. A header that has
room for the number announces the whole snapshot. -/
structure AllOrNothing (s : Store) (c : Connections) : Prop where
  store_kept : ∀ (t : Tracker) disk data, t.backup.held? disk = some data →
    Store.decode? data = none → (t.restore disk).store = t.store
      ∧ (t.backup.opened = true → data ≠ [] → t.loadBackup disk = .error .decode)
  connections_kept : ∀ data, Connections.decodeEntries? data = none →
    (∀ c : Connections, c.restore? data = none)
      ∧ ∀ (t : Tracker) disk path, t.config.connections.persistPath = some path →
        disk.read path = .ok data → (t.restore disk).connections = t.connections
  store_cut : ∀ listing, s.Lists listing → ∀ part, part <+: listing.encode →
    (Store.decode? part = none ↔ part.length < (announced Snapshot.encodeSwarm listing).length)
  connections_cut : ∀ listing, listing.Perm c.tickets.toList → ∀ part,
    part <+: Connections.encodeEntries listing →
    (Connections.decodeEntries? part = none
      ↔ part.length < (announced Connections.encodeEntry listing).length)
  store_whole : s.activeSwarms < UInt32.size → ∀ listing, s.Lists listing → ∀ part,
    part <+: listing.encode → part ≠ listing.encode → Store.decode? part = none
  connections_whole : c.size < UInt32.size → ∀ listing, listing.Perm c.tickets.toList →
    ∀ part, part <+: Connections.encodeEntries listing →
    part ≠ Connections.encodeEntries listing → Connections.decodeEntries? part = none

theorem length_lt_of_proper {part whole : Bytes} (hpart : part <+: whole) (hne : part ≠ whole) :
    part.length < whole.length :=
  Nat.lt_of_le_of_ne hpart.length_le fun hlen => hne (hpart.eq_of_length hlen)

/-- Of a listing that was cut, a front is rejected just if something that its
header announces is missing. -/
theorem Store.Reached.decode?_part_eq_none_iff {s : Store} (h : s.Reached) {listing : Snapshot}
    (hlists : s.Lists listing) {part : Bytes} (hpart : part <+: listing.encode) :
    Store.decode? part = none ↔ part.length < (announced Snapshot.encodeSwarm listing).length := by
  unfold Store.decode?
  rw [Option.map_eq_none_iff, ← Snapshot.decode?_take_eq_none_iff (hlists.roomy h.roomy),
    ← List.prefix_iff_eq_take.mp hpart]

/-- The same of a listing of tickets. -/
theorem Connections.decodeEntries?_part_eq_none_iff {listing : List (Endpoint × Ticket)}
    {part : Bytes} (hpart : part <+: encodeEntries listing) :
    decodeEntries? part = none ↔ part.length < (announced encodeEntry listing).length := by
  rw [← decodeEntries?_take_eq_none_iff, ← List.prefix_iff_eq_take.mp hpart]

/-- A restart takes over a snapshot as a whole or not at all. Bytes that are
turned down leave no trace, and a snapshot cut anywhere is turned down. -/
theorem all_or_nothing {s : Store} (h : s.Reached) (c : Connections) : AllOrNothing s c where
  store_kept := by
    intro t disk data hheld hdata
    refine ⟨?_, fun hopened => Tracker.loadBackup_of_rejected hopened hheld hdata⟩
    rw [Tracker.restore_eq]
    exact Tracker.storeFrom_of_rejected hheld hdata
  connections_kept := by
    intro data hdata
    refine ⟨Connections.restore?_of_rejected hdata, fun t disk path hpath hread => ?_⟩
    rw [Tracker.restore_eq]
    show t.connectionsFrom disk = t.connections
    rw [Tracker.connectionsFrom_of_read hpath hread, Connections.restore?_of_rejected hdata]
    rfl
  store_cut := fun listing hlists part => h.decode?_part_eq_none_iff hlists
  connections_cut := fun listing _ part => Connections.decodeEntries?_part_eq_none_iff
  store_whole := by
    intro hswarms listing hlists part hpart hne
    rw [h.decode?_part_eq_none_iff hlists hpart, announced_of_lt (hlists.length_eq ▸ hswarms)]
    exact length_lt_of_proper hpart hne
  connections_whole := by
    intro hsize listing hperm part hpart hne
    have hlength : listing.length < UInt32.size := by
      rw [hperm.length_eq, Table.length_toList]
      exact hsize
    rw [Connections.decodeEntries?_part_eq_none_iff hpart, announced_of_lt hlength]
    exact length_lt_of_proper hpart hne

/-- A tracker with a peer and a ticket of its own restarts over snapshots
that were cut off, the one within a peer and the other within a number, and
stays as it is. -/
theorem all_or_nothing_cut :
    let saved := Store.empty.perform (.save (.replicate 20 1) (.replicate 20 2)
      ⟨.v6 (.replicate 16 32), 6881, true, -40000⟩)
    let ids := Connections.run 60 [.create (.v4 (.replicate 4 10) 6881) 70000 99]
    let files := (Disk.empty.run (Disk.writeSteps ["state.bin"] (saved.encode.take 60)
      ++ Disk.writeSteps ["ids.bin"] (ids.encode.take (ids.encode.length - 1)))).1
    let t : Tracker := ⟨{ connections := { persistPath := some ["ids.bin"] } },
      Store.empty.perform (.save (.replicate 20 3) (.replicate 20 4)
        ⟨.v4 (.replicate 4 11), 80, false, 5⟩),
      Connections.run 60 [.create (.v4 (.replicate 4 11) 80) 5 7], { startTime := 0 },
      ⟨.file ["state.bin"], true⟩⟩
    saved.Reached ∧ AllOrNothing saved ids
      ∧ (t.restore files).store = t.store ∧ (t.restore files).connections = t.connections := by
  intro saved ids files t
  have hsaved : saved.Reached := .perform _ .empty (by decide)
  have hwhole := all_or_nothing hsaved ids
  refine ⟨hsaved, hwhole, ?_, ?_⟩
  · refine (hwhole.store_kept t files (saved.encode.take 60) rfl ?_).1
    exact hwhole.store_whole (by decide) _ (Store.lists_snapshot saved) _ (List.take_prefix _ _)
      (by decide)
  · refine (hwhole.connections_kept (ids.encode.take (ids.encode.length - 1)) ?_).2 t files
      ["ids.bin"] rfl rfl
    exact hwhole.connections_whole (by decide) _ (List.Perm.refl _) _ (List.take_prefix _ _)
      (by decide)

end TorrentTracker
