import TorrentTracker.Proofs.Backup
import TorrentTracker.Proofs.Store.Unbounded

/-
What a load leaves in the store.

A load that finds a snapshot forgets whatever the store had: it answers
the same for every store, and what it leaves are peers of the snapshot, as
many as it says. A load that finds none, because there is no file, or one
without content, or nothing was saved to memory yet, says that it loaded
nobody, and touches nothing. The store is then what it was, and it is empty
only if it was empty before.

`Has` tells the two apart. A store of any size can be saved, and comes back
whole if all its lengths fit the heads of the format; of a larger one a
load may read the front of the snapshot only, and then says so.

# Main statements

- `Has.loads`: what a load leaves and answers, whatever was in the store;
- `stale_after_load`: three ways to load nothing into a store with a peer.
-/

namespace TorrentTracker.Backup

variable {b : Backup} {disk : Disk} {s : Store} {snapshot : Option Store}

/-- What an open backup has to load: nothing, or the snapshot of a store
that it has saved. Whatever happened to the disk since, the snapshot is
still there. -/
inductive Has (disk : Disk) : Backup → Option Store → Prop where
  | absent {path : Path} (h : disk.read path = .error .notFound) :
      Has disk ⟨.file path, true⟩ none
  | blank {path : Path} (h : disk.read path = .ok []) : Has disk ⟨.file path, true⟩ none
  | unsaved : Has disk ⟨.memory none, true⟩ none
  | saved {before after : Disk} {b b' : Backup} {s : Store}
      (h : b.save before s = (.ok (), b', after)) (hkept : b'.held? disk = b'.held? after) :
      Has disk b' (some s)

/-- With nothing to load the store stays, and the answer is that no peer was
loaded. -/
theorem Has.load_of_none (h : Has disk b none) (store : Store) :
    b.load disk store = .ok (store, 0) := by
  cases h with
  | absent habsent => exact load_file_of_absent habsent store
  | blank hblank => simp [load, hblank]
  | unsaved => rfl

/-- A snapshot is loaded as if there had been no store: what comes of it is
decoded from the bytes alone. -/
theorem Has.load_of_some (h : Has disk b (some s)) (store : Store) :
    b.load disk store = decode s.encode := by
  cases h with
  | saved hsave hkept =>
      obtain ⟨hopened, hheld⟩ := held?_of_save hsave
      exact load_of_held hopened (hkept.trans hheld) (encode_ne_nil _) store

/-- What a load brings is what the bytes of the snapshot decode to. -/
theorem Has.decode?_of_load {store found : Store} {n : Nat} (h : Has disk b (some s))
    (hload : b.load disk store = .ok (found, n)) :
    Store.decode? s.snapshot.encode = some (found, n) := by
  rw [h.load_of_some] at hload
  exact decode_eq_ok_iff.mp hload

/-- A load makes one store of all that there may be before, where there is
a snapshot: one with as many peers as it answers, and no others than those
of the snapshot. It comes through with all of these if their numbers fit
the format. Where there is none it leaves the store as it is. So its answer
is the number of peers it leaves exactly if there was a snapshot to load,
or nobody in the store. -/
structure Loads (b : Backup) (disk : Disk) (snapshot : Option Store) : Prop where
  missing : snapshot = none → ∀ store, b.load disk store = .ok (store, 0)
  determined : snapshot ≠ none → ∀ store other, b.load disk store = b.load disk other
  loaded : ∀ saved, snapshot = some saved → ∀ store found n,
    b.load disk store = .ok (found, n) →
      n = found.totalPeers ∧ found.Consistent
        ∧ ∀ hash id p, found.peer? hash id = some p → saved.peer? hash id = some p
  whole : ∀ saved, snapshot = some saved → saved.Roomy → saved.activeSwarms < UInt32.size →
    ∀ store, ∃ found, b.load disk store = .ok (found, saved.totalPeers)
      ∧ (∀ hash id, found.peer? hash id = saved.peer? hash id)
      ∧ (saved.Consistent → found = saved)
  counted_iff : ∀ store found n, b.load disk store = .ok (found, n) →
    (n = found.totalPeers ↔ snapshot ≠ none ∨ store.totalPeers = 0)

/-- Without a snapshot a load succeeds and leaves the store as it is, stale
peers and all. -/
theorem Has.loads_of_none (h : Has disk b none) : b.Loads disk none where
  missing := fun _ => h.load_of_none
  determined := fun hne => absurd rfl hne
  loaded := nofun
  whole := nofun
  counted_iff := by
    intro store found n hload
    rw [h.load_of_none] at hload
    cases hload
    exact eq_comm.trans (or_iff_right fun hne => hne rfl).symm

/-- With a snapshot a load brings the store that was saved, whatever was there
before. The number it answers is that of the peers in the snapshot. -/
theorem Has.loads_of_some (h : Has disk b (some s)) : b.Loads disk (some s) where
  missing := nofun
  determined := by
    intro _ store other
    rw [h.load_of_some, h.load_of_some]
  loaded := by
    rintro _ ⟨⟩ store found n hload
    have hread := h.decode?_of_load hload
    have hlists := Store.lists_snapshot s
    exact ⟨hlists.loaded_eq_totalPeers hread, hlists.consistent_of_decode? hread,
      fun _ _ _ => hlists.peer?_of_decode? hread⟩
  whole := by
    rintro _ ⟨⟩ hroom hswarms store
    -- with room for every length the snapshot is written as it is
    have hlists := Store.lists_snapshot s
    have hread := Store.decode?_encode (hlists.length_eq ▸ hswarms) (hlists.roomy hroom)
    refine ⟨(Store.ofSnapshot s.snapshot).1, ?_, hlists.peer?_ofSnapshot, fun hs => ?_⟩
    · rw [h.load_of_some, ← Store.ofSnapshot_snapshot_snd]
      exact decode_eq_ok_iff.mpr hread
    · exact congrArg Prod.fst (hs.ofSnapshot_of_lists hlists)
  counted_iff := by
    intro store found n hload
    have hread := h.decode?_of_load hload
    exact iff_of_true ((Store.lists_snapshot s).loaded_eq_totalPeers hread) (.inl nofun)

/-- The law of loads, by whether there is a snapshot. Only with one does a load
touch the store, and then nothing of it is kept. -/
theorem Has.loads (h : Has disk b snapshot) : b.Loads disk snapshot := by
  cases snapshot with
  | none => exact h.loads_of_none
  | some s => exact h.loads_of_some

/-- A file that was saved to, loaded over another store: the peers of that one
are gone, and those that were saved are back. -/
theorem loads_saved_file :
    let host : Ip := .v4 (.replicate 4 10)
    let saved := Store.empty.save (.replicate 20 1) (.replicate 20 2) ⟨host, 6881, true, 1000⟩
    let busy := Store.empty.save (.replicate 20 3) (.replicate 20 2) ⟨host, 6881, false, 1100⟩
    let b : Backup := ⟨.file ["peers.db"], true⟩
    let disk := (b.save Disk.empty saved).2.2
    Has disk b (some saved) ∧ b.Loads disk (some saved)
      ∧ b.load disk busy = .ok (saved, 1) := by
  intro host saved busy b disk
  have hsave : b.save Disk.empty saved = (.ok (), b, disk) := rfl
  have hhas : Has disk b (some saved) := .saved hsave rfl
  have hloads := hhas.loads
  obtain ⟨found, hload, -, hfound⟩ := hloads.whole saved rfl (by decide) (by decide) busy
  have hsaved : saved.Consistent := Store.consistent_empty.save _ _ _
  have htotal : saved.totalPeers = 1 := by decide
  rw [hfound hsaved, htotal] at hload
  exact ⟨hhas, hloads, hload⟩

/-- A load from an empty memory, from a file that is not there and from one
without content answers 0 and leaves a peer that was in the store. -/
theorem stale_after_load :
    let path : Path := ["peers.db"]
    let blank := (Disk.empty.run (Disk.writeSteps path [])).1
    let peer : Peer := ⟨.v4 (.replicate 4 10), 6881, false, 1000⟩
    let busy := Store.empty.save (.replicate 20 1) (.replicate 20 2) peer
    (Has Disk.empty ⟨.memory none, true⟩ none
        ∧ load ⟨.memory none, true⟩ Disk.empty busy = .ok (busy, 0))
      ∧ (Has Disk.empty ⟨.file path, true⟩ none
        ∧ load ⟨.file path, true⟩ Disk.empty busy = .ok (busy, 0))
      ∧ (Has blank ⟨.file path, true⟩ none
        ∧ load ⟨.file path, true⟩ blank busy = .ok (busy, 0))
      ∧ busy.totalPeers = 1 ∧ busy.peer? (.replicate 20 1) (.replicate 20 2) = some peer := by
  intro path blank peer busy
  exact ⟨⟨.unsaved, rfl⟩, ⟨.absent rfl, rfl⟩, ⟨.blank rfl, rfl⟩, by decide, by decide⟩

end TorrentTracker.Backup
