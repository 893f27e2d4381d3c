import TorrentTracker.Proofs.Backup
import TorrentTracker.Proofs.Disk.Course
import TorrentTracker.Proofs.Disk.Way

/-
A file has the old snapshot or the new one.

A save writes a file beside the one it replaces and moves it into place. Up
to the move all changes are made to the file beside, which is not where the
path leads (`Disk.exists_locate_of_extend`), so the path reads what it read
before (`read_of_beside`). The move is made or not, and it is begun only
when all bytes are written (`settled`). It makes no difference what there
was before under either path, or how far the save comes.

A backup that is opened afterwards first makes the directories of its path.
They are there if the path can be read, or if the file beside it could be
made, and so opening it changes nothing (`openOn_of_locate`).

# Main statement

- `atomic_saves`: the old content or the new one, and the new one if the
  save says that it came through.
-/

namespace TorrentTracker.Backup

open Disk (Course Ending Beside)

variable {path : Path} {data : Bytes} {disk disk' : Disk} {ending : Ending} {q : Disk.Place}
  {store : Store}

-- ============================================================ the file beside

/-- The path reads what it did, whatever happened to the file beside, whose
name is another one. -/
theorem read_of_beside (h : Beside (besidePath path) disk disk') :
    disk'.read path = disk.read path := by
  cases h with
  | same => rfl
  | @changed q _ hlocate hkeeps helse =>
      cases path using List.reverseRecOn with
      | nil => rfl
      | append_singleton front last =>
          rw [besidePath, Path.extend_append_singleton] at hlocate
          obtain ⟨r, hr, hne⟩ := Disk.exists_locate_of_extend (by decide) hlocate
          simp only [Disk.read, hr, hkeeps.locate hr, bind, Except.bind, helse r hne.symm]

/-- A save ends well, or ends otherwise with the file beside changed at
most, or has made all changes when it is stopped. -/
theorem beside_or_run_eq (h : Course disk (saveSteps path data) disk' ending) :
    (ending ≠ .done ∧ Beside (besidePath path) disk disk')
      ∨ disk.run (saveSteps path data) = (disk', .ok ()) := by
  let writes : List Disk.Step :=
    [.create (besidePath path), .append (besidePath path) data, .sync (besidePath path)]
  have hwrites : ∀ step ∈ writes, step.file? = some (besidePath path) := by
    simp [writes, Disk.Step.file?]
  have hsteps : saveSteps path data = writes ++ [.rename (besidePath path) path] := rfl
  rw [hsteps] at h ⊢
  rcases h.append_cases with ⟨hending, hcourse⟩ | ⟨written, hrun, hcourse⟩
  · exact .inl ⟨hending, hcourse.beside hwrites⟩
  · have hbeside : Beside (besidePath path) disk written := by
      have hcourse := Disk.course_run disk writes
      rw [hrun] at hcourse
      exact hcourse.beside hwrites
    rcases hcourse.of_rename with ⟨hending, rfl⟩ | hmoved
    · exact .inl ⟨hending, hbeside⟩
    · refine .inr (Disk.run_append_eq_ok_iff.mpr ⟨written, hrun, ?_⟩)
      exact Disk.run_cons_eq_ok_iff.mpr ⟨disk', hmoved, rfl⟩

-- ============================================================ opened anew

/-- What a load answers with a backup that was made anew on a file. -/
def reload (path : Path) (disk : Disk) (store : Store) : Except Error (Store × Nat) :=
  match (inFile path).openOn disk with
  | (.ok b, disk) => b.load disk store
  | (.error e, _) => .error e

/-- Where the way to a file is open no directories are made. -/
theorem openOn_of_locate {last : String} (h : disk.locate (path.dropLast ++ [last]) = .ok q) :
    (inFile path).openOn disk = (.ok ⟨.file path, true⟩, disk) := by
  have hrun := Disk.run_directorySteps_of_locate h path.prefix_parent
  simp [openOn, inFile, hrun, Except.mapError, Except.map]

/-- A load depends on what is read from its path and on nothing else of the
disk. -/
theorem load_congr (h : disk'.read path = disk.read path) (store : Store) :
    load ⟨.file path, true⟩ disk' store = load ⟨.file path, true⟩ disk store := by
  simp [load, h]

/-- So after a restart it is the content of that file that decides, and nothing
else in the tree. -/
theorem reload_of_read (h : disk.read path = .ok data) (hdata : data ≠ []) (store : Store) :
    reload path disk store = decode data := by
  obtain ⟨q, hq, -⟩ := Disk.read_eq_ok_iff.mp h
  cases path using List.reverseRecOn with
  | nil => cases hq
  | append_singleton front last =>
      have hopen : (inFile (front ++ [last])).openOn disk
          = (.ok ⟨.file (front ++ [last]), true⟩, disk) :=
        openOn_of_locate (by rwa [List.dropLast_concat])
      unfold reload
      rw [hopen]
      exact load_file_of_read h hdata store

/-- To a backup that is opened anew the file beside makes no difference,
whatever a save that broke off has left in it. -/
theorem reload_of_beside (h : Beside (besidePath path) disk disk') (store : Store) :
    reload path disk' store = reload path disk store := by
  have hread := read_of_beside h
  cases h with
  | same => rfl
  | changed hlocate hkeeps helse =>
      unfold reload
      rw [openOn_of_locate hlocate, openOn_of_locate (hkeeps.locate hlocate)]
      exact load_congr hread store

-- =============================================================== the save

/-- What a path leads to after a save of some bytes, and what they are read
as: what there was, or these bytes. -/
inductive Settled (path : Path) (before : Disk) (data : Bytes) (after : Disk) (ending : Ending) :
    Prop where
  | kept (hending : ending ≠ .done) (hread : after.read path = before.read path)
      (hreload : ∀ store, reload path after store = reload path before store) :
      Settled path before data after ending
  | replaced (hread : after.read path = .ok data)
      (hreload : ∀ store, reload path after store = decode data) :
      Settled path before data after ending

/-- Wherever a save is disturbed, the file has its old content or the new one,
and the new one only once the rename is done. -/
theorem settled (h : Course disk (saveSteps path data) disk' ending) (hdata : data ≠ []) :
    Settled path disk data disk' ending := by
  rcases beside_or_run_eq h with ⟨hending, hbeside⟩ | hrun
  · exact .kept hending (read_of_beside hbeside) (reload_of_beside hbeside)
  · have hread := read_of_saveSteps hrun
    exact .replaced hread (reload_of_read hread hdata)

/-- The save of the library, on a disk that nothing but the tree itself can
make fail, is a course. -/
theorem course_save (path : Path) (disk : Disk) (store : Store) :
    Course disk (saveSteps path store.encode) (save ⟨.file path, true⟩ disk store).2.2
      (.of (save ⟨.file path, true⟩ disk store).1) := by
  have hcourse := Disk.course_run disk (saveSteps path store.encode)
  rw [save_file]
  cases hrun : disk.run (saveSteps path store.encode) with
  | mk after outcome =>
      rw [hrun] at hcourse
      cases outcome with
      | error e => exact hcourse
      | ok done => exact hcourse

/-- A listing of a store whose lengths fit the heads of the format. -/
structure Restorable (s : Store) (listing : Snapshot) : Prop where
  lists : s.Lists listing
  consistent : s.Consistent
  roomy : s.Roomy
  swarms : s.activeSwarms < UInt32.size

/-- A listing that can be restored decodes to its store. -/
theorem Restorable.decode_eq {listing : Snapshot} (h : Restorable store listing) :
    decode listing.encode = .ok (store, store.totalPeers) := by
  have hread := Store.decode?_encode_append (h.lists.length_eq ▸ h.swarms)
    (h.lists.roomy h.roomy) []
  rw [List.append_nil, h.consistent.ofSnapshot_of_lists h.lists] at hread
  exact decode_eq_ok_iff.mpr hread

/-- Whatever a disk has where a path leads and beside it, and however far a
save of a store gets there, in whatever order it lists the store: the path
keeps what it had, or has all bytes of the snapshot, and it has them if the
save says that it was done. A backup that is opened afterwards loads what
it would have loaded before, or the store that was saved. -/
structure Atomic (path : Path) (before : Disk) (s : Store) : Prop where
  undisturbed : Course before (saveSteps path s.encode) (save ⟨.file path, true⟩ before s).2.2
    (.of (save ⟨.file path, true⟩ before s).1)
  settled : ∀ listing, s.Lists listing → ∀ after ending,
    Course before (saveSteps path listing.encode) after ending →
    Settled path before listing.encode after ending
  restored : ∀ listing previous earlier, Restorable s listing → Restorable previous earlier →
    before.read path = .ok earlier.encode → ∀ after ending,
    Course before (saveSteps path listing.encode) after ending → ∀ target,
    reload path after target = .ok (previous, previous.totalPeers)
      ∨ reload path after target = .ok (s, s.totalPeers)

/-- The law of saves, by where the course of changes ended. Up to the rename
the path reads what it did before, and after it there is nothing left to do. -/
theorem atomic_saves (path : Path) (before : Disk) (s : Store) : Atomic path before s where
  undisturbed := course_save path before s
  settled := fun listing _ _ _ h => settled h (encode_ne_nil listing)
  restored := by
    intro listing previous earlier hs hprevious hbefore after ending h target
    rcases settled h (encode_ne_nil listing) with ⟨-, hread, -⟩ | ⟨-, hreload⟩
    · rw [hbefore] at hread
      rw [reload_of_read hread (encode_ne_nil earlier), hprevious.decode_eq]
      exact .inl rfl
    · rw [hreload, hs.decode_eq]
      exact .inr rfl

/-- A save that runs out of room in the middle of the bytes, over the rest
of an earlier one: the snapshot before it is loaded. -/
theorem atomic_saves_torn :
    let path : Path := ["state", "peers.db"]
    let peer : Peer := ⟨.v4 (.replicate 4 10), 6881, true, 1000⟩
    let old := Store.empty.save (.replicate 20 1) (.replicate 20 2) peer
    let new := old.save (.replicate 20 3) (.replicate 20 4) peer
    let disk := (Disk.empty.run (.makeDirectory ["state"] :: (Disk.writeSteps path old.encode
      ++ Disk.writeSteps (besidePath path) [0x92, 0x92, 0xdc]))).1
    ∃ torn, Course disk (saveSteps path new.encode) torn .failed
      ∧ torn.read (besidePath path) = .ok (new.encode.take 40)
      ∧ Settled path disk new.encode torn .failed
      ∧ reload path torn Store.empty = .ok (old, 1) := by
  intro path peer old new disk
  let made := (disk.run [.create (besidePath path)]).1
  let torn := (made.run [.append (besidePath path) (new.encode.take 40)]).1
  have hmade : disk.perform (.create (besidePath path)) = .ok made := by decide
  have htorn : made.perform (.append (besidePath path) (new.encode.take 40)) = .ok torn := by decide
  have hcourse : Course disk (saveSteps path new.encode) torn .failed :=
    .next hmade (.broken (.partly 40 htorn) nofun)
  have hsettled := (atomic_saves path disk new).settled _ (Store.lists_snapshot new) _ _ hcourse
  have hread : torn.read path = .ok old.snapshot.encode := by decide
  have hold : Restorable old old.snapshot :=
    ⟨Store.lists_snapshot old, Store.consistent_empty.save _ _ _, by decide, by decide⟩
  have htotal : old.totalPeers = 1 := by decide
  refine ⟨torn, hcourse, by decide, hsettled, ?_⟩
  rw [reload_of_read hread (encode_ne_nil _), hold.decode_eq, htotal]

end TorrentTracker.Backup
