import TorrentTracker.Proofs.Connections.Restart
import TorrentTracker.Proofs.Tracker.Reached
import TorrentTracker.Proofs.Tracker.Restore

/-
A tracker that is stopped and started again: what it comes back with.

When a tracker stops it writes two files, first the snapshot of its store
and then the connection ids. Started again with the same settings it reads
them in the same order. Two things have to be known for that.

One is what a running tracker can be (`Lives.sound`): its store has no empty
swarm, so that nothing of it is missing from a snapshot, its connection ids
come of operations on a table that was empty, and it keeps the settings and
the backup it was started with.

The other is where the files are. Paths are followed through the tree as it
is, so no rule about their spelling says whether two of them lead to one
place: `a/../ids` and `ids` do if `a` is a directory. The settings are
checked without looking at the disk, and two paths to one place are not
refused. So the question is asked of the tree that the tracker leaves:

- if the paths lead to two places, neither file disturbs the other, and all
  comes back;
- if they lead to one place, the connection ids take that of the snapshot,
  and no list of connection ids reads as a store with a swarm in it. The ids
  come back and every peer is lost.

# Main statements

- `returned_of_restarted`: what comes back, in either case;
- `peers_lost_in_shared_file`: valid settings with which a peer is lost.
-/

namespace TorrentTracker

open Reader (Reads Refuses)
open MessagePack

-- ================================================= two kinds of snapshots

namespace MessagePack

variable {α : Type}

/-- An octet string does not begin as a variant does. -/
theorem refuses_readOctets (n : Nat) : Refuses (readOctets n) singletonHeader := by
  unfold readOctets
  rw [← bind_assoc]
  exact (refuses_readElements n _).bind _

/-- A pair that begins with octets does not begin as one that begins with a
variant. -/
theorem refuses_readPair (n : Nat) (second : Reader α) :
    Refuses (readPair (readOctets n) second) (arrayHeader 2 ++ singletonHeader) := by
  refine (reads_arrayHeader 2).refuses ?_
  rw [headed_of_lt (show 2 < UInt32.size by decide)]
  exact (refuses_readOctets n).bind _

end MessagePack

namespace Connections

/-- A written ticket starts with a header that no written swarm starts with,
and this keeps a file of tickets from being read as a store. -/
theorem exists_encodeEntry (entry : Endpoint × Ticket) :
    ∃ rest, encodeEntry entry = arrayHeader 2 ++ singletonHeader ++ rest := by
  unfold encodeEntry encodeEndpoint
  cases entry.1.ip with
  | v4 o => exact ⟨_, by simp only [v4Variant, List.append_assoc]; rfl⟩
  | v6 o => exact ⟨_, by simp only [v6Variant, List.append_assoc]; rfl⟩

/-- A list of connection ids reads as no store, or as an empty one if its
header announces nothing. -/
theorem decode?_encode_as_store (c : Connections) :
    Store.decode? c.encode = none ∨ Store.decode? c.encode = some (Store.empty, 0) := by
  unfold encode encodeEntries MessagePack.sequence Store.decode? Snapshot.decode?
  cases hn : headed c.tickets.toList.length with
  | zero =>
      right
      have hreads : Reads Snapshot.read (arrayHeader c.tickets.toList.length ++ []) [] := by
        refine (reads_arrayHeader _).bind ?_
        rw [hn]
        exact Reads.pure []
      rw [List.append_nil] at hreads
      rw [hreads.gives]
      rfl
  | succ n =>
      left
      cases hentries : c.tickets.toList with
      | nil =>
          rw [hentries] at hn
          cases hn
      | cons entry entries =>
          rw [hentries] at hn
          obtain ⟨rest, hrest⟩ := exists_encodeEntry entry
          -- a client is a map, and the hash of a swarm is not
          have hrefuses : Refuses Snapshot.read
              (arrayHeader (entry :: entries).length ++ (arrayHeader 2 ++ singletonHeader)) := by
            refine (reads_arrayHeader _).refuses ?_
            rw [hn]
            exact (refuses_readPair 20 _).bind _
          have hnone := hrefuses (rest ++ entries.flatMap encodeEntry)
          rw [List.flatMap_cons, hrest, Option.map_eq_none_iff, Option.map_eq_none_iff, ← hnone]
          simp only [List.append_assoc]

end Connections

namespace Tracker

variable {config : Config} {t fresh : Tracker} {disk disk' : Disk} {path file : Path}
  {now : Seconds}

-- ======================================================== what can be running

/-- The trackers that there can be in a process with some settings: as it
starts, and then after restoring from whatever is on the disk, after
requests, after tasks, and after saving. -/
inductive Lives (config : Config) : Tracker → Prop where
  | start {disk disk' : Disk} {now : Seconds} {t : Tracker} :
      Tracker.start config disk now = (.ok t, disk') → Lives config t
  | restore {t : Tracker} (disk : Disk) : Lives config t → Lives config (t.restore disk)
  | datagram {t : Tracker} (m : Moment) (source : SocketAddress) (data : Bytes) :
      Lives config t → Lives config (t.process m source data).1
  | request {t : Tracker} (m : Moment) (source : SocketAddress) (r : Http.Request) :
      Lives config t → Lives config (t.respond m source r).1
  | task {t : Tracker} (now : Seconds) (disk : Disk) (task : Task) :
      Lives config t → Lives config (t.perform now disk task).1
  | persist {t : Tracker} (disk : Disk) : Lives config t → Lives config (t.persist disk).1

/-- What one step leaves of a tracker. -/
structure Step (t u : Tracker) : Prop where
  config : u.config = t.config
  populated : t.store.Populated → u.store.Populated
  ids : ∃ ops : List Connections.Operation,
    u.connections = ops.foldl Connections.perform t.connections
  backup : ∀ path, t.backup = ⟨.file path, true⟩ → u.backup = t.backup

/-- What a request does to the store leaves no swarm without peers: a save
fills its swarm, a drop prunes it. -/
theorem populated_touched {m : Moment} {store : Store} (h : t.store.Populated)
    (htouched : t.Touched m store) : store.Populated := by
  rcases htouched with rfl | ⟨a, rfl⟩
  · exact h
  · rw [a.apply_eq_perform]
    exact Store.populated_perform h _

/-- A datagram is a step: the settings and the backup stay. -/
theorem step_process (t : Tracker) (m : Moment) (source : SocketAddress) (data : Bytes) :
    Step t (t.process m source data).1 where
  config := t.config_process m source data
  populated := fun h => populated_touched h (t.touched_process m source data)
  ids := by
    rw [process_eq]
    cases (answered_reply t m source data).effect with
    | none hsame _ _ _ => exact ⟨[], hsame⟩
    | connected hcreate _ _ => exact ⟨[.create source m.now m.draws.connection], hcreate⟩
    | announced _ hsame _ _ => exact ⟨[], hsame⟩
  backup := fun _ _ => (answered_reply t m source data).backup

theorem step_respond (t : Tracker) (m : Moment) (source : SocketAddress) (r : Http.Request) :
    Step t (t.respond m source r).1 where
  config := (responded_respond t m source r).config
  populated := fun h => populated_touched h (responded_respond t m source r).touched
  ids := ⟨[], (responded_respond t m source r).connections⟩
  backup := fun _ _ => (responded_respond t m source r).backup

/-- What a restart does to a fresh tracker is a step too, whatever there was to
be read. -/
theorem step_restore (t : Tracker) (disk : Disk) : Step t (t.restore disk) := by
  rw [restore_eq]
  constructor
  case config => rfl
  case populated =>
    intro h
    cases hload : t.backup.load disk t.store with
    | error e => exact storeFrom_of_error hload ▸ h
    | ok found => exact storeFrom_of_ok hload ▸ Backup.populated_load h hload
  case ids =>
    show ∃ ops : List Connections.Operation,
      t.connectionsFrom disk = ops.foldl Connections.perform t.connections
    unfold connectionsFrom
    cases t.config.connections.persistPath.bind fun path => (disk.read path).toOption with
    | none => exact ⟨[], rfl⟩
    | some data => exact ⟨[.restore data], rfl⟩
  case backup => exact fun _ _ => rfl

/-- A backup in a file is the same after a save. -/
theorem saveBackup_eq (h : t.backup = ⟨.file path, true⟩) (disk : Disk) :
    t.saveBackup disk
      = ((disk.run (Backup.saveSteps path t.store.encode)).2.mapError .disk, t,
        (disk.run (Backup.saveSteps path t.store.encode)).1) := by
  obtain ⟨config, store, connections, metrics, backup⟩ := t
  cases h
  rfl

/-- So is a save, which changes the backup but not where it is kept. -/
theorem step_saveBackup (t : Tracker) (disk : Disk) : Step t (t.saveBackup disk).2.1 where
  config := rfl
  populated := id
  ids := ⟨[], rfl⟩
  backup := by
    intro path h
    rw [saveBackup_eq h]

theorem step_perform (t : Tracker) (now : Seconds) (disk : Disk) (task : Task) :
    Step t (t.perform now disk task).1 := by
  cases task with
  | trimPeers => exact ⟨rfl, fun _ => t.store.populated_trim now _, ⟨[], rfl⟩, fun _ _ => rfl⟩
  | collectConnections => exact ⟨rfl, id, ⟨[.collect now], rfl⟩, fun _ _ => rfl⟩
  | saveBackup => exact t.step_saveBackup disk

/-- Persisting changes the tracker as the save of its backup does. Writing the
ids changes the disk alone. -/
theorem persist_fst (t : Tracker) (disk : Disk) :
    (t.persist disk).1 = (t.saveBackup disk).2.1 := by
  unfold persist
  dsimp only
  split
  · rfl
  · rfl

/-- What can be said of every running tracker. -/
structure Sound (config : Config) (t : Tracker) : Prop where
  settings : t.config = config
  populated : t.store.Populated
  ids : ∃ ops, t.connections = Connections.run config.connections.maxAge ops
  backup : ∀ path, config.backup.kind = .file → config.backup.path = some path →
    t.backup = ⟨.file path, true⟩

/-- What is known of a tracker that came of settings is kept by every step,
since no step changes the settings or closes the backup. -/
theorem Sound.step {u : Tracker} (h : Sound config t) (hstep : Step t u) : Sound config u where
  settings := hstep.config.trans h.settings
  populated := hstep.populated h.populated
  ids := by
    obtain ⟨earlier, hearlier⟩ := h.ids
    obtain ⟨ops, hops⟩ := hstep.ids
    refine ⟨earlier ++ ops, ?_⟩
    rw [hops, hearlier, Connections.run, Connections.run, List.foldl_append]
  backup := by
    intro path hkind hpath
    have hfile := h.backup path hkind hpath
    exact (hstep.backup path hfile).trans hfile

/-- A start with a file for the snapshots makes the directory of the file,
and nothing else. -/
theorem start_file (hkind : config.backup.kind = .file) (hpath : config.backup.path = some path)
    (h : Tracker.start config disk now = (.ok t, disk')) :
    t.backup = ⟨.file path, true⟩
      ∧ disk' = (disk.run (Disk.directorySteps path.parent)).1 := by
  obtain ⟨closed, backup, hclosed, hopen, rfl⟩ := exists_of_start h
  have hfile : Backup.ofConfig config.backup = .ok (Backup.inFile path) := by
    unfold Backup.ofConfig
    rw [hkind, hpath]
  cases hfile.symm.trans hclosed
  obtain ⟨houtcome, hdisk⟩ := Prod.mk.inj hopen
  refine ⟨?_, hdisk.symm⟩
  cases hrun : (disk.run (Disk.directorySteps path.parent)).2 with
  | error e =>
      rw [hrun] at houtcome
      cases houtcome
  | ok done =>
      rw [hrun] at houtcome
      exact (Except.ok.inj houtcome).symm

theorem sound_start (h : Tracker.start config disk now = (.ok t, disk')) : Sound config t where
  settings := (start_eq_ok h).1
  populated := (start_eq_ok h).2 ▸ Store.populated_empty
  ids := by
    obtain ⟨closed, backup, -, -, rfl⟩ := exists_of_start h
    exact ⟨[], rfl⟩
  backup := fun path hkind hpath => (start_file hkind hpath h).1

/-- What is known of a tracker that came of its settings holds throughout its
life. By induction on the steps of it. -/
theorem Lives.sound (h : Lives config t) : Sound config t := by
  induction h with
  | start hstart => exact sound_start hstart
  | restore disk _ ih => exact ih.step (step_restore _ disk)
  | datagram m source data _ ih => exact ih.step (step_process _ m source data)
  | request m source r _ ih => exact ih.step (step_respond _ m source r)
  | task now disk task _ ih => exact ih.step (step_perform _ now disk task)
  | persist disk _ ih =>
      rw [persist_fst]
      exact ih.step (step_saveBackup _ disk)

-- ================================================================ files

/-- A tracker with files for its snapshots has stopped, and one with the
same settings has been started, and the disk has failed neither. -/
structure Restarted (config : Config) (path file : Path) (t : Tracker) (disk : Disk)
    (fresh : Tracker) (disk' : Disk) : Prop where
  kind : config.backup.kind = .file
  backupPath : config.backup.path = some path
  persistPath : config.connections.persistPath = some file
  lives : Lives config t
  saved : (t.saveBackup disk).1 = .ok ()
  written : ((t.saveBackup disk).2.2.run (t.connectionsSteps file)).2 = .ok ()
  started : ∃ now, Tracker.start config (t.persist disk).2 now = (.ok fresh, disk')

/-- A tracker that has started and restored nothing yet, and the disk after
that, which has no more than a few directories more. -/
structure Blank (config : Config) (path : Path) (disk : Disk) (fresh : Tracker)
    (disk' : Disk) : Prop where
  settings : fresh.config = config
  store : fresh.store = Store.empty
  ids : fresh.connections = Connections.empty config.connections.maxAge
  backup : fresh.backup = ⟨.file path, true⟩
  furnishes : Disk.Furnishes disk disk'

variable (h : Restarted config path file t disk fresh disk')

include h

theorem Restarted.backup_eq : t.backup = ⟨.file path, true⟩ :=
  h.lives.sound.backup path h.kind h.backupPath

/-- What the first tracker leaves: the snapshot, and then the connection
ids over it. -/
theorem Restarted.exists_writes : ∃ saved made : Disk,
    saved.read path = .ok t.store.encode ∧ Disk.Furnishes saved made
      ∧ made.run (Disk.writeSteps file t.connections.encode) = ((t.persist disk).2, .ok ()) := by
  have hsave := h.saved
  have hwrite := h.written
  have hfile : t.config.connections.persistPath = some file := by
    rw [h.lives.sound.settings]
    exact h.persistPath
  rw [saveBackup_eq h.backup_eq] at hsave hwrite
  have hleft : (t.persist disk).2
      = ((disk.run (Backup.saveSteps path t.store.encode)).1.run (t.connectionsSteps file)).1 := by
    unfold persist
    rw [saveBackup_eq h.backup_eq]
    dsimp only
    rw [hfile]
  cases hrun : disk.run (Backup.saveSteps path t.store.encode) with
  | mk saved outcome =>
      rw [hrun] at hsave hwrite hleft
      cases outcome with
      | error e => cases hsave
      | ok done =>
          have hboth : saved.run (t.connectionsSteps file) = ((t.persist disk).2, .ok ()) :=
            Prod.ext hleft.symm hwrite
          obtain ⟨made, hmade, hwritten⟩ := Disk.run_append_eq_ok_iff.mp hboth
          have hfurnishes := Disk.furnishes_directorySteps saved file.parent
          rw [hmade] at hfurnishes
          exact ⟨saved, made, Backup.read_of_saveSteps hrun, hfurnishes, hwritten⟩

/-- The second tracker is empty and finds the files where the first left
them. -/
theorem Restarted.blank : Blank config path (t.persist disk).2 fresh disk' := by
  obtain ⟨now, hstart⟩ := h.started
  obtain ⟨hbackup, hdisk⟩ := start_file h.kind h.backupPath hstart
  obtain ⟨closed, backup, -, -, rfl⟩ := exists_of_start hstart
  exact ⟨rfl, rfl, rfl, hbackup, hdisk ▸ Disk.furnishes_directorySteps _ _⟩

/-- The tickets are in the file for them: they are written last. -/
theorem Restarted.read_file : disk'.read file = .ok t.connections.encode := by
  obtain ⟨saved, made, -, -, hwritten⟩ := h.exists_writes
  exact h.blank.furnishes.read (Disk.read_of_writeSteps hwritten)

/-- Where the paths lead to two places the snapshot is what was saved, for the
ids are written elsewhere. -/
theorem Restarted.read_path_of_ne
    (hne : (t.persist disk).2.locate path ≠ (t.persist disk).2.locate file) :
    disk'.read path = .ok t.store.encode := by
  obtain ⟨saved, made, hsaved, hmade, hwritten⟩ := h.exists_writes
  exact h.blank.furnishes.read
    (Disk.read_of_writeSteps_of_ne hwritten (hmade.read hsaved) hne)

/-- Where they lead to one place it is the connection ids, which are written
after the snapshot. -/
theorem Restarted.read_path_of_eq
    (heq : (t.persist disk).2.locate path = (t.persist disk).2.locate file) :
    disk'.read path = .ok t.connections.encode := by
  obtain ⟨saved, made, -, -, hwritten⟩ := h.exists_writes
  refine h.blank.furnishes.read ?_
  rw [Disk.read_congr heq]
  exact Disk.read_of_writeSteps hwritten

theorem Restarted.held_path {data : Bytes} (hread : disk'.read path = .ok data) :
    fresh.backup.held? disk' = some data := by
  rw [h.blank.backup]
  exact Backup.held?_file_eq_some_iff.mpr hread

theorem Restarted.storeFrom_of_ne
    (hne : (t.persist disk).2.locate path ≠ (t.persist disk).2.locate file)
    (hroom : t.store.Roomy) (hswarms : t.store.activeSwarms < UInt32.size) :
    (fresh.storeFrom disk').SamePeers t.store ∧ (fresh.storeFrom disk').Consistent := by
  obtain ⟨back, hdecode, hsame, hconsistent⟩ :=
    h.lives.sound.populated.decode?_encode hroom hswarms
  have hopened : fresh.backup.opened = true := by
    rw [h.blank.backup]
  have hload : fresh.backup.load disk' fresh.store = .ok (back, t.store.totalPeers) := by
    rw [Backup.load_of_held hopened (h.held_path (h.read_path_of_ne hne)) (Backup.encode_ne_nil _)]
    exact Backup.decode_eq_ok_iff.mpr hdecode
  rw [storeFrom_of_ok hload]
  exact ⟨hsame, hconsistent⟩

/-- With one file for both the peers are gone: the tickets are written last and
over them, and tickets are not read as a store. -/
theorem Restarted.storeFrom_of_eq
    (heq : (t.persist disk).2.locate path = (t.persist disk).2.locate file) :
    fresh.storeFrom disk' = Store.empty := by
  have hempty := h.blank.store
  have hheld := h.held_path (h.read_path_of_eq heq)
  rcases Connections.decode?_encode_as_store t.connections with hnone | hsome
  · rw [storeFrom_of_rejected hheld hnone, hempty]
  · cases hload : fresh.backup.load disk' fresh.store with
    | error e => rw [storeFrom_of_error hload, hempty]
    | ok found =>
        rw [storeFrom_of_ok hload]
        rcases Backup.load_eq_ok hload with hkept | ⟨data, hdata, hfound⟩
        · rw [hkept, hempty]
        · cases hheld.symm.trans hdata
          cases hsome.symm.trans hfound
          rfl

/-- The tickets are all there again, with two files or with one, since they are
written last. -/
theorem Restarted.connectionsFrom_eq (hsize : t.connections.size < UInt32.size) :
    fresh.connectionsFrom disk' = t.connections := by
  obtain ⟨ops, hops⟩ := h.lives.sound.ids
  have hpath : fresh.config.connections.persistPath = some file := by
    rw [h.blank.settings]
    exact h.persistPath
  rw [hops] at hsize
  rw [connectionsFrom_of_read hpath h.read_file, h.blank.ids, hops,
    Connections.restore?_empty hsize]
  rfl

omit h

/-- What a tracker comes back with that finds what another one left: the
connection ids, and the store if the two paths lead to two places. -/
structure Returned (path file : Path) (t : Tracker) (left : Disk) (back : Tracker) : Prop where
  apart : left.locate path ≠ left.locate file → t.store.Roomy →
    t.store.activeSwarms < UInt32.size →
    back.store.SamePeers t.store ∧ (t.store.Consistent → back.store = t.store)
  shared : left.locate path = left.locate file → back.store = Store.empty
  ids : t.connections.size < UInt32.size → back.connections = t.connections

/-- Whatever a tracker was told before it stopped, it comes back with its
connection ids, and with its peers unless the ids were written over
them. -/
theorem returned_of_restarted (h : Restarted config path file t disk fresh disk') :
    Returned path file t (t.persist disk).2 (fresh.restore disk') := by
  rw [restore_eq]
  constructor
  case apart =>
    intro hne hroom hswarms
    obtain ⟨hsame, hconsistent⟩ := h.storeFrom_of_ne hne hroom hswarms
    exact ⟨hsame, fun hcounts => hsame.eq hconsistent hcounts⟩
  case shared => exact h.storeFrom_of_eq
  case ids => exact h.connectionsFrom_eq

/-- A tracker that has given out a connection id and stored a peer under it
stops, and comes back with both, from two files. -/
theorem returned_from_two_files :
    let path : Path := ["state.bin"]
    let file : Path := ["ids", "..", "ids.bin"]
    let config : Config := { backup := { kind := .file, path := some path },
                             connections := { persistPath := some file } }
    let source := SocketAddress.v4 (.replicate 4 10) 5000
    let request : Wire.AnnounceRequest :=
      ⟨99, 8, .replicate 20 1, .replicate 20 2, 0, 0, 0, .completed, 0, 0, -1, 6881⟩
    let fresh : Tracker := ⟨config, Store.empty, Connections.empty 120, { startTime := 0 },
      ⟨.file path, true⟩⟩
    let greeted := (fresh.process ⟨1000, { connection := 99 }⟩ source
      (Wire.ConnectRequest.encode ⟨7⟩)).1
    let t := (greeted.process ⟨1060, {}⟩ source request.encode).1
    let left := (t.persist Disk.empty).2
    Restarted config path file t Disk.empty fresh left
      ∧ Returned path file t left (fresh.restore left)
      ∧ (fresh.restore left).store.SamePeers t.store
      ∧ (fresh.restore left).store.totalPeers = 1
      ∧ (fresh.restore left).connections.valid source 99 = true := by
  intro path file config source request fresh greeted t left
  have hstart : ∀ disk, Tracker.start config disk 0 = (.ok fresh, disk) := fun _ => rfl
  have hlives : Lives config t := .datagram _ _ _ (.datagram _ _ _ (.start (hstart Disk.empty)))
  have hrestarted : Restarted config path file t Disk.empty fresh left :=
    ⟨rfl, rfl, rfl, hlives, by decide +kernel, by decide +kernel, 0, hstart left⟩
  have hreturned := returned_of_restarted hrestarted
  have hsame := (hreturned.apart (by decide +kernel) (by decide +kernel) (by decide +kernel)).1
  exact ⟨hrestarted, hreturned, hsame, by decide +kernel, by decide +kernel⟩

/-- The same tracker with one file for both: the settings are valid and
nothing fails, and the peer is lost. -/
theorem peers_lost_in_shared_file :
    let path : Path := ["state.bin"]
    let config : Config := { backup := { kind := .file, path := some path },
                             connections := { persistPath := some path } }
    let source := SocketAddress.v4 (.replicate 4 10) 5000
    let request : Wire.AnnounceRequest :=
      ⟨99, 8, .replicate 20 1, .replicate 20 2, 0, 0, 0, .completed, 0, 0, -1, 6881⟩
    let fresh : Tracker := ⟨config, Store.empty, Connections.empty 120, { startTime := 0 },
      ⟨.file path, true⟩⟩
    let greeted := (fresh.process ⟨1000, { connection := 99 }⟩ source
      (Wire.ConnectRequest.encode ⟨7⟩)).1
    let t := (greeted.process ⟨1060, {}⟩ source request.encode).1
    let left := (t.persist Disk.empty).2
    config.validate = .ok () ∧ Restarted config path path t Disk.empty fresh left
      ∧ t.store.totalPeers = 1 ∧ (fresh.restore left).store.totalPeers = 0
      ∧ ¬ (fresh.restore left).store.SamePeers t.store := by
  intro path config source request fresh greeted t left
  have hstart : ∀ disk, Tracker.start config disk 0 = (.ok fresh, disk) := fun _ => rfl
  have hlives : Lives config t := .datagram _ _ _ (.datagram _ _ _ (.start (hstart Disk.empty)))
  have hrestarted : Restarted config path path t Disk.empty fresh left :=
    ⟨rfl, rfl, rfl, hlives, by decide +kernel, by decide +kernel, 0, hstart left⟩
  refine ⟨by decide +kernel, hrestarted, by decide +kernel, by decide +kernel, fun hsame => ?_⟩
  exact absurd (congrArg Option.isSome (hsame (.replicate 20 1))) (by decide +kernel)

end Tracker

end TorrentTracker
