import TorrentTracker.Proofs.Disk
import TorrentTracker.Proofs.Store.RoundTrip

/-
A file and a piece of memory do the same service as a backup.

A store that is bound to a backup is changed, saved and loaded in any
order. Two such stores run side by side here, one over a file and one over
memory, and what is compared is all that can be told of them from outside:
what each step answers, and the store after it.

# The simulation

`Matched` is what ties the two together between any two steps. Either
nothing was saved yet, and then there is no file where the path leads and
nothing in memory, or something was, and then the file has the bytes that
are in memory, and they are not empty, since a snapshot has a head even
when there is nothing in it. A load leaves either alone; a save that comes
through makes the second of either (`read_of_saveSteps`). So one step keeps
the tie and answers the same on both sides (`Matched.step`), and a run does
by induction on what is done (`Matched.trace_eq`).

# Main statement

- `interchangeable_backups`: the two runs cannot be told apart, and a load
  brings back the store of the latest save.
-/

namespace TorrentTracker.Backup

variable {path : Path} {data : Bytes} {disk disk' : Disk} {store : Store}

-- ================================================================ files

/-- A snapshot that was saved is what the path leads to. -/
theorem read_of_saveSteps (h : disk.run (saveSteps path data) = (disk', .ok ())) :
    disk'.read path = .ok data := by
  obtain ⟨written, hwrite, h⟩ := Disk.run_append_eq_ok_iff.mp h
  obtain ⟨synced, hsync, h⟩ := Disk.run_cons_eq_ok_iff.mp h
  obtain ⟨moved, hrename, h⟩ := Disk.run_cons_eq_ok_iff.mp h
  obtain ⟨rfl, -⟩ := Prod.mk.inj h
  have hread := Disk.read_of_writeSteps hwrite
  cases Disk.change_of_perform hsync with
  | synced =>
      have hrenamed := Disk.change_of_perform hrename
      have hkeeps := hrenamed.keeps
      cases hrenamed with
      | @renamed _ _ q r content hsource hfile htarget hnode =>
          -- the file that moves is the one that was written
          have hcontent := Disk.read_eq_ok_iff.mpr ⟨q, hsource, hfile⟩
          rw [hread] at hcontent
          cases hcontent
          refine Disk.read_eq_ok_iff.mpr ⟨r, hkeeps.locate htarget, ?_⟩
          rw [Disk.node?_put _ (Disk.ne_nil_of_node? hnode), if_pos rfl]

theorem arrayHeader_ne_nil (n : Nat) : MessagePack.arrayHeader n ≠ [] := by
  unfold MessagePack.arrayHeader
  split
  · exact List.cons_ne_nil _ _
  · split
    · exact List.cons_ne_nil _ _
    · exact List.cons_ne_nil _ _

/-- A snapshot has a head, whatever is in it. -/
theorem encode_ne_nil (listing : Snapshot) : listing.encode ≠ [] :=
  List.append_ne_nil_of_left_ne_nil (arrayHeader_ne_nil _) _

theorem save_file (disk : Disk) (store : Store) :
    save ⟨.file path, true⟩ disk store
      = ((disk.run (saveSteps path store.encode)).2.mapError .disk, ⟨.file path, true⟩,
        (disk.run (saveSteps path store.encode)).1) := rfl

/-- A load from a file with something in it decodes what is in it. -/
theorem load_file_of_read (h : disk.read path = .ok data) (hdata : data ≠ []) (store : Store) :
    load ⟨.file path, true⟩ disk store = decode data := by
  cases data with
  | nil => exact absurd rfl hdata
  | cons byte rest => simp [load, h]

theorem load_file_of_absent (h : disk.read path = .error .notFound) (store : Store) :
    load ⟨.file path, true⟩ disk store = .ok (store, 0) := by
  simp [load, h]

/-- A store that fits the format comes back from its own bytes, with the same
peers and with books that are recounts. -/
theorem decode_encode {s : Store} (hs : s.Populated) (hroom : s.Roomy)
    (hswarms : s.activeSwarms < UInt32.size) :
    ∃ t, decode s.encode = .ok (t, s.totalPeers) ∧ t.SamePeers s ∧ t.Consistent := by
  obtain ⟨t, hread, ht⟩ := hs.decode?_encode hroom hswarms
  refine ⟨t, ?_, ht⟩
  unfold decode
  rw [hread]

/-- The bytes that a backup has for a load. -/
def held? (b : Backup) (disk : Disk) : Option Bytes :=
  match b.medium with
  | .file path => (disk.read path).toOption
  | .memory snapshot => snapshot

/-- What a backup in a file holds is what is read from it, whether it is open
or not. -/
theorem held?_file_eq_some_iff {opened : Bool} :
    held? ⟨.file path, opened⟩ disk = some data ↔ disk.read path = .ok data := by
  show (disk.read path).toOption = some data ↔ _
  cases disk.read path with
  | error e => exact iff_of_false nofun nofun
  | ok found => exact ⟨fun h => congrArg _ (Option.some.inj h), fun h => by cases h; rfl⟩

/-- What was saved is what there is for a load, in the file by its name or in
memory. A backup that is not open saves nothing. -/
theorem held?_of_save {b b' : Backup} (h : b.save disk store = (.ok (), b', disk')) :
    b'.opened = true ∧ b'.held? disk' = some store.encode := by
  obtain ⟨medium, opened⟩ := b
  cases opened with
  | false => cases h
  | true =>
      cases medium with
      | file path =>
          rw [save_file] at h
          cases hrun : disk.run (saveSteps path store.encode) with
          | mk written outcome =>
              rw [hrun] at h
              cases outcome with
              | error cause => cases h
              | ok done =>
                  cases h
                  exact ⟨rfl, held?_file_eq_some_iff.mpr (read_of_saveSteps hrun)⟩
      | memory snapshot =>
          cases h
          exact ⟨rfl, rfl⟩

/-- The one way to decode is to be accepted by the store. -/
theorem decode_eq_ok_iff {found : Store × Nat} :
    decode data = .ok found ↔ Store.decode? data = some found := by
  unfold decode
  cases Store.decode? data with
  | none => exact iff_of_false nofun nofun
  | some pair => exact ⟨fun h => congrArg some (Except.ok.inj h), fun h => by rw [h]⟩

/-- A load that comes through leaves the store, or answers with what all
the bytes of the backup say. -/
theorem load_eq_ok {b : Backup} {found : Store × Nat} (h : b.load disk store = .ok found) :
    found = (store, 0) ∨ ∃ data, b.held? disk = some data ∧ Store.decode? data = some found := by
  unfold load at h
  unfold held?
  split at h
  · cases hmedium : b.medium with
    | file path =>
        rw [hmedium] at h
        dsimp only at h ⊢
        cases hread : disk.read path with
        | error e =>
            rw [hread] at h
            cases e with
            | notFound => exact .inl (Except.ok.inj h).symm
            | wrongKind => cases h
            | badPath => cases h
        | ok data =>
            rw [hread] at h
            cases data with
            | nil => exact .inl (Except.ok.inj h).symm
            | cons byte rest => exact .inr ⟨_, rfl, decode_eq_ok_iff.mp h⟩
    | memory snapshot =>
        rw [hmedium] at h
        cases snapshot with
        | none => exact .inl (Except.ok.inj h).symm
        | some data => exact .inr ⟨data, rfl, decode_eq_ok_iff.mp h⟩
  · cases h

/-- A load decodes what is held, wherever it is held. What the store has at the
time plays no part in it. -/
theorem load_of_held {b : Backup} (hopened : b.opened = true) (h : b.held? disk = some data)
    (hdata : data ≠ []) (store : Store) : b.load disk store = decode data := by
  obtain ⟨medium, opened⟩ := b
  cases hopened
  cases medium with
  | file path =>
      exact load_file_of_read (held?_file_eq_some_iff.mp h) hdata store
  | memory snapshot =>
      cases h
      rfl

/-- Whatever a load answers with, it is the store there was or one without
empty swarms. -/
theorem populated_load {b : Backup} {found : Store × Nat} (hstore : store.Populated)
    (h : b.load disk store = .ok found) : found.1.Populated := by
  rcases load_eq_ok h with rfl | ⟨data, -, hdata⟩
  · exact hstore
  · obtain ⟨snapshot, -, rfl⟩ := Option.map_eq_some_iff.mp hdata
    exact fun _ _ => Store.inhabited_ofSnapshot

-- ============================================================== actions

/-- What is done with a store and its backup. -/
inductive Action where
  | change (op : Store.Operation)
  | save
  | load

/-- What is answered. -/
inductive Answer where
  | kept
  | dropped (found : Bool)
  | trimmed (removed : Nat)
  | saved (outcome : Except Error Unit)
  | loaded (outcome : Except Error Nat)

/-- What an operation on a store answers. -/
def told (s : Store) : Store.Operation → Answer
  | .save _ _ _ => .kept
  | .drop hash id => .dropped (s.drop hash id).2
  | .trim now ttl => .trimmed (s.trim now ttl).2

/-- A store that is bound to a backup, and the disk they are on. -/
structure Bound where
  backup : Backup
  disk : Disk
  store : Store

namespace Bound

/-- Do something, and say what is answered. -/
def step (b : Bound) : Action → Answer × Bound
  | .change op => (told b.store op, { b with store := b.store.perform op })
  | .save =>
    let (outcome, backup, disk) := b.backup.save b.disk b.store
    (.saved outcome, { b with backup, disk })
  | .load => match b.backup.load b.disk b.store with
    | .ok (store, loaded) => (.loaded (.ok loaded), { b with store })
    | .error e => (.loaded (.error e), b)

/-- The answers on the way, each with the store it leaves. -/
def trace (b : Bound) : List Action → List (Answer × Store)
  | [] => []
  | action :: rest =>
    ((b.step action).1, (b.step action).2.store) :: (b.step action).2.trace rest

/-- What it comes to. -/
def run (b : Bound) (actions : List Action) : Bound :=
  actions.foldl (fun b action => (b.step action).2) b

end Bound

/-- Whether the disk failed a save. -/
def Answer.failed : Answer → Bool
  | .saved (.error (.disk _)) => true
  | _ => false

namespace Bound

variable {b : Bound} {actions rest earlier between : List Action} {action : Action}

/-- What is seen of two runs is what is seen of the first and then of the
second. -/
theorem trace_append (b : Bound) (actions rest : List Action) :
    b.trace (actions ++ rest) = b.trace actions ++ (b.run actions).trace rest := by
  induction actions generalizing b with
  | nil => rfl
  | cons action actions ih =>
      rw [List.cons_append, trace, trace, ih, List.cons_append]
      rfl

theorem run_append (b : Bound) (actions rest : List Action) :
    b.run (actions ++ rest) = (b.run actions).run rest :=
  List.foldl_append

/-- No action leaves a swarm without peers: changes do not, and a load brings
none. -/
theorem populated_step (h : b.store.Populated) (action : Action) :
    (b.step action).2.store.Populated := by
  cases action with
  | change op => exact Store.populated_perform h op
  | save => exact h
  | load =>
      unfold step
      cases hload : b.backup.load b.disk b.store with
      | error e => exact h
      | ok found => exact populated_load h hload

theorem populated_run (h : b.store.Populated) (actions : List Action) :
    (b.run actions).store.Populated := by
  induction actions generalizing b with
  | nil => exact h
  | cons action actions ih => exact ih (populated_step h action)

/-- A load that comes after a save, with no other save in between, answers
how many peers were saved, and brings back the swarms and peers there were
then. If the counts were in order it brings back the store itself. -/
def Restores (b : Bound) (actions : List Action) : Prop :=
  ∀ earlier between later,
    actions = earlier ++ .save :: (between ++ .load :: later) → .save ∉ between →
    ∀ saved, (b.run earlier).store = saved →
    saved.Roomy → saved.activeSwarms < UInt32.size →
    ∃ loaded, (b.run (earlier ++ .save :: between)).step .load
        = (.loaded (.ok saved.totalPeers), loaded)
      ∧ loaded.store.SamePeers saved ∧ (saved.Consistent → loaded.store = saved)

/-- Only a save changes what a backup has. -/
theorem backup_step (b : Bound) (haction : action ≠ .save) :
    (b.step action).2.backup = b.backup := by
  cases action with
  | change op => rfl
  | save => exact absurd rfl haction
  | load =>
      unfold step
      cases b.backup.load b.disk b.store with
      | error e => rfl
      | ok pair => rfl

theorem backup_run (b : Bound) (hactions : .save ∉ actions) :
    (b.run actions).backup = b.backup := by
  induction actions generalizing b with
  | nil => rfl
  | cons action actions ih =>
      rw [List.mem_cons, not_or] at hactions
      exact (ih _ hactions.2).trans (b.backup_step (Ne.symm hactions.1))

/-- A load that succeeds replaces the store and nothing else. -/
theorem step_load_of_ok {found : Store} {loaded : Nat}
    (h : b.backup.load b.disk b.store = .ok (found, loaded)) :
    b.step .load = (.loaded (.ok loaded), { b with store := found }) := by
  unfold step
  rw [h]

-- ============================================================== memory

/-- A backup in memory saves whatever comes and has it from then on; there is
no disk that could fail it. -/
theorem step_save_memory {snapshot : Option Bytes}
    (h : b.backup = ⟨.memory snapshot, true⟩) :
    b.step .save
      = (.saved (.ok ()), { b with backup := ⟨.memory (some b.store.encode), true⟩ }) := by
  unfold step
  rw [h]
  rfl

/-- A backup in memory stays one, with a snapshot or with none: no action
changes where a backup is kept. -/
theorem exists_memory (h : ∃ snapshot, b.backup = ⟨.memory snapshot, true⟩)
    (actions : List Action) : ∃ snapshot, (b.run actions).backup = ⟨.memory snapshot, true⟩ := by
  induction actions generalizing b with
  | nil => exact h
  | cons action actions ih =>
      refine ih (b := (b.step action).2) ?_
      obtain ⟨snapshot, hsnapshot⟩ := h
      by_cases haction : action = .save
      · rw [haction, step_save_memory hsnapshot]
        exact ⟨_, rfl⟩
      · exact ⟨snapshot, (b.backup_step haction).trans hsnapshot⟩

/-- In memory a load brings back the latest save, since nothing can fail on the
way. -/
theorem restores_memory (h : ∃ snapshot, b.backup = ⟨.memory snapshot, true⟩)
    (hstore : b.store.Populated) (actions : List Action) : b.Restores actions := by
  intro earlier between later _ hbetween saved hsaved hroom hswarms
  have hpopulated : saved.Populated := hsaved ▸ populated_run hstore earlier
  obtain ⟨again, hdecode, hsame, hconsistent⟩ := decode_encode hpopulated hroom hswarms
  obtain ⟨snapshot, hsnapshot⟩ := exists_memory h earlier
  have hhas : (b.run (earlier ++ .save :: between)).backup
      = ⟨.memory (some saved.encode), true⟩ := by
    rw [run_append]
    show (run ((b.run earlier).step .save).2 between).backup = _
    rw [backup_run _ hbetween, step_save_memory hsnapshot, hsaved]
  have hload : (b.run (earlier ++ .save :: between)).backup.load
      (b.run (earlier ++ .save :: between)).disk (b.run (earlier ++ .save :: between)).store
        = .ok (again, saved.totalPeers) := by
    rw [hhas]
    exact hdecode
  exact ⟨_, step_load_of_ok hload, hsame, fun hcounts => hsame.eq hconsistent hcounts⟩

end Bound

-- =========================================================== simulation

/-- Two stores between any two steps, one bound to a file and one to
memory: nothing was saved yet, or the file has what is in memory. -/
inductive Matched (path : Path) : Bound → Bound → Prop where
  | blank {disk disk' : Disk} {store : Store} (habsent : disk.read path = .error .notFound) :
      Matched path ⟨⟨.file path, true⟩, disk, store⟩ ⟨⟨.memory none, true⟩, disk', store⟩
  | saved {disk disk' : Disk} {store : Store} {data : Bytes} (hread : disk.read path = .ok data)
      (hdata : data ≠ []) :
      Matched path ⟨⟨.file path, true⟩, disk, store⟩ ⟨⟨.memory (some data), true⟩, disk', store⟩

variable {file memory : Bound} {actions : List Action} {action : Action}

theorem Matched.store_eq (h : Matched path file memory) : file.store = memory.store := by
  cases h with
  | blank => rfl
  | saved => rfl

/-- The one in memory is open, with whatever was saved last. -/
theorem Matched.exists_memory (h : Matched path file memory) :
    ∃ snapshot, memory.backup = ⟨.memory snapshot, true⟩ := by
  cases h with
  | blank => exact ⟨_, rfl⟩
  | saved => exact ⟨_, rfl⟩

/-- A save that the disk does not fail is found where the path leads, whole and
in place of what was there. -/
theorem step_save_file
    (h : ((Bound.mk ⟨.file path, true⟩ disk store).step .save).1.failed = false) :
    ∃ disk', disk'.read path = .ok store.encode
      ∧ (Bound.mk ⟨.file path, true⟩ disk store).step .save
        = (.saved (.ok ()), ⟨⟨.file path, true⟩, disk', store⟩) := by
  unfold Bound.step at h ⊢
  rw [save_file] at h ⊢
  cases hrun : disk.run (saveSteps path store.encode) with
  | mk disk' outcome =>
      rw [hrun] at h
      cases outcome with
      | error cause => cases h
      | ok done => exact ⟨disk', read_of_saveSteps hrun, rfl⟩

/-- One action, by the two at once. A save that succeeds on the disk puts there
what memory keeps, and a load reads it back. -/
theorem Matched.step (h : Matched path file memory) (hio : (file.step action).1.failed = false) :
    (file.step action).1 = (memory.step action).1
      ∧ Matched path (file.step action).2 (memory.step action).2 := by
  cases action with
  | change op =>
      cases h with
      | blank habsent => exact ⟨rfl, .blank habsent⟩
      | saved hread hdata => exact ⟨rfl, .saved hread hdata⟩
  | save =>
      obtain ⟨snapshot, hmemory⟩ := h.exists_memory
      rw [Bound.step_save_memory hmemory]
      cases h with
      | blank =>
          obtain ⟨disk', hread, hstep⟩ := step_save_file hio
          rw [hstep]
          exact ⟨rfl, .saved hread (encode_ne_nil _)⟩
      | saved =>
          obtain ⟨disk', hread, hstep⟩ := step_save_file hio
          rw [hstep]
          exact ⟨rfl, .saved hread (encode_ne_nil _)⟩
  | load =>
      unfold Bound.step
      cases h with
      | @blank disk disk' store habsent =>
          rw [load_file_of_absent habsent]
          exact ⟨rfl, .blank habsent⟩
      | @saved disk disk' store data hread hdata =>
          rw [load_file_of_read hread hdata]
          -- both read the same bytes, so both take them or neither does
          have hload : load ⟨.memory (some data), true⟩ disk' store = decode data := rfl
          rw [hload]
          cases decode data with
          | error e => exact ⟨rfl, .saved hread hdata⟩
          | ok pair => exact ⟨rfl, .saved hread hdata⟩

/-- Whatever is done, the answers and the stores are the same. By induction on
the actions, with both snapshots equal between any two of them. -/
theorem Matched.trace_eq (h : Matched path file memory)
    (hio : ∀ x ∈ file.trace actions, x.1.failed = false) :
    file.trace actions = memory.trace actions
      ∧ Matched path (file.run actions) (memory.run actions) := by
  induction actions generalizing file memory with
  | nil => exact ⟨rfl, h⟩
  | cons action actions ih =>
      obtain ⟨hfirst, hrest⟩ := List.forall_mem_cons.mp hio
      obtain ⟨hanswer, hmatched⟩ := h.step hfirst
      obtain ⟨htrace, hrun⟩ := ih hmatched hrest
      refine ⟨?_, hrun⟩
      rw [Bound.trace, Bound.trace, hanswer, hmatched.store_eq, htrace]

/-- The runs of a file go through what those of memory do. -/
theorem Matched.restores (h : Matched path file memory)
    (hio : ∀ x ∈ file.trace actions, x.1.failed = false) (hstore : file.store.Populated) :
    file.Restores actions := by
  intro earlier between later hactions hbetween saved hsaved hroom hswarms
  have hmemory := Bound.restores_memory h.exists_memory (h.store_eq ▸ hstore) actions
  subst hactions
  -- the run up to the load, and the load itself, are first parts of the run
  have hwhole : earlier ++ .save :: (between ++ .load :: later)
      = (earlier ++ .save :: between) ++ .load :: later := by
    rw [List.append_assoc, List.cons_append]
  have hearlier : ∀ x ∈ file.trace earlier, x.1.failed = false := by
    rw [Bound.trace_append] at hio
    exact fun x hx => hio x (List.mem_append_left _ hx)
  rw [hwhole, Bound.trace_append, List.forall_mem_append] at hio
  obtain ⟨hbefore, hload⟩ := hio
  have hmatched := (h.trace_eq hbefore).2
  obtain ⟨hanswer, hafter⟩ := hmatched.step (List.forall_mem_cons.mp hload).1
  obtain ⟨loaded, hstep, hsame, hconsistent⟩ := hmemory earlier between later rfl hbetween saved
    ((h.trace_eq hearlier).2.store_eq.symm.trans hsaved) hroom hswarms
  rw [hstep] at hanswer hafter
  refine ⟨((file.run (earlier ++ .save :: between)).step .load).2, Prod.ext hanswer rfl, ?_, ?_⟩
  · rw [hafter.store_eq]
    exact hsame
  · rw [hafter.store_eq]
    exact hconsistent

/-- The two runs answer alike and go through the same stores, and in either
a load brings back the latest save. -/
structure Interchangeable (file memory : Bound) (actions : List Action) : Prop where
  trace_eq : file.trace actions = memory.trace actions
  restores : file.store.Populated → file.Restores actions ∧ memory.Restores actions

/-- A file that is not there and a memory that is empty serve alike,
whatever is done with them, as long as the disk fails no save. -/
theorem interchangeable_backups (habsent : disk.read path = .error .notFound)
    (disk' : Disk) (actions : List Action)
    (hio : ∀ x ∈ (Bound.mk ⟨.file path, true⟩ disk store).trace actions, x.1.failed = false) :
    Interchangeable ⟨⟨.file path, true⟩, disk, store⟩ ⟨⟨.memory none, true⟩, disk', store⟩
      actions := by
  have hmatched : Matched path ⟨⟨.file path, true⟩, disk, store⟩
      ⟨⟨.memory none, true⟩, disk', store⟩ := .blank habsent
  constructor
  case trace_eq => exact (hmatched.trace_eq hio).1
  case restores =>
    intro hstore
    refine ⟨hmatched.restores hio hstore, ?_⟩
    exact Bound.restores_memory hmatched.exists_memory hstore actions

/-- Loads before the first save and of an empty snapshot, and one that undoes
what came after the latest save. -/
theorem interchangeable_undone :
    let path : Path := ["state.bin"]
    let id : PeerId := .replicate 20 2
    let actions : List Action :=
      [.load, .save, .load,
        .change (.save (.replicate 20 1) id ⟨.v4 (.replicate 4 10), 6881, true, 1000⟩), .save,
        .change (.drop (.replicate 20 1) id), .change (.trim 2000 450), .load]
    let file : Bound := ⟨⟨.file path, true⟩, Disk.empty, Store.empty⟩
    let memory : Bound := ⟨⟨.memory none, true⟩, Disk.empty, Store.empty⟩
    Disk.empty.read path = .error .notFound
      ∧ (∀ x ∈ file.trace actions, x.1.failed = false)
      ∧ Interchangeable file memory actions
      ∧ (memory.run actions).store.totalPeers = 1 := by
  intro path id actions file memory
  have habsent : Disk.empty.read path = .error .notFound := rfl
  have hio : ∀ x ∈ file.trace actions, x.1.failed = false := by decide
  exact ⟨habsent, hio, interchangeable_backups habsent Disk.empty actions hio, by decide⟩

end TorrentTracker.Backup
