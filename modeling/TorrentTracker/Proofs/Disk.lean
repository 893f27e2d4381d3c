import TorrentTracker.Disk
import TorrentTracker.Proofs.Table

/-
What elementary changes do to a directory tree, place by place.

A tree is asked one question here, what stands at a place. A change that
succeeds alters the answer at one place, or at two if a file moves, and
`Change` lists what it passed on the way: it is where the definition of a
change is opened, once. A path is walked piece by piece, each from a
directory (`walk_cons_eq_ok_iff`). No change takes a directory away, so a
path that led somewhere leads there still (`Keeps.locate`), and the places
of a sequence of changes can all be told from the tree before it.

# Main statements

- `change_of_perform`: what a change that succeeds has done;
- `keeps_run`: however far a sequence of changes comes, all directories
  stay;
- `furnishes_directorySteps`: making directories leaves every file as it
  is;
- `node?_of_writeSteps`: after a file was written nothing else has changed.
-/

namespace TorrentTracker.Disk

variable {d d' d₁ : Disk} {p : Path} {q r : Place} {n : Node} {content data : Bytes}
  {step : Step} {steps rest : List Step}

-- =============================================================== places

@[simp]
theorem node?_nil (d : Disk) : d.node? [] = some .directory := rfl

/-- What is no directory does not stand at the root. -/
theorem ne_nil_of_node? (h : d.node? q ≠ some .directory) : q ≠ [] := by
  rintro rfl
  exact h rfl

/-- A change at one place shows there and nowhere else. -/
theorem node?_put (d : Disk) (h : q ≠ []) (n : Node) (r : Place) :
    (d.put q n).node? r = if q = r then some n else d.node? r := by
  cases r with
  | nil => rw [if_neg h, node?_nil, node?_nil]
  | cons name rest => exact Table.get?_insert _ _ _ _

theorem node?_erase (d : Disk) (h : q ≠ []) (r : Place) :
    (Disk.mk (d.nodes.erase q)).node? r = if q = r then none else d.node? r := by
  cases r with
  | nil => rw [if_neg h, node?_nil, node?_nil]
  | cons name rest => exact Table.get?_erase _ _ _

-- ================================================================= ways

/-- Where a piece of a path goes from a directory. -/
def leads? (here : Place) (piece : String) : Option Place :=
  if Path.stays piece then some here
  else if piece = ".." then some here.dropLast
  else if Path.maxName < piece.utf8ByteSize then none
  else some (here ++ [piece])

/-- Whoever takes a piece of a path stands in a directory, also for a dot: from
a file there is no way on. -/
theorem walk_cons_eq_ok_iff {piece : String} :
    d.walk q (piece :: p) = .ok r
      ↔ d.node? q = some .directory
        ∧ ∃ there, leads? q piece = some there ∧ d.walk there p = .ok r := by
  rw [walk]
  cases hnode : d.node? q with
  | none => exact iff_of_false nofun fun h => nomatch h.1
  | some node =>
      cases node with
      | file content => exact iff_of_false nofun fun h => nomatch h.1
      | directory =>
          unfold leads?
          dsimp only
          by_cases hstays : Path.stays piece = true
          · simp [hstays]
          by_cases hup : piece = ".."
          · rw [if_neg hstays, if_pos hup, if_neg hstays, if_pos hup]
            simp
          by_cases hlong : Path.maxName < piece.utf8ByteSize
          · simp [hstays, hup, hlong]
          · simp [hstays, hup, hlong]

/-- A path leads somewhere if there is something to it, its text is one that is
accepted, and each of its pieces leads on from the last. -/
theorem locate_eq_ok_iff :
    d.locate p = .ok q ↔ p ≠ [] ∧ p.usable = true ∧ d.walk [] p = .ok q := by
  unfold locate
  cases p with
  | nil => exact iff_of_false nofun fun h => h.1 rfl
  | cons piece rest =>
      rw [if_neg (show ¬(piece :: rest : Path).isEmpty = true from nofun)]
      cases husable : Path.usable (piece :: rest) with
      | false => exact iff_of_false nofun fun h => nomatch h.2.1
      | true => exact ⟨fun h => ⟨nofun, rfl, h⟩, fun h => h.2.2⟩

/-- Every directory of the one tree is a directory of the other. -/
def Keeps (d d' : Disk) : Prop :=
  ∀ q, d.node? q = some .directory → d'.node? q = some .directory

theorem Keeps.refl (d : Disk) : Keeps d d := fun _ h => h

theorem Keeps.trans (h : Keeps d d₁) (h' : Keeps d₁ d') : Keeps d d' :=
  fun q hq => h' q (h q hq)

/-- A way through the directories of a tree stays open, and leads to the same
place, whatever is made or removed elsewhere. -/
theorem Keeps.walk (h : Keeps d d') (hwalk : d.walk q p = .ok r) : d'.walk q p = .ok r := by
  induction p generalizing q with
  | nil => exact hwalk
  | cons piece rest ih =>
      obtain ⟨hnode, there, hleads, hrest⟩ := walk_cons_eq_ok_iff.mp hwalk
      exact walk_cons_eq_ok_iff.mpr ⟨h q hnode, there, hleads, ih hrest⟩

theorem Keeps.locate (h : Keeps d d') (hlocate : d.locate p = .ok q) : d'.locate p = .ok q := by
  obtain ⟨hsome, husable, hwalk⟩ := locate_eq_ok_iff.mp hlocate
  exact locate_eq_ok_iff.mpr ⟨hsome, husable, h.walk hwalk⟩

/-- What comes of two computations in a row came of both. -/
theorem exists_of_bind_eq_ok {α β : Type} {x : Except Error α} {f : α → Except Error β} {b : β}
    (h : x >>= f = .ok b) : ∃ a, x = .ok a ∧ f a = .ok b := by
  cases x with
  | error e => cases h
  | ok a => exact ⟨a, rfl, h⟩

/-- What is read is the content of the file that stands where the path
leads. -/
theorem read_eq_ok_iff :
    d.read p = .ok data ↔ ∃ q, d.locate p = .ok q ∧ d.node? q = some (.file data) := by
  constructor
  · intro h
    obtain ⟨q, hq, h⟩ := exists_of_bind_eq_ok h
    refine ⟨q, hq, ?_⟩
    split at h
    · next content hnode =>
      rw [hnode, Except.ok.inj h]
    · cases h
    · cases h
  · intro h
    obtain ⟨q, hq, hnode⟩ := h
    simp [read, hq, hnode, bind, Except.bind]

-- ============================================================== changes

/-- What a change that succeeds has done, and what it found. -/
inductive Change (d : Disk) : Step → Disk → Prop where
  | made {p : Path} {q : Place} (hlocate : d.locate p.unslashed = .ok q)
      (hnode : d.node? q = none) : Change d (.makeDirectory p) (d.put q .directory)
  | stood {p : Path} {q : Place} (hlocate : d.locate p.unslashed = .ok q)
      (hnode : d.node? q = some .directory) : Change d (.makeDirectory p) d
  | created {p : Path} {q : Place} (hlocate : d.locate p = .ok q)
      (hnode : d.node? q ≠ some .directory) : Change d (.create p) (d.put q (.file []))
  | appended {p : Path} {data : Bytes} {q : Place} {content : Bytes}
      (hlocate : d.locate p = .ok q) (hnode : d.node? q = some (.file content)) :
      Change d (.append p data) (d.put q (.file (content ++ data)))
  | synced {p : Path} {q : Place} {content : Bytes} (hlocate : d.locate p = .ok q)
      (hnode : d.node? q = some (.file content)) : Change d (.sync p) d
  | renamed {source target : Path} {q r : Place} {content : Bytes}
      (hsource : d.locate source = .ok q) (hfile : d.node? q = some (.file content))
      (htarget : d.locate target = .ok r) (hnode : d.node? r ≠ some .directory) :
      Change d (.rename source target)
        ((Disk.mk (d.nodes.erase q)).put r (.file content))

/-- What a change that succeeds found on the way and what it left, one case for
each kind of change. Whatever is shown of changes later is shown by these
cases. -/
theorem change_of_perform (h : d.perform step = .ok d') : Change d step d' := by
  cases step with
  | makeDirectory p =>
      obtain ⟨q, hq, h⟩ := exists_of_bind_eq_ok h
      cases hnode : d.node? q with
      | none =>
          rw [hnode] at h
          cases h
          exact .made hq hnode
      | some node =>
          rw [hnode] at h
          cases node with
          | directory =>
              cases h
              exact .stood hq hnode
          | file content => cases h
  | create p =>
      obtain ⟨q, hq, h⟩ := exists_of_bind_eq_ok h
      by_cases hnode : d.node? q = some .directory
      · rw [hnode] at h
        cases h
      · split at h
        · contradiction
        · cases h
          exact .created hq hnode
  | append p data =>
      obtain ⟨content, hread, h⟩ := exists_of_bind_eq_ok h
      obtain ⟨q, hq, hnode⟩ := read_eq_ok_iff.mp hread
      rw [hq] at h
      cases h
      exact .appended hq hnode
  | sync p =>
      obtain ⟨content, hread, h⟩ := exists_of_bind_eq_ok h
      obtain ⟨q, hq, hnode⟩ := read_eq_ok_iff.mp hread
      cases h
      exact .synced hq hnode
  | rename source target =>
      obtain ⟨content, hread, h⟩ := exists_of_bind_eq_ok h
      obtain ⟨q, hq, hfile⟩ := read_eq_ok_iff.mp hread
      obtain ⟨r, hr, h⟩ := exists_of_bind_eq_ok h
      rw [hq] at h
      by_cases hnode : d.node? r = some .directory
      · rw [hnode] at h
        cases h
      · split at h
        · contradiction
        · cases h
          exact .renamed hq hfile hr hnode

/-- Putting a file where there is no directory takes none away. -/
theorem keeps_put_file (hnode : d.node? q ≠ some .directory) (content : Bytes) :
    Keeps d (d.put q (.file content)) := by
  intro r hr
  rw [node?_put d (ne_nil_of_node? hnode), if_neg]
  · exact hr
  · rintro rfl
    exact hnode hr

/-- No change takes a directory away. Files are made, grown, moved and
replaced, and neither a file nor a directory comes in the place of a
directory. -/
theorem Change.keeps (h : Change d step d') : Keeps d d' := by
  cases h with
  | made _ hnode =>
      intro r hr
      rw [node?_put d (ne_nil_of_node? (by rw [hnode]; exact nofun))]
      split
      · rfl
      · exact hr
  | stood => exact .refl d
  | created _ hnode => exact keeps_put_file hnode []
  | appended _ hnode => exact keeps_put_file (by rw [hnode]; exact nofun) _
  | synced => exact .refl d
  | @renamed _ _ q r content _ hfile _ hnode =>
      intro place hplace
      -- what goes is a file, and so is what it replaces, if anything is there
      have hsource : d.node? q ≠ some .directory := by
        rw [hfile]
        exact nofun
      rw [node?_put _ (ne_nil_of_node? hnode), if_neg, node?_erase d (ne_nil_of_node? hsource),
        if_neg]
      · exact hplace
      · rintro rfl
        exact hsource hplace
      · rintro rfl
        exact hnode hplace

-- ================================================================ runs

theorem run_cons_of_perform (h : d.perform step = .ok d₁) (rest : List Step) :
    d.run (step :: rest) = d₁.run rest := by
  rw [run, h]

/-- A run succeeds if its first change does and then, from there, the others
do. -/
theorem run_cons_eq_ok_iff :
    d.run (step :: rest) = (d', .ok ())
      ↔ ∃ d₁, d.perform step = .ok d₁ ∧ d₁.run rest = (d', .ok ()) := by
  constructor
  · intro h
    cases hstep : d.perform step with
    | error e =>
        rw [run, hstep] at h
        cases h
    | ok d₁ => exact ⟨d₁, rfl, run_cons_of_perform hstep rest ▸ h⟩
  · rintro ⟨d₁, hstep, hrest⟩
    rw [run_cons_of_perform hstep, hrest]

/-- Steps go through one after the other if the first ones do, and the others
do from where these end. -/
theorem run_append_eq_ok_iff :
    d.run (steps ++ rest) = (d', .ok ())
      ↔ ∃ d₁, d.run steps = (d₁, .ok ()) ∧ d₁.run rest = (d', .ok ()) := by
  induction steps generalizing d with
  | nil =>
      constructor
      · exact fun hrest => ⟨d, rfl, hrest⟩
      · rintro ⟨d₁, hd₁, hrest⟩
        obtain ⟨rfl, -⟩ := Prod.mk.inj hd₁
        exact hrest
  | cons step steps ih =>
      rw [List.cons_append, run_cons_eq_ok_iff]
      simp only [ih, run_cons_eq_ok_iff]
      constructor
      · rintro ⟨d₁, hstep, d₂, hsteps, hrest⟩
        exact ⟨d₂, ⟨d₁, hstep, hsteps⟩, hrest⟩
      · rintro ⟨d₂, ⟨d₁, hstep, hsteps⟩, hrest⟩
        exact ⟨d₁, hstep, d₂, hsteps, hrest⟩

/-- However far a sequence of changes comes, all directories stay. By induction
on the changes, one at a time. -/
theorem keeps_run (d : Disk) (steps : List Step) : Keeps d (d.run steps).1 := by
  induction steps generalizing d with
  | nil => exact .refl d
  | cons step rest ih =>
      unfold run
      cases hstep : d.perform step with
      | error e => exact .refl d
      | ok d₁ => exact (change_of_perform hstep).keeps.trans (ih d₁)

-- ========================================================== directories

/-- The one tree is the other but for directories that were made where
nothing stood. -/
structure Furnishes (d d' : Disk) : Prop where
  directories : Keeps d d'
  files : ∀ q content, d.node? q = some (.file content) → d'.node? q = some (.file content)

theorem Furnishes.refl (d : Disk) : Furnishes d d := ⟨.refl d, fun _ _ h => h⟩

theorem Furnishes.trans (h : Furnishes d d₁) (h' : Furnishes d₁ d') : Furnishes d d' where
  directories := h.directories.trans h'.directories
  files := fun q content hq => h'.files q content (h.files q content hq)

theorem Furnishes.read (h : Furnishes d d') (hread : d.read p = .ok data) :
    d'.read p = .ok data := by
  obtain ⟨q, hq, hnode⟩ := read_eq_ok_iff.mp hread
  exact read_eq_ok_iff.mpr ⟨q, h.directories.locate hq, h.files q data hnode⟩

theorem Change.furnishes (h : Change d (.makeDirectory p) d') : Furnishes d d' := by
  refine ⟨h.keeps, fun r content hr => ?_⟩
  cases h with
  | @made _ q _ hnode =>
      have hroot : d.node? q ≠ some .directory := by
        rw [hnode]
        exact nofun
      rw [node?_put d (ne_nil_of_node? hroot), if_neg]
      · exact hr
      · rintro rfl
        rw [hnode] at hr
        cases hr
  | stood => exact hr

/-- New directories take nothing away, however many they are and wherever the
run stops. -/
theorem furnishes_run (h : ∀ step ∈ steps, ∃ p, step = .makeDirectory p) (d : Disk) :
    Furnishes d (d.run steps).1 := by
  induction steps generalizing d with
  | nil => exact .refl d
  | cons step rest ih =>
      obtain ⟨⟨p, rfl⟩, hrest⟩ := List.forall_mem_cons.mp h
      unfold run
      cases hstep : d.perform (.makeDirectory p) with
      | error e => exact .refl d
      | ok d₁ => exact (change_of_perform hstep).furnishes.trans (ih hrest d₁)

/-- Making directories, however far it comes, leaves every file as it
is. -/
theorem furnishes_directorySteps (d : Disk) (p : Path) :
    Furnishes d (d.run (directorySteps p)).1 := by
  refine furnishes_run (fun step hstep => ?_) d
  unfold directorySteps at hstep
  split at hstep
  · cases hstep
  · split at hstep
    · obtain ⟨stage, -, rfl⟩ := List.mem_map.mp hstep
      exact ⟨stage, rfl⟩
    · exact ⟨p, List.mem_singleton.mp hstep⟩

-- ================================================================ files

/-- A file that was written has the content, and nothing else has
changed. -/
theorem node?_of_writeSteps (h : d.run (writeSteps p data) = (d', .ok ())) :
    ∃ q, d.locate p = .ok q
      ∧ ∀ r, d'.node? r = if q = r then some (.file data) else d.node? r := by
  obtain ⟨d₁, hcreate, h⟩ := run_cons_eq_ok_iff.mp h
  obtain ⟨d₂, happend, h⟩ := run_cons_eq_ok_iff.mp h
  obtain ⟨rfl, -⟩ := Prod.mk.inj h
  have hcreated := change_of_perform hcreate
  have hkeeps := hcreated.keeps
  cases hcreated with
  | @created _ q hlocate hnode =>
      have hq := ne_nil_of_node? hnode
      refine ⟨q, hlocate, fun r => ?_⟩
      cases change_of_perform happend with
      | @appended _ _ q' content hlocate' hcontent =>
          -- both changes are made at one place, and the second finds it empty
          have hsame : q' = q := Except.ok.inj (hlocate'.symm.trans (hkeeps.locate hlocate))
          subst hsame
          rw [node?_put d hq, if_pos rfl] at hcontent
          cases hcontent
          rw [node?_put _ hq, node?_put d hq, List.nil_append]
          split
          · rfl
          · rfl

/-- A file that was written is read as what was written, by whatever path leads
to it now. -/
theorem read_of_writeSteps (h : d.run (writeSteps p data) = (d', .ok ())) :
    d'.read p = .ok data := by
  obtain ⟨q, hq, hnode⟩ := node?_of_writeSteps h
  have hkeeps := keeps_run d (writeSteps p data)
  rw [h] at hkeeps
  refine read_eq_ok_iff.mpr ⟨q, hkeeps.locate hq, ?_⟩
  rw [hnode, if_pos rfl]

/-- Writing a file leaves those at other places. It is places that are
compared, since two paths may lead to one. -/
theorem read_of_writeSteps_of_ne {other : Path} (h : d.run (writeSteps p data) = (d', .ok ()))
    (hread : d.read other = .ok content) (hne : d'.locate other ≠ d'.locate p) :
    d'.read other = .ok content := by
  obtain ⟨q, hq, hnode⟩ := node?_of_writeSteps h
  obtain ⟨r, hr, hfile⟩ := read_eq_ok_iff.mp hread
  have hkeeps := keeps_run d (writeSteps p data)
  rw [h] at hkeeps
  refine read_eq_ok_iff.mpr ⟨r, hkeeps.locate hr, ?_⟩
  rw [hkeeps.locate hr, hkeeps.locate hq] at hne
  rw [hnode, if_neg, hfile]
  rintro rfl
  exact hne rfl

theorem read_congr {other : Path} (h : d.locate p = d.locate other) :
    d.read p = d.read other := by
  unfold read
  rw [h]

end TorrentTracker.Disk
