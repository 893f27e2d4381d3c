import Mathlib.Algebra.GroupWithZero.Nat
import Mathlib.Data.List.DropRight
import TorrentTracker.Proofs.Disk

/-
Ways through a tree, piece by piece.

Whoever takes a piece of a path stands in a directory. So if a path leads
somewhere, all its proper first parts lead to directories, and there is
nothing to do for one who wants to make them
(`run_directorySteps_of_locate`).

A path with a longer last name leads to another place than the path itself,
and if it leads anywhere so does the path (`exists_locate_of_extend`). This
also holds of paths that do not end in a name, where a name is put behind a
slash or behind dots.
-/

namespace TorrentTracker

-- ================================================================ paths

namespace Path

variable {p q front : Path} {last ending piece : String}

/-- The bytes of a path are those of its pieces, and of a slash between each
two. -/
theorem utf8ByteSize_text (p : Path) :
    p.text.utf8ByteSize = (p.map String.utf8ByteSize).sum + (p.length - 1) := by
  induction p with
  | nil => rfl
  | cons piece rest ih =>
      cases rest with
      | nil => simp [text]
      | cons next rest =>
          unfold text at ih ⊢
          rw [String.intercalate_cons_cons, String.utf8ByteSize_append, String.utf8ByteSize_append,
            ih, List.map_cons (l := next :: rest), List.sum_cons]
          simp only [List.length_cons, show "/".utf8ByteSize = 1 from rfl]
          omega

/-- A first part of a path that can be used can be used. -/
theorem usable_of_prefix (h : p <+: q) (hq : q.usable = true) : p.usable = true := by
  obtain ⟨rest, rfl⟩ := h
  unfold usable at hq ⊢
  rw [Bool.and_eq_true, decide_eq_true_eq, utf8ByteSize_text, List.all_append,
    Bool.and_eq_true] at hq
  rw [Bool.and_eq_true, decide_eq_true_eq, utf8ByteSize_text]
  refine ⟨?_, hq.2.1⟩
  have hsize := hq.1
  rw [List.map_append, List.sum_append, List.length_append] at hsize
  omega

@[simp]
theorem extend_append_singleton (front : Path) (last ending : String) :
    extend (front ++ [last]) ending = front ++ [last ++ ending] := by
  simp [extend]

/-- A path whose text is usable with an ending is usable without: it is
shorter, and has no NUL in it that the longer one has not. -/
theorem usable_of_extend (h : usable (front ++ [last ++ ending]) = true) :
    usable (front ++ [last]) = true := by
  unfold usable at h ⊢
  rw [Bool.and_eq_true, decide_eq_true_eq, utf8ByteSize_text] at h ⊢
  obtain ⟨hsize, hall⟩ := h
  constructor
  · simp only [List.map_append, List.map_cons, List.map_nil, List.sum_append, List.sum_cons,
      List.length_append, List.length_cons, String.utf8ByteSize_append] at hsize ⊢
    omega
  · rw [List.all_append, Bool.and_eq_true] at hall ⊢
    refine ⟨hall.1, ?_⟩
    have hlast := hall.2
    simp only [List.all_cons, List.all_nil, Bool.and_true, String.toList_append,
      List.contains_eq_mem, List.mem_append, Bool.not_eq_true', decide_eq_false_iff_not,
      not_or] at hlast ⊢
    exact hlast.1

/-- Leaving out pieces that stay in place leaves a front of the path. -/
theorem prefix_trim (p : Path) : p.trim <+: p := List.rdropWhile_prefix stays p

/-- The directory of a path is on the way to its last piece. -/
theorem prefix_parent (p : Path) : p.parent <+: p.dropLast := by
  refine (prefix_trim _).trans ?_
  cases p using List.reverseRecOn with
  | nil => exact List.prefix_rfl
  | append_singleton front last =>
      rw [List.dropLast_concat]
      rcases List.prefix_concat_iff.mp (prefix_trim (front ++ [last])) with hwhole | hfront
      · exact ⟨[], by rw [hwhole, List.dropLast_concat, List.append_nil]⟩
      · exact (List.dropLast_prefix _).trans hfront

theorem prefix_unslashed (p : Path) : p.unslashed <+: p := by
  have hrest : (p.drop 1).rdropWhile (· = "") <+: p.drop 1 := List.rdropWhile_prefix _ _
  unfold unslashed
  conv_rhs => rw [← List.take_append_drop 1 p]
  exact List.prefix_append_right_inj _ |>.mpr hrest

theorem unslashed_ne_nil (h : p ≠ []) : p.unslashed ≠ [] := by
  cases p with
  | nil => exact absurd rfl h
  | cons piece rest => exact List.cons_ne_nil _ _

theorem prefix_of_mem_stages (hp : p ≠ []) (h : q ∈ p.stages) : q ≠ [] ∧ q <+: p := by
  rcases List.mem_append.mp h with h | h
  · obtain ⟨i, -, rfl⟩ := List.mem_map.mp h
    refine ⟨?_, List.take_prefix _ _⟩
    cases p with
    | nil => exact absurd rfl hp
    | cons piece rest => exact List.cons_ne_nil _ _
  · rw [List.mem_singleton.mp h]
    exact ⟨hp, List.prefix_rfl⟩

end Path

namespace Disk

variable {d d' : Disk} {p rest front : Path} {here there q r : Place} {piece last ending : String}
  {steps : List Step}

-- ============================================================ first parts

/-- A path is walked as its front is and then, from there, its rest. Where the
front does not lead anywhere nothing after it is looked at. -/
theorem walk_append_eq_ok_iff :
    d.walk here (front ++ rest) = .ok r
      ↔ ∃ there, d.walk here front = .ok there ∧ d.walk there rest = .ok r := by
  induction front generalizing here with
  | nil => simp [walk]
  | cons piece front ih =>
      rw [List.cons_append]
      simp only [walk_cons_eq_ok_iff, ih]
      constructor
      · rintro ⟨hnode, there, hleads, mid, hfront, hrest⟩
        exact ⟨mid, ⟨hnode, there, hleads, hfront⟩, hrest⟩
      · rintro ⟨mid, ⟨hnode, there, hleads, hfront⟩, hrest⟩
        exact ⟨hnode, there, hleads, mid, hfront, hrest⟩

/-- A proper first part of a path that leads somewhere leads to a
directory. -/
theorem exists_directory_of_prefix (h : d.locate (front ++ [last]) = .ok q) (hp : p <+: front)
    (hsome : p ≠ []) : ∃ r, d.locate p = .ok r ∧ d.node? r = some .directory := by
  obtain ⟨rest, rfl⟩ := hp
  obtain ⟨-, husable, hwalk⟩ := locate_eq_ok_iff.mp h
  rw [List.append_assoc] at husable hwalk
  obtain ⟨r, hr, hon⟩ := walk_append_eq_ok_iff.mp hwalk
  refine ⟨r, locate_eq_ok_iff.mpr ⟨hsome, Path.usable_of_prefix ⟨_, rfl⟩ husable, hr⟩, ?_⟩
  -- somebody goes on from there
  cases rest with
  | nil => exact (walk_cons_eq_ok_iff.mp hon).1
  | cons next rest => exact (walk_cons_eq_ok_iff.mp hon).1

-- ========================================================== directories

/-- Changes that all change nothing may be left out, however many there are. -/
theorem run_of_forall_perform (h : ∀ step ∈ steps, d.perform step = .ok d) :
    d.run steps = (d, .ok ()) := by
  induction steps with
  | nil => rfl
  | cons step rest ih =>
      obtain ⟨hstep, hrest⟩ := List.forall_mem_cons.mp h
      rw [run_cons_of_perform hstep, ih hrest]

/-- The directories on a way that is open are there, so making them once more
succeeds and changes nothing. -/
theorem run_directorySteps_of_locate (h : d.locate (front ++ [last]) = .ok q) (hp : p <+: front) :
    d.run (directorySteps p) = (d, .ok ()) := by
  have hfront : front.usable = true :=
    Path.usable_of_prefix (List.prefix_append _ _) (locate_eq_ok_iff.mp h).2.1
  unfold directorySteps
  by_cases htrim : p.trim.isEmpty
  · rw [if_pos htrim]
    rfl
  have hsome : p ≠ [] := by
    rintro rfl
    exact htrim rfl
  rw [if_neg htrim, if_pos (Path.usable_of_prefix hp hfront)]
  refine run_of_forall_perform fun step hstep => ?_
  obtain ⟨stage, hstage, rfl⟩ := List.mem_map.mp hstep
  obtain ⟨hstage, hprefix⟩ := Path.prefix_of_mem_stages hsome hstage
  obtain ⟨r, hr, hnode⟩ := exists_directory_of_prefix h
    ((stage.prefix_unslashed.trans hprefix).trans hp) (Path.unslashed_ne_nil hstage)
  simp [perform, hr, hnode, bind, Except.bind]

-- =================================================== a longer last name

/-- From a directory a long name leads to an entry of it. With more bytes in it
than a dot or two it can neither stay nor go up, so only the limit of its
length is left. -/
theorem leads?_append_eq_some_iff (hending : 2 < ending.utf8ByteSize) :
    leads? here (last ++ ending) = some q
      ↔ (last ++ ending).utf8ByteSize ≤ Path.maxName ∧ q = here ++ [last ++ ending] := by
  have hsize : 2 < (last ++ ending).utf8ByteSize := by
    rw [String.utf8ByteSize_append]
    omega
  -- the names that lead elsewhere have two bytes at most
  have hstays : ¬Path.stays (last ++ ending) = true := by
    unfold Path.stays
    intro h
    rcases Bool.or_eq_true _ _ |>.mp h with h | h
    · rw [of_decide_eq_true h] at hsize
      exact absurd hsize (by decide)
    · rw [of_decide_eq_true h] at hsize
      exact absurd hsize (by decide)
  have hup : last ++ ending ≠ ".." := by
    intro h
    rw [h] at hsize
    exact absurd hsize (by decide)
  unfold leads?
  rw [if_neg hstays, if_neg hup]
  split
  · next hlong => exact iff_of_false nofun fun h => absurd h.1 (by omega)
  · next hshort =>
    rw [and_iff_right (Nat.le_of_not_lt hshort)]
    exact (Option.some.injEq _ _).to_iff.trans eq_comm

/-- A last piece and the same with a long ending do not lead to one place,
but the one leads somewhere if the other does. -/
theorem exists_leads?_of_extend (hending : 2 < ending.utf8ByteSize)
    (h : leads? here (last ++ ending) = some q) : ∃ r, leads? here last = some r ∧ r ≠ q := by
  obtain ⟨hshort, rfl⟩ := (leads?_append_eq_some_iff hending).mp h
  rw [String.utf8ByteSize_append] at hshort
  have hlonger :
      ∀ place : Place, place.length ≤ here.length → place ≠ here ++ [last ++ ending] := by
    rintro _ hlength rfl
    rw [List.length_append, List.length_singleton] at hlength
    omega
  unfold leads?
  split
  · exact ⟨here, rfl, hlonger here (Nat.le_refl _)⟩
  · split
    · exact ⟨here.dropLast, rfl, hlonger _ (by rw [List.length_dropLast]; omega)⟩
    · rw [if_neg (by omega)]
      refine ⟨here ++ [last], rfl, fun hsame => ?_⟩
      have hlast : last = last ++ ending := by simpa using hsame
      have hsize := congrArg String.utf8ByteSize hlast
      rw [String.utf8ByteSize_append] at hsize
      omega

/-- The way to a path with a longer last name goes along the path, but not
to where it leads. -/
theorem exists_locate_of_extend (hending : 2 < ending.utf8ByteSize)
    (h : d.locate (front ++ [last ++ ending]) = .ok q) :
    ∃ r, d.locate (front ++ [last]) = .ok r ∧ r ≠ q := by
  obtain ⟨-, husable, hwalk⟩ := locate_eq_ok_iff.mp h
  obtain ⟨here, hfront, hlast⟩ := walk_append_eq_ok_iff.mp hwalk
  obtain ⟨hnode, there, hleads, hthere⟩ := walk_cons_eq_ok_iff.mp hlast
  cases hthere
  obtain ⟨r, hr, hne⟩ := exists_leads?_of_extend hending hleads
  refine ⟨r, locate_eq_ok_iff.mpr ⟨by simp, Path.usable_of_extend husable, ?_⟩, hne⟩
  exact walk_append_eq_ok_iff.mpr ⟨here, hfront, walk_cons_eq_ok_iff.mpr ⟨hnode, r, hr, rfl⟩⟩

end Disk

end TorrentTracker
