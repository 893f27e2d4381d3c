import TorrentTracker.Proofs.Disk

/-
Changes to a tree that are disturbed.

`run` makes changes one after the other and stops where the tree refuses
one. A change can fail for other reasons as well, a full disk or a device
that is gone, and whoever makes the changes can be stopped at any moment.
`Course` is all that a sequence of changes can then come to: some of them
are made, the next one is left unmade, made, or made in part (`Broken`), and
the rest is not begun. An undisturbed run is one such course (`course_run`)
and the only one that ends well (`Course.run_eq`).

Changes to one file leave all others as they were, however they come out
(`Course.beside`): by induction on the course, one step of which changes no
other place (`Change.beside`, `Broken.beside`).
-/

namespace TorrentTracker.Disk

variable {d d' d₁ : Disk} {p : Path} {step : Step} {steps rest : List Step}

/-- What whoever asked for some changes is told in the end. -/
inductive Ending where
  /-- That all of them were made. -/
  | done
  /-- That one of them failed. -/
  | failed
  /-- Nothing, since it was stopped. -/
  | stopped
deriving DecidableEq

/-- The ending of a run that was not stopped. -/
def Ending.of {ε : Type} : Except ε Unit → Ending
  | .ok _ => .done
  | .error _ => .failed

/-- What a change can leave that fails or is stopped: nothing of it, all of
it, or, where bytes are added to a file, the first of them. There is no such
part of a move. -/
inductive Broken (d : Disk) : Step → Disk → Prop where
  | untouched {step : Step} : Broken d step d
  | whole {step : Step} {d' : Disk} (h : d.perform step = .ok d') : Broken d step d'
  | partly {p : Path} {data : Bytes} {d' : Disk} (written : Nat)
      (h : d.perform (.append p (data.take written)) = .ok d') : Broken d (.append p data) d'

/-- What changes can come to, and how they end. -/
inductive Course : Disk → List Step → Disk → Ending → Prop where
  | done {d : Disk} : Course d [] d .done
  | unheard {d : Disk} : Course d [] d .stopped
  | next {d d₁ d' : Disk} {step : Step} {rest : List Step} {ending : Ending}
      (h : d.perform step = .ok d₁) (hrest : Course d₁ rest d' ending) :
      Course d (step :: rest) d' ending
  | broken {d d' : Disk} {step : Step} {rest : List Step} {ending : Ending}
      (h : Broken d step d') (hending : ending ≠ .done) : Course d (step :: rest) d' ending

variable {ending : Ending}

-- ============================================================ undisturbed

/-- A run that only the tree can stop is a course, with every step done up to
the one that fails. -/
theorem course_run (d : Disk) (steps : List Step) :
    Course d steps (d.run steps).1 (.of (d.run steps).2) := by
  induction steps generalizing d with
  | nil => exact .done
  | cons step rest ih =>
      unfold run
      cases hstep : d.perform step with
      | error e =>
          have hending : Ending.of (.error e : Except Error Unit) ≠ .done := by
            intro h
            cases h
          exact .broken .untouched hending
      | ok d₁ => exact .next hstep (ih d₁)

/-- What ends well was not disturbed. -/
theorem Course.run_eq (h : Course d steps d' .done) : d.run steps = (d', .ok ()) := by
  induction steps generalizing d with
  | nil =>
      cases h
      rfl
  | cons step rest ih =>
      cases h with
      | next hstep hrest => rw [run_cons_of_perform hstep, ih hrest]
      | broken _ hending => exact absurd rfl hending

/-- Of two sequences the second is begun when the first has ended well; else
all there is is a course of the first. -/
theorem Course.append_cases (h : Course d (steps ++ rest) d' ending) :
    (ending ≠ .done ∧ Course d steps d' ending)
      ∨ ∃ d₁, d.run steps = (d₁, .ok ()) ∧ Course d₁ rest d' ending := by
  induction steps generalizing d with
  | nil => exact .inr ⟨d, rfl, h⟩
  | cons step steps ih =>
      cases h with
      | next hstep hrest =>
          rcases ih hrest with ⟨hending, hcourse⟩ | ⟨d₁, hrun, hcourse⟩
          · exact .inl ⟨hending, .next hstep hcourse⟩
          · exact .inr ⟨d₁, run_cons_of_perform hstep _ ▸ hrun, hcourse⟩
      | broken hstep hending => exact .inl ⟨hending, .broken hstep hending⟩

/-- A single move is made or not. There is no state of the tree in which it is
made in part. -/
theorem Course.of_rename {source target : Path} (h : Course d [.rename source target] d' ending) :
    (ending ≠ .done ∧ d' = d) ∨ d.perform (.rename source target) = .ok d' := by
  cases h with
  | next hstep hrest =>
      cases hrest with
      | done => exact .inr hstep
      | unheard => exact .inr hstep
  | broken hstep hending =>
      cases hstep with
      | untouched => exact .inl ⟨hending, rfl⟩
      | whole hstep => exact .inr hstep

-- =============================================================== one file

/-- The file that a change is made to, other than moving it. -/
def Step.file? : Step → Option Path
  | .create p => some p
  | .append p _ => some p
  | .sync p => some p
  | .makeDirectory _ => none
  | .rename _ _ => none

/-- The one tree is the other but for a file where a path leads. -/
inductive Beside (p : Path) (d : Disk) : Disk → Prop where
  | same : Beside p d d
  | changed {q : Place} {d' : Disk} (hlocate : d.locate p = .ok q) (hkeeps : Keeps d d')
      (helse : ∀ r, q ≠ r → d'.node? r = d.node? r) : Beside p d d'

/-- What is beside a path through one thing after another is beside it
throughout. -/
theorem Beside.trans (h : Beside p d d₁) (h' : Beside p d₁ d') : Beside p d d' := by
  cases h with
  | same => exact h'
  | @changed q _ hlocate hkeeps helse =>
      cases h' with
      | same => exact .changed hlocate hkeeps helse
      | changed hlocate' hkeeps' helse' =>
          -- the path leads to the same place after the first change
          cases hlocate'.symm.trans (hkeeps.locate hlocate)
          refine .changed hlocate (hkeeps.trans hkeeps') fun r hr => ?_
          rw [helse' r hr, helse r hr]

theorem Change.beside (h : Change d step d') (hfile : step.file? = some p) : Beside p d d' := by
  have hkeeps := h.keeps
  cases h with
  | made => cases hfile
  | stood => exact .same
  | created hlocate hnode =>
      cases hfile
      refine .changed hlocate hkeeps fun r hr => ?_
      rw [node?_put d (ne_nil_of_node? hnode), if_neg hr]
  | appended hlocate hnode =>
      cases hfile
      refine .changed hlocate hkeeps fun r hr => ?_
      rw [node?_put d (ne_nil_of_node? (by rw [hnode]; exact nofun)), if_neg hr]
  | synced => exact .same
  | renamed => cases hfile

theorem Broken.beside (h : Broken d step d') (hfile : step.file? = some p) : Beside p d d' := by
  cases h with
  | untouched => exact .same
  | whole hstep => exact (change_of_perform hstep).beside hfile
  | partly written hstep => exact (change_of_perform hstep).beside hfile

/-- However changes to one file come out, no other place is touched, be it that
they fail or that they are cut off. -/
theorem Course.beside (h : Course d steps d' ending)
    (hfile : ∀ step ∈ steps, step.file? = some p) : Beside p d d' := by
  induction h with
  | done => exact .same
  | unheard => exact .same
  | next hstep _ ih =>
      obtain ⟨hfirst, hrest⟩ := List.forall_mem_cons.mp hfile
      exact ((change_of_perform hstep).beside hfirst).trans (ih hrest)
  | broken hstep _ => exact hstep.beside (hfile _ List.mem_cons_self)

end TorrentTracker.Disk
