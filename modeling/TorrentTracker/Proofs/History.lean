/-
Places in a history.

A history is a list, the earliest first. Statements about it have the form
"this happened, and what came after has a property"; they are proved by
induction on the history, and these are the two steps.
-/

namespace TorrentTracker.History

variable {α : Type} {x y : α} {xs : List α} {P : List α → Prop}

theorem not_exists_nil : ¬∃ earlier since, [] = earlier ++ y :: since ∧ P since := by
  intro hexists
  obtain ⟨earlier, since, hsplit, -⟩ := hexists
  exact List.append_ne_nil_of_right_ne_nil _ (List.cons_ne_nil _ _) hsplit.symm

/-- What happened was the first thing, or comes later. This is the one step of
every induction on a history told by a place in it. -/
theorem exists_cons_iff :
    (∃ earlier since, x :: xs = earlier ++ y :: since ∧ P since)
      ↔ (x = y ∧ P xs) ∨ ∃ earlier since, xs = earlier ++ y :: since ∧ P since := by
  constructor
  · intro hexists
    obtain ⟨earlier, since, hsplit, hsince⟩ := hexists
    cases earlier with
    | nil =>
        obtain ⟨rfl, rfl⟩ := List.cons.inj hsplit
        exact .inl ⟨rfl, hsince⟩
    | cons first earlier =>
        obtain ⟨-, rfl⟩ := List.cons.inj hsplit
        exact .inr ⟨earlier, since, rfl, hsince⟩
  · intro hor
    rcases hor with ⟨rfl, hsince⟩ | ⟨earlier, since, rfl, hsince⟩
    · exact ⟨[], xs, rfl, hsince⟩
    · exact ⟨x :: earlier, since, rfl, hsince⟩

end TorrentTracker.History
