/-
Random draws as inputs, and sampling without replacement.

A request may need chance three times: for a fresh connection id, for the
jitter of the announce interval, and for the peers of a swarm too large to
list. `Draws` carries the raw numbers, which have no range of their own;
each use reduces one into the range it needs. So every function of the
library is a function, and a statement about all outcomes is a statement
about all `Draws`.

# Main statements

- `length_choose`: a sample of `k` has `k` items, or all there are;
- `exists_perm_choose`: a sample and what it leaves are the whole list
  rearranged, so no position is drawn twice and nothing is invented.
-/

namespace TorrentTracker

/-- The numbers one request may use up. -/
structure Draws where
  connection : Nat := 0
  jitter : Nat := 0
  picks : List Nat := []
deriving Inhabited

variable {α : Type}

/-- Draw `k` items from distinct positions: each pick, reduced to the
positions that are left, names the next one. -/
def choose : List Nat → Nat → List α → List α
  | _, 0, _ => []
  | _, _, [] => []
  | picks, k + 1, x :: xs =>
    let i := picks.headD 0 % (x :: xs).length
    (x :: xs).getD i x :: choose picks.tail k ((x :: xs).eraseIdx i)

/-- As many are chosen as are wanted, or as there are. The draws decide which,
and may be fewer than are needed. -/
theorem length_choose (picks : List Nat) (k : Nat) (xs : List α) :
    (choose picks k xs).length = min k xs.length := by
  induction k generalizing picks xs with
  | zero => simp [choose]
  | succ k ih =>
    cases xs with
    | nil => simp [choose]
    | cons x xs =>
      have hi : picks.headD 0 % (x :: xs).length < (x :: xs).length :=
        Nat.mod_lt _ (by simp)
      have herase := List.length_eraseIdx_of_lt hi
      simp only [choose, List.length_cons, ih] at herase ⊢
      rw [herase]
      omega

/-- An element and the list without it are the list, in another order. -/
theorem getD_cons_eraseIdx_perm {i : Nat} (xs : List α) (h : i < xs.length) (d : α) :
    (xs.getD i d :: xs.eraseIdx i).Perm xs := by
  induction xs generalizing i with
  | nil => simp at h
  | cons x xs ih =>
    cases i with
    | zero => simp
    | succ i =>
      have hi : i < xs.length := by simpa using h
      simpa using (List.Perm.swap x _ _).trans ((ih hi).cons x)

/-- What is chosen and what is left are the candidates, so nobody is chosen
twice and nobody comes from elsewhere. -/
theorem exists_perm_choose (picks : List Nat) (k : Nat) (xs : List α) :
    ∃ left, (choose picks k xs ++ left).Perm xs := by
  induction k generalizing picks xs with
  | zero => exact ⟨xs, by simp [choose]⟩
  | succ k ih =>
    cases xs with
    | nil => exact ⟨[], by simp [choose]⟩
    | cons x xs =>
      have hi : picks.headD 0 % (x :: xs).length < (x :: xs).length :=
        Nat.mod_lt _ (by simp)
      obtain ⟨left, hleft⟩ :=
        ih picks.tail ((x :: xs).eraseIdx (picks.headD 0 % (x :: xs).length))
      exact ⟨left, (hleft.cons _).trans (getD_cons_eraseIdx_perm _ hi x)⟩

end TorrentTracker
