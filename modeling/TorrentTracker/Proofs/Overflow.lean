import TorrentTracker.Overflow

/-
Faults that come under a condition.

An operation computes several words, and its fault is the first of them
that does not fit. Where all of them overflow in one way it does not show
which comes first: the fault is that overflow just if there is a word that
does not fit. `Overflow.When` says so of a fault. Its lemmas follow the ways
that faults are put together, so that the condition of a whole sweep is
made of those of its steps and the order of the steps is never looked at.

# Main statements

- `When.or`, `When.findSome?`: one step after the other, and one for each
  of many;
- `When.settle_eq_error_iff`, `When.settle_eq_ok_iff`: what either build
  makes of such a fault.
-/

namespace TorrentTracker.Overflow

/-- The fault is an overflow of one kind, under a condition and only
then. -/
def When (o : Overflow) (cond : Prop) (fault : Option Overflow) : Prop :=
  ∀ o', fault = some o' ↔ o' = o ∧ cond

variable {α : Type} {o o' : Overflow} {p q : Prop} {fault fault' : Option Overflow}

/-- A condition may be put in other words. -/
theorem When.congr (h : o.When p fault) (hpq : p ↔ q) : o.When q fault := by
  intro o'
  rw [h o', hpq]

/-- Nothing overflows just if the condition does not hold. -/
theorem When.eq_none_iff (h : o.When p fault) : fault = none ↔ ¬p := by
  constructor
  · rintro rfl hp
    cases (h o).mpr ⟨rfl, hp⟩
  · intro hp
    cases fault with
    | none => rfl
    | some o' => exact absurd ((h o').mp rfl).2 hp

/-- One word alone: the condition is that it does not fit. -/
theorem when_ifNot (o : Overflow) (fits : Prop) [Decidable fits] :
    o.When (¬fits) (o.ifNot fits) := by
  intro o'
  rw [ifNot_eq_some_iff, and_comm, @eq_comm _ o]

/-- One step after another runs into what either of them runs into. -/
theorem When.or (h : o.When p fault) (h' : o.When q fault') :
    o.When (p ∨ q) (fault.or fault') := by
  intro o'
  rw [Option.or_eq_some_iff, h o', h' o', h.eq_none_iff]
  by_cases hp : p
  · simp [hp]
  · simp [hp]

/-- The same step for each of many runs into what it does for some. The first
one that does stops the rest, and one outcome is all there is to tell. -/
theorem When.findSome? {xs : List α} {f : α → Option Overflow} {p : α → Prop}
    (h : ∀ a ∈ xs, o.When (p a) (f a)) : o.When (∃ a ∈ xs, p a) (xs.findSome? f) := by
  induction xs with
  | nil => exact fun o' => iff_of_false nofun fun hexists => nomatch hexists
  | cons x xs ih =>
      have hfirst := h x (List.mem_cons_self ..)
      have hrest := ih fun a ha => h a (List.mem_cons_of_mem x ha)
      have hcons : (x :: xs).findSome? f = (f x).or (xs.findSome? f) := by
        rw [List.findSome?_cons]
        cases f x <;> rfl
      rw [hcons]
      refine (hfirst.or hrest).congr ?_
      simp only [List.mem_cons, or_and_right, exists_or, exists_eq_left]

-- ============================================================== outcomes

variable {build : Build} {a b : α}

/-- It is a checked build that stops, under the condition. -/
theorem When.settle_eq_error_iff (h : o.When p fault) :
    build.settle fault a = .error o' ↔ build = .checked ∧ o' = o ∧ p := by
  rw [Build.settle_eq_error_iff, h o']

/-- There is a result in a wrapping build, and in a checked one unless the
condition holds. -/
theorem When.settle_eq_ok_iff (h : o.When p fault) :
    build.settle fault a = .ok b ↔ a = b ∧ (build = .checked → ¬p) := by
  rw [Build.settle_eq_ok_iff, h.eq_none_iff]

end TorrentTracker.Overflow
