import TorrentTracker.Clock
import TorrentTracker.Proofs.Overflow

/-
Ages in exact integers.

The difference of two moments is a word of 64 bits and may wrap. Seen from
a moment since the epoch it does so only one way, for moments that lie
`span` seconds back or more: their age comes out negative, so by it they
are not old at all, and a checked build stops over it. Nothing of the kind
happens between two moments since the epoch. Then an age is the difference
it looks like, and an entry is too old exactly if that difference is past
the limit.

# Main statements

- `expired_iff`: what is too old, of what was made since the epoch;
- `expired_iff_of_age`: the same of anything, where the limit is not
  negative;
- `elapsedFault?_when`, `expiredIn_ne_of_age`: which ages stop a checked
  build, and that neither build finds those too old.
-/

namespace TorrentTracker.Seconds

/-- The least difference that a word of 64 bits does not hold. -/
def span : Int := 9223372036854775808

variable {since now : Seconds} {maxAge : Int64}

/-- A difference that fits does not wrap. -/
theorem toInt_elapsed_of_lt (hnow : 0 ≤ now.toInt) (hage : now.toInt - since.toInt < span) :
    (elapsed since now).toInt = now.toInt - since.toInt := by
  have hsince := since.toInt_lt
  unfold span at hage
  unfold elapsed
  rw [Int64.toInt_sub]
  exact Int.bmod_eq_of_le (by omega) (by omega)

/-- One that does not fit comes out negative. -/
theorem toInt_elapsed_neg (hage : span ≤ now.toInt - since.toInt) :
    (elapsed since now).toInt < 0 := by
  have hsince := since.le_toInt
  have hnow := now.toInt_lt
  unfold span at hage
  unfold elapsed
  rw [Int64.toInt_sub, ← Int.sub_bmod_right]
  rw [Int.bmod_eq_of_le (by omega) (by omega)]
  omega

/-- Between moments that are not before the epoch no difference wraps. -/
theorem toInt_elapsed (hsince : 0 ≤ since.toInt) (hnow : 0 ≤ now.toInt) :
    (elapsed since now).toInt = now.toInt - since.toInt := by
  have hnow' := now.toInt_lt
  refine toInt_elapsed_of_lt hnow ?_
  unfold span
  omega

/-- What is too old, of what was made since the epoch. -/
theorem expired_iff (hsince : 0 ≤ since.toInt) (hnow : 0 ≤ now.toInt) :
    since.expired maxAge now = true ↔ maxAge.toInt < now.toInt - since.toInt := by
  unfold expired
  rw [decide_eq_true_iff, Int64.lt_iff_toInt_lt, toInt_elapsed hsince hnow]

/-- And what is not: also an entry of just the age that is allowed. -/
theorem expired_eq_false_iff (hsince : 0 ≤ since.toInt) (hnow : 0 ≤ now.toInt) :
    since.expired maxAge now = false ↔ now.toInt - since.toInt ≤ maxAge.toInt := by
  rw [← Bool.not_eq_true, expired_iff hsince hnow, Int.not_lt]

/-- Whatever moment an entry bears, it is too old exactly if its age is
past the limit and fits in a word. -/
theorem expired_iff_of_age (hnow : 0 ≤ now.toInt) (hlimit : 0 ≤ maxAge.toInt) :
    since.expired maxAge now = true
      ↔ maxAge.toInt < now.toInt - since.toInt ∧ now.toInt - since.toInt < span := by
  unfold expired
  rw [decide_eq_true_iff, Int64.lt_iff_toInt_lt]
  by_cases hage : now.toInt - since.toInt < span
  · rw [toInt_elapsed_of_lt hnow hage]
    exact (and_iff_left hage).symm
  · have hneg := toInt_elapsed_neg (Int.not_lt.mp hage)
    refine iff_of_false ?_ fun h => hage h.2
    omega

-- ============================================================ overflow

/-- A checked build stops over a difference just if it does not fit. -/
theorem elapsedFault?_when (hnow : 0 ≤ now.toInt) :
    Overflow.subtract.When (span ≤ now.toInt - since.toInt) (elapsedFault? since now) := by
  refine (Overflow.when_ifNot _ _).congr ?_
  rw [← Int.not_lt]
  refine not_congr ⟨fun hexact => ?_, toInt_elapsed_of_lt hnow⟩
  rw [← Int.not_le]
  intro hage
  have hneg := toInt_elapsed_neg hage
  unfold span at hage
  omega

/-- Neither build finds an entry too old whose age does not fit: one stops
over it, the other takes it for one from the future. -/
theorem expiredIn_ne_of_age (hnow : 0 ≤ now.toInt) (hlimit : 0 ≤ maxAge.toInt)
    (hage : span ≤ now.toInt - since.toInt) (build : Build) :
    expiredIn build since maxAge now ≠ .ok true := by
  intro hfound
  rw [expiredIn_eq, Build.settle_eq_ok_iff, expired_iff_of_age hnow hlimit] at hfound
  omega

end TorrentTracker.Seconds
