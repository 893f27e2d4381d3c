import Mathlib.Data.UInt
import TorrentTracker.Config.Check

/-
What valid settings promise a request.

Valid settings fail none of the checks (`fails_none`), so each check can be
read as a fact. The one that an announce needs is that the default number
of peers is no more than the ceiling: with it no client gets more than the
ceiling, whatever number it sends.

# Main statements

- `Announce.clampNumwant_eq`: how many peers a client gets, in numbers;
- `clampNumwant_le`: it is at most the ceiling.
-/

namespace TorrentTracker.Config

variable {c : Config}

theorem fails_none (h : c.validate = .ok ()) {failed : Bool} {problem : Problem}
    (hcheck : (failed, problem) ∈ c.checks) : failed = false := by
  cases hproblem : c.problem? with
  | some p =>
      unfold validate at h
      rw [hproblem] at h
      cases h
  | none =>
      unfold problem? at hproblem
      rw [Option.map_eq_none_iff, List.find?_eq_none] at hproblem
      exact Bool.eq_false_iff.mpr (hproblem _ hcheck)

/-- One of them keeps the default below the ceiling. -/
theorem defaultNumwant_le (h : c.validate = .ok ()) :
    c.tracker.defaultNumwant.toNat ≤ c.tracker.maxNumwant.toNat := by
  have hcheck : (decide (c.tracker.maxNumwant < c.tracker.defaultNumwant),
      Problem.defaultNumwant c.tracker.defaultNumwant c.tracker.maxNumwant) ∈ c.checks := by
    simp [checks]
  have hle := of_decide_eq_false (fails_none h hcheck)
  rwa [UInt64.lt_iff_toNat_lt, Nat.not_lt] at hle

/-- A word that is not negative is the same number without its sign. -/
theorem toNat_toUInt64 {n : Int64} (h : 0 ≤ n.toInt) : n.toUInt64.toNat = n.toInt.toNat := by
  have hbits : n.toInt = if 2 * n.toUInt64.toNat < 2 ^ 64 then (n.toUInt64.toNat : Int)
      else n.toUInt64.toNat - 2 ^ 64 := BitVec.toInt_eq_toNat_cond n.toBitVec
  have hlt := n.toUInt64.toNat_lt
  omega

/-- A client gets what it asks for, up to the ceiling, and the default for
a negative number. -/
theorem Announce.clampNumwant_eq (c : Announce) (n : Int64) :
    (c.clampNumwant (some n)).toNat
      = if 0 ≤ n.toInt then min n.toInt.toNat c.maxNumwant.toNat else c.defaultNumwant.toNat := by
  have hzero : (0 : Int64) ≤ n ↔ 0 ≤ n.toInt := Int64.le_iff_toInt_le
  unfold clampNumwant
  dsimp only
  by_cases hn : 0 ≤ n.toInt
  · rw [if_pos (hzero.mpr hn), if_pos hn, UInt64.toNat_min, toNat_toUInt64 hn]
  · rw [if_neg (mt hzero.mp hn), if_neg hn]

/-- With valid settings nobody gets more than the ceiling. -/
theorem clampNumwant_le (h : c.validate = .ok ()) (requested : Option Int64) :
    (c.tracker.clampNumwant requested).toNat ≤ c.tracker.maxNumwant.toNat := by
  cases requested with
  | none => exact defaultNumwant_le h
  | some n =>
      rw [Announce.clampNumwant_eq]
      split
      · exact Nat.min_le_right _ _
      · exact defaultNumwant_le h

end TorrentTracker.Config
