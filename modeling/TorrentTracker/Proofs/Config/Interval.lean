import Mathlib.Tactic.ByContra
import TorrentTracker.Config.Check
import TorrentTracker.Proofs.Overflow

/-
The interval of a reply: a setting with jitter on top, in a signed word.

Each of the two settings is up to the largest word there is, so their sum
can be past it. It is past it by less than a turn, and then it comes out as
one turn less, which is negative (`toInt_jitteredInterval`). A wrapping
build gives that out and a checked one stops.

`Fits` says that the largest sum is still a word. That is the weakest
condition: without it there is a draw that gives no interval
(`exists_neg_of_not_fits`), so the four ways to say that all intervals are
as they should be (exact or positive, before or after a build has had its
say) come to the same.

# Main statements

- `toInt_jitteredInterval`, `jitterFault?_when`: what a draw gives, and
  when it stops a checked build;
- `forall_exact_jitteredIntervalIn_iff`,
  `forall_pos_jitteredIntervalIn_iff`: when all draws give an interval.
-/

namespace TorrentTracker

namespace Config.Announce

variable {c : Announce} {draw : Nat}

/-- One more than the largest interval that a reply has room for. -/
def horizon : Int := 2147483648

/-- The interval is one that a reply has room for, whatever the jitter on
top. -/
def Fits (c : Announce) : Prop := c.announceInterval.toInt + max c.announceFuzz.toInt 1 ≤ horizon

instance (c : Announce) : Decidable c.Fits := inferInstanceAs (Decidable (_ ≤ _))

/-- Jitter stays below the fuzz, or is none. -/
theorem jitter_lt (c : Announce) (draw : Nat) :
    (c.jitter draw : Int) < max c.announceFuzz.toInt 1 := by
  unfold jitter
  split
  · have hlt := Nat.mod_lt draw (show 0 < c.announceFuzz.toInt.toNat by omega)
    omega
  · omega

/-- Every number in the range is drawn. -/
theorem jitter_of_lt {n : Nat} (h : (n : Int) < max c.announceFuzz.toInt 1) : c.jitter n = n := by
  unfold jitter
  split
  · exact Nat.mod_eq_of_lt (by omega)
  · omega

/-- A word takes a number that is less than a turn for itself, or for one
turn less. -/
theorem bmod_of_lt {n : Int} (hn : 0 ≤ n) (hlt : n < 2 * horizon) :
    n.bmod 4294967296 = if n < horizon then n else n - 2 * horizon := by
  have hrest : n % ((4294967296 : Nat) : Int) = n := Int.emod_eq_of_lt hn hlt
  unfold Int.bmod
  rw [hrest]
  rfl

/-- The jitter is on top of the interval, or a turn below. Both parts are words
that are not negative, so one turn is all that is ever lost. -/
theorem toInt_jitteredInterval (hinterval : 0 < c.announceInterval.toInt) (draw : Nat) :
    (c.jitteredInterval draw).toInt
      = if c.announceInterval.toInt + c.jitter draw < horizon then
          c.announceInterval.toInt + c.jitter draw
        else c.announceInterval.toInt + c.jitter draw - 2 * horizon := by
  have hlimit : c.announceInterval.toInt < horizon := c.announceInterval.toInt_lt
  have hpositive : 0 < c.announceFuzz ↔ 0 < c.announceFuzz.toInt := Int32.lt_iff_toInt_lt
  have hjitter := c.jitter_lt draw
  have hfuzz : c.announceFuzz.toInt < horizon := c.announceFuzz.toInt_lt
  unfold jitteredInterval
  unfold jitter at *
  by_cases h : 0 < c.announceFuzz.toInt
  · rw [if_pos h] at hjitter ⊢
    have hword : (Int32.ofNat (draw % c.announceFuzz.toInt.toNat)).toInt
        = (draw % c.announceFuzz.toInt.toNat : Nat) := by
      refine Int32.toInt_ofNat_of_lt ?_
      unfold horizon at hfuzz
      omega
    rw [if_pos (hpositive.mpr h), Int32.toInt_add, hword]
    exact bmod_of_lt (by omega) (by omega)
  · rw [if_neg h, if_neg (mt hpositive.mp h), Int.natCast_zero, Int.add_zero, if_pos hlimit]

/-- Where all intervals fit, what a draw gives is the sum. -/
theorem Fits.toInt_jitteredInterval (h : c.Fits) (hinterval : 0 < c.announceInterval.toInt)
    (draw : Nat) :
    (c.jitteredInterval draw).toInt = c.announceInterval.toInt + c.jitter draw := by
  have hjitter := c.jitter_lt draw
  unfold Fits at h
  rw [Announce.toInt_jitteredInterval hinterval, if_pos (by omega)]

/-- If not all intervals fit, the one with the most jitter comes out
negative. -/
theorem exists_neg_of_not_fits (h : ¬c.Fits) (hinterval : 0 < c.announceInterval.toInt) :
    ∃ draw, (c.jitteredInterval draw).toInt < 0 := by
  have hlimit : c.announceInterval.toInt < horizon := c.announceInterval.toInt_lt
  have hfuzz : c.announceFuzz.toInt < horizon := c.announceFuzz.toInt_lt
  obtain ⟨n, hn⟩ : ∃ n : Nat, (n : Int) = max c.announceFuzz.toInt 1 - 1 :=
    ⟨(max c.announceFuzz.toInt 1 - 1).toNat, Int.toNat_of_nonneg (by omega)⟩
  have hjitter : c.jitter n = n := jitter_of_lt (by omega)
  unfold Fits at h
  refine ⟨n, ?_⟩
  rw [Announce.toInt_jitteredInterval hinterval, hjitter, if_neg (by omega)]
  omega

/-- Intervals are exact just if all of them fit. -/
theorem forall_toInt_jitteredInterval_iff (hinterval : 0 < c.announceInterval.toInt) :
    (∀ draw, (c.jitteredInterval draw).toInt = c.announceInterval.toInt + c.jitter draw)
      ↔ c.Fits := by
  refine ⟨fun hexact => ?_, fun h => h.toInt_jitteredInterval hinterval⟩
  by_contra hfits
  obtain ⟨draw, hneg⟩ := exists_neg_of_not_fits hfits hinterval
  have hdraw := hexact draw
  omega

/-- And just then all of them are positive. -/
theorem forall_jitteredInterval_pos_iff (hinterval : 0 < c.announceInterval.toInt) :
    (∀ draw, 0 < (c.jitteredInterval draw).toInt) ↔ c.Fits := by
  refine ⟨fun hpositive => ?_, fun h draw => ?_⟩
  · by_contra hfits
    obtain ⟨draw, hneg⟩ := exists_neg_of_not_fits hfits hinterval
    have hdraw := hpositive draw
    omega
  · rw [h.toInt_jitteredInterval hinterval]
    omega

-- ============================================================== outcomes

variable {build : Build}

/-- A checked build stops over an interval past the largest there is room
for. -/
theorem jitterFault?_when (hinterval : 0 < c.announceInterval.toInt) (draw : Nat) :
    Overflow.add.When (horizon ≤ c.announceInterval.toInt + c.jitter draw)
      (c.jitterFault? draw) := by
  refine (Overflow.when_ifNot _ _).congr ?_
  rw [toInt_jitteredInterval hinterval, ← Int.not_lt]
  refine not_congr ⟨fun hexact => ?_, fun hlt => if_pos hlt⟩
  by_contra hlt
  rw [if_neg hlt] at hexact
  unfold horizon at hexact
  omega

/-- Where all intervals fit, no draw stops either build. -/
theorem Fits.jitterFault? (h : c.Fits) (hinterval : 0 < c.announceInterval.toInt)
    (draw : Nat) : c.jitterFault? draw = none :=
  Overflow.ifNot_eq_none_iff.mpr (h.toInt_jitteredInterval hinterval draw)

/-- In either build every draw has its exact interval just if all of them
fit. -/
theorem forall_exact_jitteredIntervalIn_iff (hinterval : 0 < c.announceInterval.toInt) :
    (∀ draw, ∃ i, c.jitteredIntervalIn build draw = .ok i
        ∧ i.toInt = c.announceInterval.toInt + c.jitter draw)
      ↔ c.Fits := by
  constructor
  · intro hexact
    refine (forall_toInt_jitteredInterval_iff hinterval).mp fun draw => ?_
    obtain ⟨i, hi, hsum⟩ := hexact draw
    rw [(Build.settle_eq_ok_iff.mp hi).1, hsum]
  · intro h draw
    refine ⟨_, ?_, h.toInt_jitteredInterval hinterval draw⟩
    exact Build.settle_eq_ok_iff.mpr ⟨rfl, fun _ => h.jitterFault? hinterval draw⟩

/-- And every draw has a positive one just then. -/
theorem forall_pos_jitteredIntervalIn_iff (hinterval : 0 < c.announceInterval.toInt) :
    (∀ draw, ∃ i, c.jitteredIntervalIn build draw = .ok i ∧ 0 < i.toInt) ↔ c.Fits := by
  constructor
  · intro hpositive
    refine (forall_jitteredInterval_pos_iff hinterval).mp fun draw => ?_
    obtain ⟨i, hi, hpos⟩ := hpositive draw
    rw [(Build.settle_eq_ok_iff.mp hi).1]
    exact hpos
  · intro h draw
    refine ⟨_, ?_, (forall_jitteredInterval_pos_iff hinterval).mpr h draw⟩
    exact Build.settle_eq_ok_iff.mpr ⟨rfl, fun _ => h.jitterFault? hinterval draw⟩

end Config.Announce

end TorrentTracker
