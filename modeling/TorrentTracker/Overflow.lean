/-
Overflow: what arithmetic on words comes to when the exact result does not
fit.

A program is built in one of two ways. A wrapping build goes on with the
word that is left after whole turns. A checked build stops there: what it
was doing has no result, and all there is to show for it is a message that
names the operation.

# What this file adds

The functions of the library are total, and they compute what a wrapping
build computes. A function whose arithmetic can overflow has another one
beside it, its fault: the overflow that it runs into first, if it runs into
any. `Build.settle` makes one outcome of the two, and with that every such
function has a form for both builds, which ends in `In`.

- `Build.settle_wrapping`: a wrapping build has the result whatever
  overflows;
- `Build.settle_eq_ok_iff`, `Build.settle_eq_error_iff`: a checked build has
  the same result, or stops at the fault.
-/

namespace TorrentTracker

/-- An operation on words whose exact result is not a word. -/
inductive Overflow where
  | add
  | subtract
  | multiply
deriving DecidableEq

namespace Overflow

/-- What a checked build says when it stops. -/
def message : Overflow → String
  | add => "attempt to add with overflow"
  | subtract => "attempt to subtract with overflow"
  | multiply => "attempt to multiply with overflow"

/-- The overflow if the exact result does not fit. -/
def ifNot (o : Overflow) (fits : Prop) [Decidable fits] : Option Overflow :=
  if fits then none else some o

variable {o o' : Overflow} {fits : Prop} [Decidable fits]

/-- There is no fault where the exact result fits. -/
@[simp]
theorem ifNot_eq_none_iff : o.ifNot fits = none ↔ fits := by
  unfold ifNot
  split
  · exact iff_of_true rfl ‹_›
  · exact iff_of_false nofun ‹_›

/-- Where it does not fit the fault is the operation that was tried. -/
@[simp]
theorem ifNot_eq_some_iff : o.ifNot fits = some o' ↔ ¬fits ∧ o = o' := by
  unfold ifNot
  split
  · exact iff_of_false nofun fun h => h.1 ‹_›
  · rw [Option.some_inj]
    exact (and_iff_right ‹_›).symm

end Overflow

/-- How a program is built: whether words wrap or are checked. -/
inductive Build where
  | wrapping
  | checked
deriving DecidableEq

namespace Build

variable {α β : Type}

/-- The outcome of an operation from its fault and from the result that a
wrapping build has. -/
def settle (build : Build) (fault : Option Overflow) (result : α) : Except Overflow α :=
  match build, fault with
  | checked, some o => .error o
  | _, _ => .ok result

variable {build : Build} {fault : Option Overflow} {o : Overflow} {a b : α}

/-- A wrapping build has the result whatever overflows. -/
@[simp]
theorem settle_wrapping (fault : Option Overflow) (a : α) : wrapping.settle fault a = .ok a := rfl

/-- Where nothing overflows both builds have the result. -/
@[simp]
theorem settle_none (build : Build) (a : α) : build.settle none a = .ok a := by
  cases build <;> rfl

/-- There is a result unless a checked build runs into a fault, and it is
the one of a wrapping build. -/
theorem settle_eq_ok_iff :
    build.settle fault a = .ok b ↔ a = b ∧ (build = checked → fault = none) := by
  cases build with
  | wrapping => simp
  | checked =>
      cases fault with
      | none => simp
      | some o => simp [settle]

/-- An operation stops in a checked build only, and there at its fault. -/
theorem settle_eq_error_iff :
    build.settle fault a = .error o ↔ build = checked ∧ fault = some o := by
  cases build with
  | wrapping => simp
  | checked =>
      cases fault with
      | none => simp
      | some o' => simp [settle]

/-- What is made of a result is made of the outcome. -/
theorem map_settle (f : α → β) :
    (build.settle fault a).map f = build.settle fault (f a) := by
  cases build with
  | wrapping => rfl
  | checked => cases fault <;> rfl

end Build

end TorrentTracker
