import Mathlib.Data.List.TakeWhile
import TorrentTracker.Decimal
import TorrentTracker.TextReader

/-
Readers of text on what the project writes.

A number takes all the digits in front, so what follows it has to begin
with something else (`Ends`). That is the whole condition: the shortest
digits of a number have no needless zero and are no longer than the number
asks for, and then they are read as that number in every base and within
every bound that has room for it.

# Main statements

- `run_number_toDigits`: a number is read back, and the rest is left;
- `run_number_of_ends`: no number is read where no digit stands;
- `suffix_of_run_number`: what is left is an end of the text.
-/

namespace TorrentTracker

-- =============================================================== digits

namespace TextReader

variable {base n most bound : Nat} {padded : Bool} {digits rest text : List Char}

/-- No digit of the base stands in front. -/
def Ends (base : Nat) (rest : List Char) : Prop :=
  ∀ c ∈ rest.head?, (digitValue? base c).isSome = false

theorem ends_nil : Ends base [] := nofun

theorem ends_cons {c : Char} (h : (digitValue? base c).isSome = false) : Ends base (c :: rest) := by
  rintro _ ⟨⟩
  exact h

/-- The digit for a value has that value, in the two bases that are
written. -/
theorem digitValue?_digitChar (hbase : base ∈ [10, 16]) (h : n < base) :
    digitValue? base n.digitChar = some n := by
  have hall : ∀ b ∈ [10, 16], ∀ n < b, digitValue? b n.digitChar = some n := by decide
  exact hall base hbase n h

theorem two_le_of_mem (hbase : base ∈ [10, 16]) : 1 < base := by
  have hall : ∀ b ∈ [10, 16], 1 < b := by decide
  exact hall base hbase

/-- One more digit at the end moves the others up a place. -/
theorem digitsValue_append_singleton (digits : List Char) (c : Char) :
    digitsValue base (digits ++ [c])
      = base * digitsValue base digits + (digitValue? base c).getD 0 := by
  unfold digitsValue
  rw [List.foldl_append]
  rfl

/-- The digits of a number spell that number. -/
theorem digitsValue_toDigits (hbase : base ∈ [10, 16]) (n : Nat) :
    digitsValue base (Nat.toDigits base n) = n := by
  -- on the number, which loses its last digit
  have htwo := two_le_of_mem hbase
  induction n using Nat.strongRecOn with
  | ind n ih =>
      by_cases h : n < base
      · rw [Nat.toDigits_of_lt_base h]
        show base * 0 + (digitValue? base n.digitChar).getD 0 = n
        rw [digitValue?_digitChar hbase h, Nat.mul_zero, Nat.zero_add]
        rfl
      · have hle := Nat.le_of_not_lt h
        have hsmaller : n / base < n := Nat.div_lt_self (by omega) htwo
        rw [Nat.toDigits_of_base_le htwo hle, digitsValue_append_singleton, ih _ hsmaller,
          digitValue?_digitChar hbase (Nat.mod_lt n (by omega))]
        exact Nat.div_add_mod n base

/-- And all of them are digits. -/
theorem isSome_of_mem_toDigits (hbase : base ∈ [10, 16]) (n : Nat) :
    ∀ c ∈ Nat.toDigits base n, (digitValue? base c).isSome = true := by
  have htwo := two_le_of_mem hbase
  induction n using Nat.strongRecOn with
  | ind n ih =>
      by_cases h : n < base
      · rw [Nat.toDigits_of_lt_base h, List.forall_mem_singleton, digitValue?_digitChar hbase h]
        rfl
      · have hsmaller : n / base < n := Nat.div_lt_self (by omega) htwo
        rw [Nat.toDigits_of_base_le htwo (Nat.le_of_not_lt h), List.forall_mem_append]
        refine ⟨ih _ hsmaller, ?_⟩
        rw [List.forall_mem_singleton, digitValue?_digitChar hbase (Nat.mod_lt n (by omega))]
        rfl

/-- The shortest digits begin with a zero for zero only. This is what the
reader of octets asks of a numeral that begins with one. -/
theorem eq_zero_of_head?_toDigits (htwo : 1 < base) (n : Nat)
    (h : (Nat.toDigits base n).head? = some '0') : n = 0 := by
  induction n using Nat.strongRecOn with
  | ind n ih =>
      by_cases hlt : n < base
      · rw [Nat.toDigits_of_lt_base hlt, List.head?_cons, Option.some_inj] at h
        exact Nat.digitChar_eq_zero.mp h
      · have hsmaller : n / base < n := Nat.div_lt_self (by omega) htwo
        rw [Nat.toDigits_of_base_le htwo (Nat.le_of_not_lt hlt), List.head?_append,
          List.head?_eq_some_head Nat.toDigits_ne_nil, Option.some_or,
          ← List.head?_eq_some_head] at h
        have hzero := ih _ hsmaller h
        rcases Nat.div_eq_zero_iff.mp hzero with hbase | hlt'
        · omega
        · exact absurd hlt' hlt

theorem takeWhile_of_ends (hrest : Ends base rest) :
    rest.takeWhile (fun c => (digitValue? base c).isSome) = [] := by
  cases rest with
  | nil => rfl
  | cons c rest =>
      refine List.takeWhile_cons_of_neg ?_
      rw [hrest c rfl]
      decide

/-- A run of digits, and what follows it. -/
theorem takeWhile_digits (hdigits : ∀ c ∈ digits, (digitValue? base c).isSome = true)
    (hrest : Ends base rest) :
    (digits ++ rest).takeWhile (fun c => (digitValue? base c).isSome) = digits := by
  rw [List.takeWhile_append_of_pos hdigits, takeWhile_of_ends hrest, List.append_nil]

/-- The shortest digits of a number are read as that number, up to where
they end. -/
theorem run_number_toDigits (hbase : base ∈ [10, 16]) (hbound : n < bound)
    (hmost : (Nat.toDigits base n).length ≤ most) (hrest : Ends base rest) :
    (number base most bound padded).run (Nat.toDigits base n ++ rest) = some (n, rest) := by
  have htwo := two_le_of_mem hbase
  have hlead : ((Nat.toDigits base n).head? == some '0'
      && decide (1 < (Nat.toDigits base n).length)) = false := by
    by_cases h : (Nat.toDigits base n).head? = some '0'
    · rw [eq_zero_of_head?_toDigits htwo n h, Nat.toDigits_of_lt_base (by omega)]
      rfl
    · rw [beq_eq_false_iff_ne.mpr h, Bool.false_and]
  have hempty : (Nat.toDigits base n).isEmpty = false :=
    List.isEmpty_eq_false_iff.mpr Nat.toDigits_ne_nil
  simp only [StateT.run, number, takeWhile_digits (isSome_of_mem_toDigits hbase n) hrest,
    digitsValue_toDigits hbase, hempty, Bool.and_assoc, hlead, Bool.and_false, Bool.false_or,
    decide_eq_false (Nat.not_lt.mpr hmost), decide_eq_false (Nat.not_le.mpr hbound),
    List.drop_left]
  rfl

theorem run_number_of_ends (hrest : Ends base rest) :
    (number base most bound padded).run rest = none := by
  simp only [StateT.run, number, takeWhile_of_ends hrest]
  rfl

/-- What a number leaves is an end of the text. -/
theorem suffix_of_run_number {m : Nat}
    (h : (number base most bound padded).run text = some (m, rest)) : rest <:+ text := by
  simp only [StateT.run, number] at h
  split at h
  · cases h
  · cases h
    exact List.drop_suffix _ _

@[simp]
theorem run_char_cons (c : Char) (rest : List Char) : (char c).run (c :: rest) = some ((), rest) :=
  if_pos rfl

theorem run_char_of_ne {c d : Char} (h : d ≠ c) : (char c).run (d :: rest) = none :=
  if_neg h

theorem run_char_of_not_mem {c : Char} (h : c ∉ text) : (char c).run text = none := by
  cases text with
  | nil => rfl
  | cons d rest => exact run_char_of_ne (List.ne_of_not_mem_cons h).symm

end TextReader

end TorrentTracker
