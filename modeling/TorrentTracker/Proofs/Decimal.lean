import Mathlib.Data.List.Basic
import Mathlib.Data.List.Induction
import TorrentTracker.Decimal
import TorrentTracker.Word

/-
Numerals are read back.

A shortest numeral is taken apart at its last digit (`ofNat_of_ten_le`),
the way it is made, and its value is built up the same way
(`value_append_singleton`). With that the induction is on the number.

The other way round, a numeral without needless zeros (`Plain`) loses its
last digit and stays one, so here the induction is on the digits.

# Main statements

- `natural?_zeros`: a shortest numeral is read as its number, also with
  zeros in front of it;
- `int64?_padded`, `uint16?_padded`: and as the word that has that number,
  with its sign;
- `plain_ofNat`, `ofNat_value`: the shortest numerals are the plain ones.
-/

namespace TorrentTracker.Decimal

-- =============================================================== digits

def digit (n : Nat) : UInt8 := UInt8.ofNat (48 + n)

/-- The bytes of the digits follow each other from the byte of zero. -/
theorem toNat_digit {n : Nat} (h : n < 10) : (digit n).toNat = 48 + n :=
  UInt8.toNat_ofNat_of_lt' (show 48 + n < 256 by omega)

theorem isDigit_digit {n : Nat} (h : n < 10) : isDigit (digit n) = true := by
  unfold isDigit
  rw [Bool.and_eq_true, decide_eq_true_eq, decide_eq_true_eq, UInt8.le_iff_toNat_le,
    UInt8.le_iff_toNat_le, toNat_digit h]
  exact ⟨Nat.le_add_right _ _, Nat.add_le_add_left (Nat.le_of_lt_succ h) 48⟩

/-- The digits that the library writes are the bytes that are read here. -/
theorem byte_digitChar {n : Nat} (h : n < 10) : UInt8.ofNat n.digitChar.toNat = digit n := by
  have hall : ∀ n < 10, UInt8.ofNat (Nat.digitChar n).toNat = digit n := by decide
  exact hall n h

/-- A number below ten is one digit. This is where the recursion of the next
lemma ends. -/
theorem ofNat_of_lt_ten {n : Nat} (h : n < 10) : ofNat n = [digit n] := by
  unfold ofNat
  rw [Nat.toDigits_of_lt_base h, List.map_singleton, byte_digitChar h]

/-- The last digit stands at the end, after the numeral of the rest. -/
theorem ofNat_of_ten_le {n : Nat} (h : 10 ≤ n) : ofNat n = ofNat (n / 10) ++ [digit (n % 10)] := by
  unfold ofNat
  rw [Nat.toDigits_of_base_le (by decide) h, List.map_append, List.map_singleton,
    byte_digitChar (Nat.mod_lt n (by decide))]

theorem ofNat_ne_nil (n : Nat) : ofNat n ≠ [] := by
  intro hnil
  exact Nat.toDigits_ne_nil (List.map_eq_nil_iff.mp hnil)

/-- Nothing but digits is written for a number without a sign. -/
theorem all_isDigit_ofNat (n : Nat) : (ofNat n).all isDigit = true := by
  -- on the number, which loses its last digit
  induction n using Nat.strongRecOn with
  | ind n ih =>
      by_cases h : n < 10
      · rw [ofNat_of_lt_ten h, List.all_cons, isDigit_digit h]
        rfl
      · have hmod := Nat.mod_lt n (show 0 < 10 by decide)
        rw [ofNat_of_ten_le (Nat.le_of_not_lt h), List.all_append, ih (n / 10) (by omega),
          List.all_cons, isDigit_digit hmod]
        rfl

-- =============================================================== values

/-- A digit at the end shifts the others up by one place. -/
theorem value_append_singleton (digits : Bytes) (b : UInt8) :
    value (digits ++ [b]) = 10 * value digits + (b.toNat - 48) := by
  unfold value
  rw [List.foldl_append]
  rfl

/-- A written number is worth itself. By recursion on the number, one digit off
its end at a time. -/
theorem value_ofNat (n : Nat) : value (ofNat n) = n := by
  induction n using Nat.strongRecOn with
  | ind n ih =>
      by_cases h : n < 10
      · rw [ofNat_of_lt_ten h]
        show 10 * 0 + ((digit n).toNat - 48) = n
        rw [toNat_digit h]
        omega
      · have hmod := Nat.mod_lt n (show 0 < 10 by decide)
        rw [ofNat_of_ten_le (Nat.le_of_not_lt h), value_append_singleton,
          ih (n / 10) (by omega), toNat_digit hmod]
        omega

/-- Zeros in front make no difference. -/
theorem value_zeros (zeros : Nat) (digits : Bytes) :
    value (List.replicate zeros 48 ++ digits) = value digits := by
  induction zeros with
  | zero => rfl
  | succ zeros ih => exact ih

/-- A written number is read back, with any zeros before it. Where zeros are
not allowed the reader of that field has to see to it. -/
theorem natural?_zeros (zeros n : Nat) :
    natural? (List.replicate zeros 48 ++ ofNat n) = some n := by
  have hne : (List.replicate zeros 48 ++ ofNat n).isEmpty = false := by
    rw [List.isEmpty_eq_false_iff]
    exact List.append_ne_nil_of_right_ne_nil _ (ofNat_ne_nil n)
  have hzeros : (List.replicate zeros 48).all isDigit = true :=
    List.all_eq_true.mpr fun b hb => by rw [(List.mem_replicate.mp hb).2]; rfl
  unfold natural?
  rw [hne, List.all_append, hzeros, all_isDigit_ofNat, value_zeros, value_ofNat]
  rfl

theorem natural?_ofNat (n : Nat) : natural? (ofNat n) = some n := natural?_zeros 0 n

-- ================================================================ signs

/-- A numeral begins with a digit. -/
theorem exists_cons_ofNat (n : Nat) : ∃ b rest, ofNat n = b :: rest ∧ isDigit b = true := by
  have hdigits := all_isDigit_ofNat n
  cases hbytes : ofNat n with
  | nil => exact absurd hbytes (ofNat_ne_nil n)
  | cons b rest =>
      rw [hbytes, List.all_cons, Bool.and_eq_true] at hdigits
      exact ⟨b, rest, rfl, hdigits.1⟩

/-- A digit is none of the bytes that are not, such as a sign or a mark. -/
theorem ne_of_isDigit {b c : UInt8} (hb : isDigit b = true) (hc : isDigit c = false) : b ≠ c := by
  rintro rfl
  rw [hb] at hc
  cases hc

theorem isDigit_of_natural? {b : UInt8} {rest : Bytes} {n : Nat}
    (h : natural? (b :: rest) = some n) : isDigit b = true := by
  unfold natural? at h
  split at h
  · cases h
  · next hdigits =>
    rw [Bool.or_eq_true, not_or, Bool.not_eq_true, Bool.not_eq_true, Bool.not_eq_false',
      List.all_cons, Bool.and_eq_true] at hdigits
    exact hdigits.2.1

theorem unsigned?_of_natural? {digits : Bytes} {n : Nat} (h : natural? digits = some n) :
    unsigned? digits = some n := by
  unfold unsigned?
  split
  · exact absurd (isDigit_of_natural? h) (by decide)
  · exact h

theorem signed?_of_natural? {digits : Bytes} {n : Nat} (h : natural? digits = some n) :
    signed? digits = some (n : Int) := by
  unfold signed?
  split
  · exact absurd (isDigit_of_natural? h) (by decide)
  · exact absurd (isDigit_of_natural? h) (by decide)
  · rw [h]
    rfl

/-- A numeral with zeros in front of its digits. -/
def padded (zeros : Nat) : Int → Bytes
  | .ofNat n => List.replicate zeros 48 ++ ofNat n
  | .negSucc n => 45 :: (List.replicate zeros 48 ++ ofNat (n + 1))

theorem padded_zero (n : Int) : padded 0 n = ofInt n := by
  cases n with
  | ofNat n => rfl
  | negSucc n => rfl

/-- A written integer is read back, with any zeros after its sign. A negative
one is read by the branch of the minus sign, the others as numbers. -/
theorem signed?_padded (zeros : Nat) (n : Int) : signed? (padded zeros n) = some n := by
  cases n with
  | ofNat n => exact signed?_of_natural? (natural?_zeros zeros n)
  | negSucc n =>
      show signed? (45 :: _) = some (-((n + 1 : Nat) : Int))
      simp only [signed?, natural?_zeros]
      rfl

theorem signed?_ofInt (n : Int) : signed? (ofInt n) = some n := by
  rw [← padded_zero, signed?_padded]

/-- A written word is in the range that is checked, so it is read back as the
word. -/
theorem int64?_padded (zeros : Nat) (n : Int64) : int64? (padded zeros n.toInt) = some n := by
  have hlow : Int64.minValue.toInt ≤ n.toInt := n.minValue_le_toInt
  have hhigh : n.toInt ≤ Int64.maxValue.toInt := n.toInt_le
  unfold int64?
  rw [signed?_padded, Option.bind_some, if_pos ⟨hlow, hhigh⟩, Int64.ofInt_toInt]

theorem uint16?_padded (zeros : Nat) (n : UInt16) : uint16? (padded zeros n.toNat) = some n := by
  unfold uint16?
  rw [show unsigned? (padded zeros n.toNat) = some n.toNat from
      unsigned?_of_natural? (natural?_zeros zeros n.toNat),
    Option.bind_some, if_pos n.toNat_lt, UInt16.ofNat_toNat]

/-- A written integer has digits and at most a minus sign. -/
theorem mem_ofInt {n : Int} {b : UInt8} (h : b ∈ ofInt n) : isDigit b = true ∨ b = 45 := by
  cases n with
  | ofNat n => exact .inl (List.all_eq_true.mp (all_isDigit_ofNat n) b h)
  | negSucc n =>
      rcases List.mem_cons.mp h with rfl | h
      · exact .inr rfl
      · exact .inl (List.all_eq_true.mp (all_isDigit_ofNat (n + 1)) b h)

/-- So no mark that separates fields can stand in one. -/
theorem not_mem_ofInt {b : UInt8} (hdigit : isDigit b = false) (hminus : b ≠ 45) (n : Int) :
    b ∉ ofInt n := by
  intro hmem
  rcases mem_ofInt hmem with h | rfl
  · exact ne_of_isDigit h hdigit rfl
  · exact hminus rfl

-- ======================================================= plain numerals

/-- Digits, at least one, and no zero in front of others. -/
structure Plain (numeral : Bytes) : Prop where
  digits : numeral.all isDigit = true
  nonempty : numeral ≠ []
  unpadded : numeral.head? = some 48 → numeral = [48]

/-- A number is written without zeros before it. By recursion on the number, as
for its value. -/
theorem plain_ofNat (n : Nat) : Plain (ofNat n) where
  digits := all_isDigit_ofNat n
  nonempty := ofNat_ne_nil n
  unpadded := by
    induction n using Nat.strongRecOn with
    | ind n ih =>
        intro hzero
        by_cases h : n < 10
        · rw [ofNat_of_lt_ten h] at hzero ⊢
          rw [Option.some.inj hzero]
        · -- a numeral of several digits begins like that of the quotient
          rw [ofNat_of_ten_le (Nat.le_of_not_lt h),
            List.head?_append_of_ne_nil _ (ofNat_ne_nil _)] at hzero
          have hquotient := congrArg value (ih (n / 10) (by omega) hzero)
          rw [value_ofNat, show value [48] = 0 from rfl] at hquotient
          omega

/-- In front of another digit there is a plain numeral that is not zero's,
which is what an induction from the end needs. -/
theorem Plain.of_append_singleton {front : Bytes} {b : UInt8} (h : Plain (front ++ [b]))
    (hfront : front ≠ []) : Plain front ∧ front.head? ≠ some 48 := by
  have hhead : front.head? ≠ some 48 := by
    intro hzero
    have hwhole : front ++ [b] = [] ++ [48] :=
      h.unpadded (by rw [List.head?_append_of_ne_nil _ hfront, hzero])
    exact hfront (List.append_inj' hwhole rfl).1
  have hdigits := h.digits
  rw [List.all_append, Bool.and_eq_true] at hdigits
  exact ⟨⟨hdigits.1, hfront, fun hzero => absurd hzero hhead⟩, hhead⟩

theorem digit_toNat_sub {b : UInt8} (h : isDigit b = true) :
    b.toNat - 48 < 10 ∧ digit (b.toNat - 48) = b := by
  unfold isDigit at h
  rw [Bool.and_eq_true, decide_eq_true_eq, decide_eq_true_eq, UInt8.le_iff_toNat_le,
    UInt8.le_iff_toNat_le] at h
  have hlow : 48 ≤ b.toNat := h.1
  have hhigh : b.toNat ≤ 57 := h.2
  refine ⟨by omega, ?_⟩
  unfold digit
  rw [Nat.add_sub_cancel' hlow, UInt8.ofNat_toNat]

/-- A plain numeral is the shortest one of its number. -/
theorem ofNat_value {numeral : Bytes} (h : Plain numeral) : ofNat (value numeral) = numeral := by
  -- on the numeral, which loses its last digit
  induction numeral using List.reverseRecOn with
  | nil => exact absurd rfl h.nonempty
  | append_singleton front b ih =>
      obtain ⟨hten, hdigit⟩ := digit_toNat_sub (List.all_eq_true.mp h.digits b (by simp))
      rw [value_append_singleton]
      by_cases hfront : front = []
      · subst hfront
        rw [show 10 * value [] = 0 from rfl, Nat.zero_add, ofNat_of_lt_ten hten, hdigit,
          List.nil_append]
      · obtain ⟨hplain, hhead⟩ := h.of_append_singleton hfront
        have hpos : value front ≠ 0 := by
          intro hzero
          rw [← ih hplain, hzero] at hhead
          exact hhead rfl
        rw [ofNat_of_ten_le (by omega), Nat.mul_add_div (by decide), Nat.div_eq_of_lt hten,
          Nat.add_zero, ih hplain, Nat.mul_add_mod, Nat.mod_eq_of_lt hten, hdigit]

/-- A numeral is the written form of a number just if it is plain and worth
that number: there is one plain numeral for each. -/
theorem eq_ofNat_iff {numeral : Bytes} {n : Nat} :
    numeral = ofNat n ↔ Plain numeral ∧ value numeral = n := by
  constructor
  · rintro rfl
    exact ⟨plain_ofNat n, value_ofNat n⟩
  · rintro ⟨h, rfl⟩
    exact (ofNat_value h).symm

/-- Only a number below zero has a sign, and no number has a zero in front.
Zero itself is written without one. -/
theorem eq_ofInt_iff {numeral : Bytes} {n : Int} :
    numeral = ofInt n ↔ (Plain numeral ∧ n = value numeral)
      ∨ ∃ unsigned, numeral = 45 :: unsigned ∧ Plain unsigned ∧ 0 < value unsigned
        ∧ n = -value unsigned := by
  constructor
  · rintro rfl
    cases n with
    | ofNat n => exact .inl ⟨plain_ofNat n, by rw [ofInt, value_ofNat]; rfl⟩
    | negSucc n =>
        refine .inr ⟨ofNat (n + 1), rfl, plain_ofNat (n + 1), ?_, ?_⟩
        · rw [value_ofNat]
          exact Nat.succ_pos n
        · rw [value_ofNat]
          rfl
  · intro h
    rcases h with ⟨hplain, rfl⟩ | ⟨unsigned, rfl, hplain, hpos, rfl⟩
    · exact (ofNat_value hplain).symm
    · obtain ⟨k, hk⟩ := Nat.exists_eq_add_one_of_ne_zero (Nat.ne_zero_of_lt hpos)
      have hback := ofNat_value hplain
      rw [hk] at hback ⊢
      exact congrArg _ hback.symm

end TorrentTracker.Decimal
