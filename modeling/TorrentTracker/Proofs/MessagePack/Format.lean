import Mathlib.Tactic.SplitIfs
import TorrentTracker.MessagePack.Address

/-
MessagePack as a format: which bytes spell a value, and which spelling is
the shortest.

The writers produce one spelling of a value and the readers take many. The
definitions of this file are about the format itself and mention neither. A
value is spelled by a head and then its parts. `Opens` lists the heads
there are: a small number or a short length stands in the first byte, a
larger one in one, two, four or eight bytes behind it. `Spells` asks for
the shortest head at every turn and leaves no other choice, so a value has
one such spelling (`Spells.unique`).

That the writers find it is a race between the limits they compare with
and the capacities of the widths: `length_natural_le` and its like say that
no width which has room for a number is beaten. `Writes` is what a writer
then promises: its bytes may stand in front of any spelling as the spelling
of its value.

# Main statements

- `Spells.unique`: a value has one shortest spelling;
- `writes_integer`, `writes_sequence`, `writes_octets`, `writes_ip`: what
  the writers make is the shortest.
-/

namespace TorrentTracker.MessagePack

-- ============================================================== values

/-- What can be spelled, as far as snapshots need it. -/
inductive Value where
  | boolean (b : Bool)
  | integer (n : Int)
  | text (bytes : Bytes)
  | array (items : List Value)
  | map (entries : List (Value × Value))

/-- The values that are spelled after the head of a value. -/
def Value.parts : Value → List Value
  | array items => items
  | map entries => entries.flatMap fun entry => [entry.1, entry.2]
  | _ => []

-- =============================================================== heads

/-- How a number is put into a head: added to a first byte while it lies
between two limits, or in so many bytes, in two's complement if it may be
negative, behind a first byte of their own. -/
structure Counting where
  base : Nat
  low : Int
  high : Int
  codes : List (Nat × UInt8)
  signed : Bool

/-- The numbers that a width has room for. -/
def Counting.Fits (c : Counting) (width : Nat) (n : Int) : Prop :=
  if c.signed then -(capacity width / 2 : Nat) ≤ n ∧ n < (capacity width / 2 : Nat)
  else 0 ≤ n ∧ n < capacity width

/-- Numbers without a sign. -/
def naturals : Counting :=
  ⟨0, 0, 128, [(1, 0xcc), (2, 0xcd), (4, 0xce), (8, 0xcf)], false⟩

/-- Numbers with a sign. -/
def integers : Counting :=
  ⟨256, -32, 0, [(1, 0xd0), (2, 0xd1), (4, 0xd2), (8, 0xd3)], true⟩

/-- The lengths of texts. -/
def texts : Counting := ⟨0xa0, 0, 32, [(1, 0xd9), (2, 0xda), (4, 0xdb)], false⟩

/-- The lengths of sequences. -/
def arrays : Counting := ⟨0x90, 0, 16, [(2, 0xdc), (4, 0xdd)], false⟩

/-- The lengths of maps. -/
def maps : Counting := ⟨0x80, 0, 16, [(2, 0xde), (4, 0xdf)], false⟩

/-- A head with the number `n` in it. -/
inductive Counting.Counts (c : Counting) (n : Int) : Bytes → Prop where
  | short (hlow : c.low ≤ n) (hhigh : n < c.high) : Counts c n [UInt8.ofNat (c.base + n).toNat]
  | long {width : Nat} {code : UInt8} (hcode : (width, code) ∈ c.codes) (h : c.Fits width n) :
      Counts c n (code :: complement width n)

/-- The heads of a value; a text stands in its own. -/
inductive Opens : Value → Bytes → Prop where
  | no : Opens (.boolean false) [0xc2]
  | yes : Opens (.boolean true) [0xc3]
  | unsigned {n : Int} {head : Bytes} (h : naturals.Counts n head) : Opens (.integer n) head
  | signed {n : Int} {head : Bytes} (h : integers.Counts n head) : Opens (.integer n) head
  | text {t head : Bytes} (h : texts.Counts t.length head) : Opens (.text t) (head ++ t)
  | array {items : List Value} {head : Bytes} (h : arrays.Counts items.length head) :
      Opens (.array items) head
  | map {entries : List (Value × Value)} {head : Bytes} (h : maps.Counts entries.length head) :
      Opens (.map entries) head

/-- The head to use: no other is shorter, and a number from zero on goes
without a sign. -/
structure Terse (v : Value) (head : Bytes) : Prop where
  opens : Opens v head
  shortest : ∀ other, Opens v other → head.length ≤ other.length
  unsigned : ∀ n, v = .integer n → 0 ≤ n → naturals.Counts n head

/-- What spells values one after the other, each by its head and then its
parts. -/
inductive Spells : List Value → Bytes → Prop where
  | nil : Spells [] []
  | cons {v : Value} {vs : List Value} {head rest : Bytes} (hhead : Terse v head)
      (hrest : Spells (v.parts ++ vs) rest) : Spells (v :: vs) (head ++ rest)

-- ======================================================== one spelling

variable {v : Value} {n : Int} {width : Nat} {c : Counting} {head other : Bytes}

@[simp]
theorem length_complement (width : Nat) (n : Int) : (complement width n).length = width :=
  length_bigEndian _ _

/-- A width has one first byte, and none is zero. -/
def Counting.Distinct (c : Counting) : Prop :=
  ∀ x ∈ c.codes, ∀ y ∈ c.codes, 0 < x.1 ∧ (x.1 = y.1 → x = y)

/-- Heads of one length with one number in them are one head: a short head is
shorter than any with a code, and no two codes have counts of one width. -/
theorem Counting.Counts.eq (h : c.Counts n head) (h' : c.Counts n other) (hc : c.Distinct)
    (hlen : head.length = other.length) : head = other := by
  cases h with
  | short _ _ =>
      cases h' with
      | short _ _ => rfl
      | long hcode _ =>
          have hpos := (hc _ hcode _ hcode).1
          simp only [List.length_cons, List.length_nil, length_complement] at hlen
          omega
  | long hcode _ =>
      cases h' with
      | short _ _ =>
          have hpos := (hc _ hcode _ hcode).1
          simp only [List.length_cons, List.length_nil, length_complement] at hlen
          omega
      | long hcode' _ =>
          -- heads of one length have counts of one width, and so one code
          simp only [List.length_cons, length_complement, Nat.add_right_cancel_iff] at hlen
          cases (hc _ hcode _ hcode').2 hlen
          rfl

/-- There is no counting below zero without a sign. -/
theorem Counting.Counts.nonneg (h : c.Counts n head) (hlow : c.low = 0)
    (hsigned : c.signed = false) : 0 ≤ n := by
  cases h with
  | short hn _ => rwa [hlow] at hn
  | long _ hfits =>
      rw [Fits, hsigned] at hfits
      exact hfits.1

/-- There is one head to use. -/
theorem Terse.unique (h : Terse v head) (h' : Terse v other) : head = other := by
  have hlen : head.length = other.length :=
    Nat.le_antisymm (h.shortest _ h'.opens) (h'.shortest _ h.opens)
  have hnaturals : naturals.Distinct := by unfold Counting.Distinct naturals; decide
  have hintegers : integers.Distinct := by unfold Counting.Distinct integers; decide
  have htexts : texts.Distinct := by unfold Counting.Distinct texts; decide
  have harrays : arrays.Distinct := by unfold Counting.Distinct arrays; decide
  have hmaps : maps.Distinct := by unfold Counting.Distinct maps; decide
  cases v with
  | boolean b =>
      cases h.opens with
      | no => cases h'.opens; rfl
      | yes => cases h'.opens; rfl
  | integer n =>
      rcases Int.lt_or_le n 0 with hneg | hn
      · -- below zero only the heads with a sign are left
        have hsign : ∀ {head}, Opens (.integer n) head → integers.Counts n head := by
          intro head hopens
          cases hopens with
          | unsigned hcounts => exact absurd (hcounts.nonneg rfl rfl) (by omega)
          | signed hcounts => exact hcounts
        exact (hsign h.opens).eq (hsign h'.opens) hintegers hlen
      · exact (h.unsigned n rfl hn).eq (h'.unsigned n rfl hn) hnaturals hlen
  | text t =>
      cases h.opens with
      | text hcounts =>
          cases h'.opens with
          | text hcounts' =>
              rw [List.length_append, List.length_append, Nat.add_right_cancel_iff] at hlen
              rw [hcounts.eq hcounts' htexts hlen]
  | array items =>
      cases h.opens with
      | array hcounts =>
          cases h'.opens with
          | array hcounts' => exact hcounts.eq hcounts' harrays hlen
  | map entries =>
      cases h.opens with
      | map hcounts =>
          cases h'.opens with
          | map hcounts' => exact hcounts.eq hcounts' hmaps hlen

/-- The bytes that spell values in the shortest way are one string. Values are
taken one by one: the shortest forms of each are one, so what follows is what
spells the rest. -/
theorem Spells.unique {vs : List Value} {a b : Bytes} (h : Spells vs a) (h' : Spells vs b) :
    a = b := by
  induction h generalizing b with
  | nil =>
      cases h'
      rfl
  | cons hhead _ ih =>
      cases h' with
      | cons hhead' hrest' => rw [hhead.unique hhead', ih hrest']

-- ======================================================== the shortest

/-- From zero on two's complement is the number itself. -/
theorem complement_natCast (width n : Nat) : complement width n = bigEndian width n := by
  have hvalue : (capacity width + (n : Int)).toNat = capacity width + n := by omega
  have hmod : ofBigEndian (bigEndian width (capacity width + n))
      = ofBigEndian (bigEndian width n) := by
    rw [ofBigEndian_bigEndian, ofBigEndian_bigEndian, Nat.add_mod_left]
  have hback := bigEndian_ofBigEndian (bigEndian width (capacity width + n))
  have hback' := bigEndian_ofBigEndian (bigEndian width n)
  rw [length_bigEndian] at hback hback'
  rw [complement, hvalue, ← hback, hmod, hback']

/-- A length or a number without a sign, behind its first byte. -/
theorem Counting.counts_long {n : Nat} {code : UInt8} (hcode : (width, code) ∈ c.codes)
    (hsigned : c.signed = false) (h : n < capacity width) :
    c.Counts n (code :: bigEndian width n) := by
  rw [← complement_natCast]
  refine .long hcode ?_
  rw [Fits, hsigned]
  exact ⟨Int.natCast_nonneg n, Int.ofNat_lt.mpr h⟩

/-- The same in the first byte itself. -/
theorem Counting.counts_short {n : Nat} (hlow : c.low = 0) (h : (n : Int) < c.high) :
    c.Counts n [UInt8.ofNat (c.base + n)] := by
  have hshort : c.Counts n [UInt8.ofNat (c.base + (n : Int)).toNat] :=
    .short (hlow ▸ Int.natCast_nonneg n) h
  rwa [← Int.natCast_add, Int.toNat_natCast] at hshort

/-- A number is written with the shortest of the codes that can say it. The
branches of the writer are tried in order of width. -/
theorem counts_natural {n : Nat} (h : n < UInt64.size) : naturals.Counts n (natural n) := by
  unfold natural
  split
  · next h7 =>
    have hshort : naturals.Counts n [UInt8.ofNat (naturals.base + n)] :=
      Counting.counts_short rfl (Int.ofNat_lt.mpr h7)
    rwa [show naturals.base + n = n from Nat.zero_add n] at hshort
  split
  · next h8 => exact Counting.counts_long (by decide) rfl h8
  split
  · next h16 => exact Counting.counts_long (by decide) rfl h16
  split
  · next h32 => exact Counting.counts_long (by decide) rfl h32
  · exact Counting.counts_long (by decide) rfl h

/-- The widths of a number. -/
def IntegerWidth (width : Nat) : Prop := width = 1 ∨ width = 2 ∨ width = 4 ∨ width = 8

theorem integerWidth_of_naturals : ∀ x ∈ naturals.codes, IntegerWidth x.1 := by
  unfold IntegerWidth
  decide

theorem integerWidth_of_integers : ∀ x ∈ integers.codes, IntegerWidth x.1 := by
  unfold IntegerWidth
  decide

/-- No width that has room for a number is narrower than the writer's, which
took the first that has. -/
theorem length_natural_le {n : Nat} (hwidth : IntegerWidth width)
    (h : n < capacity width) : (natural n).length ≤ width + 1 := by
  have h8 : UInt8.size = 256 := rfl
  have h16 : UInt16.size = 65536 := rfl
  have h32 : UInt32.size = 4294967296 := rfl
  unfold natural
  rcases hwidth with rfl | rfl | rfl | rfl
  all_goals
    simp only [capacity] at h
    split_ifs
    all_goals
      simp only [List.length_cons, length_bigEndian]
      omega

/-- The same of a number below zero. -/
theorem length_integer_le {n : Int} (hneg : n < 0)
    (hwidth : IntegerWidth width)
    (h : -(capacity width / 2 : Nat) ≤ n) : (integer n).length ≤ width + 1 := by
  have h8 : Int8.minValue.toInt = -128 := rfl
  have h16 : Int16.minValue.toInt = -32768 := rfl
  have h32 : Int32.minValue.toInt = -2147483648 := rfl
  unfold integer
  rw [if_neg (Int.not_le.mpr hneg)]
  rcases hwidth with rfl | rfl | rfl | rfl
  all_goals
    simp only [capacity] at h
    split_ifs
    all_goals
      simp only [List.length_cons, length_complement]
      omega

/-- The widths of the length of a sequence. -/
def LengthWidth (width : Nat) : Prop := width = 2 ∨ width = 4

theorem lengthWidth_of_arrays : ∀ x ∈ arrays.codes, LengthWidth x.1 := by
  unfold LengthWidth
  decide

/-- A header is as short as any whose width can say the length, as the writer
tries the widths in their order. -/
theorem length_arrayHeader_le {n : Nat} (hwidth : LengthWidth width)
    (h : n < capacity width) : (arrayHeader n).length ≤ width + 1 := by
  have h16 : UInt16.size = 65536 := rfl
  unfold arrayHeader
  rcases hwidth with rfl | rfl
  all_goals
    simp only [capacity] at h
    split_ifs
    all_goals
      simp only [List.length_cons, List.length_nil, length_bigEndian]
      omega

/-- A negative integer is written with the shortest of the codes that can say
it. -/
theorem counts_integer {n : Int} (hneg : n < 0) (hmin : Int64.minValue.toInt ≤ n) :
    integers.Counts n (integer n) := by
  have h8 : Int8.minValue.toInt = -128 := rfl
  have h16 : Int16.minValue.toInt = -32768 := rfl
  have h32 : Int32.minValue.toInt = -2147483648 := rfl
  have h64 : Int64.minValue.toInt = -9223372036854775808 := rfl
  have hlong : ∀ width code, (width, code) ∈ integers.codes → -(capacity width / 2 : Nat) ≤ n →
      integers.Counts n (code :: complement width n) := by
    intro width code hcode hlow
    refine .long hcode ⟨hlow, ?_⟩
    omega
  unfold integer
  split
  · omega
  split
  · next h5 => exact .short h5 hneg
  split
  · exact hlong 1 _ (by decide) (by simp only [capacity]; omega)
  split
  · exact hlong 2 _ (by decide) (by simp only [capacity]; omega)
  split
  · exact hlong 4 _ (by decide) (by simp only [capacity]; omega)
  · exact hlong 8 _ (by decide) (by simp only [capacity]; omega)

/-- A length is announced with the shortest of the codes that can say it, the
shortest being the first byte alone. -/
theorem counts_arrayHeader {n : Nat} (h : n < UInt32.size) : arrays.Counts n (arrayHeader n) := by
  unfold arrayHeader
  split
  · next h4 => exact Counting.counts_short rfl (Int.ofNat_lt.mpr h4)
  split
  · next h16 => exact Counting.counts_long (by decide) rfl h16
  · exact Counting.counts_long (by decide) rfl h

-- ============================================================= writers

/-- What is no longer than a first byte where that is enough, and no longer
than any width with room for the number and its first byte, is no longer
than a head. -/
theorem Counting.Counts.le_length {k : Nat} (h : c.Counts n head)
    (hshort : c.low ≤ n → n < c.high → k ≤ 1)
    (hlong : ∀ x ∈ c.codes, c.Fits x.1 n → k ≤ x.1 + 1) : k ≤ head.length := by
  cases h with
  | short hlow hhigh => exact hshort hlow hhigh
  | long hcode hfits =>
      rw [List.length_cons, length_complement]
      exact hlong _ hcode hfits

/-- A written number is its shortest form. Its own codes are beaten by none of
theirs, and those of negative integers cannot say it any shorter. -/
theorem terse_natural {n : Nat} (h : n < UInt64.size) : Terse (.integer n) (natural n) where
  opens := .unsigned (counts_natural h)
  shortest := by
    intro other hother
    cases hother with
    | unsigned hcounts =>
        refine hcounts.le_length ?_ fun x hx hfits =>
          length_natural_le (integerWidth_of_naturals x hx) (Int.ofNat_lt.mp hfits.2)
        intro _ hlt
        unfold natural
        refine Nat.le_of_eq ?_
        rw [if_pos (Int.ofNat_lt.mp hlt), length_bigEndian]
    | signed hcounts =>
        refine hcounts.le_length ?_ ?_
        · exact fun _ hneg => absurd hneg (Int.not_lt.mpr (Int.natCast_nonneg n))
        · intro x hx hfits
          have hhalf : n < capacity x.1 / 2 := Int.ofNat_lt.mp hfits.2
          exact length_natural_le (integerWidth_of_integers x hx) (by omega)
  unsigned := by
    intro m hm _
    cases hm
    exact counts_natural h

/-- The writer's spelling of an integer is the shortest there is. Below zero it
is the first width that reaches; else the integer is spelled like a natural
number. -/
theorem terse_integer {n : Int} (hmin : Int64.minValue.toInt ≤ n)
    (hmax : n ≤ Int64.maxValue.toInt) : Terse (.integer n) (integer n) := by
  rcases Int.lt_or_le n 0 with hneg | hn
  · refine ⟨.signed (counts_integer hneg hmin), ?_, fun m hm hm' => ?_⟩
    · intro other hother
      cases hother with
      | unsigned hcounts => exact absurd (hcounts.nonneg rfl rfl) (by omega)
      | signed hcounts =>
          -- any other head with a sign is as wide as the number needs, or wider
          refine hcounts.le_length ?_ fun x hx hfits =>
            length_integer_le hneg (integerWidth_of_integers x hx) hfits.1
          intro hlow _
          unfold integer
          refine Nat.le_of_eq ?_
          rw [if_neg (Int.not_le.mpr hneg), if_pos (show -32 ≤ n from hlow), length_complement]
    · cases hm
      omega
  · have hmax64 : Int64.maxValue.toInt = 9223372036854775807 := rfl
    have hterse := terse_natural (n := n.toNat)
      (show n.toNat < 18446744073709551616 by omega)
    unfold integer
    rwa [if_pos hn, ← Int.toNat_of_nonneg hn, Int.toNat_natCast]

theorem terse_boolean (b : Bool) : Terse (.boolean b) (boolean b) where
  opens := by
    cases b with
    | false => exact .no
    | true => exact .yes
  shortest := by
    intro other hother
    cases hother with
    | no => exact Nat.le_refl _
    | yes => exact Nat.le_refl _
  unsigned := nofun

/-- A header followed by its items is the shortest form of a sequence, if the
items are in theirs. -/
theorem terse_array {items : List Value} (h : items.length < UInt32.size) :
    Terse (.array items) (arrayHeader items.length) where
  opens := .array (counts_arrayHeader h)
  shortest := by
    intro other hother
    cases hother with
    | array hcounts =>
        refine hcounts.le_length ?_ fun x hx hfits =>
          length_arrayHeader_le (lengthWidth_of_arrays x hx) (Int.ofNat_lt.mp hfits.2)
        intro _ hlt
        unfold arrayHeader
        rw [if_pos (Int.ofNat_lt.mp hlt)]
        exact Nat.le_refl 1
  unsigned := nofun

/-- A text of fewer than 32 bytes. -/
theorem terse_text {text : String} (h : (utf8 text).length < 32) :
    Terse (.text (utf8 text)) (shortText text) where
  opens := by
    have hshort : texts.Counts (utf8 text).length [UInt8.ofNat (texts.base + (utf8 text).length)] :=
      Counting.counts_short rfl (Int.ofNat_lt.mpr h)
    exact .text hshort
  shortest := by
    intro other hother
    cases hother with
    | text hcounts =>
        rw [shortText, List.length_cons, List.length_append, Nat.add_comm]
        refine Nat.add_le_add_right (hcounts.le_length (fun _ _ => Nat.le_refl 1) ?_) _
        exact fun x _ _ => Nat.le_add_left 1 x.1
  unsigned := nofun

/-- The header of a map with one entry has the one form that is as short. -/
theorem terse_singleton (key value : Value) : Terse (.map [(key, value)]) singletonHeader where
  opens := by
    have hshort : maps.Counts (1 : Nat) [UInt8.ofNat (maps.base + 1)] :=
      Counting.counts_short rfl (by decide)
    exact .map hshort
  shortest := by
    intro other hother
    cases hother with
    | map hcounts =>
        refine hcounts.le_length (fun _ _ => Nat.le_refl 1) ?_
        exact fun x _ _ => Nat.le_add_left 1 x.1
  unsigned := nofun

-- ============================================================= writing

/-- The bytes may stand in front of any spelling as the spelling of a
value. -/
def Writes (v : Value) (bytes : Bytes) : Prop :=
  ∀ vs rest, Spells vs rest → Spells (v :: vs) (bytes ++ rest)

/-- A written value, alone, is the spelling of a list of one. -/
theorem Writes.spells {bytes : Bytes} (h : Writes v bytes) : Spells [v] bytes := by
  have hspells := h [] [] .nil
  rwa [List.append_nil] at hspells

/-- A value without parts is its head. -/
theorem Terse.writes (h : Terse v head) (hparts : v.parts = []) : Writes v head := by
  intro vs rest hrest
  refine .cons h ?_
  rwa [hparts]

/-- A value with parts is its head and the bytes of each part. -/
theorem Terse.writes_parts (h : Terse v head) (parts : List (Value × Bytes))
    (hparts : v.parts = parts.map Prod.fst) (hwrites : ∀ part ∈ parts, Writes part.1 part.2) :
    Writes v (head ++ parts.flatMap Prod.snd) := by
  intro vs rest hrest
  rw [List.append_assoc]
  refine .cons h ?_
  rw [hparts]
  clear hparts
  induction parts with
  | nil => exact hrest
  | cons part parts ih =>
      rw [List.map_cons, List.flatMap_cons, List.cons_append, List.append_assoc]
      refine hwrites part List.mem_cons_self _ _ (ih fun other hother => ?_)
      exact hwrites other (List.mem_cons_of_mem _ hother)

theorem writes_natural {n : Nat} (h : n < UInt64.size) : Writes (.integer n) (natural n) :=
  (terse_natural h).writes rfl

theorem writes_integer (n : Int64) : Writes (.integer n.toInt) (integer n.toInt) :=
  (terse_integer n.minValue_le_toInt n.toInt_le).writes rfl

theorem writes_boolean (b : Bool) : Writes (.boolean b) (boolean b) :=
  (terse_boolean b).writes rfl

/-- A sequence is written as its head and then the bytes of each item, with
nothing between them. -/
theorem writes_array (parts : List (Value × Bytes)) (hlen : parts.length < UInt32.size)
    (h : ∀ part ∈ parts, Writes part.1 part.2) :
    Writes (.array (parts.map Prod.fst)) (arrayHeader parts.length ++ parts.flatMap Prod.snd) := by
  have hterse : Terse (.array (parts.map Prod.fst)) (arrayHeader (parts.map Prod.fst).length) :=
    terse_array (by rwa [List.length_map])
  rw [List.length_map] at hterse
  exact hterse.writes_parts parts rfl h

/-- A written sequence is terse if what it is written of is, and its length can
be announced. -/
theorem writes_sequence {α : Type} {value : α → Value} {write : α → Bytes} {xs : List α}
    (h : ∀ x ∈ xs, Writes (value x) (write x)) (hlen : xs.length < UInt32.size) :
    Writes (.array (xs.map value)) (sequence write xs) := by
  have hwrites := writes_array (xs.map fun x => (value x, write x))
    (by rwa [List.length_map]) (by simpa using h)
  rw [List.map_map, List.length_map, List.flatMap_map] at hwrites
  exact hwrites

/-- The octets of a string are written as the sequence of their numbers. -/
def Value.ofOctets {n : Nat} (o : Octets n) : Value :=
  .array (o.bytes.map fun b => .integer b.toNat)

theorem writes_octets {n : Nat} (o : Octets n) (h : n < UInt32.size) :
    Writes (.ofOctets o) (octets o) := by
  refine writes_sequence (fun b _ => writes_natural ?_) (by rwa [o.length_bytes])
  exact Nat.lt_trans b.toNat_lt (by decide)

/-- An address is a map with one entry, from the name of its family to its
octets. -/
def Value.ofIp : Ip → Value
  | .v4 o => .map [(.text (utf8 "V4"), .ofOctets o)]
  | .v6 o => .map [(.text (utf8 "V6"), .ofOctets o)]

/-- A map with one entry, from a short name. -/
theorem writes_singleton {name : String} {value : Value} {bytes : Bytes}
    (hname : (utf8 name).length < 32) (h : Writes value bytes) :
    Writes (.map [(.text (utf8 name), value)]) (singletonHeader ++ shortText name ++ bytes) := by
  have hwrites := (terse_singleton (.text (utf8 name)) value).writes_parts
    [(.text (utf8 name), shortText name), (value, bytes)] rfl (by
      intro part hpart
      rcases List.mem_cons.mp hpart with rfl | hpart
      · exact (terse_text hname).writes rfl
      · rw [List.mem_singleton.mp hpart]
        exact h)
  rw [List.append_assoc]
  simpa using hwrites

/-- An address is a map from its family to its octets. -/
theorem writes_ip (a : Ip) : Writes (.ofIp a) (ip a) := by
  cases a with
  | v4 o => exact writes_singleton (by decide) (writes_octets o (by decide))
  | v6 o => exact writes_singleton (by decide) (writes_octets o (by decide))

end TorrentTracker.MessagePack
