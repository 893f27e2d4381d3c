import TorrentTracker.Bytes

/-
Fixed-width integers as the wire carries them: most significant byte
first, signed ones in two's complement.

# What this file adds

`Word α` says that `α` is such an integer type: a width in bytes and the
two maps between its values and the numbers below `capacity width`. The five
widths of the tracker's messages are instances, and one pair of maps
`Word.write` and `Word.read` serves them all.

- `Word.run_read_write`: reading gives back the written word and leaves
  what follows;
- `Word.write_of_run_read`: what was consumed is the written form of
  what was read, so a reader of words forgets nothing.
-/

namespace TorrentTracker

-- ========================================================== big endian

/-- How many numbers a count of bytes can spell. -/
def capacity : Nat → Nat
  | 0 => 1
  | width + 1 => 256 * capacity width

/-- The `width` low-order bytes of a number, most significant first. -/
def bigEndian : Nat → Nat → Bytes
  | 0, _ => []
  | width + 1, n => bigEndian width (n / 256) ++ [UInt8.ofNat n]

/-- The number that bytes spell, most significant first. -/
def ofBigEndian (bytes : Bytes) : Nat :=
  bytes.foldl (fun n b => 256 * n + b.toNat) 0

@[simp]
theorem length_bigEndian (width n : Nat) : (bigEndian width n).length = width := by
  induction width generalizing n with
  | zero => rfl
  | succ width ih => simp [bigEndian, ih]

theorem ofBigEndian_append_singleton (bytes : Bytes) (b : UInt8) :
    ofBigEndian (bytes ++ [b]) = 256 * ofBigEndian bytes + b.toNat := by
  simp [ofBigEndian]

/-- Spelling a number in `width` bytes keeps it modulo their capacity. -/
theorem ofBigEndian_bigEndian (width n : Nat) :
    ofBigEndian (bigEndian width n) = n % capacity width := by
  induction width generalizing n with
  | zero => simp [bigEndian, ofBigEndian, capacity, Nat.mod_one]
  | succ width ih =>
    have hsplit : n % capacity (width + 1) = n % 256 + 256 * (n / 256 % capacity width) := by
      rw [capacity, Nat.mod_mul]
    rw [bigEndian, ofBigEndian_append_singleton, ih, UInt8.toNat_ofNat', hsplit]
    omega

/-- Some bytes cannot say more than their number allows. -/
theorem ofBigEndian_lt (bytes : Bytes) : ofBigEndian bytes < capacity bytes.length := by
  induction h : bytes.length generalizing bytes with
  | zero => simp_all [List.length_eq_zero_iff, ofBigEndian, capacity]
  | succ n ih =>
    obtain ⟨front, last, rfl⟩ : ∃ front last, bytes = front ++ [last] :=
      ⟨_, _, (List.dropLast_concat_getLast (by rintro rfl; simp at h)).symm⟩
    have := ih front (by simpa using h)
    have := last.toNat_lt
    rw [ofBigEndian_append_singleton, capacity]
    omega

/-- Every byte string is the spelling of its own number, in as many bytes as it
has itself. -/
theorem bigEndian_ofBigEndian (bytes : Bytes) :
    bigEndian bytes.length (ofBigEndian bytes) = bytes := by
  induction h : bytes.length generalizing bytes with
  | zero => simp_all [List.length_eq_zero_iff, bigEndian]
  | succ n ih =>
    obtain ⟨front, last, rfl⟩ : ∃ front last, bytes = front ++ [last] :=
      ⟨_, _, (List.dropLast_concat_getLast (by rintro rfl; simp at h)).symm⟩
    have hlast := last.toNat_lt
    have hdiv : (256 * ofBigEndian front + last.toNat) / 256 = ofBigEndian front := by omega
    have hmod : UInt8.ofNat (256 * ofBigEndian front + last.toNat) = last := by
      apply UInt8.toNat_inj.mp
      rw [UInt8.toNat_ofNat']
      omega
    rw [ofBigEndian_append_singleton, bigEndian, hdiv, hmod, ih front (by simpa using h)]

-- =============================================================== words

/-- An integer type whose values are the numbers of a fixed count of
bytes. -/
class Word (α : Type) where
  width : Nat
  toNat : α → Nat
  ofNat : Nat → α
  toNat_lt : ∀ a, toNat a < capacity width
  ofNat_toNat : ∀ a, ofNat (toNat a) = a
  toNat_ofNat : ∀ n, n < capacity width → toNat (ofNat n) = n

instance : Word UInt8 where
  width := 1
  toNat := UInt8.toNat
  ofNat := UInt8.ofNat
  toNat_lt := UInt8.toNat_lt
  ofNat_toNat _ := UInt8.ofNat_toNat
  toNat_ofNat n h := by simp only [capacity] at h; rw [UInt8.toNat_ofNat']; omega

instance : Word UInt16 where
  width := 2
  toNat := UInt16.toNat
  ofNat := UInt16.ofNat
  toNat_lt := UInt16.toNat_lt
  ofNat_toNat _ := UInt16.ofNat_toNat
  toNat_ofNat n h := by simp only [capacity] at h; rw [UInt16.toNat_ofNat']; omega

instance : Word UInt32 where
  width := 4
  toNat := UInt32.toNat
  ofNat := UInt32.ofNat
  toNat_lt := UInt32.toNat_lt
  ofNat_toNat _ := UInt32.ofNat_toNat
  toNat_ofNat n h := by simp only [capacity] at h; rw [UInt32.toNat_ofNat']; omega

instance : Word UInt64 where
  width := 8
  toNat := UInt64.toNat
  ofNat := UInt64.ofNat
  toNat_lt := UInt64.toNat_lt
  ofNat_toNat _ := UInt64.ofNat_toNat
  toNat_ofNat n h := by simp only [capacity] at h; rw [UInt64.toNat_ofNat']; omega

instance : Word Int32 where
  width := 4
  toNat a := a.toUInt32.toNat
  ofNat n := (UInt32.ofNat n).toInt32
  toNat_lt a := a.toUInt32.toNat_lt
  ofNat_toNat a := by simp
  toNat_ofNat n h := by simp only [capacity] at h; simp; omega

instance : Word Int64 where
  width := 8
  toNat a := a.toUInt64.toNat
  ofNat n := (UInt64.ofNat n).toInt64
  toNat_lt a := a.toUInt64.toNat_lt
  ofNat_toNat a := by simp
  toNat_ofNat n h := by simp only [capacity] at h; simp; omega

namespace Word

variable {α : Type} [Word α]

/-- The bytes of a word, most significant first. -/
def write (a : α) : Bytes :=
  bigEndian (width α) (toNat a)

/-- Take a word off the front. -/
def read : Reader α := do
  let bytes ← Reader.bytes (width α)
  return ofNat (ofBigEndian bytes)

@[simp]
theorem length_write (a : α) : (write a).length = width α := by
  simp [write]

/-- A written word is read back, and what follows it is left. -/
@[simp]
theorem run_read_write (a : α) (rest : Bytes) :
    (read : Reader α).run (write a ++ rest) = some (a, rest) := by
  have hlen : width α = (write a).length := by simp
  have hval : ofNat (ofBigEndian (write a)) = a := by
    rw [write, ofBigEndian_bigEndian, Nat.mod_eq_of_lt (toNat_lt a), ofNat_toNat]
  simp only [read, StateT.run_bind]
  rw [hlen, Reader.run_bytes_append]
  simp [hval]

/-- Different words are written differently. -/
theorem write_injective {a b : α} (h : write a = write b) : a = b := by
  have ha := run_read_write a []
  have hb := run_read_write b []
  rw [h] at ha
  simpa using ha.symm.trans hb

/-- What a word was read from is what it writes, followed by what was
left. -/
theorem write_of_run_read {data rest : Bytes} {a : α}
    (h : (read : Reader α).run data = some (a, rest)) : data = write a ++ rest := by
  simp only [read, StateT.run_bind, Reader.run_bytes] at h
  split at h
  · rename_i hle
    obtain ⟨rfl, rfl⟩ : ofNat (ofBigEndian (data.take (width α))) = a ∧
        data.drop (width α) = rest := by simpa using h
    have hlen : (data.take (width α)).length = width α := by simp [hle]
    have hlt := ofBigEndian_lt (data.take (width α))
    rw [hlen] at hlt
    have hback := bigEndian_ofBigEndian (data.take (width α))
    rw [hlen] at hback
    rw [write, toNat_ofNat _ hlt, hback, List.take_append_drop]
  · simp at h

end Word

end TorrentTracker
