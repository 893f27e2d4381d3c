import TorrentTracker.Proofs.Reader
import TorrentTracker.Wire.Request
import TorrentTracker.Wire.Response

/-
Datagrams by position: the header in front of a request and the head in
front of a response.

Sixteen bytes are all a header asks for. Whatever they are, they spell one
(`Header.exists_encode`), and it is the one that is peeked at
(`Header.peek_eq_ok_iff`), so a request is a header with something after
it.

Every field of a header stands at a fixed place. `Word.front` is the word
at the front of some bytes, so a field is the front of what follows its
place (`Header.peek_eq`).
-/

namespace TorrentTracker

open Reader (Reads Takes)

namespace Word

variable {α : Type} [Word α]

/-- A word is read back from what it was written as. -/
theorem reads (a : α) : Reads read (write a) a := by
  have hbytes := (Reader.reads_bytes (length_write a)).map fun bytes =>
    (ofNat (ofBigEndian bytes) : α)
  have hval : ofNat (ofBigEndian (write a)) = a := by
    rw [write, ofBigEndian_bigEndian, Nat.mod_eq_of_lt (toNat_lt a), ofNat_toNat]
  rw [hval] at hbytes
  exact hbytes

/-- Any bytes that are enough spell a word. -/
theorem exists_write {data : Bytes} (h : width α ≤ data.length) :
    ∃ (a : α) (rest : Bytes), data = write a ++ rest := by
  have hrun : (read : Reader α).run data
      = some (ofNat (ofBigEndian (data.take (width α))), data.drop (width α)) := by
    unfold read
    rw [StateT.run_bind, Reader.run_bytes, if_pos h]
    rfl
  exact ⟨_, _, write_of_run_read hrun⟩

/-- Words in front of equal bytes are equal, and so is what follows, since all
words of a type are equally wide. -/
theorem append_inj {a b : α} {v w : Bytes} (h : write a ++ v = write b ++ w) :
    a = b ∧ v = w := by
  have hlen : (write a).length = (write b).length := by
    rw [length_write, length_write]
  obtain ⟨hab, hvw⟩ := List.append_inj h hlen
  exact ⟨write_injective hab, hvw⟩

/-- The word at the front. Where there are too few bytes, nobody asks. -/
def front (data : Bytes) : α := ofNat (ofBigEndian (data.take (width α)))

/-- A word is what is at the front, in any bytes that are long enough. -/
theorem takes_read : Takes read (width α) (front : Bytes → α) :=
  ((Reader.takes_bytes (width α)).bind fun bytes =>
    Takes.pure (ofNat (ofBigEndian bytes) : α)).of_eq (Nat.add_zero _) fun _ => rfl

@[simp]
theorem front_write_append (a : α) (rest : Bytes) : front (write a ++ rest) = a := by
  unfold front
  rw [List.take_left' (length_write a), write, ofBigEndian_bigEndian,
    Nat.mod_eq_of_lt (toNat_lt a), ofNat_toNat]

/-- The bytes in front are those of the word they spell. -/
theorem write_front {data : Bytes} (h : width α ≤ data.length) :
    write (front data : α) = data.take (width α) := by
  obtain ⟨a, rest, rfl⟩ := exists_write h
  rw [front_write_append, List.take_left' (length_write a)]

/-- The same further on, with the width as a numeral. -/
theorem write_front_drop {data : Bytes} {k n : Nat} (hn : width α = n)
    (h : k + n ≤ data.length) : write (front (data.drop k) : α) = (data.drop k).take n := by
  subst hn
  refine write_front ?_
  rw [List.length_drop]
  omega

/-- Which word is at the front can be told from the bytes there. -/
theorem front_eq_iff {data : Bytes} {a : α} (h : width α ≤ data.length) :
    front data = a ↔ data.take (width α) = write a := by
  rw [← write_front (α := α) h]
  exact ⟨congrArg _, write_injective⟩

theorem capacity_le_capacity {v w : Nat} (h : v ≤ w) : capacity v ≤ capacity w := by
  induction h with
  | refl => exact Nat.le_refl _
  | step _ ih => exact Nat.le_trans ih (Nat.le_mul_of_pos_left _ (by decide))

/-- The number of a word is the number its bytes spell. -/
theorem toNat_front (data : Bytes) :
    toNat (front data : α) = ofBigEndian (data.take (width α)) := by
  have hlt := ofBigEndian_lt (data.take (width α))
  have hle := capacity_le_capacity (List.length_take_le (width α) data)
  exact toNat_ofNat _ (Nat.lt_of_lt_of_le hlt hle)

theorem toNat_inj {a b : α} : toNat a = toNat b ↔ a = b := by
  constructor
  · intro h
    rw [← ofNat_toNat a, h, ofNat_toNat]
  · exact congrArg toNat

end Word

namespace Wire

-- ============================================================= decoders

section

variable {α : Type} {layout : Reader α} (message : MessageKind)

/-- A message that was written by its layout is decoded, and what follows it is
not looked at. -/
theorem decodeWith_append {written : Bytes} {a : α} (h : Reads layout written a)
    (expected : Nat) (rest : Bytes) :
    decodeWith message expected layout (written ++ rest) = .ok (a, rest) := by
  unfold decodeWith
  rw [h.gives]

/-- A decoder of fixed places fails for want of bytes and nothing else. With
enough of them each place holds some value. -/
theorem decodeWith_eq {n : Nat} {value : Bytes → α} (h : Takes layout n value) (data : Bytes) :
    decodeWith message n layout data = if n ≤ data.length then .ok (value data, data.drop n)
      else .error (.truncated message n data.length) := by
  unfold decodeWith
  rw [h.run]
  by_cases hlen : n ≤ data.length
  · rw [if_pos hlen, if_pos hlen]
  · rw [if_neg hlen, if_neg hlen]

end

-- ============================================================== header

namespace Header

theorem reads_layout (h : Header) : Reads layout h.encode h := by
  unfold encode layout
  rw [List.append_assoc]
  refine (Word.reads _).bind ((Word.reads _).bind ?_)
  exact (Word.reads h.transactionId).map (Header.mk _ _)

@[simp]
theorem length_encode (h : Header) : h.encode.length = headerSize := by
  unfold encode
  simp only [List.length_append, Word.length_write]
  rfl

/-- The first eight bytes are the connection id. -/
theorem take_encode (h : Header) (rest : Bytes) :
    (h.encode ++ rest).take 8 = Word.write h.connectionId := by
  unfold encode
  rw [List.append_assoc, List.append_assoc]
  exact List.take_left' (Word.length_write _)

/-- The four bytes after it are the action. -/
theorem take_drop_encode (h : Header) (rest : Bytes) :
    ((h.encode ++ rest).drop 8).take 4 = Word.write h.action := by
  have hid : (Word.write h.connectionId).length = 8 := Word.length_write _
  unfold encode
  rw [List.append_assoc, List.append_assoc, List.drop_left' hid]
  exact List.take_left' (Word.length_write _)

/-- A header is seen at the front of a whole datagram. -/
theorem peek_encode (h : Header) (rest : Bytes) : peek (h.encode ++ rest) = .ok h := by
  unfold peek
  rw [decodeWith_append _ h.reads_layout]
  rfl

theorem takes_layout :
    Takes layout headerSize fun data =>
      ⟨Word.front data, Word.front (data.drop 8), Word.front (data.drop 12)⟩ := by
  unfold layout
  refine (Word.takes_read.bind fun connectionId => Word.takes_read.bind fun action =>
    Word.takes_read.bind fun transactionId =>
      Takes.pure (Header.mk connectionId action transactionId)).of_eq rfl ?_
  intro data
  simp only [List.drop_drop]
  rfl

/-- A header is peeked at wherever there are sixteen bytes. -/
theorem peek_eq (data : Bytes) :
    peek data = if headerSize ≤ data.length then
        .ok ⟨Word.front data, Word.front (data.drop 8), Word.front (data.drop 12)⟩
      else .error (.truncated .request headerSize data.length) := by
  unfold peek
  rw [decodeWith_eq _ takes_layout]
  by_cases hlen : headerSize ≤ data.length
  · rw [if_pos hlen, if_pos hlen]
    rfl
  · rw [if_neg hlen, if_neg hlen]
    rfl

/-- Sixteen bytes are a header: two words of four bytes after one of eight, and
every such word is the spelling of some number. -/
theorem exists_encode {data : Bytes} (h : headerSize ≤ data.length) :
    ∃ (header : Header) (rest : Bytes), data = header.encode ++ rest := by
  have hid : ∃ (id : Int64) (rest : Bytes), data = Word.write id ++ rest :=
    Word.exists_write (Nat.le_trans (by decide) h)
  obtain ⟨id, rest, rfl⟩ := hid
  rw [List.length_append, Word.length_write] at h
  have haction : ∃ (action : Int32) (rest' : Bytes), rest = Word.write action ++ rest' :=
    Word.exists_write (Nat.le_of_add_le_add_left (Nat.le_trans (by decide) h))
  obtain ⟨action, rest, rfl⟩ := haction
  rw [List.length_append, Word.length_write] at h
  have hlast : 4 ≤ rest.length :=
    Nat.le_of_add_le_add_left (Nat.le_of_add_le_add_left (show 8 + (4 + 4) ≤ _ from h))
  have htransaction : ∃ (tid : Int32) (rest' : Bytes), rest = Word.write tid ++ rest' :=
    Word.exists_write hlast
  obtain ⟨tid, rest, rfl⟩ := htransaction
  refine ⟨⟨id, action, tid⟩, rest, ?_⟩
  unfold encode
  simp only [List.append_assoc]

/-- A header is all that is peeked at. -/
theorem peek_eq_ok_iff {data : Bytes} {header : Header} :
    peek data = .ok header ↔ ∃ rest, data = header.encode ++ rest := by
  constructor
  · intro h
    by_cases hlen : headerSize ≤ data.length
    · obtain ⟨header', rest, rfl⟩ := exists_encode hlen
      rw [peek_encode] at h
      exact ⟨rest, by rw [Except.ok.inj h]⟩
    · -- fewer bytes are the front of a header that ends in zeros
      have hpadded : headerSize
          ≤ (data ++ List.replicate (headerSize - data.length) 0).length := by
        rw [List.length_append, List.length_replicate]
        omega
      obtain ⟨header', rest, hpadded⟩ := exists_encode hpadded
      have hfront : header'.encode.take data.length = data := by
        have htake := congrArg (List.take data.length) hpadded
        rw [List.take_left, List.take_append_of_le_length] at htake
        · exact htake.symm
        · rw [length_encode]
          exact Nat.le_of_not_le hlen
      have hnone := header'.reads_layout.needs data.length (by
        rw [length_encode]
        exact Nat.lt_of_not_le hlen)
      unfold peek decodeWith at h
      rw [hfront] at hnone
      rw [hnone] at h
      cases h
  · intro hexists
    obtain ⟨rest, rfl⟩ := hexists
    exact peek_encode header rest

end Header

end Wire

end TorrentTracker
