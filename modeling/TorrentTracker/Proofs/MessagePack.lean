import TorrentTracker.MessagePack.Address
import TorrentTracker.Proofs.Reader

/-
Every form that snapshots are written in reads back, and does not read
when it is cut off.

The laws follow the layers of the format. `reads_token` says what a first
byte and what it announces come to as a `Token`; the scalars check the
token's number against a range; sequences, pairs and variants announce how
much follows and read that. Each is a `Reads`, so both halves (the value
comes back, a cut is noticed) are carried by the same proof.

# The length of a sequence

A header spells the length of its sequence in at most 32 bits. A longer
sequence is written in full behind a header that says less, and what reads
back is the front of it, as much as the header says: `reads_sequence`
states the law in this form, with `headed` for the length that the header
says. Below 32 bits that is the whole sequence.
-/

namespace TorrentTracker.MessagePack

open Reader (Reads Refuses Answers)

variable {α β : Type}

-- ================================================================ words

theorem reads_readNatural (width : Nat) {n : Nat} (h : n < capacity width) :
    Reads (readNatural width) (bigEndian width n) n := by
  have hread := (Reader.reads_bytes (length_bigEndian width n)).map ofBigEndian
  rw [ofBigEndian_bigEndian, Nat.mod_eq_of_lt h] at hread
  exact hread

/-- A negative integer is written as what is left of it above a whole turn, and
read back if it is no less than half of one below zero. -/
theorem reads_readInteger {width : Nat} {n : Int} (hneg : n < 0)
    (hlo : -(capacity width / 2 : Nat) ≤ n) :
    Reads (readInteger width) (complement width n) n := by
  have hlt : (capacity width + n).toNat < capacity width := by omega
  have hread := (reads_readNatural _ hlt).map fun m =>
    if m < capacity width / 2 then (m : Int) else (m : Int) - capacity width
  have hval : (if (capacity width + n).toNat < capacity width / 2
        then ((capacity width + n).toNat : Int)
        else ((capacity width + n).toNat : Int) - capacity width) = n := by
    rw [if_neg (by omega)]
    omega
  rw [hval] at hread
  exact hread

-- =============================================================== tokens

/-- A token is its first byte and what that byte announces. -/
theorem reads_token {b : UInt8} {v : Bytes} {t : Token}
    (h : Reads (Token.after b.toNat) v t) : Reads Token.read (b :: v) t :=
  (Reader.reads_byte b).bind h

theorem bigEndian_one (n : Nat) : bigEndian 1 n = [UInt8.ofNat n] := rfl

theorem toNat_ofNat_byte {n : Nat} (h : n < 256) : (UInt8.ofNat n).toNat = n :=
  UInt8.toNat_ofNat_of_lt' h

/-- First bytes below 128 are numbers themselves. -/
theorem after_natural {n : Nat} (h : n < 0x80) : Token.after n = pure (.natural n) :=
  if_pos h

/-- First bytes from 144 to 159 announce short sequences. -/
theorem after_array {n : Nat} (h : n < 16) :
    Token.after (0x90 + n) = pure (.array n) := by
  have hval : 0x90 + n - 0x90 = n := by omega
  refine (if_neg (by omega)).trans ((if_neg (by omega)).trans ((if_pos (by omega)).trans ?_))
  rw [hval]

/-- First bytes from 160 to 191 announce short texts. -/
theorem after_text {n : Nat} (h : n < 32) :
    Token.after (0xa0 + n) = pure (.text n) := by
  have hval : 0xa0 + n - 0xa0 = n := by omega
  refine (if_neg (by omega)).trans ((if_neg (by omega)).trans
    ((if_neg (by omega)).trans ((if_pos (by omega)).trans ?_)))
  rw [hval]

/-- First bytes from 224 on are the numbers from -32 to -1. -/
theorem after_integer {n : Nat} (h : 0xe0 ≤ n) :
    Token.after n = pure (.integer ((n : Int) - 0x100)) :=
  (if_neg (by omega)).trans ((if_neg (by omega)).trans
    ((if_neg (by omega)).trans ((if_neg (by omega)).trans (if_pos h))))

/-- A number in one of the unsigned forms: a single byte up to 127, and then
the four widths in order of their reach. -/
theorem reads_natural {n : Nat} (h : n < UInt64.size) :
    Reads Token.read (natural n) (.natural n) := by
  unfold natural
  split
  · next h7 =>
    rw [bigEndian_one]
    refine reads_token ?_
    rw [toNat_ofNat_byte (by omega), after_natural h7]
    exact Reads.pure _
  split
  · next h8 => exact reads_token ((reads_readNatural 1 h8).map Token.natural)
  split
  · next h16 => exact reads_token ((reads_readNatural 2 h16).map Token.natural)
  split
  · next h32 => exact reads_token ((reads_readNatural 4 h32).map Token.natural)
  · exact reads_token ((reads_readNatural 8 h).map Token.natural)

/-- The token of an integer: what is not negative is written unsigned. -/
def Token.ofInt (n : Int) : Token := if 0 ≤ n then .natural n.toNat else .integer n

/-- An integer of 64 signed bits. The six branches are those of the writer: no
sign, one byte below zero, and the four widths in order of their reach. -/
theorem reads_integer {n : Int} (hlo : Int64.minValue.toInt ≤ n)
    (hhi : n ≤ Int64.maxValue.toInt) :
    Reads Token.read (integer n) (.ofInt n) := by
  have hmin : Int64.minValue.toInt = -9223372036854775808 := rfl
  have hmax : Int64.maxValue.toInt = 9223372036854775807 := rfl
  unfold integer Token.ofInt
  split
  · refine reads_natural ?_
    show n.toNat < 18446744073709551616
    omega
  split
  · next hneg h5 =>
    -- the one byte is the number and a turn of 256
    unfold complement
    rw [bigEndian_one]
    refine reads_token ?_
    have hcap : capacity 1 = 256 := rfl
    have hbyte : (capacity 1 + n).toNat = (256 + n).toNat := by rw [hcap]; rfl
    rw [hbyte, toNat_ofNat_byte (by omega), after_integer (by omega)]
    have hval : ((256 + n).toNat : Int) - 0x100 = n := by omega
    rw [hval]
    exact Reads.pure _
  have hneg : n < 0 := by omega
  split
  · next h8 =>
    have hlo' : -(capacity 1 / 2 : Nat) ≤ n := h8
    exact reads_token ((reads_readInteger hneg hlo').map Token.integer)
  split
  · next h16 =>
    have hlo' : -(capacity 2 / 2 : Nat) ≤ n := h16
    exact reads_token ((reads_readInteger hneg hlo').map Token.integer)
  split
  · next h32 =>
    have hlo' : -(capacity 4 / 2 : Nat) ≤ n := h32
    exact reads_token ((reads_readInteger hneg hlo').map Token.integer)
  · have hlo' : -(capacity 8 / 2 : Nat) ≤ n := hlo
    exact reads_token ((reads_readInteger hneg hlo').map Token.integer)

theorem reads_boolean (b : Bool) : Reads Token.read (boolean b) (.boolean b) := by
  cases b with
  | false => exact reads_token (Reads.pure _)
  | true => exact reads_token (Reads.pure _)

/-- How much of a sequence its header has room to announce. -/
def headed (n : Nat) : Nat := n % UInt32.size

/-- A length that fits 32 bits is announced as it is. -/
theorem headed_of_lt {n : Nat} (h : n < UInt32.size) : headed n = n := Nat.mod_eq_of_lt h

/-- The header of a sequence announces its length as far as 32 bits go. The
cases are the three widths a header can have. -/
theorem reads_arrayHeader (n : Nat) :
    Reads Token.read (arrayHeader n) (.array (headed n)) := by
  have h32 : UInt32.size = 4294967296 := rfl
  unfold arrayHeader
  split
  · next h4 =>
    rw [headed_of_lt (by omega)]
    refine reads_token ?_
    rw [toNat_ofNat_byte (by omega), after_array h4]
    exact Reads.pure _
  split
  · next h16 =>
    have hlt : n < 65536 := h16
    rw [headed_of_lt (by omega)]
    exact reads_token ((reads_readNatural 2 h16).map Token.array)
  · have hmod : bigEndian 4 n = bigEndian 4 (headed n) := by
      have hback := bigEndian_ofBigEndian (bigEndian 4 n)
      rw [length_bigEndian, ofBigEndian_bigEndian] at hback
      exact hback.symm
    rw [hmod]
    have hlt : headed n < capacity 4 := Nat.mod_lt _ (by decide)
    exact reads_token ((reads_readNatural _ hlt).map Token.array)

theorem reads_singletonHeader : Reads Token.read singletonHeader (.map 1) :=
  reads_token (Reads.pure _)

-- ============================================================== scalars

/-- A number in the range that is asked for. -/
theorem reads_readBetween_natural (lo hi : Int) {n : Nat} (hn : n < UInt64.size)
    (hlo : lo ≤ n) (hhi : (n : Int) ≤ hi) :
    Reads (readBetween lo hi) (natural n) n := by
  have hinside := Reads.pure (n : Int)
  rw [← List.append_nil (natural n)]
  refine (reads_natural hn).bind ?_
  show Reads (if lo ≤ (n : Int) ∧ (n : Int) ≤ hi then pure (n : Int) else Reader.fail) _ _
  rw [if_pos ⟨hlo, hhi⟩]
  exact hinside

/-- An integer in a range is read back where that range is asked for. The
writer picks the form by the number alone, so the reader takes each of them. -/
theorem reads_readBetween_integer {lo hi n : Int} (hmin : Int64.minValue.toInt ≤ n)
    (hmax : n ≤ Int64.maxValue.toInt) (hlo : lo ≤ n) (hhi : n ≤ hi) :
    Reads (readBetween lo hi) (integer n) n := by
  have hinside := Reads.pure n
  rw [← List.append_nil (integer n)]
  refine (reads_integer hmin hmax).bind ?_
  unfold Token.ofInt
  by_cases hn : 0 ≤ n
  · rw [if_pos hn]
    show Reads (if lo ≤ (n.toNat : Int) ∧ (n.toNat : Int) ≤ hi then pure (n.toNat : Int)
      else Reader.fail) _ _
    rw [Int.toNat_of_nonneg hn, if_pos ⟨hlo, hhi⟩]
    exact hinside
  · rw [if_neg hn]
    show Reads (if lo ≤ n ∧ n ≤ hi then pure n else Reader.fail) _ _
    rw [if_pos ⟨hlo, hhi⟩]
    exact hinside

/-- A byte is read back, whichever of its two forms it was written in: as
itself, or behind a code. -/
theorem reads_readUInt8 (b : UInt8) : Reads readUInt8 (natural b.toNat) b := by
  have hb := b.toNat_lt
  have h64 : UInt64.size = 18446744073709551616 := rfl
  have h8 : UInt8.size = 256 := rfl
  have hread := (reads_readBetween_natural 0 (UInt8.size - 1)
    (show b.toNat < UInt64.size by omega) (by omega) (by omega)).map fun n => UInt8.ofNat n.toNat
  rw [Int.toNat_natCast, UInt8.ofNat_toNat] at hread
  exact hread

theorem reads_readUInt16 (n : UInt16) : Reads readUInt16 (natural n.toNat) n := by
  have hn := n.toNat_lt
  have h64 : UInt64.size = 18446744073709551616 := rfl
  have h16 : UInt16.size = 65536 := rfl
  have hread := (reads_readBetween_natural 0 (UInt16.size - 1)
    (show n.toNat < UInt64.size by omega) (by omega) (by omega)).map fun n => UInt16.ofNat n.toNat
  rw [Int.toNat_natCast, UInt16.ofNat_toNat] at hread
  exact hread

/-- A signed word is read back; the range that is asked for is the whole of
it. -/
theorem reads_readInt64 (n : Int64) : Reads readInt64 (integer n.toInt) n := by
  have hmin := n.minValue_le_toInt
  have hmax := n.toInt_le
  have hread := (reads_readBetween_integer hmin hmax hmin hmax).map Int64.ofInt
  rw [Int64.ofInt_toInt] at hread
  exact hread

theorem reads_readBoolean (b : Bool) : Reads readBoolean (boolean b) b := by
  rw [← List.append_nil (boolean b)]
  exact (reads_boolean b).bind (Reads.pure b)

-- ============================================================ sequences

/-- The part of a written sequence that its header announces. -/
def announced (write : α → Bytes) (xs : List α) : Bytes :=
  arrayHeader xs.length ++ (xs.take (headed xs.length)).flatMap write

/-- A header that has room for a sequence announces all of it. -/
theorem announced_of_lt {xs : List α} (h : xs.length < UInt32.size) (write : α → Bytes) :
    announced write xs = sequence write xs := by
  unfold announced sequence
  rw [headed_of_lt h, List.take_length]

/-- A sequence starts with what its header announces. What is beyond that is
only there for sequences whose length does not fit 32 bits. -/
theorem exists_sequence_eq_append (write : α → Bytes) (xs : List α) :
    ∃ rest, sequence write xs = announced write xs ++ rest := by
  refine ⟨(xs.drop (headed xs.length)).flatMap write, ?_⟩
  unfold announced sequence
  rw [List.append_assoc, ← List.flatMap_append, List.take_append_drop]

/-- What reads back of a sequence is as much as its header says, and that is
less than all of it where the length does not fit. -/
theorem reads_sequence {one : Reader α} {write : α → Bytes} {xs : List α}
    (h : ∀ x ∈ xs, Reads one (write x) x) :
    Reads (readSequence one) (announced write xs) (xs.take (headed xs.length)) := by
  have hlen : (xs.take (headed xs.length)).length = headed xs.length := by
    rw [List.length_take]
    exact Nat.min_eq_left (Nat.mod_le _ _)
  have htimes : Reads (Reader.times _ one) ((xs.take (headed xs.length)).flatMap write) _ :=
    Reads.times fun x hx => h x (List.mem_of_mem_take hx)
  rw [hlen] at htimes
  exact (reads_arrayHeader xs.length).bind htimes

/-- A sequence that its header has room for reads back as a whole. -/
theorem reads_sequence_of_lt {one : Reader α} {write : α → Bytes} {xs : List α}
    (h : ∀ x ∈ xs, Reads one (write x) x) (hlen : xs.length < UInt32.size) :
    Reads (readSequence one) (sequence write xs) xs := by
  have hread := reads_sequence h
  rw [announced_of_lt hlen, headed_of_lt hlen, List.take_length] at hread
  exact hread

/-- The elements of a sequence of a length that is known. -/
theorem reads_elements {n : Nat} (hn : n < UInt32.size) {elements : Reader α} {v : Bytes}
    {a : α} (h : Reads elements v a) :
    Reads (Token.read >>= readElements n elements) (arrayHeader n ++ v) a := by
  refine (reads_arrayHeader n).bind ?_
  rw [headed_of_lt hn]
  show Reads (if n = n then elements else Reader.fail) v a
  rw [if_pos rfl]
  exact h

/-- Where elements are asked for, no variant is taken. -/
theorem refuses_readElements (n : Nat) (elements : Reader α) :
    Refuses (Token.read >>= readElements n elements) singletonHeader := by
  have hheader : Refuses (Token.read >>= readElements n elements) (singletonHeader ++ []) :=
    reads_singletonHeader.refuses Reader.refuses_fail
  exact hheader

theorem reads_readPair {first : Reader α} {second : Reader β} {v w : Bytes} {a : α} {b : β}
    (hfirst : Reads first v a) (hsecond : Reads second w b) :
    Reads (readPair first second) (arrayHeader 2 ++ (v ++ w)) (a, b) :=
  reads_elements (by decide) (hfirst.bind (hsecond.map fun b => (a, b)))

/-- Octets are a sequence of bytes of their own length, which has to fit the
header. -/
theorem reads_readOctets {n : Nat} (hn : n < UInt32.size) (o : Octets n) :
    Reads (readOctets n) (octets o) o := by
  have hbytes : Reads (Reader.times _ readUInt8) (o.bytes.flatMap _) _ :=
    Reads.times fun b _ => reads_readUInt8 b
  rw [o.length_bytes] at hbytes
  have helements := reads_elements hn hbytes
  unfold octets MessagePack.sequence readOctets
  rw [o.length_bytes, ← List.append_nil (arrayHeader n ++ _), ← bind_assoc]
  refine helements.bind ?_
  rw [Octets.ofBytes?_bytes]
  exact Reads.pure o

-- ============================================================= variants

/-- A name reads as its place among the names. A field may be given by its
place too, but is written by name. -/
theorem reads_readName {names : List String} {name : String} {i : Nat}
    (hlen : (utf8 name).length < 32)
    (hfind : names.findIdx? (fun s => utf8 s = utf8 name) = some i) :
    Reads (readName names) (shortText name) (some i) := by
  unfold shortText
  refine (reads_token (v := []) (t := .text (utf8 name).length) ?_).bind ?_
  · rw [toNat_ofNat_byte (by omega), after_text hlen]
    exact Reads.pure _
  · have hname := (Reader.reads_bytes (v := utf8 name) rfl).map fun bytes =>
      names.findIdx? fun s => utf8 s = bytes
    rw [hfind] at hname
    exact hname

/-- A named variant is read back as its value is, if its name is among those
that are known. -/
theorem reads_readVariant {names : List String} {name : String} {i : Nat}
    {value : Nat → Reader α} {v : Bytes} {a : α}
    (hlen : (utf8 name).length < 32)
    (hfind : names.findIdx? (fun s => utf8 s = utf8 name) = some i)
    (h : Reads (value i) v a) :
    Reads (readVariant names value) (singletonHeader ++ (shortText name ++ v)) a := by
  refine reads_singletonHeader.bind ?_
  exact (reads_readName hlen hfind).bind h

/-- A value of the IPv4 variant, by the reader for that family. -/
theorem reads_v4Variant {value : Nat → Reader α} {v : Bytes} {a : α}
    (h : Reads (value 0) v a) : Reads (readVariant familyNames value) (v4Variant v) a := by
  unfold v4Variant
  rw [List.append_assoc]
  exact reads_readVariant (by decide) (by decide) h

/-- A value of the IPv6 variant, by the reader for that family. -/
theorem reads_v6Variant {value : Nat → Reader α} {v : Bytes} {a : α}
    (h : Reads (value 1) v a) : Reads (readVariant familyNames value) (v6Variant v) a := by
  unfold v6Variant
  rw [List.append_assoc]
  exact reads_readVariant (by decide) (by decide) h

/-- An address is read back, in the variant of its family. -/
theorem reads_readIp (a : Ip) : Reads readIp (ip a) a := by
  cases a with
  | v4 o =>
      refine reads_v4Variant ?_
      exact (reads_readOctets (by decide) o).map Ip.v4
  | v6 o =>
      refine reads_v6Variant ?_
      exact (reads_readOctets (by decide) o).map Ip.v6

-- ============================================================== records

/-- A record written as the sequence of its fields, each of which fills in its
part of a form that is blank at first. -/
theorem reads_readRecord {names : List String} {fill : α → Nat → Reader α}
    {blank a : α} {v : Bytes} (depth : Nat) (hlen : names.length < UInt32.size)
    (h : Reads (readFields fill (List.range names.length) blank) v a) :
    Reads (readRecord names depth fill blank) (arrayHeader names.length ++ v) a := by
  refine (reads_arrayHeader names.length).bind ?_
  rw [headed_of_lt hlen]
  show Reads (if names.length = names.length then _ else Reader.fail) v a
  rw [if_pos rfl]
  exact h

/-- The fields of a record one after the other. -/
theorem reads_readFields_cons {fill : α → Nat → Reader α} {i : Nat} {rest : List Nat}
    {form form' a : α} {v w : Bytes} (hfill : Reads (fill form i) v form')
    (hrest : Reads (readFields fill rest form') w a) :
    Reads (readFields fill (i :: rest) form) (v ++ w) a :=
  hfill.bind hrest

theorem reads_readFields_nil {fill : α → Nat → Reader α} (form : α) :
    Reads (readFields fill [] form) [] form :=
  Reads.pure form

-- ==================================================== what can be read

/-- The token announces no more elements than 32 bits can count. -/
def Token.Bounded : Token → Prop
  | .array n => n < UInt32.size
  | .binary n => n < UInt32.size
  | _ => True

/-- What at most four bytes say is a number of 32 bits, so no header announces
more than that. -/
theorem answers_readNatural {width : Nat} (h : width ≤ 4) :
    Answers (readNatural width) fun n => n < UInt32.size := by
  refine (Reader.answers_bytes width).bind fun bytes hlen => Answers.pure ?_
  have hlt := ofBigEndian_lt bytes
  rw [hlen] at hlt
  have hcap : capacity width ≤ UInt32.size := by
    have hcases : width = 0 ∨ width = 1 ∨ width = 2 ∨ width = 3 ∨ width = 4 := by omega
    rcases hcases with rfl | rfl | rfl | rfl | rfl
    all_goals decide
  exact Nat.lt_of_lt_of_le hlt hcap

theorem answers_unbounded {r : Reader α} {f : α → Token} (h : ∀ a, (f a).Bounded) :
    Answers (r >>= fun a => pure (f a)) Token.Bounded :=
  (Reader.answers_true r).bind fun a _ => Answers.pure (h a)

/-- Whatever the bytes are, a token that is read has its numbers in range. One
case for every first byte. -/
theorem answers_token : Answers Token.read Token.Bounded := by
  refine (Reader.answers_true Reader.byte).bind fun b _ => ?_
  have hb := b.toNat_lt
  unfold Token.after
  split
  · exact Answers.pure trivial
  split
  · exact Answers.pure trivial
  split
  · next h4 =>
    refine Answers.pure ?_
    show b.toNat - 0x90 < 4294967296
    omega
  split
  · exact Answers.pure trivial
  split
  · exact Answers.pure trivial
  -- from here on the first byte alone says which form it is
  split
  all_goals first
    | exact Answers.pure trivial
    | exact answers_unbounded fun _ => trivial
    | exact (answers_readNatural (by decide)).bind fun n hn => Answers.pure hn
    | exact Reader.answers_fail

/-- Reading a whole input keeps what is known of the reader's answers. -/
theorem answers_readFrom {reader : Reader α} {P : α → Prop} (h : Answers reader P)
    (data : Bytes) : Answers (readFrom data reader) P where
  holds := by
    intro input a rest hrun
    obtain ⟨found, hfound, heq⟩ := Option.map_eq_some_iff.mp hrun
    cases heq
    exact h.holds hfound

/-- A sequence that was read is no longer than a header can announce, which is
four bytes of length at most. -/
theorem answers_readSequence {one : Reader α} {P : α → Prop} (h : Answers one P) :
    Answers (readSequence one) fun xs => xs.length < UInt32.size ∧ ∀ x ∈ xs, P x := by
  refine answers_token.bind fun t ht => ?_
  have htimes : ∀ n < UInt32.size, Answers (Reader.times n one)
      fun xs => xs.length < UInt32.size ∧ ∀ x ∈ xs, P x := by
    intro n hn
    refine ⟨fun hrun => ?_⟩
    obtain ⟨hlen, hall⟩ := (h.times n).holds hrun
    exact ⟨hlen ▸ hn, hall⟩
  cases t with
  | array n => exact htimes n ht
  | binary n =>
      exact (Reader.answers_true _).bind fun bytes _ => answers_readFrom (htimes n ht) _
  | _ => exact Reader.answers_fail

/-- What is known of elements holds of them under any header they may have: an
array of as many, or bytes that stand for them. -/
theorem answers_readElements {elements : Reader α} {P : α → Prop}
    (h : Answers elements P) (n : Nat) (t : Token) :
    Answers (readElements n elements t) P := by
  cases t with
  | array len =>
      show Answers (if len = n then elements else Reader.fail) P
      split
      · exact h
      · exact Reader.answers_fail
  | binary len =>
      refine (Reader.answers_true (Reader.bytes len)).bind fun bytes _ => ?_
      split
      · exact answers_readFrom h _
      · exact Reader.answers_fail
  | _ => exact Reader.answers_fail

theorem answers_readPair {first : Reader α} {second : Reader β} {Q : β → Prop}
    (h : Answers second Q) : Answers (readPair first second) fun x => Q x.2 := by
  refine (Reader.answers_true Token.read).bind fun t _ => answers_readElements ?_ 2 t
  exact (Reader.answers_true first).bind fun a _ => h.bind fun b hb => Answers.pure hb

end TorrentTracker.MessagePack
