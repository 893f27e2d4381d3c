import TorrentTracker.Bencode.Reader
import TorrentTracker.Proofs.Decimal
import TorrentTracker.Proofs.Reader

/-
Writing bencode and reading it strictly are inverse to each other.

A value is canonical when the keys of each of its dictionaries ascend. The
strict reader gives a canonical value back from its written form, whatever
follows, and it takes nothing else: what it answers is canonical, and what
it took is the written form of its answer. No written form can then be the
front of another.

# Reading back

The induction is on `Canonical`, with one on the items or the entries
inside. The bound on the steps is kept as a bound on the length of what is
written (`ReadsBack`): the mark that ends a list or a dictionary is one
byte more than its items have, and every item is at least one byte, so a
step into an item and a step past it both leave enough.

# Exactness

The induction is on the bound, for values, items and entries together
(`Exact`), since the reader of each calls those of the others with less.

# Main statements

- `strict_reading`: which numerals are taken, and which values;
- `Canonical.selfDelimiting`: a written form ends where it ends, and no
  other begins with it.
-/

namespace TorrentTracker.Bencode

variable {v : Bencode} {items : List Bencode} {entries : List (Bytes × Bencode)}
  {fuel : Nat} {last : Option Bytes} {key data rest : Bytes}

-- ============================================================ canonical

/-- The keys of every dictionary ascend, so none comes twice. -/
inductive Canonical : Bencode → Prop where
  | integer (n : Int) : Canonical (.integer n)
  | string (bytes : Bytes) : Canonical (.string bytes)
  | list {items : List Bencode} (hitems : ∀ item ∈ items, Canonical item) :
      Canonical (.list items)
  | dict {entries : List (Bytes × Bencode)} (hkeys : (entries.map Prod.fst).Pairwise (· < ·))
      (hvalues : ∀ entry ∈ entries, Canonical entry.2) : Canonical (.dict entries)

/-- A key ascends if it is past the one before it. The first key has none
before it and may be any. -/
theorem ascends_iff : ascends last key = true ↔ ∀ k ∈ last, k < key := by
  cases last with
  | none => exact iff_of_true rfl nofun
  | some k =>
      show decide (k < key) = true ↔ _
      rw [decide_eq_true_iff]
      exact ⟨fun h _ hk => Option.mem_some.mp hk ▸ h, fun h => h k rfl⟩

-- ============================================================= numerals

/-- A number has one canonical numeral, and the reader takes no other. This is
where lengths with zeros in front are turned down. -/
theorem canonicalNatural?_eq_some_iff {digits : Bytes} {n : Nat} :
    canonicalNatural? digits = some n ↔ digits = Decimal.ofNat n := by
  unfold canonicalNatural?
  rw [Option.filter_eq_some_iff, decide_eq_true_iff, eq_comm (a := Decimal.ofNat n)]
  refine and_iff_right_of_imp ?_
  rintro rfl
  exact Decimal.natural?_ofNat n

/-- So has an integer: no zeros in front, and no minus before nought. -/
theorem canonicalInteger?_eq_some_iff {digits : Bytes} {n : Int} :
    canonicalInteger? digits = some n ↔ digits = Decimal.ofInt n := by
  unfold canonicalInteger?
  rw [Option.filter_eq_some_iff, decide_eq_true_iff, eq_comm (a := Decimal.ofInt n)]
  refine and_iff_right_of_imp ?_
  rintro rfl
  exact Decimal.signed?_ofInt n

-- ============================================================== strings

/-- What is before the end mark has none in it, and the mark is gone from what
comes after. The reader takes the first mark there is. -/
theorem upTo_eq_some_iff {stop : UInt8} {front : Bytes} :
    (upTo stop).run data = some (front, rest) ↔ stop ∉ front ∧ data = front ++ stop :: rest := by
  unfold upTo
  dsimp only [StateT.run]
  constructor
  · intro h
    have hsplit := List.takeWhile_append_dropWhile (p := (· ≠ stop)) (l := data)
    split at h
    · cases h
    · next b tail hdrop =>
      obtain ⟨rfl, rfl⟩ := Prod.mk.inj (Option.some.inj h)
      -- the first byte that is not taken is the mark
      have hb := List.head?_dropWhile_not (· ≠ stop) data
      rw [hdrop] at hb hsplit
      rw [Decidable.of_not_not (of_decide_eq_false hb)] at hsplit
      refine ⟨fun hmem => ?_, hsplit.symm⟩
      have hkept := List.all_eq_true.mp (List.all_takeWhile (p := (· ≠ stop)) (l := data)) stop hmem
      exact of_decide_eq_true hkept rfl
  · rintro ⟨hnot, rfl⟩
    have hkeep : ∀ b ∈ front, decide (b ≠ stop) = true := by
      intro b hb
      exact decide_eq_true fun heq => hnot (heq ▸ hb)
    rw [List.takeWhile_append_of_pos hkeep, List.dropWhile_append_of_pos hkeep]
    simp

/-- The reader of strings takes the written form of a string and nothing else.
The length in front says where the string ends, so its bytes may be any. -/
theorem readString_eq_some_iff {bytes : Bytes} :
    readString.run data = some (bytes, rest) ↔ data = encodeString bytes ++ rest := by
  have hrun : readString.run data = ((upTo 58).run data).bind fun x =>
      (canonicalNatural? x.1).bind fun n => (Reader.bytes n).run x.2 := rfl
  rw [hrun]
  unfold encodeString
  constructor
  · intro h
    obtain ⟨⟨digits, tail⟩, hfront, h⟩ := Option.bind_eq_some_iff.mp h
    obtain ⟨n, hn, hbytes⟩ := Option.bind_eq_some_iff.mp h
    obtain ⟨-, rfl⟩ := upTo_eq_some_iff.mp hfront
    obtain ⟨rfl, rfl⟩ := Reader.run_bytes_eq_some_iff.mp hbytes
    rw [show digits = _ from canonicalNatural?_eq_some_iff.mp hn, List.append_assoc,
      List.cons_append]
  · rintro rfl
    have hcolon : 58 ∉ Decimal.ofNat bytes.length :=
      Decimal.not_mem_ofInt (by decide) (by decide) bytes.length
    rw [List.append_assoc, List.cons_append, upTo_eq_some_iff.mpr ⟨hcolon, rfl⟩, Option.bind_some,
      canonicalNatural?_eq_some_iff.mpr rfl, Option.bind_some]
    exact Reader.run_bytes_append bytes rest

/-- A byte string begins with a digit, so it looks like nothing else, neither
like another value nor like the end of a list. -/
theorem head?_encodeString {b : UInt8} (hb : Decimal.isDigit b = false) (bytes rest : Bytes) :
    (encodeString bytes ++ rest).head? ≠ some b := by
  obtain ⟨first, tail, hdigits, hfirst⟩ := Decimal.exists_cons_ofNat bytes.length
  unfold encodeString
  rw [hdigits]
  exact fun heq => Decimal.ne_of_isDigit hfirst hb (Option.some.inj heq)

-- ============================================================= one step

theorem readValue_integer (fuel : Nat) (data : Bytes) :
    (readValue (fuel + 1)).run (105 :: data) = ((upTo 101).run data).bind fun x =>
      (canonicalInteger? x.1).bind fun n => some (integer n, x.2) := rfl

theorem readValue_list (fuel : Nat) (data : Bytes) :
    (readValue (fuel + 1)).run (108 :: data)
      = ((readItems fuel).run data).bind fun x => some (list x.1, x.2) := rfl

theorem readValue_dict (fuel : Nat) (data : Bytes) :
    (readValue (fuel + 1)).run (100 :: data)
      = ((readEntries fuel none).run data).bind fun x => some (dict x.1, x.2) := rfl

/-- What begins with none of the three letters is read as a byte string: a
length in decimal, a colon, the bytes. -/
theorem readValue_string (hinteger : data.head? ≠ some 105) (hlist : data.head? ≠ some 108)
    (hdict : data.head? ≠ some 100) :
    (readValue (fuel + 1)).run data
      = (readString.run data).bind fun x => some (string x.1, x.2) := by
  rw [readValue]
  dsimp only [StateT.run]
  split
  · exact absurd rfl hinteger
  · exact absurd rfl hlist
  · exact absurd rfl hdict
  · rfl

theorem readItems_end (fuel : Nat) (data : Bytes) :
    (readItems (fuel + 1)).run (101 :: data) = some ([], data) := rfl

theorem readItems_item (h : data.head? ≠ some 101) :
    (readItems (fuel + 1)).run data = ((readValue fuel).run data).bind fun x =>
      ((readItems fuel).run x.2).bind fun y => some (x.1 :: y.1, y.2) := by
  rw [readItems]
  dsimp only [StateT.run]
  split
  · exact absurd rfl h
  · rfl

theorem readEntries_end (fuel : Nat) (last : Option Bytes) (data : Bytes) :
    (readEntries (fuel + 1) last).run (101 :: data) = some ([], data) := rfl

/-- Anywhere but at the end mark there is another entry, whose key has to come
after the one before it. -/
theorem readEntries_entry (h : data.head? ≠ some 101) :
    (readEntries (fuel + 1) last).run data = (readString.run data).bind fun x =>
      if ascends last x.1 then
        ((readValue fuel).run x.2).bind fun y =>
          ((readEntries fuel (some x.1)).run y.2).bind fun z => some ((x.1, y.1) :: z.1, z.2)
      else none := by
  rw [readEntries]
  dsimp only [StateT.run]
  split
  · exact absurd rfl h
  · rfl

-- ======================================================== written forms

theorem marked_append (mark : UInt8) (body rest : Bytes) :
    mark :: body ++ [101] ++ rest = mark :: (body ++ 101 :: rest) := by
  rw [List.append_assoc, List.singleton_append, List.cons_append]

theorem length_marked (mark : UInt8) (body : Bytes) :
    (mark :: body ++ [101]).length = body.length + 2 := by
  rw [List.length_append, List.length_cons, List.length_singleton]

theorem encode_integer_append (n : Int) (rest : Bytes) :
    (integer n).encode ++ rest = 105 :: (Decimal.ofInt n ++ 101 :: rest) :=
  marked_append 105 (Decimal.ofInt n) rest

theorem encode_list_append (items : List Bencode) (rest : Bytes) :
    (list items).encode ++ rest = 108 :: (encodeItems items ++ 101 :: rest) :=
  marked_append 108 (encodeItems items) rest

theorem encode_dict_append (entries : List (Bytes × Bencode)) (rest : Bytes) :
    (dict entries).encode ++ rest = 100 :: (encodeEntries entries ++ 101 :: rest) :=
  marked_append 100 (encodeEntries entries) rest

-- ========================================================= reading back

/-- With a step for every byte of its written form the reader gives a
value back. -/
def ReadsBack (v : Bencode) : Prop :=
  ∀ fuel, v.encode.length ≤ fuel → ∀ rest, (readValue fuel).run (v.encode ++ rest) = some (v, rest)

/-- No value begins with the mark that ends a list. -/
theorem head?_encode (v : Bencode) (rest : Bytes) : (v.encode ++ rest).head? ≠ some 101 := by
  cases v with
  | integer n => exact fun heq => absurd (Option.some.inj heq) (by decide)
  | string bytes => exact head?_encodeString (by decide) bytes rest
  | list items => exact fun heq => absurd (Option.some.inj heq) (by decide)
  | dict entries => exact fun heq => absurd (Option.some.inj heq) (by decide)

/-- Every value takes a byte, so fuel for the bytes is fuel for the values. -/
theorem length_encode_pos (v : Bencode) : 0 < v.encode.length := by
  cases v with
  | string bytes =>
      show 0 < (Decimal.ofNat bytes.length ++ 58 :: bytes).length
      rw [List.length_append, List.length_cons]
      omega
  | _ => exact Nat.succ_pos _

/-- No written form is empty, so there is a step to take. -/
theorem ReadsBack.of_succ (h : ∀ fuel, v.encode.length ≤ fuel + 1 → ∀ rest,
    (readValue (fuel + 1)).run (v.encode ++ rest) = some (v, rest)) : v.ReadsBack := by
  intro fuel hfuel
  cases fuel with
  | zero => exact absurd v.length_encode_pos (Nat.not_lt.mpr hfuel)
  | succ fuel => exact h fuel hfuel

/-- Items that are read back one by one are read back in a row, up to the mark.
By induction on the items, with a step of fuel for each. -/
theorem readItems_encodeItems (hitems : ∀ item ∈ items, item.ReadsBack)
    (hfuel : (encodeItems items).length < fuel) (rest : Bytes) :
    (readItems fuel).run (encodeItems items ++ 101 :: rest) = some (items, rest) := by
  induction items generalizing fuel with
  | nil =>
      obtain ⟨fuel, rfl⟩ := Nat.exists_eq_add_one_of_ne_zero (Nat.ne_zero_of_lt hfuel)
      exact readItems_end fuel rest
  | cons item items ih =>
      obtain ⟨fuel, rfl⟩ := Nat.exists_eq_add_one_of_ne_zero (Nat.ne_zero_of_lt hfuel)
      have hpos := item.length_encode_pos
      have hlen : (encodeItems (item :: items)).length
          = item.encode.length + (encodeItems items).length := List.length_append
      have hitem := hitems item List.mem_cons_self fuel (by omega)
      have hrest := ih (fun other hother => hitems other (List.mem_cons_of_mem _ hother))
        (show (encodeItems items).length < fuel by omega)
      show (readItems (fuel + 1)).run (item.encode ++ encodeItems items ++ 101 :: rest) = _
      rw [List.append_assoc, readItems_item (head?_encode item _), hitem, Option.bind_some, hrest,
        Option.bind_some]

/-- Entries that are read back one by one are read back in a row, up to the
mark. What is known of the last key goes along, since it is what the reader
checks next. -/
theorem readEntries_encodeEntries (hlast : ∀ k ∈ last, ∀ entry ∈ entries, k < entry.1)
    (hkeys : (entries.map Prod.fst).Pairwise (· < ·))
    (hvalues : ∀ entry ∈ entries, entry.2.ReadsBack)
    (hfuel : (encodeEntries entries).length < fuel) (rest : Bytes) :
    (readEntries fuel last).run (encodeEntries entries ++ 101 :: rest) = some (entries, rest) := by
  induction entries generalizing fuel last with
  | nil =>
      obtain ⟨fuel, rfl⟩ := Nat.exists_eq_add_one_of_ne_zero (Nat.ne_zero_of_lt hfuel)
      exact readEntries_end fuel last rest
  | cons entry entries ih =>
      obtain ⟨key, value⟩ := entry
      obtain ⟨fuel, rfl⟩ := Nat.exists_eq_add_one_of_ne_zero (Nat.ne_zero_of_lt hfuel)
      rw [List.map_cons, List.pairwise_cons] at hkeys
      have hpos := value.length_encode_pos
      have hlen : (encodeEntries ((key, value) :: entries)).length
          = (encodeString key).length + value.encode.length + (encodeEntries entries).length := by
        show (encodeString key ++ value.encode ++ encodeEntries entries).length = _
        rw [List.length_append, List.length_append]
      -- this key comes after the last one, and is the last one for the rest
      have hascends : ascends last key = true :=
        ascends_iff.mpr fun k hk => hlast k hk _ List.mem_cons_self
      have hback : value.ReadsBack := hvalues _ List.mem_cons_self
      have hvalue := hback fuel (by omega)
      have hnext : ∀ k ∈ some key, ∀ entry ∈ entries, k < entry.1 := by
        intro k hk entry hentry
        rw [← Option.mem_some.mp hk]
        exact hkeys.1 _ (List.mem_map_of_mem hentry)
      have hrest := ih hnext hkeys.2
        (fun other hother => hvalues other (List.mem_cons_of_mem _ hother))
        (show (encodeEntries entries).length < fuel by omega)
      show (readEntries (fuel + 1) last).run
        (encodeString key ++ value.encode ++ encodeEntries entries ++ 101 :: rest) = _
      rw [List.append_assoc, List.append_assoc,
        readEntries_entry (head?_encodeString (by decide) key _),
        readString_eq_some_iff.mpr rfl, Option.bind_some, if_pos hascends, hvalue,
        Option.bind_some, hrest, Option.bind_some]

/-- Every canonical value is read back with fuel for its length. By induction
on what makes it canonical, so that the parts are known to be read back before
the whole. -/
theorem Canonical.readsBack (h : v.Canonical) : v.ReadsBack := by
  induction h with
  | integer n =>
      refine .of_succ fun fuel _ rest => ?_
      have hend : 101 ∉ Decimal.ofInt n := Decimal.not_mem_ofInt (by decide) (by decide) n
      rw [encode_integer_append, readValue_integer, upTo_eq_some_iff.mpr ⟨hend, rfl⟩,
        Option.bind_some, canonicalInteger?_eq_some_iff.mpr rfl, Option.bind_some]
  | string bytes =>
      refine .of_succ fun fuel _ rest => ?_
      have hdigit : ∀ b, Decimal.isDigit b = false → (encodeString bytes ++ rest).head? ≠ some b :=
        fun b hb => head?_encodeString hb bytes rest
      show (readValue (fuel + 1)).run (encodeString bytes ++ rest) = _
      rw [readValue_string (hdigit _ (by decide)) (hdigit _ (by decide)) (hdigit _ (by decide)),
        readString_eq_some_iff.mpr rfl, Option.bind_some]
  | @list items _ ih =>
      refine .of_succ fun fuel hfuel rest => ?_
      have hlen : (Bencode.list items).encode.length = (encodeItems items).length + 2 :=
        length_marked 108 (encodeItems items)
      rw [encode_list_append, readValue_list, readItems_encodeItems ih (by omega),
        Option.bind_some]
  | @dict entries hkeys _ ih =>
      refine .of_succ fun fuel hfuel rest => ?_
      have hlen : (Bencode.dict entries).encode.length = (encodeEntries entries).length + 2 :=
        length_marked 100 (encodeEntries entries)
      have hnone : ∀ k ∈ (none : Option Bytes), ∀ entry ∈ entries, k < entry.1 :=
        fun k hk => absurd hk (Option.not_mem_none k)
      rw [encode_dict_append, readValue_dict,
        readEntries_encodeEntries hnone hkeys ih (by omega), Option.bind_some]

/-- A canonical value is read back whatever follows it. The fuel is the length
of the input, which is no less than that of the value. -/
theorem Canonical.read_encode (h : v.Canonical) (rest : Bytes) :
    read.run (v.encode ++ rest) = some (v, rest) := by
  refine h.readsBack ((v.encode ++ rest).length + 1) ?_ rest
  rw [List.length_append]
  omega

-- ============================================================ exactness

/-- What is read within a bound is canonical, and what is taken for it is
its written form. -/
structure Exact (fuel : Nat) : Prop where
  value : ∀ {data v rest}, (readValue fuel).run data = some (v, rest) →
    v.Canonical ∧ data = v.encode ++ rest
  items : ∀ {data items rest}, (readItems fuel).run data = some (items, rest) →
    (∀ item ∈ items, item.Canonical) ∧ data = encodeItems items ++ 101 :: rest
  entries : ∀ {last data entries rest},
    (readEntries fuel last).run data = some (entries, rest) →
    (∀ k ∈ last, ∀ entry ∈ entries, k < entry.1)
      ∧ (entries.map Prod.fst).Pairwise (· < ·) ∧ (∀ entry ∈ entries, entry.2.Canonical)
      ∧ data = encodeEntries entries ++ 101 :: rest

/-- With one more step of fuel a value is read exactly, if with less the values
inside it are. There is one case for every byte that a value can start with;
the rest are strings. -/
theorem Exact.value_succ (h : Exact fuel)
    (hread : (readValue (fuel + 1)).run data = some (v, rest)) :
    v.Canonical ∧ data = v.encode ++ rest := by
  by_cases hinteger : data.head? = some 105
  · obtain ⟨tail, rfl⟩ := List.head?_eq_some_iff.mp hinteger
    rw [readValue_integer] at hread
    obtain ⟨⟨digits, after⟩, hdigits, hread⟩ := Option.bind_eq_some_iff.mp hread
    obtain ⟨n, hn, hread⟩ := Option.bind_eq_some_iff.mp hread
    cases hread
    obtain ⟨-, rfl⟩ := upTo_eq_some_iff.mp hdigits
    refine ⟨.integer n, ?_⟩
    rw [encode_integer_append, show digits = _ from canonicalInteger?_eq_some_iff.mp hn]
  by_cases hlist : data.head? = some 108
  · obtain ⟨tail, rfl⟩ := List.head?_eq_some_iff.mp hlist
    rw [readValue_list] at hread
    obtain ⟨⟨items, after⟩, hitems, hread⟩ := Option.bind_eq_some_iff.mp hread
    cases hread
    obtain ⟨hcanonical, rfl⟩ := h.items hitems
    exact ⟨.list hcanonical, (encode_list_append items after).symm⟩
  by_cases hdict : data.head? = some 100
  · obtain ⟨tail, rfl⟩ := List.head?_eq_some_iff.mp hdict
    rw [readValue_dict] at hread
    obtain ⟨⟨entries, after⟩, hentries, hread⟩ := Option.bind_eq_some_iff.mp hread
    cases hread
    obtain ⟨-, hkeys, hvalues, rfl⟩ := h.entries hentries
    exact ⟨.dict hkeys hvalues, (encode_dict_append entries after).symm⟩
  · rw [readValue_string hinteger hlist hdict] at hread
    obtain ⟨⟨bytes, after⟩, hbytes, hread⟩ := Option.bind_eq_some_iff.mp hread
    cases hread
    exact ⟨.string bytes, readString_eq_some_iff.mp hbytes⟩

theorem Exact.items_succ (h : Exact fuel)
    (hread : (readItems (fuel + 1)).run data = some (items, rest)) :
    (∀ item ∈ items, item.Canonical) ∧ data = encodeItems items ++ 101 :: rest := by
  by_cases hend : data.head? = some 101
  · obtain ⟨tail, rfl⟩ := List.head?_eq_some_iff.mp hend
    cases hread
    exact ⟨nofun, rfl⟩
  · rw [readItems_item hend] at hread
    obtain ⟨⟨item, after⟩, hitem, hread⟩ := Option.bind_eq_some_iff.mp hread
    obtain ⟨⟨others, tail⟩, hothers, hread⟩ := Option.bind_eq_some_iff.mp hread
    cases hread
    obtain ⟨hcanonical, rfl⟩ := h.value hitem
    obtain ⟨hrest, hdata⟩ := h.items hothers
    refine ⟨List.forall_mem_cons.mpr ⟨hcanonical, hrest⟩, ?_⟩
    show _ = item.encode ++ encodeItems others ++ 101 :: tail
    rw [List.append_assoc, ← hdata]

/-- Entries of a dictionary end like the items of a list. That their keys
ascend comes of the check that the reader makes on each of them, with the key
before as its argument. -/
theorem Exact.entries_succ (h : Exact fuel)
    (hread : (readEntries (fuel + 1) last).run data = some (entries, rest)) :
    (∀ k ∈ last, ∀ entry ∈ entries, k < entry.1)
      ∧ (entries.map Prod.fst).Pairwise (· < ·) ∧ (∀ entry ∈ entries, entry.2.Canonical)
      ∧ data = encodeEntries entries ++ 101 :: rest := by
  by_cases hend : data.head? = some 101
  · obtain ⟨tail, rfl⟩ := List.head?_eq_some_iff.mp hend
    cases hread
    exact ⟨nofun, .nil, nofun, rfl⟩
  · rw [readEntries_entry hend] at hread
    obtain ⟨⟨key, after⟩, hkey, hread⟩ := Option.bind_eq_some_iff.mp hread
    split at hread
    · next hascends =>
      obtain ⟨⟨value, middle⟩, hvalue, hread⟩ := Option.bind_eq_some_iff.mp hread
      obtain ⟨⟨others, tail⟩, hothers, hread⟩ := Option.bind_eq_some_iff.mp hread
      cases hread
      obtain ⟨hcanonical, hafter⟩ := h.value hvalue
      obtain ⟨hnext, hkeys, hvalues, hmiddle⟩ := h.entries hothers
      -- the key was compared with the last one alone, the rest with it
      have hfirst := ascends_iff.mp hascends
      refine ⟨fun k hk => ?_, ?_, List.forall_mem_cons.mpr ⟨hcanonical, hvalues⟩, ?_⟩
      · refine List.forall_mem_cons.mpr ⟨hfirst k hk, fun entry hentry => ?_⟩
        exact List.lt_trans (hfirst k hk) (hnext key rfl entry hentry)
      · refine List.pairwise_cons.mpr ⟨fun k hk => ?_, hkeys⟩
        obtain ⟨entry, hentry, rfl⟩ := List.mem_map.mp hk
        exact hnext key rfl entry hentry
      · show _ = encodeString key ++ value.encode ++ encodeEntries others ++ 101 :: tail
        rw [List.append_assoc, List.append_assoc, ← hmiddle, ← hafter]
        exact readString_eq_some_iff.mp hkey
    · cases hread

/-- Whatever the fuel, what is read is canonical, and its written form is what
was taken. By induction on the fuel, for the three readers at once since they
call each other. -/
theorem exact (fuel : Nat) : Exact fuel := by
  induction fuel with
  | zero => exact ⟨nofun, nofun, nofun⟩
  | succ fuel ih => exact ⟨ih.value_succ, ih.items_succ, ih.entries_succ⟩

/-- The strict reader takes the written forms of canonical values, and
nothing else. -/
theorem read_eq_some_iff :
    read.run data = some (v, rest) ↔ v.Canonical ∧ data = v.encode ++ rest := by
  constructor
  · exact fun h => (exact _).value h
  · rintro ⟨h, rfl⟩
    exact h.read_encode rest

/-- A whole input is one value and nothing after it; a value at the front of it
is no reading of the whole. -/
theorem decode?_eq_some_iff_read : decode? data = some v ↔ read.run data = some (v, []) := by
  unfold decode?
  split
  · next value heq =>
    rw [heq, Option.some_inj, Option.some_inj, Prod.mk.injEq]
    exact (and_iff_left rfl).symm
  · next hnone => exact iff_of_false nofun fun heq => hnone v heq

/-- A canonical value is the whole of its written form. -/
theorem Canonical.decode?_encode (h : v.Canonical) : decode? v.encode = some v := by
  have hread := h.read_encode []
  rw [List.append_nil] at hread
  exact decode?_eq_some_iff_read.mpr hread

/-- What is read from the bytes of a canonical value is that value. -/
theorem Canonical.eq_of_decode? {w : Bencode} (h : v.Canonical)
    (hread : decode? v.encode = some w) : v = w :=
  Option.some.inj (h.decode?_encode.symm.trans hread)

/-- Only what begins with the mark of a dictionary is read as one. -/
theorem head?_of_decode?_dict {entries : List (Bytes × Bencode)}
    (h : decode? data = some (.dict entries)) : data.head? = some 100 := by
  obtain ⟨-, hdata⟩ := read_eq_some_iff.mp (decode?_eq_some_iff_read.mp h)
  rw [hdata, encode_dict_append, List.head?_cons]

/-- The reader is strict. Lengths and integers have no needless zeros, and
zero has no sign; a value is read from its one written form, with its keys
in order; of a whole input nothing is left over. -/
structure Strict : Prop where
  length : ∀ digits n,
    canonicalNatural? digits = some n ↔ Decimal.Plain digits ∧ Decimal.value digits = n
  integer : ∀ digits n, canonicalInteger? digits = some n
    ↔ (Decimal.Plain digits ∧ n = Decimal.value digits)
      ∨ ∃ unsigned, digits = 45 :: unsigned ∧ Decimal.Plain unsigned
        ∧ 0 < Decimal.value unsigned ∧ n = -Decimal.value unsigned
  value : ∀ data v rest, read.run data = some (v, rest) ↔ v.Canonical ∧ data = v.encode ++ rest
  whole : ∀ data v, decode? data = some v ↔ read.run data = some (v, [])

/-- The reader and the written forms of canonical values describe one thing:
what is written is read back, and what is read was written so. -/
theorem strict_reading : Strict where
  length := fun _ _ => canonicalNatural?_eq_some_iff.trans Decimal.eq_ofNat_iff
  integer := fun _ _ => canonicalInteger?_eq_some_iff.trans Decimal.eq_ofInt_iff
  value := fun _ _ _ => read_eq_some_iff
  whole := fun _ _ => decode?_eq_some_iff_read

-- ========================================================= self-delimiting

/-- The written form of the value says where it ends: the strict reader
takes exactly it, whatever follows, no other value is written the same, and
none is written as it and then more. -/
structure SelfDelimiting (v : Bencode) : Prop where
  read : ∀ data rest, read.run data = some (v, rest) ↔ data = v.encode ++ rest
  distinct : ∀ w, w.Canonical → w ≠ v → w.encode ≠ v.encode
  unextended : ∀ w, w.Canonical → v.encode <+: w.encode → w = v

/-- A written form says itself where it ends. Two that differ differ before
either ends, and this is so because each is read back with anything after
it. -/
theorem Canonical.selfDelimiting (h : v.Canonical) : v.SelfDelimiting := by
  have hextended : ∀ w, w.Canonical → v.encode <+: w.encode → w = v := by
    intro w hw hlonger
    obtain ⟨rest, hrest⟩ := hlonger
    have hfront := h.read_encode rest
    rw [hrest, decode?_eq_some_iff_read.mp hw.decode?_encode] at hfront
    exact congrArg Prod.fst (Option.some.inj hfront)
  refine ⟨fun data rest => ?_, fun w hw hne heq => hne (hextended w hw ?_), hextended⟩
  · rw [read_eq_some_iff]
    exact and_iff_right h
  · exact ⟨[], by rw [List.append_nil, heq]⟩

/-- A dictionary in a dictionary, the least integer of 64 bits, and bytes
that look like marks and lengths. -/
theorem selfDelimiting_nested :
    let inner : Bencode := .dict [(utf8 "a", .integer Int64.minValue.toInt), (utf8 "b", .text "")]
    let outer : Bencode := .dict [([], .integer 0), (utf8 "e", inner), (utf8 "e5:", .text "i-0e4:")]
    outer.Canonical ∧ outer.SelfDelimiting
      ∧ outer.encode = utf8 "d0:i0e1:ed1:ai-9223372036854775808e1:b0:e3:e5:6:i-0e4:e" := by
  intro inner outer
  have hinner : inner.Canonical :=
    .dict (by decide) (by
      simp only [List.forall_mem_cons]
      exact ⟨.integer _, .string _, nofun⟩)
  have houter : outer.Canonical :=
    .dict (by decide) (by
      simp only [List.forall_mem_cons]
      exact ⟨.integer _, hinner, .string _, nofun⟩)
  exact ⟨houter, houter.selfDelimiting, by decide⟩

end TorrentTracker.Bencode
