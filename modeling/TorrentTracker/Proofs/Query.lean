import Mathlib.Data.List.TakeWhile
import TorrentTracker.Proofs.Decimal
import TorrentTracker.Proofs.Percent
import TorrentTracker.Query

/-
Queries put together from pairs, and values that are read back.

A query is cut at its ampersands into parts, whatever they are
(`pairs_intercalate`, `pairs_append`), and back into the pairs that it was
put together from as long as no ampersand is in a pair and no equals sign in
a key (`pairs_join`). A value is read through percent-decoding; whatever
renders the bytes of an id, a numeral of a word or the name of an event is
read as that.
-/

namespace TorrentTracker.Query

open Percent (Renders decode_of_renders renders_self renders_encode)

-- ================================================================ pairs

/-- A key and a value with an equals sign between them. -/
def writePair (pair : Bytes × Bytes) : Bytes := pair.1 ++ 61 :: pair.2

/-- Pairs with ampersands between them. -/
def join (pairs : List (Bytes × Bytes)) : Bytes := [38].intercalate (pairs.map writePair)

/-- No byte of a pair that would end it, and none of a key that would end
the key. -/
structure Plain (pair : Bytes × Bytes) : Prop where
  key : 38 ∉ pair.1 ∧ 61 ∉ pair.1
  value : 38 ∉ pair.2

/-- A pair is split at its first mark, so the value may have marks of its
own. -/
theorem splitPair_append {key : Bytes} (value : Bytes) (h : 61 ∉ key) :
    splitPair (key ++ 61 :: value) = (key, value) := by
  have hkey : ∀ b ∈ key, decide (b ≠ 61) = true := by
    intro b hb
    exact decide_eq_true fun heq => h (heq ▸ hb)
  unfold splitPair
  rw [List.takeWhile_append_of_pos hkey, List.dropWhile_append_of_pos hkey]
  simp

/-- Without an equals sign all of a pair is its key. -/
theorem splitPair_of_not_mem {key : Bytes} (h : 61 ∉ key) : splitPair key = (key, []) := by
  have hkey : ∀ b ∈ key, decide (b ≠ 61) = true := by
    intro b hb
    exact decide_eq_true fun heq => h (heq ▸ hb)
  unfold splitPair
  rw [List.takeWhile_eq_self_iff.mpr hkey, List.dropWhile_eq_nil_iff.mpr hkey]
  rfl

/-- The equals sign of a pair is no ampersand. -/
theorem not_mem_pair {key value : Bytes} (hkey : 38 ∉ key) (hvalue : 38 ∉ value) :
    38 ∉ key ++ 61 :: value := by
  intro hmem
  rcases List.mem_append.mp hmem with hmem | hmem
  · exact hkey hmem
  · rcases List.mem_cons.mp hmem with hmem | hmem
    · cases hmem
    · exact hvalue hmem

/-- A query is cut where it was put together, and its empty parts do not
count. -/
theorem pairs_intercalate {parts : List Bytes} (h : ∀ part ∈ parts, 38 ∉ part) :
    pairs ([38].intercalate parts) = (parts.filter fun part => !part.isEmpty).map splitPair := by
  cases parts with
  | nil => rfl
  | cons first rest =>
      unfold pairs
      rw [List.splitOn_intercalate _ h (List.cons_ne_nil _ _)]

/-- Pairs that are plain are found again in the query that joins them. -/
theorem pairs_join {list : List (Bytes × Bytes)} (h : ∀ pair ∈ list, Plain pair) :
    pairs (join list) = list := by
  have hparts : ∀ part ∈ list.map writePair, (38 : UInt8) ∉ part := by
    intro part hpart
    obtain ⟨pair, hpair, rfl⟩ := List.mem_map.mp hpart
    exact not_mem_pair (h pair hpair).key.1 (h pair hpair).value
  -- every part has its equals sign, so none is dropped as empty
  have hsome : ∀ part ∈ list.map writePair, (!part.isEmpty) = true := by
    intro part hpart
    obtain ⟨pair, -, rfl⟩ := List.mem_map.mp hpart
    simp [writePair]
  have hback : ∀ pair ∈ list, (splitPair ∘ writePair) pair = pair :=
    fun pair hpair => splitPair_append pair.2 (h pair hpair).key.2
  unfold join
  rw [pairs_intercalate hparts, List.filter_eq_self.mpr hsome, List.map_map,
    List.map_congr_left hback, List.map_id']

/-- The value of the last pair with a key. -/
def last? (pairs : List (Bytes × Bytes)) (key : Bytes) : Option Bytes :=
  (pairs.reverse.find? fun pair => pair.1 = key).map Prod.snd

theorem last?_append (pairs rest : List (Bytes × Bytes)) (key : Bytes) :
    last? (pairs ++ rest) key = (last? rest key).or (last? pairs key) := by
  simp [last?, List.reverse_append, List.find?_append, Option.map_or]

theorem last?_singleton (pair : Bytes × Bytes) (key : Bytes) :
    last? [pair] key = if pair.1 = key then some pair.2 else none := by
  unfold last?
  by_cases hkey : pair.1 = key
  · simp [hkey]
  · simp [hkey]

theorem last?_eq_none_iff {pairs : List (Bytes × Bytes)} {key : Bytes} :
    last? pairs key = none ↔ ∀ pair ∈ pairs, pair.1 ≠ key := by
  simp [last?]

/-- What is said of a key stands in one of the pairs. -/
theorem mem_of_last? {pairs : List (Bytes × Bytes)} {key value : Bytes}
    (h : last? pairs key = some value) : (key, value) ∈ pairs := by
  obtain ⟨pair, hfind, rfl⟩ := Option.map_eq_some_iff.mp h
  have hkey : pair.1 = key := by simpa using List.find?_some hfind
  have hmem := List.mem_reverse.mp (List.mem_of_find?_eq_some hfind)
  rwa [← hkey]

/-- A query is cut at an ampersand between two. -/
theorem pairs_append (query rest : Bytes) :
    pairs (query ++ 38 :: rest) = pairs query ++ pairs rest := by
  unfold pairs
  rw [List.splitOn_append_cons_self, List.filter_append, List.map_append]

-- =============================================================== values

/-- Any way to write octets is read back as an id. -/
theorem id?_of_renders {value : Bytes} {id : Octets 20} (h : Renders value id.bytes) :
    id? value = some id := by
  unfold id?
  rw [decode_of_renders h]
  exact Octets.ofBytes?_bytes id

/-- And what is read as an id was a way to write it, of which there are many:
any octet may be escaped, and by digits of either case. -/
theorem decode_of_id? {value : Bytes} {id : Octets 20} (h : id? value = some id) :
    Percent.decode value = .ok id.bytes := by
  unfold id? at h
  cases hdecode : Percent.decode value with
  | error e =>
      rw [hdecode] at h
      cases h
  | ok bytes =>
      rw [hdecode] at h
      rw [Octets.ofBytes?_eq_some_iff.mp h]

/-- Any way to write a numeral is read back, with zeros in front of its digits
and with escapes in place of any of its bytes. -/
theorem integer?_of_renders {value : Bytes} {zeros : Nat} {n : Int64}
    (h : Renders value (Decimal.padded zeros n.toInt)) : integer? value = some n := by
  unfold integer?
  rw [decode_of_renders h]
  exact Decimal.int64?_padded zeros n

theorem port?_of_renders {value : Bytes} {zeros : Nat} {port : UInt16} (hport : port ≠ 0)
    (h : Renders value (Decimal.padded zeros port.toNat)) : port? value = some port := by
  have hread : (Percent.decode value).toOption.bind Decimal.uint16? = some port := by
    rw [decode_of_renders h]
    exact Decimal.uint16?_padded zeros port
  unfold port?
  rw [hread, Option.filter_some, if_pos (decide_eq_true hport)]

/-- A port that is read is a decimal number, and not zero. -/
theorem port_of_port? {value : Bytes} {port : UInt16} (h : port? value = some port) :
    port ≠ 0 ∧ ∃ digits, Percent.decode value = .ok digits
      ∧ Decimal.uint16? digits = some port := by
  obtain ⟨hread, hport⟩ := Option.filter_eq_some_iff.mp h
  refine ⟨of_decide_eq_true hport, ?_⟩
  cases hdecode : Percent.decode value with
  | error e =>
      rw [hdecode] at hread
      cases hread
  | ok digits =>
      rw [hdecode] at hread
      exact ⟨digits, rfl, hread⟩

theorem event?_of_renders {value : Bytes} {e : Event} (h : Renders value e.word) :
    event? value = some e := by
  unfold event?
  rw [decode_of_renders h]
  exact e.ofWord?_word

def flagValue (b : Bool) : Bytes := if b then utf8 "1" else utf8 "0"

theorem flag?_flagValue (b : Bool) : flag? (flagValue b) = some b := by
  cases b with
  | _ => decide

theorem not_mem_flagValue (b : Bool) : 38 ∉ flagValue b := by
  cases b with
  | _ => decide

/-- A numeral may be written as it is: its bytes are none that escapes are
for. -/
theorem renders_ofInt (n : Int) : Renders (Decimal.ofInt n) (Decimal.padded 0 n) := by
  rw [Decimal.padded_zero]
  refine renders_self fun b hb => ?_
  rcases Decimal.mem_ofInt hb with hdigit | rfl
  · constructor
    · rintro rfl
      exact absurd hdigit (by decide)
    · rintro rfl
      exact absurd hdigit (by decide)
  · decide

theorem renders_word (e : Event) : Renders e.word e.word := by
  have hletters : (e.word.all fun b => b != 37 && b != 43) = true := by
    cases e with
    | _ => rfl
  refine renders_self fun b hb => ?_
  have hb := List.all_eq_true.mp hletters b hb
  rwa [Bool.and_eq_true, bne_iff_ne, bne_iff_ne] at hb

end TorrentTracker.Query
