import TorrentTracker.Proofs.Query.Announce

/-
All the ways to spell an announce as a query.

A query is its parts between ampersands (`Part`). A part has nothing in it,
or a key that no parameter has, or gives a field of the announce in one of
the spellings of its value; and a field that no part gives has the default.
That is all that is asked for: parts come in any order, and with anything
among them that is no parameter. Where a query is cut depends on the whole
of it, what a part says on the part alone (`Part.spells`, `Part.says`), so
the parts are looked at one by one.

# Main statement

- `parse_of_spelling`: whatever way an announce is spelled, it is read back.
-/

namespace TorrentTracker.AnnounceQuery

open Percent (renders_iff)

variable {q : AnnounceQuery} {query part : Bytes} {given : Option Parameter} {p : Parameter}

/-- A key that no parameter has. -/
structure Foreign (key : Bytes) : Prop where
  plain : 38 ∉ key ∧ 61 ∉ key
  unknown : ∀ p : Parameter, key ≠ utf8 p.name

/-- A part of a query that spells an announce, with the parameter it
gives. -/
inductive Part (q : AnnounceQuery) : Bytes → Option Parameter → Prop where
  | empty : Part q [] none
  | bare {key : Bytes} (hforeign : Foreign key) : Part q key none
  | foreign {key value : Bytes} (hforeign : Foreign key) (hvalue : 38 ∉ value) :
      Part q (key ++ 61 :: value) none
  | field {p : Parameter} {value : Bytes} (hspells : q.Spells value p) (hvalue : 38 ∉ value) :
      Part q (utf8 p.name ++ 61 :: value) (some p)

/-- A query that spells an announce: each field is given by a part, or has
the default. -/
inductive Spelling (q : AnnounceQuery) : Bytes → Prop where
  | parts (parts : List Bytes) (hparts : ∀ part ∈ parts, ∃ given, Part q part given)
      (hgiven : ∀ p, (∃ part ∈ parts, Part q part (some p)) ∨ q.Omits p) :
      Spelling q ([38].intercalate parts)

/-- No part is cut at an ampersand, so the query falls into the parts it was
put together from. -/
theorem Part.not_mem (h : Part q part given) : 38 ∉ part := by
  cases h with
  | empty => exact List.not_mem_nil
  | bare hforeign => exact hforeign.plain.1
  | foreign hforeign hvalue => exact Query.not_mem_pair hforeign.plain.1 hvalue
  | field hspells hvalue => exact Query.not_mem_pair (Parameter.not_mem_name _).1 hvalue

/-- What a part has under the key of a parameter spells its field. -/
theorem Part.spells (h : Part q part given) (hsome : part ≠ [])
    (hkey : (Query.splitPair part).1 = utf8 p.name) : q.Spells (Query.splitPair part).2 p := by
  cases h with
  | empty => exact absurd rfl hsome
  | bare hforeign =>
      rw [Query.splitPair_of_not_mem hforeign.plain.2] at hkey
      exact absurd hkey (hforeign.unknown p)
  | foreign hforeign hvalue =>
      rw [Query.splitPair_append _ hforeign.plain.2] at hkey
      exact absurd hkey (hforeign.unknown p)
  | field hspells hvalue =>
      rw [Query.splitPair_append _ (Parameter.not_mem_name _).2] at hkey ⊢
      rwa [← Parameter.name_inj.mp hkey]

/-- A part that gives a field has the key of its parameter. -/
theorem Part.says (h : Part q part (some p)) :
    part ≠ [] ∧ (Query.splitPair part).1 = utf8 p.name := by
  cases h with
  | field hspells hvalue =>
      rw [Query.splitPair_append _ (Parameter.not_mem_name p).2]
      exact ⟨List.append_ne_nil_of_right_ne_nil _ (List.cons_ne_nil _ _), rfl⟩

/-- However an announce is spelled, it is read back: each field from the last
pair that says it, the others by their defaults. -/
theorem parse_of_spelling (hport : q.port ≠ 0) (h : Spelling q query) : parse query = .ok q := by
  obtain ⟨parts, hparts, hgiven⟩ := h
  have hplain : ∀ part ∈ parts, 38 ∉ part := by
    intro part hpart
    obtain ⟨given, hpart⟩ := hparts part hpart
    exact hpart.not_mem
  have hpairs : ∀ pair, pair ∈ Query.pairs ([38].intercalate parts)
      ↔ ∃ part ∈ parts, part ≠ [] ∧ Query.splitPair part = pair := by
    intro pair
    rw [Query.pairs_intercalate hplain, List.mem_map]
    simp only [List.mem_filter, and_assoc, Bool.not_eq_true', List.isEmpty_eq_false_iff]
  refine parse_of_spells hport ?_ ?_
  · intro pair hpair p hkey
    obtain ⟨part, hmem, hsome, rfl⟩ := (hpairs pair).mp hpair
    obtain ⟨given, hpart⟩ := hparts part hmem
    exact hpart.spells hsome hkey
  · intro p
    rcases hgiven p with ⟨part, hmem, hpart⟩ | homits
    · obtain ⟨hsome, hkey⟩ := hpart.says
      exact .inl ⟨_, (hpairs _).mpr ⟨part, hmem, hsome, rfl⟩, hkey⟩
    · exact .inr homits

/-- Escapes in either case, a plus sign for a space, leading zeros, an equals
sign in a value, parts with nothing in them and keys that are no parameter's,
in no particular order. -/
theorem parse_of_spelling_mixed :
    let q : AnnounceQuery := {
      infoHash := ⟨0xFA :: 32 :: 61 :: List.replicate 17 104, by decide⟩
      peerId := ⟨List.replicate 20 112, by decide⟩
      port := 6881, uploaded := 0, downloaded := 0, left := -7, event := .started,
      numwant := none, compact := true, noPeerId := true }
    let query := utf8 ("&no_peer_id=1&lang=en=us&left=-0%307&&info_hash=%fA+=hhhhhhhhhhhhhhhhh"
      ++ "&key&peer_id=pppppppppppppppppppp&event=s%74arted&port=06881")
    q.port ≠ 0 ∧ Spelling q query ∧ parse query = .ok q := by
  intro q query
  have hport : q.port ≠ 0 := by decide
  have hforeign : ∀ key ∈ [utf8 "lang", utf8 "key"], Foreign key := by
    intro key hkey
    refine ⟨by revert key; decide, fun p => ?_⟩
    revert key
    cases p with
    | _ => decide
  let gives (p : Parameter) (value : String) : Bytes := utf8 p.name ++ 61 :: utf8 value
  have hflag : Part q (gives .noPeerId "1") (some .noPeerId) := .field rfl (by decide)
  have hlanguage : Part q (utf8 "lang" ++ 61 :: utf8 "en=us") none :=
    .foreign (hforeign _ (by decide)) (by decide)
  have hleft : Part q (gives .left "-0%307") (some .left) :=
    .field ⟨2, renders_iff.mpr (by decide)⟩ (by decide)
  have hhash : Part q (gives .infoHash "%fA+=hhhhhhhhhhhhhhhhh") (some .infoHash) :=
    .field (renders_iff.mpr (by decide)) (by decide)
  have hkey : Part q (utf8 "key") none := .bare (hforeign _ (by decide))
  have hpeer : Part q (gives .peerId "pppppppppppppppppppp") (some .peerId) :=
    .field (renders_iff.mpr (by decide)) (by decide)
  have hevent : Part q (gives .event "s%74arted") (some .event) :=
    .field (renders_iff.mpr (by decide)) (by decide)
  have hgate : Part q (gives .port "06881") (some .port) :=
    .field ⟨1, renders_iff.mpr (by decide)⟩ (by decide)
  let parts := [[], gives .noPeerId "1", utf8 "lang" ++ 61 :: utf8 "en=us",
    gives .left "-0%307", [], gives .infoHash "%fA+=hhhhhhhhhhhhhhhhh", utf8 "key",
    gives .peerId "pppppppppppppppppppp", gives .event "s%74arted", gives .port "06881"]
  have hcut : query = [38].intercalate parts := by decide +kernel
  have hspelling : Spelling q query := by
    rw [hcut]
    refine .parts parts ?_ ?_
    · simp only [parts, List.forall_mem_cons]
      exact ⟨⟨_, .empty⟩, ⟨_, hflag⟩, ⟨_, hlanguage⟩, ⟨_, hleft⟩, ⟨_, .empty⟩, ⟨_, hhash⟩,
        ⟨_, hkey⟩, ⟨_, hpeer⟩, ⟨_, hevent⟩, ⟨_, hgate⟩, nofun⟩
    · intro p
      cases p with
      | infoHash => exact .inl ⟨_, by simp [parts], hhash⟩
      | peerId => exact .inl ⟨_, by simp [parts], hpeer⟩
      | port => exact .inl ⟨_, by simp [parts], hgate⟩
      | left => exact .inl ⟨_, by simp [parts], hleft⟩
      | event => exact .inl ⟨_, by simp [parts], hevent⟩
      | noPeerId => exact .inl ⟨_, by simp [parts], hflag⟩
      | uploaded | downloaded | numwant | compact => exact .inr rfl
  exact ⟨hport, hspelling, parse_of_spelling hport hspelling⟩

end TorrentTracker.AnnounceQuery
