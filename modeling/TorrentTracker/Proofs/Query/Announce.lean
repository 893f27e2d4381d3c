import TorrentTracker.Proofs.Query.Fields

/-
Every announce can be spelled as a query.

`write` gives each parameter the value of its field: ids with every byte
escaped, numbers as their shortest numerals, the name of the event, flags as
`1` or `0`, and no `numwant` where there is none. There are many other ways
to spell a field (`Spells`), and one with a default may go without a pair
(`Omits`). All of them are read as the field, so a query is read as an
announce if its pairs spell fields of it, each that needs a pair at least
once (`parse_of_spells`).

# Main statements

- `parse_write`: what is written is read back;
- `names_of_parse`: the other way round, what is read was named in the
  query.
-/

namespace TorrentTracker.AnnounceQuery

open Query (Plain flagValue)
open Percent (Renders)

variable {q : AnnounceQuery} {draft : Draft} {p : Parameter} {value query : Bytes}
  {saying : Parameter → Option Bytes}

-- ============================================================= spelling

/-- A spelling of the field that belongs to a parameter. -/
def Spells (q : AnnounceQuery) (value : Bytes) : Parameter → Prop
  | .infoHash => Renders value q.infoHash.bytes
  | .peerId => Renders value q.peerId.bytes
  | .port => ∃ zeros, Renders value (Decimal.padded zeros q.port.toNat)
  | .uploaded => ∃ zeros, Renders value (Decimal.padded zeros q.uploaded.toInt)
  | .downloaded => ∃ zeros, Renders value (Decimal.padded zeros q.downloaded.toInt)
  | .left => ∃ zeros, Renders value (Decimal.padded zeros q.left.toInt)
  | .event => Renders value q.event.word
  | .numwant => ∃ n zeros, q.numwant = some n ∧ Renders value (Decimal.padded zeros n.toInt)
  | .compact => value = flagValue q.compact
  | .noPeerId => value = flagValue q.noPeerId

/-- A parameter that needs no pair, since its field has the default. -/
def Omits (q : AnnounceQuery) : Parameter → Prop
  | .infoHash | .peerId | .port | .left => False
  | .uploaded => q.uploaded = 0
  | .downloaded => q.downloaded = 0
  | .event => q.event = .none
  | .numwant => q.numwant = none
  | .compact => q.compact = true
  | .noPeerId => q.noPeerId = false

/-- A value that spells a field is admitted under its parameter, so no pair of
a written query is at fault. -/
theorem Spells.admits (hport : q.port ≠ 0) (h : q.Spells value p) : p.admits value = true := by
  unfold Parameter.admits
  cases p with
  | infoHash | peerId => rw [Query.id?_of_renders h, Option.isSome_some]
  | port =>
      obtain ⟨zeros, h⟩ := h
      rw [Query.port?_of_renders hport h, Option.isSome_some]
  | uploaded | downloaded | left =>
      obtain ⟨zeros, h⟩ := h
      rw [Query.integer?_of_renders h, Option.isSome_some]
  | event => rw [Query.event?_of_renders h, Option.isSome_some]
  | numwant =>
      obtain ⟨n, zeros, -, h⟩ := h
      rw [Query.integer?_of_renders h, Option.isSome_some]
  | compact | noPeerId => rw [h, Query.flag?_flagValue, Option.isSome_some]

/-- Two drafts have one field in common. -/
def Draft.SameAt (draft other : Draft) : Parameter → Prop
  | .infoHash => draft.infoHash = other.infoHash
  | .peerId => draft.peerId = other.peerId
  | .port => draft.port = other.port
  | .uploaded => draft.uploaded = other.uploaded
  | .downloaded => draft.downloaded = other.downloaded
  | .left => draft.left = other.left
  | .event => draft.event = other.event
  | .numwant => draft.numwant = other.numwant
  | .compact => draft.compact = other.compact
  | .noPeerId => draft.noPeerId = other.noPeerId

theorem Draft.eq_of_sameAt {other : Draft} (h : ∀ p, draft.SameAt other p) : draft = other := by
  cases draft
  cases other
  exact (mk.injEq ..).mpr ⟨h .infoHash, h .peerId, h .port, h .uploaded, h .downloaded, h .left,
    h .event, h .numwant, h .compact, h .noPeerId⟩

/-- A field that is spelled is set to what is spelled, whatever the draft had
there. The zeros in front of a number are what its digits leave open; a flag is
the one text it compares equal to. -/
theorem Spells.sameAt (hport : q.port ≠ 0) (h : q.Spells value p) (hsaying : saying p = some value)
    (draft : Draft) : (draft.overridden saying).SameAt (.of q) p := by
  unfold Draft.overridden
  cases p with
  | infoHash | peerId =>
      show (saying _).elim _ _ = some _
      rw [hsaying]
      exact Query.id?_of_renders h
  | port =>
      obtain ⟨zeros, h⟩ := h
      show (saying _).elim _ _ = some _
      rw [hsaying]
      exact Query.port?_of_renders hport h
  | uploaded | downloaded =>
      obtain ⟨zeros, h⟩ := h
      show (saying _).elim _ _ = _
      rw [hsaying, Option.elim_some, Query.integer?_of_renders h]
      rfl
  | left =>
      obtain ⟨zeros, h⟩ := h
      show (saying _).elim _ _ = some _
      rw [hsaying]
      exact Query.integer?_of_renders h
  | event =>
      show (saying _).elim _ _ = _
      rw [hsaying, Option.elim_some, Query.event?_of_renders h]
      rfl
  | numwant =>
      obtain ⟨n, zeros, hn, h⟩ := h
      show (saying _).elim _ _ = q.numwant
      rw [hsaying, hn]
      exact Query.integer?_of_renders h
  | compact | noPeerId =>
      show (saying _).elim _ _ = _
      rw [hsaying, Option.elim_some, h, Query.flag?_flagValue]
      rfl

/-- A field that nothing is said about keeps its default, which is what the
request has there if the field may be left out. -/
theorem Omits.sameAt (h : q.Omits p) (hsaying : saying p = none) :
    (Draft.overridden {} saying).SameAt (.of q) p := by
  cases p with
  | infoHash | peerId | port | left => exact h.elim
  | uploaded | downloaded | event | numwant | compact | noPeerId =>
      show (saying _).elim _ _ = _
      rw [hsaying]
      exact h.symm

/-- A query is read as an announce if its pairs spell fields of it, and it
has one for each that cannot go without. -/
theorem parse_of_spells (hport : q.port ≠ 0)
    (hspells : ∀ pair ∈ Query.pairs query, ∀ p, pair.1 = utf8 p.name → q.Spells pair.2 p)
    (hall : ∀ p, (∃ pair ∈ Query.pairs query, pair.1 = utf8 p.name) ∨ q.Omits p) :
    parse query = .ok q := by
  have hfault : (Query.pairs query).findSome? fault? = none := by
    refine List.findSome?_eq_none_iff.mpr fun pair hpair => ?_
    unfold fault?
    cases hkey : Parameter.ofKey? pair.1 with
    | none => rfl
    | some p =>
        have hadmits := (hspells pair hpair p (Parameter.ofKey?_eq_some_iff.mp hkey)).admits hport
        rw [Option.bind_some, if_pos hadmits]
  have hdraft : Draft.overridden {} (said (Query.pairs query)) = .of q := by
    refine Draft.eq_of_sameAt fun p => ?_
    cases hsaid : said (Query.pairs query) p with
    | some value => exact (hspells _ (Query.mem_of_last? hsaid) p rfl).sameAt hport hsaid _
    | none =>
        rcases hall p with ⟨pair, hpair, hkey⟩ | homits
        · exact absurd hkey (Query.last?_eq_none_iff.mp hsaid pair hpair)
        · exact homits.sameAt hsaid
  unfold parse
  rw [draft_eq, hfault, hdraft]
  exact finish_of q

-- ============================================================== writing

/-- The value of a parameter. Only `numwant` may have none. -/
def valueOf (q : AnnounceQuery) : Parameter → Option Bytes
  | .infoHash => some (Percent.encode q.infoHash.bytes)
  | .peerId => some (Percent.encode q.peerId.bytes)
  | .port => some (Decimal.ofNat q.port.toNat)
  | .uploaded => some (Decimal.ofInt q.uploaded.toInt)
  | .downloaded => some (Decimal.ofInt q.downloaded.toInt)
  | .left => some (Decimal.ofInt q.left.toInt)
  | .event => some q.event.word
  | .numwant => q.numwant.map fun n => Decimal.ofInt n.toInt
  | .compact => some (flagValue q.compact)
  | .noPeerId => some (flagValue q.noPeerId)

def pairsFor (q : AnnounceQuery) (parameters : List Parameter) : List (Bytes × Bytes) :=
  parameters.filterMap fun p => (q.valueOf p).map fun value => (utf8 p.name, value)

/-- The announce as a query. -/
def write (q : AnnounceQuery) : Bytes := Query.join (q.pairsFor Parameter.all)

/-- A written value has no mark in it that ends a pair: it is percent text,
digits with a sign, or one of the few fixed words. -/
theorem not_mem_valueOf (h : q.valueOf p = some value) : 38 ∉ value := by
  cases p with
  | infoHash | peerId =>
      cases h
      exact Percent.not_mem_encode _
  | port =>
      cases h
      exact Decimal.not_mem_ofInt (by decide) (by decide) (q.port.toNat : Int)
  | uploaded | downloaded | left =>
      cases h
      exact Decimal.not_mem_ofInt (by decide) (by decide) _
  | event =>
      cases h
      cases q.event with
      | _ => decide
  | numwant =>
      obtain ⟨n, -, rfl⟩ := Option.map_eq_some_iff.mp h
      exact Decimal.not_mem_ofInt (by decide) (by decide) _
  | compact | noPeerId =>
      cases h
      exact Query.not_mem_flagValue _

theorem plain_pairsFor {parameters : List Parameter} :
    ∀ pair ∈ q.pairsFor parameters, Plain pair := by
  intro pair hpair
  obtain ⟨p, -, hp⟩ := List.mem_filterMap.mp hpair
  obtain ⟨value, hvalue, rfl⟩ := Option.map_eq_some_iff.mp hp
  exact ⟨Parameter.not_mem_name p, not_mem_valueOf hvalue⟩

/-- What is written for a field is one of its spellings, the one with no zeros
in front and with every octet escaped that may be. -/
theorem spells_of_valueOf (h : q.valueOf p = some value) : q.Spells value p := by
  cases p with
  | infoHash | peerId =>
      cases h
      exact Percent.renders_encode _
  | port =>
      cases h
      exact ⟨0, Query.renders_ofInt (q.port.toNat : Int)⟩
  | uploaded | downloaded | left =>
      cases h
      exact ⟨0, Query.renders_ofInt _⟩
  | event =>
      cases h
      exact Query.renders_word _
  | numwant =>
      obtain ⟨n, hn, rfl⟩ := Option.map_eq_some_iff.mp h
      exact ⟨n, 0, hn, Query.renders_ofInt _⟩
  | compact | noPeerId =>
      cases h
      rfl

theorem omits_of_valueOf (h : q.valueOf p = none) : q.Omits p := by
  cases p with
  | numwant => exact Option.map_eq_none_iff.mp h
  | _ => cases h

/-- What pairs are written: one for each parameter that has a value to
write. -/
theorem mem_pairsFor_iff {parameters : List Parameter} {pair : Bytes × Bytes} :
    pair ∈ q.pairsFor parameters
      ↔ ∃ p ∈ parameters, q.valueOf p = some pair.2 ∧ pair.1 = utf8 p.name := by
  unfold pairsFor
  rw [List.mem_filterMap]
  refine exists_congr fun p => and_congr_right fun _ => ?_
  rw [Option.map_eq_some_iff]
  constructor
  · rintro ⟨value, hvalue, rfl⟩
    exact ⟨hvalue, rfl⟩
  · rintro ⟨hvalue, hkey⟩
    exact ⟨pair.2, hvalue, Prod.ext hkey.symm rfl⟩

theorem parse_write (hport : q.port ≠ 0) : parse q.write = .ok q := by
  have hpairs : Query.pairs q.write = q.pairsFor Parameter.all := Query.pairs_join plain_pairsFor
  refine parse_of_spells hport ?_ ?_
  · rw [hpairs]
    intro pair hpair p hkey
    obtain ⟨p', -, hvalue, hkey'⟩ := mem_pairsFor_iff.mp hpair
    rw [Parameter.name_inj.mp (hkey.symm.trans hkey')]
    exact spells_of_valueOf hvalue
  · rw [hpairs]
    intro p
    cases hvalue : q.valueOf p with
    | none => exact .inr (omits_of_valueOf hvalue)
    | some value =>
        have hall : p ∈ Parameter.all := by
          cases p with
          | _ => decide
        exact .inl ⟨(utf8 p.name, value), mem_pairsFor_iff.mpr ⟨p, hall, hvalue, rfl⟩, rfl⟩

-- =============================================================== naming

/-- What an announce query names is what the last values under the three
keys are read as. -/
structure Names (query : Bytes) (q : AnnounceQuery) : Prop where
  infoHash : (Query.last? (Query.pairs query) (utf8 "info_hash")).bind Query.id? = some q.infoHash
  peerId : (Query.last? (Query.pairs query) (utf8 "peer_id")).bind Query.id? = some q.peerId
  port : (Query.last? (Query.pairs query) (utf8 "port")).bind Query.port? = some q.port

theorem names_of_parse (h : parse query = .ok q) : Names query q := by
  have hread := draft_of_parse h
  rw [draft_eq] at hread
  cases hfault : (Query.pairs query).findSome? fault? with
  | some e =>
      rw [hfault] at hread
      cases hread
  | none =>
      rw [hfault] at hread
      have hdraft := Except.ok.inj hread
      constructor
      case infoHash => exact (elim_none _ _).symm.trans (congrArg Draft.infoHash hdraft)
      case peerId => exact (elim_none _ _).symm.trans (congrArg Draft.peerId hdraft)
      case port => exact (elim_none _ _).symm.trans (congrArg Draft.port hdraft)

end TorrentTracker.AnnounceQuery
