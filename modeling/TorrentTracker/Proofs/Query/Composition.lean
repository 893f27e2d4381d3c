import Mathlib.Data.List.Find
import TorrentTracker.Proofs.Query.Fields

/-
Queries of announces, put together from shorter ones.

Two queries with an ampersand between them have the pairs of the one and then
those of the other. If the first has a bad pair its error stands, whatever
comes after it. Else the second goes on from the draft that the first leaves:
what it says about a parameter counts, and where it says nothing the first
does. The order of two pairs matters only if they have one key
(`Reordered.said_eq`, by induction on the rearrangement).

# Main statement

- `composed_queries`: the errors and the announces of a query in terms of its
  pairs, and those of two queries in terms of each.
-/

namespace TorrentTracker.AnnounceQuery

variable {q : AnnounceQuery} {query rest : Bytes} {pair : Bytes × Bytes}
  {pairs others : List (Bytes × Bytes)} {p : Parameter} {e : Query.Error}

-- ================================================================ errors

/-- A pair can be at fault for what it says, but not for what is not said: that
is found only when all pairs have been taken. -/
theorem fault?_ne_missing (h : fault? pair = some e) (name : String) : e ≠ .missing name := by
  obtain ⟨p, -, hp⟩ := Option.bind_eq_some_iff.mp h
  split at hp
  · cases hp
  · cases p with
    | _ =>
        cases hp
        exact nofun

/-- The first pair that is at fault decides, whatever else is there and
whatever is missing. -/
theorem parse_of_fault (h : (Query.pairs query).findSome? fault? = some e) :
    parse query = .error e := by
  unfold parse
  rw [draft_eq, h]
  rfl

/-- Where no pair is at fault the draft has what the pairs say. -/
theorem draft_of_faultless (h : (Query.pairs query).findSome? fault? = none) :
    draft query = .ok (Draft.overridden {} (said (Query.pairs query))) := by
  rw [draft_eq, h]

/-- And then it is the draft that is or is not complete. -/
theorem parse_of_draft {d : Draft} (h : draft query = .ok d) : parse query = d.finish := by
  unfold parse
  rw [h]
  rfl

/-- Bad pairs, the first of them, are what a query is turned down for other
than missing a parameter. -/
theorem findSome?_fault?_eq_some_iff :
    (Query.pairs query).findSome? fault? = some e
      ↔ parse query = .error e ∧ ∀ name, e ≠ .missing name := by
  constructor
  · intro h
    obtain ⟨pair, -, hpair⟩ := List.exists_of_findSome?_eq_some h
    exact ⟨parse_of_fault h, fault?_ne_missing hpair⟩
  · rintro ⟨hparse, hother⟩
    cases hfault : (Query.pairs query).findSome? fault? with
    | some e' =>
        rw [parse_of_fault hfault] at hparse
        rw [Except.error.inj hparse]
    | none =>
        rw [parse_of_draft (draft_of_faultless hfault)] at hparse
        rcases finish_eq (Draft.overridden {} (said (Query.pairs query))) with
          ⟨q, -, hfinish⟩ | ⟨p, -, hfinish⟩
        · rw [hfinish] at hparse
          cases hparse
        · rw [hfinish] at hparse
          exact absurd (Except.error.inj hparse).symm (hother p.name)

/-- With good pairs a draft lacks what it did and they say nothing about. -/
theorem lacks_overridden (draft : Draft) (h : ∀ pair ∈ pairs, fault? pair = none)
    (hp : p ∈ Parameter.needed) :
    (draft.overridden (said pairs)).lacks p = ((said pairs p).isNone && draft.lacks p) := by
  cases hsaid : said pairs p with
  | none =>
      rw [Option.isNone_none, Bool.true_and]
      cases p with
      | infoHash | peerId | port | left =>
          show Option.isNone ((said pairs _).elim _ _) = _
          rw [hsaid]
          rfl
      | uploaded | downloaded | event | numwant | compact | noPeerId => exact absurd hp (by decide)
  | some value =>
      rw [Option.isNone_some, Bool.false_and]
      -- a value that is said can be read
      have hgood := h _ (Query.mem_of_last? hsaid)
      unfold fault? at hgood
      rw [Parameter.ofKey?_name, Option.bind_some] at hgood
      have hadmits : p.admits value = true := by
        by_contra hnot
        rw [if_neg hnot] at hgood
        cases hgood
      cases p with
      | infoHash | peerId | port | left =>
          show Option.isNone ((said pairs _).elim _ _) = false
          rw [hsaid]
          exact Option.isNone_eq_false_iff.mpr hadmits
      | uploaded | downloaded | event | numwant | compact | noPeerId => exact absurd hp (by decide)

theorem lacks_empty (hp : p ∈ Parameter.needed) : Draft.lacks {} p = true := by
  revert p
  decide

/-- A draft that lacks nothing is an announce, and with good pairs it is
another one. -/
theorem exists_finish_overridden (q : AnnounceQuery) (h : ∀ pair ∈ pairs, fault? pair = none) :
    ∃ q', (Draft.of q).overridden (said pairs) = .of q'
      ∧ ((Draft.of q).overridden (said pairs)).finish = .ok q' := by
  rcases finish_eq ((Draft.of q).overridden (said pairs)) with hfinish | ⟨p, hlacks, -⟩
  · exact hfinish
  · have hlack := List.find?_some hlacks
    have hneeded := List.mem_of_find?_eq_some hlacks
    have hhas : ∀ p, (Draft.of q).lacks p = false := by
      intro p
      cases p with
      | _ => rfl
    rw [lacks_overridden _ h hneeded, hhas, Bool.and_false] at hlack
    cases hlack

/-- A query is turned down for a missing parameter just if no pair is at fault
and that is the first one not said. -/
theorem parse_eq_missing_iff {name : String} :
    parse query = .error (.missing name)
      ↔ (∀ pair ∈ Query.pairs query, fault? pair = none)
        ∧ ∃ p, Parameter.needed.find? (fun p => (said (Query.pairs query) p).isNone) = some p
          ∧ name = p.name := by
  by_cases hgood : ∀ pair ∈ Query.pairs query, fault? pair = none
  · have hlacks : ∀ p ∈ Parameter.needed,
        (Draft.overridden {} (said (Query.pairs query))).lacks p
          = (said (Query.pairs query) p).isNone := by
      intro p hp
      rw [lacks_overridden _ hgood hp, lacks_empty hp, Bool.and_true]
    -- a draft lacks what no pair has said, as every pair was taken
    rw [and_iff_right hgood,
      parse_of_draft (draft_of_faultless (List.findSome?_eq_none_iff.mpr hgood)),
      ← List.find?_congr hlacks]
    rcases finish_eq (Draft.overridden {} (said (Query.pairs query))) with
      ⟨q, hdraft, hfinish⟩ | ⟨p, hlacks, hfinish⟩
    · rw [hfinish, hdraft]
      exact iff_of_false nofun fun ⟨p, hp, _⟩ => nomatch hp
    · rw [hfinish, hlacks]
      constructor
      · intro h
        cases h
        exact ⟨p, rfl, rfl⟩
      · rintro ⟨_, ⟨⟩, rfl⟩
        rfl
  · refine iff_of_false (fun hparse => hgood ?_) fun h => hgood h.1
    refine List.findSome?_eq_none_iff.mp (Option.eq_none_iff_forall_ne_some.mpr fun e he => ?_)
    obtain ⟨herror, hother⟩ := findSome?_fault?_eq_some_iff.mp he
    rw [hparse] at herror
    exact hother name (Except.error.inj herror).symm

-- ============================================================== two queries

/-- The pairs of a query and then those of another come to what the other
says, over the draft of the first. -/
theorem draft_append {d : Draft} (h : draft query = .ok d)
    (hgood : ∀ pair ∈ Query.pairs rest, fault? pair = none) :
    draft (query ++ 38 :: rest) = .ok (d.overridden (said (Query.pairs rest))) := by
  unfold draft at h ⊢
  rw [Query.pairs_append, List.foldlM_append, h]
  show (Query.pairs rest).foldlM Draft.take d = _
  rw [foldlM_take, List.findSome?_eq_none_iff.mpr hgood]

-- ============================================================ rearrangement

/-- Pairs in another order, in which those that have one key keep theirs. -/
inductive Reordered : List (Bytes × Bytes) → List (Bytes × Bytes) → Prop where
  | nil : Reordered [] []
  | cons (pair : Bytes × Bytes) {pairs others : List (Bytes × Bytes)}
      (h : Reordered pairs others) : Reordered (pair :: pairs) (pair :: others)
  | swap {first second : Bytes × Bytes} (hkeys : first.1 ≠ second.1)
      (pairs : List (Bytes × Bytes)) :
      Reordered (first :: second :: pairs) (second :: first :: pairs)
  | trans {pairs others third : List (Bytes × Bytes)} (h : Reordered pairs others)
      (h' : Reordered others third) : Reordered pairs third

/-- Where no two pairs have one key any order will do, since every other order
comes of swaps of neighbours. -/
theorem reordered_of_perm (h : pairs.Perm others) (hkeys : (pairs.map Prod.fst).Nodup) :
    Reordered pairs others := by
  induction h with
  | nil => exact .nil
  | cons pair _ ih => exact .cons pair (ih (List.nodup_cons.mp hkeys).2)
  | swap first second pairs =>
      refine .swap (fun hsame => (List.nodup_cons.mp hkeys).1 ?_) pairs
      rw [hsame]
      exact List.mem_cons_self
  | trans h _ ih ih' => exact .trans (ih hkeys) (ih' ((h.map Prod.fst).nodup_iff.mp hkeys))

theorem Reordered.perm (h : Reordered pairs others) : pairs.Perm others := by
  induction h with
  | nil => exact .nil
  | cons pair _ ih => exact .cons pair ih
  | swap _ pairs => exact .swap _ _ pairs
  | trans _ _ ih ih' => exact .trans ih ih'

/-- A query in another order says the same of every parameter, since the pairs
of one key stay as they stood among themselves. -/
theorem Reordered.said_eq (h : Reordered pairs others) : said pairs = said others := by
  induction h with
  | nil => rfl
  | @cons pair pairs others _ ih =>
      show said ([pair] ++ pairs) = said ([pair] ++ others)
      rw [said_append, said_append, ih]
  | @swap first second hkeys pairs =>
      show said ([first] ++ ([second] ++ pairs)) = said ([second] ++ ([first] ++ pairs))
      funext p
      simp only [said_append, Option.or_assoc]
      -- one of the two says nothing about the parameter
      unfold said
      rw [Query.last?_singleton, Query.last?_singleton]
      by_cases hfirst : first.1 = utf8 p.name
      · rw [if_pos hfirst, if_neg (fun hsecond => hkeys (hfirst.trans hsecond.symm))]
        rfl
      · rw [if_neg hfirst, Option.none_or, Option.or_none]
  | trans _ _ ih ih' => exact ih.trans ih'

/-- A query in another order is read alike. What is at fault in neither of them
is at fault nowhere, and what is said is the same. -/
theorem Reordered.parse_eq {other : Bytes} (h : Reordered (Query.pairs query) (Query.pairs other))
    (hparse : parse query = .ok q) : parse other = .ok q := by
  cases hfault : (Query.pairs query).findSome? fault? with
  | some e =>
      rw [parse_of_fault hfault] at hparse
      cases hparse
  | none =>
      have hother : (Query.pairs other).findSome? fault? = none :=
        List.findSome?_eq_none_iff.mpr fun pair hpair =>
          List.findSome?_eq_none_iff.mp hfault pair (h.perm.mem_iff.mpr hpair)
      rw [← hparse, parse_of_draft (draft_of_faultless hfault),
        parse_of_draft (draft_of_faultless hother), h.said_eq]

-- ========================================================== composition

/-- What a query is read as in terms of its pairs, and what it is read as
with more pairs behind it. The leftmost bad pair decides the error, and
nothing behind it matters. Without one, what good pairs say behind the query
overrides what its draft has, the last of those with one key deciding, and
an announce stays one. A missing parameter is the first that no pair gives, and there is then no bad
pair. And pairs with different keys may change places. -/
structure Composed (query rest : Bytes) : Prop where
  leftmost : ∀ e, (Query.pairs query).findSome? fault? = some e
    ↔ parse query = .error e ∧ ∀ name, e ≠ .missing name
  stopped : ∀ e, parse query = .error e → (∀ name, e ≠ .missing name) →
    parse (query ++ 38 :: rest) = .error e
  overridden : (∀ e, parse query = .error e → ∃ name, e = .missing name) →
    (∀ pair ∈ Query.pairs rest, fault? pair = none) →
    ∃ d, draft query = .ok d ∧ parse query = d.finish
      ∧ parse (query ++ 38 :: rest) = (d.overridden (said (Query.pairs rest))).finish
  succeeded : ∀ q, parse query = .ok q → (∀ pair ∈ Query.pairs rest, fault? pair = none) →
    ∃ q', (Draft.of q).overridden (said (Query.pairs rest)) = .of q'
      ∧ parse (query ++ 38 :: rest) = .ok q'
  missing : ∀ name, parse query = .error (.missing name)
    ↔ (∀ pair ∈ Query.pairs query, fault? pair = none)
      ∧ ∃ p, Parameter.needed.find? (fun p => (said (Query.pairs query) p).isNone) = some p
        ∧ name = p.name
  reordered : ∀ other, Reordered (Query.pairs query) (Query.pairs other) →
    ∀ q, parse query = .ok q → parse other = .ok q
  distinct : ∀ other, (Query.pairs query).Perm (Query.pairs other) →
    ((Query.pairs query).map Prod.fst).Nodup → ∀ q, parse query = .ok q → parse other = .ok q

/-- The law of two queries put together, each part from what the pairs of both
come to: the pairs of the first, and then those of the second. -/
theorem composed_queries (query rest : Bytes) : Composed query rest where
  leftmost := fun _ => findSome?_fault?_eq_some_iff
  stopped := by
    intro e hparse hother
    refine parse_of_fault ?_
    rw [Query.pairs_append, List.findSome?_append,
      findSome?_fault?_eq_some_iff.mpr ⟨hparse, hother⟩, Option.some_or]
  overridden := by
    intro hmissing hgood
    have hfault : (Query.pairs query).findSome? fault? = none := by
      refine Option.eq_none_iff_forall_ne_some.mpr fun e he => ?_
      obtain ⟨hparse, hother⟩ := findSome?_fault?_eq_some_iff.mp he
      obtain ⟨name, hname⟩ := hmissing e hparse
      exact hother name hname
    have hdraft := draft_of_faultless hfault
    exact ⟨_, hdraft, parse_of_draft hdraft, parse_of_draft (draft_append hdraft hgood)⟩
  succeeded := by
    intro q hparse hgood
    obtain ⟨q', hdraft, hfinish⟩ := exists_finish_overridden q hgood
    refine ⟨q', hdraft, ?_⟩
    rw [parse_of_draft (draft_append (draft_of_parse hparse) hgood), hfinish]
  missing := fun _ => parse_eq_missing_iff
  reordered := fun _ h _ => h.parse_eq
  distinct := fun _ h hkeys _ => (reordered_of_perm h hkeys).parse_eq

/-- A later port does not make up for a bad one. -/
example : parse (utf8 "port=0&port=6881") = .error .invalidPort := by decide

end TorrentTracker.AnnounceQuery
