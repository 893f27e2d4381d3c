import TorrentTracker.Proofs.Query
import TorrentTracker.Query.Announce

/-
What the pairs of a query come to, all together.

Pairs are taken into a draft one after the other. What a pair does there
depends on the pair alone: it is turned down for its value (`fault?`), or it
sets the field of its parameter, whatever the field was (`set_eq`). So a run
of pairs is turned down for the first bad one, and else the draft has for
every parameter what the last pair with its key says (`foldlM_take`, by
induction on the pairs, the draft before being arbitrary). All else about
queries of announces is read off this equation.
-/

namespace TorrentTracker.AnnounceQuery

variable {q : AnnounceQuery} {draft : Draft} {p : Parameter} {query value key : Bytes}
  {pair : Bytes × Bytes} {pairs rest : List (Bytes × Bytes)} {e : Query.Error}

-- ========================================================== single pairs

/-- A key is a parameter just if it is its name, letter for letter: keys are
compared as they stand, with nothing decoded. -/
theorem Parameter.ofKey?_eq_some_iff : Parameter.ofKey? key = some p ↔ key = utf8 p.name := by
  constructor
  · intro h
    have hfound := List.find?_some h
    exact (of_decide_eq_true hfound).symm
  · rintro rfl
    exact Parameter.ofKey?_name p

theorem Parameter.name_inj {p p' : Parameter} : utf8 p.name = utf8 p'.name ↔ p = p' := by
  rw [← Parameter.ofKey?_eq_some_iff, Parameter.ofKey?_name, Option.some_inj, eq_comm]

/-- A name has no mark in it that could be taken for the end of a key or of a
pair. -/
theorem Parameter.not_mem_name (p : Parameter) : 38 ∉ utf8 p.name ∧ 61 ∉ utf8 p.name := by
  cases p with
  | _ => decide

/-- Whether a value can be read for a parameter. -/
def Parameter.admits (p : Parameter) (value : Bytes) : Bool :=
  match p with
  | .infoHash | .peerId => (Query.id? value).isSome
  | .port => (Query.port? value).isSome
  | .uploaded | .downloaded | .left | .numwant => (Query.integer? value).isSome
  | .event => (Query.event? value).isSome
  | .compact | .noPeerId => (Query.flag? value).isSome

/-- What a value is turned down with that cannot be read. -/
def Parameter.error : Parameter → Query.Error
  | .infoHash => .invalidInfoHash
  | .peerId => .invalidPeerId
  | .port => .invalidPort
  | .event => .invalidEvent
  | .numwant => .invalidNumwant
  | p => .invalidFormat p.name

/-- What is wrong with a pair by itself. With a key that no parameter has,
nothing is. -/
def fault? (pair : Bytes × Bytes) : Option Query.Error :=
  (Parameter.ofKey? pair.1).bind fun p => if p.admits pair.2 then none else some p.error

/-- What pairs say about the parameters: the value of the last one that has
the key. -/
def said (pairs : List (Bytes × Bytes)) (p : Parameter) : Option Bytes :=
  Query.last? pairs (utf8 p.name)

/-- A draft with the fields that something is said about read from it, and
the others as they were. -/
def Draft.overridden (draft : Draft) (said : Parameter → Option Bytes) : Draft where
  infoHash := (said .infoHash).elim draft.infoHash Query.id?
  peerId := (said .peerId).elim draft.peerId Query.id?
  port := (said .port).elim draft.port Query.port?
  uploaded := (said .uploaded).elim draft.uploaded fun value => (Query.integer? value).getD 0
  downloaded := (said .downloaded).elim draft.downloaded fun value => (Query.integer? value).getD 0
  left := (said .left).elim draft.left Query.integer?
  event := (said .event).elim draft.event fun value => (Query.event? value).getD .none
  numwant := (said .numwant).elim draft.numwant Query.integer?
  compact := (said .compact).elim draft.compact fun value => (Query.flag? value).getD true
  noPeerId := (said .noPeerId).elim draft.noPeerId fun value => (Query.flag? value).getD false

theorem elim_or {α β : Type} (o o' : Option α) (b : β) (f : α → β) :
    (o.or o').elim b f = o.elim (o'.elim b f) f := by
  cases o with
  | none => rfl
  | some a => rfl

theorem elim_none {α β : Type} (o : Option α) (f : α → Option β) : o.elim none f = o.bind f := by
  cases o with
  | none => rfl
  | some a => rfl

/-- What is said later counts. -/
theorem overridden_overridden (draft : Draft) (first second : Parameter → Option Bytes) :
    (draft.overridden first).overridden second
      = draft.overridden fun p => (second p).or (first p) := by
  simp only [Draft.overridden, elim_or]

/-- A parameter takes its value if it can be read, over any it had, and else
the query is turned down with the refusal of that parameter. One case for each
parameter. -/
theorem set_eq (draft : Draft) (p : Parameter) (value : Bytes) :
    draft.set p value
      = if p.admits value then .ok (draft.overridden fun p' => if p' = p then some value else none)
        else .error p.error := by
  unfold Draft.set Parameter.admits Draft.overridden
  cases p with
  | infoHash | peerId =>
      cases hread : Query.id? value with
      | none => rfl
      | some id => simp [hread, required]
  | port =>
      cases hread : Query.port? value with
      | none => rfl
      | some port => simp [hread, required]
  | uploaded | downloaded | left | numwant =>
      cases hread : Query.integer? value with
      | none => rfl
      | some n => simp [hread, required]
  | event =>
      cases hread : Query.event? value with
      | none => rfl
      | some e => simp [hread, required]
  | compact | noPeerId =>
      cases hread : Query.flag? value with
      | none => rfl
      | some b => simp [hread, required]

-- ================================================================= runs

/-- Of two lists of pairs the later one decides, parameter by parameter. -/
theorem said_append (pairs rest : List (Bytes × Bytes)) :
    said (pairs ++ rest) = fun p => (said rest p).or (said pairs p) := by
  funext p
  exact Query.last?_append pairs rest _

/-- A pair is taken or is at fault, and which of the two does not depend on
what was taken before. -/
theorem take_eq (draft : Draft) (pair : Bytes × Bytes) :
    draft.take pair = match fault? pair with
      | some e => .error e
      | none => .ok (draft.overridden (said [pair])) := by
  unfold Draft.take fault?
  cases hkey : Parameter.ofKey? pair.1 with
  | none =>
      -- a key that is no parameter's says nothing of any
      have hsaid : said [pair] = fun _ => none := by
        funext p
        unfold said
        rw [Query.last?_singleton, if_neg]
        intro hname
        rw [Parameter.ofKey?_eq_some_iff.mpr hname] at hkey
        cases hkey
      rw [hsaid]
      rfl
  | some p =>
      have hsaid : said [pair] = fun p' => if p' = p then some pair.2 else none := by
        funext p'
        unfold said
        rw [Query.last?_singleton, Parameter.ofKey?_eq_some_iff.mp hkey]
        exact if_congr (Parameter.name_inj.trans eq_comm) rfl rfl
      rw [hsaid]
      show draft.set p pair.2 = _
      rw [set_eq, Option.bind_some]
      split
      · rfl
      · rfl

/-- A run of pairs is turned down for the first bad one, and else each field
is what is said about it last. -/
theorem foldlM_take (pairs : List (Bytes × Bytes)) (draft : Draft) :
    pairs.foldlM Draft.take draft = match pairs.findSome? fault? with
      | some e => .error e
      | none => .ok (draft.overridden (said pairs)) := by
  induction pairs generalizing draft with
  | nil => rfl
  | cons pair rest ih =>
      rw [List.foldlM_cons, take_eq, List.findSome?_cons]
      cases fault? pair with
      | some e => rfl
      | none =>
          show rest.foldlM Draft.take (draft.overridden (said [pair])) = _
          rw [ih, overridden_overridden, ← said_append]
          rfl

/-- A query has a draft if none of its pairs is at fault: what they say, over
an empty draft. -/
theorem draft_eq (query : Bytes) :
    AnnounceQuery.draft query = match (Query.pairs query).findSome? fault? with
      | some e => .error e
      | none => .ok (Draft.overridden {} (said (Query.pairs query))) :=
  foldlM_take _ _

-- =============================================================== drafts

/-- The draft that has all of an announce. -/
def Draft.of (q : AnnounceQuery) : Draft where
  infoHash := some q.infoHash
  peerId := some q.peerId
  port := some q.port
  uploaded := q.uploaded
  downloaded := q.downloaded
  left := some q.left
  event := q.event
  numwant := q.numwant
  compact := q.compact
  noPeerId := q.noPeerId

/-- The parameters without a default, in the order in which they are
missed. -/
def Parameter.needed : List Parameter := [.infoHash, .peerId, .port, .left]

/-- Whether a draft cannot be finished for want of a parameter. -/
def Draft.lacks (draft : Draft) : Parameter → Bool
  | .infoHash => draft.infoHash.isNone
  | .peerId => draft.peerId.isNone
  | .port => draft.port.isNone
  | .left => draft.left.isNone
  | _ => false

/-- A draft is finished, or the first parameter that it lacks is missed. The
parameters are asked for in a fixed order, whatever order the query had. -/
theorem finish_eq (draft : Draft) :
    (∃ q, draft = .of q ∧ draft.finish = .ok q)
      ∨ ∃ p, Parameter.needed.find? draft.lacks = some p
        ∧ draft.finish = .error (.missing p.name) := by
  obtain ⟨infoHash, peerId, port, _, _, left, _, _, _, _⟩ := draft
  cases infoHash with
  | none => exact .inr ⟨_, rfl, rfl⟩
  | some hash =>
      cases peerId with
      | none => exact .inr ⟨_, rfl, rfl⟩
      | some id =>
          cases port with
          | none => exact .inr ⟨_, rfl, rfl⟩
          | some port =>
              cases left with
              | none => exact .inr ⟨_, rfl, rfl⟩
              | some n => exact .inl ⟨_, rfl, rfl⟩

theorem finish_of (q : AnnounceQuery) : (Draft.of q).finish = .ok q := rfl

theorem eq_of_finish (h : draft.finish = .ok q) : draft = .of q := by
  rcases finish_eq draft with ⟨q', hdraft, hfinish⟩ | ⟨p, -, hfinish⟩
  · rw [hfinish] at h
    rwa [← Except.ok.inj h]
  · rw [hfinish] at h
    cases h

/-- The draft of what is read as an announce has all of it. -/
theorem draft_of_parse (h : parse query = .ok q) : AnnounceQuery.draft query = .ok (.of q) := by
  unfold parse at h
  cases hdraft : AnnounceQuery.draft query with
  | error e =>
      rw [hdraft] at h
      cases h
  | ok d =>
      rw [hdraft] at h
      rw [eq_of_finish h]

end TorrentTracker.AnnounceQuery
