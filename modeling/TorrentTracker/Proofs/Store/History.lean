import TorrentTracker.Proofs.Clock
import TorrentTracker.Proofs.History
import TorrentTracker.Proofs.Store.Reached

/-
What is under a pair of hash and id, from the operations alone.

The store keeps one merged peer for a pair and no trace of the operations
that made it. Here the operations are the reference. A save of the pair
stands as long as no later drop names it and no later trim finds it too
old (`Standing`), and then:

- the pair has a peer exactly if some save of it stands;
- the peer is the one of the latest save, except for its flag;
- the flag is up exactly if it was up in a save that stands.

# The argument

One pair of the store is a machine of its own: `under` is its step, and
`peer?_perform` says that the store runs one such machine for each pair.
Presence and the flag are the same statement for two marks, since a save
passes on both: what becomes of a mark over a list of operations is found
by induction on the list, from any peer the machine may start with
(`any_foldl_under_iff`). The other fields come from the last operation that
is a save of the pair (`latest_of_peer?_run`).

Operations on different pairs step different machines, so their order
makes no difference to any of them, and by `Consistent.ext` none to the
store.
-/

namespace TorrentTracker.Store

variable {hash : InfoHash} {id : PeerId} {seen : Seconds} {op : Operation}
  {ops : List Operation} {p q : Peer} {entry : Option Peer}

-- ========================================================== operations

/-- The pair an operation names; a trim names none. -/
def Operation.key? : Operation → Option (InfoHash × PeerId)
  | save hash id _ => some (hash, id)
  | drop hash id => some (hash, id)
  | trim _ _ => none

/-- Whether an operation names the pair or is a trim. -/
def Operation.concerns (op : Operation) (hash : InfoHash) (id : PeerId) : Bool :=
  op.key?.all fun key => key = (hash, id)

theorem concerns_save (hash : InfoHash) (id : PeerId) (p : Peer) :
    (Operation.save hash id p).concerns hash id = true :=
  decide_eq_true rfl

theorem concerns_drop (hash : InfoHash) (id : PeerId) :
    (Operation.drop hash id).concerns hash id = true :=
  decide_eq_true rfl

/-- What concerns a pair saves it, drops it or is a trim. A save and a drop
concern one pair each, a trim concerns all. -/
theorem Operation.cases_of_concerns (h : op.concerns hash id = true) :
    (∃ p, op = .save hash id p) ∨ op = .drop hash id ∨ ∃ now ttl, op = .trim now ttl := by
  cases op with
  | save hash' id' p =>
      cases of_decide_eq_true h
      exact .inl ⟨p, rfl⟩
  | drop hash' id' =>
      cases of_decide_eq_true h
      exact .inr (.inl rfl)
  | trim now ttl => exact .inr (.inr ⟨now, ttl, rfl⟩)

/-- The clock of an operation is not before the epoch. -/
def Operation.Timely : Operation → Prop
  | save _ _ p => 0 ≤ p.lastSeen.toInt
  | drop _ _ => True
  | trim now _ => 0 ≤ now.toInt

instance (op : Operation) : Decidable op.Timely :=
  match op with
  | .save _ _ p => inferInstanceAs (Decidable (0 ≤ p.lastSeen.toInt))
  | .drop _ _ => inferInstanceAs (Decidable True)
  | .trim now _ => inferInstanceAs (Decidable (0 ≤ now.toInt))

/-- What an operation answers: a drop, whether the peer was there. -/
def answer (s : Store) : Operation → Option Bool
  | .drop hash id => some (s.drop hash id).2
  | _ => none

/-- The store after operations on an empty one. -/
def run (ops : List Operation) : Store := ops.foldl perform empty

-- ============================================================= history

/-- A peer that is under the pair, last seen at a moment, is not taken out:
no drop names the pair and no trim finds the peer too old. A save of the
pair moves the moment. -/
def Survives (hash : InfoHash) (id : PeerId) : Seconds → List Operation → Prop
  | _, [] => True
  | seen, .save hash' id' p :: ops =>
    Survives hash id (if hash' = hash ∧ id' = id then p.lastSeen else seen) ops
  | seen, .drop hash' id' :: ops => ¬(hash' = hash ∧ id' = id) ∧ Survives hash id seen ops
  | seen, .trim now ttl :: ops =>
    now.toInt - seen.toInt ≤ ttl.toInt ∧ Survives hash id seen ops

/-- After another save of the same peer it is the later moment that has to
last. -/
theorem survives_save_self :
    Survives hash id seen (.save hash id p :: ops) ↔ Survives hash id p.lastSeen ops := by
  show Survives hash id (if hash = hash ∧ id = id then p.lastSeen else seen) ops ↔ _
  rw [if_pos ⟨rfl, rfl⟩]

theorem survives_save_of_ne {hash' : InfoHash} {id' : PeerId}
    (h : ¬(hash' = hash ∧ id' = id)) :
    Survives hash id seen (.save hash' id' p :: ops) ↔ Survives hash id seen ops := by
  show Survives hash id (if hash' = hash ∧ id' = id then p.lastSeen else seen) ops ↔ _
  rw [if_neg h]

/-- What does not concern a peer takes nothing from its survival and adds
nothing to it. -/
theorem survives_cons_of_not_concerns (h : op.concerns hash id = false) :
    Survives hash id seen (op :: ops) ↔ Survives hash id seen ops := by
  cases op with
  | save hash' id' p =>
      have hkey : ¬(hash' = hash ∧ id' = id) := fun hsame => by
        rw [hsame.1, hsame.2, concerns_save] at h
        cases h
      exact survives_save_of_ne hkey
  | drop hash' id' =>
      refine and_iff_right fun hsame => ?_
      rw [hsame.1, hsame.2, concerns_drop] at h
      cases h
  | trim now ttl => cases h

/-- A save of the pair, with a peer, that nothing after it took out. -/
def Standing (hash : InfoHash) (id : PeerId) (ops : List Operation) (p : Peer) : Prop :=
  ∃ earlier since, ops = earlier ++ .save hash id p :: since
    ∧ Survives hash id p.lastSeen since

theorem not_standing_nil : ¬Standing hash id [] p := History.not_exists_nil

/-- A save stands if it comes first and lasts, or stands in what comes
later. -/
theorem standing_cons_iff :
    Standing hash id (op :: ops) p
      ↔ (op = .save hash id p ∧ Survives hash id p.lastSeen ops) ∨ Standing hash id ops p :=
  History.exists_cons_iff

-- ============================================================ one pair

/-- What an operation makes of the entry of a pair. -/
def under (hash : InfoHash) (id : PeerId) (entry : Option Peer) : Operation → Option Peer
  | .save hash' id' p => if hash' = hash ∧ id' = id then some (p.over entry) else entry
  | .drop hash' id' => if hash' = hash ∧ id' = id then none else entry
  | .trim now ttl => entry.filter fun p => !Swarm.stale now ttl p

theorem under_save (entry : Option Peer) (p : Peer) :
    under hash id entry (.save hash id p) = some (p.over entry) :=
  if_pos ⟨rfl, rfl⟩

theorem under_drop (entry : Option Peer) : under hash id entry (.drop hash id) = none :=
  if_pos ⟨rfl, rfl⟩

/-- An operation on the store is one on the entry of every pair, each of which
can be followed by itself from then on. -/
theorem peer?_perform (s : Store) (op : Operation) (hash : InfoHash) (id : PeerId) :
    (s.perform op).peer? hash id = under hash id (s.peer? hash id) op := by
  cases op with
  | save hash' id' p =>
      show (s.save hash' id' p).peer? hash id
        = if hash' = hash ∧ id' = id then some (p.over (s.peer? hash id)) else s.peer? hash id
      rw [peer?_save]
      split
      · next h =>
        obtain ⟨rfl, rfl⟩ := h
        rfl
      · rfl
  | drop hash' id' => exact peer?_drop s hash' hash id' id
  | trim now ttl => exact peer?_trim s now ttl hash id

/-- The entry of a peer changes by the operations alone, one after the other,
so it need not be looked up in the stores between. -/
theorem peer?_foldl_perform (s : Store) (ops : List Operation) (hash : InfoHash) (id : PeerId) :
    (ops.foldl perform s).peer? hash id = ops.foldl (under hash id) (s.peer? hash id) := by
  induction ops generalizing s with
  | nil => rfl
  | cons op ops ih => rw [List.foldl_cons, List.foldl_cons, ih, peer?_perform]

/-- So the entry after a history is computed from the history. -/
theorem peer?_run (ops : List Operation) (hash : InfoHash) (id : PeerId) :
    (run ops).peer? hash id = ops.foldl (under hash id) none :=
  peer?_foldl_perform empty ops hash id

/-- What does not concern a pair leaves its entry. -/
theorem under_of_not_concerns (h : op.concerns hash id = false) :
    under hash id entry op = entry := by
  cases op with
  | save hash' id' p =>
      refine if_neg ?_
      rintro ⟨rfl, rfl⟩
      rw [concerns_save] at h
      cases h
  | drop hash' id' =>
      refine if_neg ?_
      rintro ⟨rfl, rfl⟩
      rw [concerns_drop] at h
      cases h
  | trim now ttl => cases h

/-- Where there is an entry after an operation, it was saved by it or was
there before. -/
theorem under_eq_some (h : under hash id entry op = some q) :
    (∃ p, op = .save hash id p ∧ q = p.over entry)
      ∨ (∀ p, op ≠ .save hash id p) ∧ entry = some q := by
  cases hconcerns : op.concerns hash id with
  | false =>
      rw [under_of_not_concerns hconcerns] at h
      refine .inr ⟨fun p hp => ?_, h⟩
      rw [hp, concerns_save] at hconcerns
      cases hconcerns
  | true =>
      rcases Operation.cases_of_concerns hconcerns with ⟨p, rfl⟩ | rfl | ⟨now, ttl, rfl⟩
      · rw [under_save] at h
        exact .inl ⟨p, rfl, (Option.some.inj h).symm⟩
      · rw [under_drop] at h
        cases h
      · exact .inr ⟨nofun, (Option.filter_eq_some_iff.mp h).1⟩

/-- Operations that do not concern a peer may be left out of its history, and
the entry comes out the same. -/
theorem foldl_under_filter (ops : List Operation) (entry : Option Peer) :
    (ops.filter fun op => op.concerns hash id).foldl (under hash id) entry
      = ops.foldl (under hash id) entry := by
  induction ops generalizing entry with
  | nil => rfl
  | cons op ops ih =>
      rw [List.filter_cons]
      split
      · rw [List.foldl_cons, List.foldl_cons, ih]
      · next h =>
        rw [List.foldl_cons, under_of_not_concerns (by simpa using h), ih]

-- ======================================================= what is kept

/-- A trim keeps a peer of a moment since the epoch exactly if its age is
no more than the limit. -/
theorem stale_eq_false_iff {now : Seconds} {ttl : Int64} (hseen : 0 ≤ p.lastSeen.toInt)
    (hnow : 0 ≤ now.toInt) :
    Swarm.stale now ttl p = false ↔ now.toInt - p.lastSeen.toInt ≤ ttl.toInt :=
  Seconds.expired_eq_false_iff hseen hnow

/-- The entry has a mark, and survives. -/
def Kept (hash : InfoHash) (id : PeerId) (mark : Peer → Bool) (entry : Option Peer)
    (ops : List Operation) : Prop :=
  ∃ p, entry = some p ∧ mark p = true ∧ Survives hash id p.lastSeen ops

theorem not_kept_none {mark : Peer → Bool} : ¬Kept hash id mark none ops := by
  intro hexists
  obtain ⟨p, hp, -⟩ := hexists
  cases hp

/-- A save keeps what was kept, and its own peer. The mark is one that a save
takes over from the entry it replaces, as the flag of a complete peer is. -/
theorem kept_over_iff {mark : Peer → Bool}
    (hmark : ∀ p entry, mark (p.over entry) = (mark p || entry.any mark)) :
    Kept hash id mark (some (p.over entry)) ops
      ↔ Kept hash id mark entry (.save hash id p :: ops)
        ∨ (mark p = true ∧ Survives hash id p.lastSeen ops) := by
  constructor
  · intro hexists
    obtain ⟨kept, hkept, hmarked, hsurvives⟩ := hexists
    rw [← Option.some.inj hkept] at hmarked hsurvives
    rw [hmark, Bool.or_eq_true, Option.any_eq_true] at hmarked
    rcases hmarked with hnew | ⟨old, hold, hmarked⟩
    · exact .inr ⟨hnew, hsurvives⟩
    · exact .inl ⟨old, hold, hmarked, survives_save_self.mpr hsurvives⟩
  · intro hor
    rcases hor with ⟨old, hold, hmarked, hsurvives⟩ | ⟨hnew, hsurvives⟩
    · refine ⟨_, rfl, ?_, survives_save_self.mp hsurvives⟩
      rw [hmark, hold, Option.any_some, hmarked, Bool.or_true]
    · refine ⟨_, rfl, ?_, hsurvives⟩
      rw [hmark, hnew, Bool.true_or]

/-- A trim keeps what survives it. Ages are exact here, since neither clock is
before the epoch. -/
theorem kept_trim_iff {mark : Peer → Bool} {now : Seconds} {ttl : Int64} (hnow : 0 ≤ now.toInt)
    (hseen : ∀ p, entry = some p → 0 ≤ p.lastSeen.toInt) :
    Kept hash id mark (under hash id entry (.trim now ttl)) ops
      ↔ Kept hash id mark entry (.trim now ttl :: ops) := by
  constructor
  · intro hexists
    obtain ⟨p, hp, hmarked, hsurvives⟩ := hexists
    obtain ⟨hentry, hfresh⟩ := Option.filter_eq_some_iff.mp hp
    rw [Bool.not_eq_true', stale_eq_false_iff (hseen p hentry) hnow] at hfresh
    exact ⟨p, hentry, hmarked, hfresh, hsurvives⟩
  · intro hexists
    obtain ⟨p, hentry, hmarked, hfresh, hsurvives⟩ := hexists
    rw [← stale_eq_false_iff (hseen p hentry) hnow, ← Bool.not_eq_true'] at hfresh
    exact ⟨p, Option.filter_eq_some_iff.mpr ⟨hentry, hfresh⟩, hmarked, hsurvives⟩

/-- One operation: an entry that is kept was kept before, or is new. An
operation that does not concern the pair changes nothing; of the three that do,
only a save can bring an entry. -/
theorem kept_under_iff {mark : Peer → Bool}
    (hmark : ∀ p entry, mark (p.over entry) = (mark p || entry.any mark))
    (hop : op.Timely) (hseen : ∀ p, entry = some p → 0 ≤ p.lastSeen.toInt) :
    Kept hash id mark (under hash id entry op) ops
      ↔ Kept hash id mark entry (op :: ops)
        ∨ ∃ p, op = .save hash id p ∧ mark p = true ∧ Survives hash id p.lastSeen ops := by
  cases hconcerns : op.concerns hash id with
  | false =>
      have hkept : Kept hash id mark entry (op :: ops) ↔ Kept hash id mark entry ops :=
        exists_congr fun p => and_congr_right fun _ => and_congr_right fun _ =>
          survives_cons_of_not_concerns hconcerns
      rw [under_of_not_concerns hconcerns, hkept]
      refine (or_iff_left fun hexists => ?_).symm
      obtain ⟨p, rfl, -⟩ := hexists
      rw [concerns_save] at hconcerns
      cases hconcerns
  | true =>
      rcases Operation.cases_of_concerns hconcerns with ⟨new, rfl⟩ | rfl | ⟨now, ttl, rfl⟩
      · rw [under_save, kept_over_iff hmark]
        refine or_congr_right ⟨fun hnew => ⟨new, rfl, hnew⟩, fun hexists => ?_⟩
        obtain ⟨p, hp, hnew⟩ := hexists
        obtain ⟨-, -, rfl⟩ := Operation.save.inj hp
        exact hnew
      · rw [under_drop]
        -- neither what was there nor a save of now outlives a drop
        refine iff_of_false not_kept_none fun hor => ?_
        rcases hor with ⟨p, -, -, hsurvives⟩ | ⟨p, hp, -⟩
        · exact hsurvives.1 ⟨rfl, rfl⟩
        · cases hp
      · rw [kept_trim_iff hop hseen]
        refine (or_iff_left fun hexists => ?_).symm
        obtain ⟨p, hp, -⟩ := hexists
        cases hp

/-- A timely operation leaves no entry from before the epoch. -/
theorem seen_under (hop : op.Timely) (hseen : ∀ p, entry = some p → 0 ≤ p.lastSeen.toInt)
    (q : Peer) (hq : under hash id entry op = some q) : 0 ≤ q.lastSeen.toInt := by
  rcases under_eq_some hq with ⟨p, rfl, rfl⟩ | ⟨-, hentry⟩
  · exact hop
  · exact hseen q hentry

/-- A list of operations: an entry that has the mark in the end had it at
the start and was kept, or has it from a save that stands. -/
theorem any_foldl_under_iff {mark : Peer → Bool}
    (hmark : ∀ p entry, mark (p.over entry) = (mark p || entry.any mark))
    (htimely : ∀ op ∈ ops, op.Timely) (hseen : ∀ p, entry = some p → 0 ≤ p.lastSeen.toInt) :
    (ops.foldl (under hash id) entry).any mark = true
      ↔ Kept hash id mark entry ops ∨ ∃ p, Standing hash id ops p ∧ mark p = true := by
  induction ops generalizing entry with
  | nil =>
      rw [List.foldl_nil, Option.any_eq_true]
      constructor
      · intro hexists
        obtain ⟨p, hp, hmarked⟩ := hexists
        exact .inl ⟨p, hp, hmarked, trivial⟩
      · intro hor
        rcases hor with ⟨p, hp, hmarked, -⟩ | ⟨p, hp, -⟩
        · exact ⟨p, hp, hmarked⟩
        · exact absurd hp not_standing_nil
  | cons op ops ih =>
      -- what the first operation brings has to outlive the rest of them
      have hop := htimely op List.mem_cons_self
      rw [List.foldl_cons,
        ih (fun op' hop' => htimely op' (List.mem_cons_of_mem op hop')) (seen_under hop hseen),
        kept_under_iff hmark hop hseen, or_assoc]
      refine or_congr_right ⟨?_, ?_⟩
      · intro hor
        rcases hor with ⟨p, hp, hmarked, hkept⟩ | ⟨p, hp, hmarked⟩
        · exact ⟨p, standing_cons_iff.mpr (.inl ⟨hp, hkept⟩), hmarked⟩
        · exact ⟨p, standing_cons_iff.mpr (.inr hp), hmarked⟩
      · intro hexists
        obtain ⟨p, hp, hmarked⟩ := hexists
        rcases standing_cons_iff.mp hp with ⟨hsave, hkept⟩ | hstanding
        · exact .inl ⟨p, hsave, hmarked, hkept⟩
        · exact .inr ⟨p, hstanding, hmarked⟩

-- ============================================================== stores

theorem run_concat (ops : List Operation) (op : Operation) :
    run (ops ++ [op]) = (run ops).perform op := by
  unfold run
  rw [List.foldl_append]
  rfl

theorem consistent_run (ops : List Operation) : (run ops).Consistent := by
  induction ops using List.reverseRecOn with
  | nil => exact consistent_empty
  | append_singleton ops op ih =>
      rw [run_concat]
      exact consistent_perform ih op

/-- A peer is that of the latest save of its pair, except for the flag. By
induction from the end: the last operation saved it, or let it stand. -/
theorem latest_of_peer?_run (h : (run ops).peer? hash id = some q) :
    ∃ earlier p since, ops = earlier ++ .save hash id p :: since
      ∧ (∀ p', .save hash id p' ∉ since)
      ∧ q.ip = p.ip ∧ q.port = p.port ∧ q.lastSeen = p.lastSeen := by
  induction ops using List.reverseRecOn with
  | nil =>
      rw [show run [] = empty from rfl, peer?_empty] at h
      cases h
  | append_singleton ops op ih =>
      rw [run_concat, peer?_perform] at h
      rcases under_eq_some h with ⟨p, rfl, rfl⟩ | ⟨hop, hentry⟩
      · exact ⟨ops, p, [], rfl, nofun, rfl, rfl, rfl⟩
      · obtain ⟨earlier, p, since, rfl, hsince, hfields⟩ := ih hentry
        refine ⟨earlier, p, since ++ [op], by rw [List.append_assoc, List.cons_append], ?_, hfields⟩
        intro p' hp'
        rcases List.mem_append.mp hp' with hin | hin
        · exact hsince p' hin
        · exact hop p' (List.mem_singleton.mp hin).symm

-- ======================================================== independence

/-- An operation on one pair concerns that pair and no other. -/
theorem concerns_of_key? {key : InfoHash × PeerId} (h : op.key? = some key) :
    op.concerns hash id = decide (key = (hash, id)) := by
  unfold Operation.concerns
  rw [h]
  rfl

/-- Of two operations on different pairs one does not concern a given
pair. -/
theorem not_concerns_or {a b : Operation} {x y : InfoHash × PeerId} (ha : a.key? = some x)
    (hb : b.key? = some y) (hne : x ≠ y) (hash : InfoHash) (id : PeerId) :
    a.concerns hash id = false ∨ b.concerns hash id = false := by
  rw [concerns_of_key? ha, concerns_of_key? hb, decide_eq_false_iff_not, decide_eq_false_iff_not]
  by_cases hx : x = (hash, id)
  · right
    intro hy
    exact hne (hx.trans hy.symm)
  · exact .inl hx

/-- Two operations on different pairs may change places. Seen from any one
pair, at least one of the two does nothing. -/
theorem under_comm {a b : Operation} {x y : InfoHash × PeerId} (ha : a.key? = some x)
    (hb : b.key? = some y) (hne : x ≠ y) :
    under hash id (under hash id entry a) b = under hash id (under hash id entry b) a := by
  rcases not_concerns_or ha hb hne hash id with h | h
  · rw [under_of_not_concerns h, under_of_not_concerns h]
  · rw [under_of_not_concerns h, under_of_not_concerns h]

/-- Operations on different pairs can change places: peers are the same after
both orders, and the counts are recounts of them. -/
theorem Consistent.perform_comm {s : Store} (h : s.Consistent) {a b : Operation}
    {x y : InfoHash × PeerId} (ha : a.key? = some x) (hb : b.key? = some y) (hne : x ≠ y) :
    (s.perform a).perform b = (s.perform b).perform a := by
  refine Consistent.ext (consistent_perform (consistent_perform h a) b)
    (consistent_perform (consistent_perform h b) a) fun hash id => ?_
  rw [peer?_perform, peer?_perform, peer?_perform, peer?_perform, under_comm ha hb hne]

/-- What an operation answers does not depend on one on another pair, so the
two may come in either order. -/
theorem answer_perform (s : Store) {a b : Operation} {x y : InfoHash × PeerId}
    (ha : a.key? = some x) (hb : b.key? = some y) (hne : x ≠ y) :
    (s.perform a).answer b = s.answer b := by
  cases b with
  | save hash id p => rfl
  | drop hash id =>
      have hother : a.concerns hash id = false := by
        rw [concerns_of_key? ha, decide_eq_false_iff_not, Option.some.inj hb]
        exact hne
      show some ((s.perform a).drop hash id).2 = some (s.drop hash id).2
      rw [drop_snd, drop_snd, peer?_perform, under_of_not_concerns hother]
  | trim now ttl => rfl

-- ============================================================= the law

/-- The store after operations, told from the operations alone: which
pairs have a peer, what the peer is, that no operation on another pair has
a part in it, and that operations on different pairs can change places. -/
structure FromHistory (ops : List Operation) : Prop where
  present : ∀ hash id,
    ((run ops).peer? hash id).isSome = true ↔ ∃ p, Standing hash id ops p
  latest : ∀ hash id q, (run ops).peer? hash id = some q →
    ∃ earlier p since, ops = earlier ++ .save hash id p :: since
      ∧ (∀ p', .save hash id p' ∉ since)
      ∧ q.ip = p.ip ∧ q.port = p.port ∧ q.lastSeen = p.lastSeen
  complete : ∀ hash id q, (run ops).peer? hash id = some q →
    (q.complete = true ↔ ∃ p, Standing hash id ops p ∧ p.complete = true)
  concerned : ∀ hash id,
    (run (ops.filter fun op => op.concerns hash id)).peer? hash id = (run ops).peer? hash id
  commute : ∀ a b x y later, a.key? = some x → b.key? = some y → x ≠ y →
    run (ops ++ a :: b :: later) = run (ops ++ b :: a :: later)
      ∧ (run (ops ++ [b])).answer a = (run ops).answer a
      ∧ (run (ops ++ [a])).answer b = (run ops).answer b

/-- A peer has a mark that saves pass on exactly if a save with the mark
stands. -/
theorem any_peer?_run_iff {mark : Peer → Bool}
    (hmark : ∀ p entry, mark (p.over entry) = (mark p || entry.any mark))
    (htimely : ∀ op ∈ ops, op.Timely) :
    ((run ops).peer? hash id).any mark = true ↔ ∃ p, Standing hash id ops p ∧ mark p = true := by
  have hnone : ∀ p : Peer, none = some p → 0 ≤ p.lastSeen.toInt := by
    intro p hp
    cases hp
  rw [peer?_run, any_foldl_under_iff hmark htimely hnone]
  exact or_iff_right not_kept_none

/-- The store after a timely history, read off the history. Each part says of
the whole store what a lemma above says of one entry. -/
theorem fromHistory_run {ops : List Operation} (htimely : ∀ op ∈ ops, op.Timely) :
    FromHistory ops where
  present := by
    intro hash id
    have hany : ((run ops).peer? hash id).any (fun _ => true) = true ↔ _ :=
      any_peer?_run_iff (fun _ _ => (Bool.true_or _).symm) htimely
    rw [Option.any_true] at hany
    exact hany.trans (exists_congr fun p => and_iff_left rfl)
  latest := fun hash id q hq => latest_of_peer?_run hq
  complete := by
    intro hash id q hq
    have hany : ((run ops).peer? hash id).any Peer.complete = true ↔ _ :=
      any_peer?_run_iff (fun p entry => Bool.or_comm _ _) htimely
    rw [hq, Option.any_some] at hany
    exact hany
  concerned := by
    intro hash id
    rw [peer?_run, peer?_run, foldl_under_filter]
  commute := by
    intro a b x y later ha hb hne
    refine ⟨?_, ?_, ?_⟩
    · unfold run
      rw [List.foldl_append, List.foldl_append, List.foldl_cons, List.foldl_cons, List.foldl_cons,
        List.foldl_cons]
      exact congrArg (later.foldl perform) ((consistent_run ops).perform_comm ha hb hne)
    · rw [run_concat]
      exact answer_perform _ hb ha hne.symm
    · rw [run_concat]
      exact answer_perform _ ha hb hne

/-- A peer that is complete, incomplete and gone, then back while another
of the swarm is dropped. -/
theorem fromHistory_returned :
    let ops : List Operation :=
      [.save (.replicate 20 1) (.replicate 20 2) ⟨.v4 (.replicate 4 10), 6881, true, 1000⟩,
        .save (.replicate 20 1) (.replicate 20 3) ⟨.v4 (.replicate 4 11), 6882, true, 1000⟩,
        .save (.replicate 20 1) (.replicate 20 2) ⟨.v4 (.replicate 4 10), 6883, false, 1100⟩,
        .trim 1600 450,
        .save (.replicate 20 1) (.replicate 20 2) ⟨.v4 (.replicate 4 10), 6884, false, 1700⟩,
        .drop (.replicate 20 1) (.replicate 20 3)]
    FromHistory ops
      ∧ (run ops).peer? (.replicate 20 1) (.replicate 20 2)
        = some ⟨.v4 (.replicate 4 10), 6884, false, 1700⟩
      ∧ (run ops).peer? (.replicate 20 1) (.replicate 20 3) = none :=
  ⟨fromHistory_run (by decide), by decide, by decide⟩

end TorrentTracker.Store
