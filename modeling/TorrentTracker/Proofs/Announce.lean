import TorrentTracker.Proofs.Store.Reached
import TorrentTracker.Proofs.Store.Selection
import TorrentTracker.Tracker.Announce

/-
What an announce does to a swarm and what its client is told, whichever
transport it came by.

An announce names one peer. It takes that peer out if it stops and puts it
in otherwise (`peer?_apply`), and the whole of either is one operation on
the store (`apply_eq_perform`), so a tracker that is only announced to
goes through stores that operations lead to.

What the client is told is read off the store after that. The counts are
those of a swarm with the client in it, so there is at least one peer
(`one_le_counts`). The packed peers are a selection from those of its own
family (`exists_entries`).
-/

namespace TorrentTracker

namespace Announce

-- ============================================================= the swarm

/-- The operation an announce comes down to. -/
def operation (a : Announce) (now : Seconds) : Store.Operation :=
  match a.event.transition a.left with
  | .leave => .drop a.infoHash a.peerId
  | .join complete => .save a.infoHash a.peerId (a.peer complete now)

/-- Either way an announce goes it is one operation on the store. So what is
known of stores that operations lead to is known of trackers that are announced
to. -/
theorem apply_eq_perform (a : Announce) (store : Store) (now : Seconds) :
    a.apply store now = store.perform (a.operation now) := by
  unfold apply operation
  cases a.event.transition a.left with
  | leave => rfl
  | join complete => rfl

/-- Who leaves is who says that it stops. What it has left to download does not
matter there. -/
theorem leaves_eq (a : Announce) : a.leaves = decide (a.event = .stopped) := by
  unfold leaves
  cases a.event with
  | _ => rfl

/-- Any other event joins. The client is complete if it says that it just got
there, or if it has nothing left to download. -/
theorem transition_of_not_stopped {a : Announce} (h : a.event ≠ .stopped) :
    a.event.transition a.left = .join (a.event = .completed || a.left = 0) := by
  cases hevent : a.event with
  | none => rfl
  | completed => rfl
  | started => rfl
  | stopped => exact absurd hevent h

theorem apply_of_stopped {a : Announce} (h : a.event = .stopped) (store : Store)
    (now : Seconds) : a.apply store now = (store.drop a.infoHash a.peerId).1 := by
  unfold apply
  rw [h]
  rfl

theorem apply_of_not_stopped {a : Announce} (h : a.event ≠ .stopped) (store : Store)
    (now : Seconds) :
    a.apply store now = store.save a.infoHash a.peerId
      (a.peer (a.event = .completed || a.left = 0) now) := by
  unfold apply
  rw [transition_of_not_stopped h]

/-- Whether the client has the whole download: it had before, or says so
now. -/
def completes (a : Announce) (store : Store) : Bool :=
  (store.peer? a.infoHash a.peerId).any Peer.complete
    || (a.event = .completed || a.left = 0)

/-- The peer that an announce names is out, or in with what the announce
says of it; every other is as it was. -/
theorem peer?_apply (a : Announce) (store : Store) (now : Seconds) (hash : InfoHash)
    (id : PeerId) :
    (a.apply store now).peer? hash id
      = if a.infoHash = hash ∧ a.peerId = id then
          if a.event = .stopped then none else some (a.peer (a.completes store) now)
        else store.peer? hash id := by
  by_cases hevent : a.event = .stopped
  · rw [apply_of_stopped hevent, Store.peer?_drop, if_pos hevent]
  · rw [apply_of_not_stopped hevent, Store.peer?_save, if_neg hevent]
    rfl

theorem peer?_apply_self {a : Announce} (h : a.event ≠ .stopped) (store : Store)
    (now : Seconds) :
    (a.apply store now).peer? a.infoHash a.peerId = some (a.peer (a.completes store) now) := by
  rw [peer?_apply, if_pos ⟨rfl, rfl⟩, if_neg h]

-- ============================================================ the answer

/-- An announce that joins is told of one peer at least, since the counts are
those of the swarm after it, with its client in it. -/
theorem one_le_counts {a : Announce} (h : a.event ≠ .stopped) (store : Store)
    (now : Seconds) :
    1 ≤ ((a.apply store now).swarm a.infoHash).completeCount
      + ((a.apply store now).swarm a.infoHash).incompleteCount := by
  rw [Swarm.completeCount_add_incompleteCount]
  have hpeer : ((a.apply store now).swarm a.infoHash).peers.get? a.peerId = some _ :=
    peer?_apply_self h store now
  refine Nat.one_le_iff_ne_zero.mpr fun hzero => ?_
  rw [← Table.isEmpty_iff_size, Table.isEmpty_iff_get?] at hzero
  rw [hzero] at hpeer
  cases hpeer

theorem counts_of_stopped {a : Announce} (h : a.event = .stopped) (store : Store) :
    a.counts store = ⟨0, 0⟩ := by
  unfold counts
  rw [leaves_eq, decide_eq_true h, if_pos rfl]

theorem counts_of_not_stopped {a : Announce} (h : a.event ≠ .stopped) (store : Store) :
    a.counts store = store.counts a.infoHash := by
  unfold counts
  rw [leaves_eq, decide_eq_false h]
  rfl

theorem compactPeers_of_stopped {a : Announce} (h : a.event = .stopped) (store : Store)
    (wanted : Nat) (picks : List Nat) : a.compactPeers store wanted picks = [] := by
  unfold compactPeers
  rw [leaves_eq, decide_eq_true h, if_pos rfl]

/-- The draws matter for a sample only, that is for a swarm with more peers
than are wanted. -/
theorem compactPeers_congr {a : Announce} {store : Store} {picks picks' : List Nat}
    {wanted : Nat} (h : wanted < (store.swarm a.infoHash).peers.size → picks = picks') :
    a.compactPeers store wanted picks = a.compactPeers store wanted picks' := by
  unfold compactPeers Store.compactPeers
  rw [Store.select_congr h]

/-- The packed peers a client is told are whole entries of its own family,
each for a peer of its swarm and none twice, as many as wanted or as there
are. -/
theorem exists_entries {a : Announce} (h : a.event ≠ .stopped) (store : Store) (wanted : Nat)
    (picks : List Nat) :
    ∃ entries : List Bytes, a.compactPeers store wanted picks = entries.flatten
      ∧ (∀ entry ∈ entries, entry.length = a.family.compactWidth)
      ∧ entries.Subperm ((store.inFamily a.infoHash a.family).map Peer.compact)
      ∧ entries.length = min wanted (store.inFamily a.infoHash a.family).length := by
  obtain ⟨entries, hpacked, hwidth, hcount, hsubperm, -⟩ :=
    (store.packed_compactPeers a.infoHash wanted a.family picks).entries
  rw [← Store.length_inFamily] at hcount
  refine ⟨entries, ?_, hwidth, hsubperm, hcount⟩
  unfold compactPeers
  rw [leaves_eq, decide_eq_false h]
  exact hpacked

end Announce

end TorrentTracker
