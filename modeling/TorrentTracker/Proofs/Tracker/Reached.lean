import TorrentTracker.Config.Check
import TorrentTracker.Proofs.Announce
import TorrentTracker.Proofs.Tracker.Answer
import TorrentTracker.Proofs.Tracker.Response
import TorrentTracker.Tracker.Upkeep

/-
The trackers that come of a start with valid settings.

A running tracker is changed by datagrams, by requests, by sweeps and by
loads. Of all that, only its store and its settings matter to what an
announce is told, so everything that leaves both alone (a snapshot saved, a
connection id given out or taken back, a figure counted) is one case,
`beside`.

Whatever the transport, the store is left alone or takes in one announce
(`Touched`). An announce is one operation on the store, and with that the
store of such a tracker is one that operations lead to.

# Main statements

- `touched_process`, `touched_respond`: what a request does to the store;
- `Reached.store`, `Reached.validate`: the store is reached by operations,
  and the settings stay valid.
-/

namespace TorrentTracker.Tracker

variable {t : Tracker} {m : Moment} {source : SocketAddress}

-- ============================================================= requests

/-- The store of a tracker after a request: as it was, or after an
announce at the time of the request. -/
def Touched (t : Tracker) (m : Moment) (store : Store) : Prop :=
  store = t.store ∨ ∃ a : Announce, store = a.apply t.store m.now

/-- A datagram leaves the store alone, or takes in the announce that it
carries. -/
theorem touched_process (t : Tracker) (m : Moment) (source : SocketAddress) (data : Bytes) :
    Touched t m (t.process m source data).1.store := by
  rw [process_eq]
  cases (answered_reply t m source data).effect with
  | none _ hstore _ _ => exact .inl hstore
  | connected _ hstore _ => exact .inl hstore
  | announced _ _ hstore _ => exact .inr ⟨_, hstore⟩

theorem config_process (t : Tracker) (m : Moment) (source : SocketAddress) (data : Bytes) :
    (t.process m source data).1.config = t.config := by
  rw [process_eq]
  exact (answered_reply t m source data).config

theorem Responded.touched {r : Http.Request} {p : Tracker × Http.Response}
    (h : Responded t m source r p) : Touched t m p.1.store := by
  cases h with
  | announced _ _ _ htracker =>
      subst htracker
      exact .inr ⟨_, rfl⟩
  | _ => exact .inl rfl

theorem touched_respond (t : Tracker) (m : Moment) (source : SocketAddress)
    (r : Http.Request) : Touched t m (t.respond m source r).1.store
      ∧ (t.respond m source r).1.config = t.config :=
  ⟨(responded_respond t m source r).touched, (responded_respond t m source r).config⟩

-- ================================================================= runs

/-- The trackers that come of a start with valid settings by datagrams, by
requests, by sweeps of peers, by loads of the snapshot of another such
tracker, and by whatever leaves the store and the settings alone. No swarm
outgrows the count of its peers. -/
inductive Reached : Tracker → Prop where
  | start {config : Config} {disk disk' : Disk} {now : Seconds} {t : Tracker} :
      config.validate = .ok () → Tracker.start config disk now = (.ok t, disk') → Reached t
  | datagram {t : Tracker} (m : Moment) (source : SocketAddress) (data : Bytes) :
      Reached t → (t.process m source data).1.store.Roomy → Reached (t.process m source data).1
  | request {t : Tracker} (m : Moment) (source : SocketAddress) (r : Http.Request) :
      Reached t → (t.respond m source r).1.store.Roomy → Reached (t.respond m source r).1
  | sweep {t : Tracker} (now : Seconds) : Reached t → Reached (t.sweepPeers now).1
  | load {t u : Tracker} {store : Store} {loaded : Nat} :
      Reached t → Reached u → Store.decode? u.store.encode = some (store, loaded) →
      Reached { t with store }
  | beside {t u : Tracker} :
      Reached t → u.store = t.store → u.config = t.config → Reached u

/-- A tracker that starts has its backup open, and nothing else yet: no peers,
no tickets, and counters that begin at the moment of the start. -/
theorem exists_of_start {config : Config} {disk disk' : Disk} {now : Seconds} {t : Tracker}
    (h : Tracker.start config disk now = (.ok t, disk')) :
    ∃ closed backup, Backup.ofConfig config.backup = .ok closed
      ∧ closed.openOn disk = (.ok backup, disk')
      ∧ t = ⟨config, Store.empty, Connections.empty config.connections.maxAge,
        { startTime := now }, backup⟩ := by
  unfold start at h
  cases hclosed : Backup.ofConfig config.backup with
  | error e =>
      rw [hclosed] at h
      cases h
  | ok closed =>
      rw [hclosed] at h
      dsimp only at h
      cases hopen : closed.openOn disk with
      | mk outcome disk₁ =>
          rw [hopen] at h
          cases outcome with
          | error e => cases h
          | ok backup =>
              cases h
              exact ⟨closed, backup, rfl, hopen, rfl⟩

/-- A tracker that starts has the settings it was given, and no peers. -/
theorem start_eq_ok {config : Config} {disk disk' : Disk} {now : Seconds} {t : Tracker}
    (h : Tracker.start config disk now = (.ok t, disk')) :
    t.config = config ∧ t.store = Store.empty := by
  obtain ⟨closed, backup, -, -, rfl⟩ := exists_of_start h
  exact ⟨rfl, rfl⟩

end TorrentTracker.Tracker

namespace TorrentTracker.Store

theorem Roomy.trim {s : Store} (h : s.Roomy) (now : Seconds) (ttl : Int64) :
    (s.trim now ttl).1.Roomy := by
  refine roomy_of_size_lt fun hash w hw => ?_
  rw [get?_trim] at hw
  obtain ⟨v, hv, rfl⟩ := Option.map_eq_some_iff.mp (Option.filter_eq_some_iff.mp hw).1
  refine Nat.lt_of_le_of_lt ?_ (h.size_lt hv)
  rw [← v.size_trim_add now ttl]
  exact Nat.le_add_right _ _

/-- What a request leaves is reached by one operation more, or by none. That it
has room is asked of the store it leaves. -/
theorem Reached.touched {t : Tracker} {m : Moment} {store : Store} (h : t.store.Reached)
    (htouched : t.Touched m store) (hroom : store.Roomy) : store.Reached := by
  rcases htouched with rfl | ⟨a, rfl⟩
  · exact h
  · rw [a.apply_eq_perform] at hroom ⊢
    exact .perform _ h hroom

end TorrentTracker.Store

namespace TorrentTracker.Tracker

/-- The store of such a tracker comes of the empty one by operations and
loads. -/
theorem Reached.store {t : Tracker} (h : t.Reached) : t.store.Reached := by
  induction h with
  | start _ hstart =>
      rw [(start_eq_ok hstart).2]
      exact .empty
  | datagram m source data _ hroom ih =>
      exact ih.touched (touched_process _ m source data) hroom
  | request m source r _ hroom ih =>
      exact ih.touched (touched_respond _ m source r).1 hroom
  | @sweep t now _ ih => exact .perform (.trim now t.config.peers.ttl) ih (ih.roomy.trim now _)
  | load _ _ hload _ ih => exact .load ih hload
  | beside _ hstore _ ih =>
      rw [hstore]
      exact ih

/-- Nothing along the way changes the settings, so they stay valid: every step
puts a store, tickets or counters in place of others. -/
theorem Reached.validate {t : Tracker} (h : t.Reached) : t.config.validate = .ok () := by
  induction h with
  | start hvalid hstart =>
      rw [(start_eq_ok hstart).1]
      exact hvalid
  | @datagram t m source data _ _ ih =>
      rw [t.config_process]
      exact ih
  | @request t m source r _ _ ih =>
      rw [(t.touched_respond m source r).2]
      exact ih
  | sweep _ _ ih => exact ih
  | load _ _ _ ih _ => exact ih
  | beside _ _ hconfig ih =>
      rw [hconfig]
      exact ih

end TorrentTracker.Tracker
