import TorrentTracker.Tracker.Web

/-
How a request over HTTP is answered: one case for every way out of
`respond`.

A request is routed by its path, held against its method, and then read as
what the path is for. `Responded` lists where that can end, each with what
leads there, the tracker it leaves and the answer it gives, and
`responded_respond` says that the list is complete. Only an announce that
can be read touches anything but the figures.

# Main statements

- `responded_respond`: every request is answered in one of these ways;
- `Responded.config`, `Responded.connections`, `Responded.backup`: what no
  request touches.
-/

namespace TorrentTracker.Tracker

variable {t : Tracker} {m : Moment} {source : SocketAddress} {r : Http.Request}

-- =============================================================== exits

/-- A request on the path of a route, with a method that is answered. -/
structure Asks (r : Http.Request) (route : Route) : Prop where
  path : r.target.path = utf8 route.path
  method : r.method = "GET" ∨ r.method = "HEAD"

/-- The answer as it is sent, which a `HEAD` leaves without its content. -/
def trimmed (r : Http.Request) (answer : Http.Response) : Http.Response :=
  if r.method = "HEAD" then answer.withoutBody else answer

theorem body_trimmed (r : Http.Request) (answer : Http.Response) :
    (trimmed r answer).body = answer.body ∨ (trimmed r answer).body = .bytes [] := by
  unfold trimmed
  by_cases hhead : r.method = "HEAD"
  · rw [if_pos hhead]
    exact .inr rfl
  · rw [if_neg hhead]
    exact .inl rfl

/-- What the source of an announce query is told, of the tracker after
it. -/
def toldQuery (t : Tracker) (m : Moment) (source : SocketAddress) (q : AnnounceQuery) :
    AnnounceReply :=
  let a := q.announce source
  { seeders := (a.counts t.store).complete
    leechers := (a.counts t.store).incomplete
    interval := t.interval m
    peers :=
      if q.compact then
        .compact a.family (a.compactPeers t.store (t.wanted a.numwant) m.draws.picks)
      else .dicts (!q.noPeerId) (a.otherPeers t.store (t.wanted a.numwant) m.draws.picks) }

/-- The ways a request is answered. -/
inductive Responded (t : Tracker) (m : Moment) (source : SocketAddress) (r : Http.Request) :
    Tracker × Http.Response → Prop where
  | stray (hroute : Route.ofPath? r.target.path = none) :
      Responded t m source r (t, trimmed r (strayResponse r))
  | refused {route : Route} (hpath : r.target.path = utf8 route.path)
      (hmethod : ¬(r.method = "GET" ∨ r.method = "HEAD")) :
      Responded t m source r (t, ⟨405, none, .bytes []⟩)
  | noQuery (h : Asks r .announce) (hquery : r.target.query = none) :
      Responded t m source r
        (t.count .httpFailures, trimmed r Http.Failure.browserAccess.response)
  | badAnnounce {text : Bytes} {cause : Query.Error} (h : Asks r .announce)
      (hquery : r.target.query = some text) (hparse : AnnounceQuery.parse text = .error cause) :
      Responded t m source r
        (t.count .httpFailures, trimmed r (Http.Failure.invalid cause).response)
  | announced {text : Bytes} {q : AnnounceQuery} {t' : Tracker} (h : Asks r .announce)
      (hquery : r.target.query = some text) (hparse : AnnounceQuery.parse text = .ok q)
      (htracker : Tracker.admit (t.count .httpAnnounces) m (q.announce source) = t') :
      Responded t m source r (t', trimmed r (.plain 200 (toldQuery t' m source q).body))
  | badScrape {cause : Query.Error} (h : Asks r .scrape)
      (hparse : ScrapeQuery.parse (r.target.query.getD []) = .error cause) :
      Responded t m source r
        (t.count .httpFailures, trimmed r (Http.Failure.invalid cause).response)
  | scraped {hashes : List InfoHash} (h : Asks r .scrape)
      (hparse : ScrapeQuery.parse (r.target.query.getD []) = .ok hashes) :
      Responded t m source r (t.count .httpScrapes,
        trimmed r (.plain 200 (ScrapeReply.body ⟨hashes.map t.fileCounts⟩)))
  | health (h : Asks r .health) :
      Responded t m source r (t, trimmed r (.json (t.health m.now)))
  | stats (h : Asks r .stats) :
      Responded t m source r (t, trimmed r (.json (t.figures m.now).fields))

/-- A path that leads somewhere is the path of that route, letter for
letter. -/
theorem path_of_ofPath? {path : Bytes} {route : Route} (h : Route.ofPath? path = some route) :
    path = utf8 route.path := by
  have hfound := List.find?_some h
  exact (of_decide_eq_true hfound).symm

/-- A `GET` on the path of a route is answered as the route is followed. The
headers have no say in it. -/
theorem respond_get {path : Bytes} {route : Route} (hroute : Route.ofPath? path = some route)
    (t : Tracker) (m : Moment) (source : SocketAddress) (query : Option Bytes)
    (headers : List (String × Bytes)) :
    t.respond m source ⟨"GET", ⟨path, query⟩, headers⟩ = t.follow m source query route := by
  have hget : (decide ("GET" = "GET") || decide ("GET" = "HEAD")) = true := by decide
  have hhead : ¬"GET" = "HEAD" := by decide
  unfold respond
  rw [hroute]
  dsimp only
  rw [if_pos hget, if_neg hhead]

/-- Where a request on the path for announces can end: without a query, with
one that cannot be read, or answered. -/
theorem responded_announce (h : Asks r .announce) :
    Responded t m source r ((t.announceQuery m source r.target.query).1,
      trimmed r (outcomeResponse AnnounceReply.body
        (t.announceQuery m source r.target.query).2)) := by
  unfold announceQuery
  cases hquery : r.target.query with
  | none => exact .noQuery h hquery
  | some text =>
      dsimp only
      cases hparse : AnnounceQuery.parse text with
      | error cause => exact .badAnnounce h hquery hparse
      | ok q => exact .announced h hquery hparse rfl

theorem responded_scrape (h : Asks r .scrape) :
    Responded t m source r ((t.scrapeQuery r.target.query).1,
      trimmed r (outcomeResponse ScrapeReply.body (t.scrapeQuery r.target.query).2)) := by
  unfold scrapeQuery
  cases hparse : ScrapeQuery.parse (r.target.query.getD []) with
  | error cause => exact .badScrape h hparse
  | ok hashes => exact .scraped h hparse

/-- Every request is answered in one of these ways. The cases are those of the
router: the path, the method, and for either query whether it can be read. -/
theorem responded_respond (t : Tracker) (m : Moment) (source : SocketAddress)
    (r : Http.Request) : Responded t m source r (t.respond m source r) := by
  unfold respond
  cases hroute : Route.ofPath? r.target.path with
  | none => exact .stray hroute
  | some route =>
      have hpath := path_of_ofPath? hroute
      by_cases hmethod : r.method = "GET" ∨ r.method = "HEAD"
      · have hasks : Asks r route := ⟨hpath, hmethod⟩
        simp only [Bool.or_eq_true, decide_eq_true_eq, hmethod, if_true]
        cases route with
        | announce => exact responded_announce hasks
        | scrape => exact responded_scrape hasks
        | health => exact .health hasks
        | stats => exact .stats hasks
      · simp only [Bool.or_eq_true, decide_eq_true_eq, hmethod, if_false]
        exact .refused hpath hmethod

-- ============================================================= effects

variable {p : Tracker × Http.Response}

/-- A request changes nothing in the settings, whatever way it goes. -/
theorem Responded.config (h : Responded t m source r p) : p.1.config = t.config := by
  cases h with
  | announced _ _ _ htracker =>
      subst htracker
      rfl
  | _ => rfl

/-- No request over HTTP touches the tickets, which belong to the other
transport. -/
theorem Responded.connections (h : Responded t m source r p) :
    p.1.connections = t.connections := by
  cases h with
  | announced _ _ _ htracker =>
      subst htracker
      rfl
  | _ => rfl

theorem Responded.backup (h : Responded t m source r p) : p.1.backup = t.backup := by
  cases h with
  | announced _ _ _ htracker =>
      subst htracker
      rfl
  | _ => rfl

end TorrentTracker.Tracker
