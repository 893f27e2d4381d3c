import TorrentTracker.Connections
import TorrentTracker.Store

/-
Counts of what the tracker has handled, and the figures it shows.

Counters are words of 64 bits. The sizes of the stores are not counted but
asked for when the figures are wanted.
-/

namespace TorrentTracker

/-- The things that are counted. -/
inductive Counter where
  | udpHits
  | udpConnects
  | udpAnnounces
  | udpScrapes
  | udpHeartbeats
  /-- Requests answered with a fixed refusal. -/
  | clientErrors
  /-- Replies that could not be written. -/
  | internalErrors
  | httpAnnounces
  | httpScrapes
  | httpFailures
deriving DecidableEq

namespace Counter

/-- All counters, in the order they are shown. -/
def all : List Counter :=
  [udpHits, udpConnects, udpAnnounces, udpScrapes, udpHeartbeats, clientErrors,
    internalErrors, httpAnnounces, httpScrapes, httpFailures]

/-- The name a counter is shown under. -/
def name : Counter → String
  | udpHits => "udp_hits"
  | udpConnects => "udp_connects"
  | udpAnnounces => "udp_announces"
  | udpScrapes => "udp_scrapes"
  | udpHeartbeats => "udp_heartbeats"
  | clientErrors => "client_errors"
  | internalErrors => "internal_errors"
  | httpAnnounces => "http_announces"
  | httpScrapes => "http_scrapes"
  | httpFailures => "http_failures"

end Counter

/-- The counters, and since when they count. -/
structure Metrics where
  udpHits : UInt64 := 0
  udpConnects : UInt64 := 0
  udpAnnounces : UInt64 := 0
  udpScrapes : UInt64 := 0
  udpHeartbeats : UInt64 := 0
  clientErrors : UInt64 := 0
  internalErrors : UInt64 := 0
  httpAnnounces : UInt64 := 0
  httpScrapes : UInt64 := 0
  httpFailures : UInt64 := 0
  startTime : Seconds
deriving DecidableEq

namespace Metrics

/-- The value of a counter. -/
def get (m : Metrics) : Counter → UInt64
  | .udpHits => m.udpHits
  | .udpConnects => m.udpConnects
  | .udpAnnounces => m.udpAnnounces
  | .udpScrapes => m.udpScrapes
  | .udpHeartbeats => m.udpHeartbeats
  | .clientErrors => m.clientErrors
  | .internalErrors => m.internalErrors
  | .httpAnnounces => m.httpAnnounces
  | .httpScrapes => m.httpScrapes
  | .httpFailures => m.httpFailures

/-- Give a counter a value. -/
def set (m : Metrics) (c : Counter) (n : UInt64) : Metrics :=
  match c with
  | .udpHits => { m with udpHits := n }
  | .udpConnects => { m with udpConnects := n }
  | .udpAnnounces => { m with udpAnnounces := n }
  | .udpScrapes => { m with udpScrapes := n }
  | .udpHeartbeats => { m with udpHeartbeats := n }
  | .clientErrors => { m with clientErrors := n }
  | .internalErrors => { m with internalErrors := n }
  | .httpAnnounces => { m with httpAnnounces := n }
  | .httpScrapes => { m with httpScrapes := n }
  | .httpFailures => { m with httpFailures := n }

/-- Count one more. -/
def bump (m : Metrics) (c : Counter) : Metrics := m.set c (m.get c + 1)

theorem get_set (m : Metrics) (c d : Counter) (n : UInt64) :
    (m.set c n).get d = if c = d then n else m.get d := by
  cases c <;> cases d <;> rfl

/-- Counting one thing leaves the other counters alone. -/
theorem get_bump (m : Metrics) (c d : Counter) :
    (m.bump c).get d = if c = d then m.get d + 1 else m.get d := by
  rw [bump, get_set]
  split
  · next h => rw [h]
  · rfl

end Metrics

/-- The figures of a running tracker. -/
structure Figures where
  metrics : Metrics
  peers : Nat
  seeders : Nat
  leechers : Nat
  swarms : Nat
  connections : Nat
  uptime : Int64
  /-- Datagrams, announces and scrapes over the time since the start; zero
  before a second has passed. -/
  requestsPerSecond : Float

/-- The time since the start has to fit, and the requests in all have to. -/
def Metrics.figuresFault? (m : Metrics) (now : Seconds) : Option Overflow :=
  (m.startTime.elapsedFault? now).or
    (Overflow.add.ifNot
      (m.udpHits.toNat + m.httpAnnounces.toNat + m.httpScrapes.toNat < UInt64.size))

/-- The figures at a moment. -/
def Metrics.figures (m : Metrics) (store : Store) (connections : Connections) (now : Seconds) :
    Figures :=
  let uptime := Seconds.elapsed m.startTime now
  let requests := m.udpHits + m.httpAnnounces + m.httpScrapes
  { metrics := m
    peers := store.totalPeers
    seeders := store.totalSeeders
    leechers := store.totalPeers - store.totalSeeders
    swarms := store.activeSwarms
    connections := connections.size
    uptime
    requestsPerSecond := if 0 < uptime then requests.toFloat / uptime.toFloat else 0 }

/-- The figures at a moment, in either build. -/
def Metrics.figuresIn (build : Build) (m : Metrics) (store : Store) (connections : Connections)
    (now : Seconds) : Except Overflow Figures :=
  build.settle (m.figuresFault? now) (m.figures store connections now)

end TorrentTracker
