import TorrentTracker.Overflow

/-
Wall-clock seconds and the one question the tracker asks of them: is this
entry too old?

Time is an input everywhere. Nothing in the library reads a clock; the
outer layer reads it once per request or sweep and passes it in.

The age of an entry is a difference of two words. Between moments since the
epoch it always fits. A moment that came in with a snapshot can be any word,
and then the age may not fit: a wrapping build takes what is left of it for
the age, a checked one stops.
-/

namespace TorrentTracker

/-- Seconds since the epoch. -/
abbrev Seconds := Int64

namespace Seconds

/-- The seconds from one moment to another, negative when the second one
is earlier; what is left after whole turns when they do not fit 64 bits. -/
def elapsed (since now : Seconds) : Seconds := now - since

/-- The difference has to be exact. -/
def elapsedFault? (since now : Seconds) : Option Overflow :=
  Overflow.subtract.ifNot ((elapsed since now).toInt = now.toInt - since.toInt)

/-- The seconds from one moment to another, in either build. -/
def elapsedIn (build : Build) (since now : Seconds) : Except Overflow Seconds :=
  build.settle (elapsedFault? since now) (elapsed since now)

/-- Strictly more than `maxAge` seconds lie between the moment and now: an
entry exactly `maxAge` old is still good. -/
def expired (since maxAge now : Seconds) : Bool :=
  decide (maxAge < Seconds.elapsed since now)

/-- Whether an entry is too old, in either build. -/
def expiredIn (build : Build) (since maxAge now : Seconds) : Except Overflow Bool :=
  (elapsedIn build since now).map fun age => decide (maxAge < age)

/-- Whether an entry is too old runs into what its age runs into. -/
theorem expiredIn_eq (build : Build) (since maxAge now : Seconds) :
    expiredIn build since maxAge now
      = build.settle (elapsedFault? since now) (since.expired maxAge now) :=
  Build.map_settle _

end Seconds

end TorrentTracker
