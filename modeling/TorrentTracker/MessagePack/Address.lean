import TorrentTracker.Ip
import TorrentTracker.MessagePack.Reader
import TorrentTracker.MessagePack.Writer

/-
Addresses in a snapshot: a variant per family.
-/

namespace TorrentTracker.MessagePack

/-- The names of the two families, in the order of their numbers. -/
def familyNames : List String := ["V4", "V6"]

/-- A value of the IPv4 variant. -/
def v4Variant (value : Bytes) : Bytes := singletonHeader ++ shortText "V4" ++ value

/-- A value of the IPv6 variant. -/
def v6Variant (value : Bytes) : Bytes := singletonHeader ++ shortText "V6" ++ value

/-- An IP address: its octets under the name of its family. -/
def ip : Ip → Bytes
  | .v4 o => v4Variant (octets o)
  | .v6 o => v6Variant (octets o)

/-- Read an IP address. -/
def readIp : Reader Ip :=
  readVariant familyNames fun i =>
    if i = 0 then return .v4 (← readOctets 4) else return .v6 (← readOctets 16)

/-- How deep values may be nested in a snapshot as a whole. -/
def maxDepth : Nat := 1023

end TorrentTracker.MessagePack
