import TorrentTracker.Bytes

/-
IP addresses, their two families, and the canonical form.

An IPv4 client that reaches a dual-stack socket shows up as the IPv6
address `::ffff:a.b.c.d`. The canonical form undoes that spelling, so the
same host is one host whichever way it came in.

# Main statements

- `Ip.canonical_canonical`: the canonical form is its own canonical form;
- `Ip.canonical_mapped`: both spellings of an IPv4 host meet in it.
-/

namespace TorrentTracker

/-- The two address families. -/
inductive Family where
  | v4
  | v6
deriving DecidableEq

/-- How many bytes an address and its port take in a compact peer list. -/
def Family.compactWidth : Family → Nat
  | .v4 => 6
  | .v6 => 18

/-- An IP address by its octets. -/
inductive Ip where
  | v4 (octets : Octets 4)
  | v6 (octets : Octets 16)
deriving DecidableEq

namespace Ip

/-- The family an address is of. -/
def family : Ip → Family
  | v4 _ => .v4
  | v6 _ => .v6

/-- The octets in network order. -/
def bytes : Ip → Bytes
  | v4 o => o.bytes
  | v6 o => o.bytes

/-- The octets tell addresses apart, and with that their families. -/
theorem bytes_injective {a b : Ip} (h : a.bytes = b.bytes) : a = b := by
  have hlen := congrArg List.length h
  cases a with
  | v4 o => cases b with
    | v4 o' => exact congrArg v4 (Octets.bytes_injective h)
    | v6 o' => simp [bytes] at hlen
  | v6 o => cases b with
    | v4 o' => simp [bytes] at hlen
    | v6 o' => exact congrArg v6 (Octets.bytes_injective h)

/-- What the IPv6 spelling of an IPv4 address begins with. -/
def mappedLead : Octets 12 :=
  ⟨[0, 0, 0, 0, 0, 0, 0, 0, 0, 0, 255, 255], rfl⟩

/-- The IPv6 spelling of an IPv4 address. -/
def mapped (o : Octets 4) : Octets 16 :=
  ⟨mappedLead.bytes ++ o.bytes, by simp⟩

/-- The IPv4 address that an IPv6 one spells, if it spells one. -/
def unmapped? (o : Octets 16) : Option (Octets 4) :=
  if o.bytes.take 12 = mappedLead.bytes then
    some ⟨o.bytes.drop 12, by simp⟩
  else none

/-- The address with the IPv6 spelling of IPv4 undone. -/
def canonical : Ip → Ip
  | v4 o => v4 o
  | v6 o => match unmapped? o with
    | some o' => v4 o'
    | none => v6 o

@[simp]
theorem unmapped?_mapped (o : Octets 4) : unmapped? (mapped o) = some o := by
  obtain ⟨bytes, h⟩ := o
  simp [unmapped?, mapped, mappedLead]

/-- Both spellings of an IPv4 host have one canonical form. -/
theorem canonical_mapped (o : Octets 4) : canonical (v6 (mapped o)) = canonical (v4 o) := by
  simp [canonical]

/-- An address in canonical form stays as it is: what is under a mapped address
is not mapped again. -/
@[simp]
theorem canonical_canonical (ip : Ip) : ip.canonical.canonical = ip.canonical := by
  cases ip with
  | v4 o => rfl
  | v6 o =>
    cases h : unmapped? o with
    | none => simp [canonical, h]
    | some o' => simp [canonical, h]

/-- A canonical IPv6 address does not begin as the spelling of an IPv4 one
does. -/
theorem take_ne_of_canonical {o : Octets 16} (h : (v6 o).canonical = v6 o) :
    o.bytes.take 12 ≠ mappedLead.bytes := by
  intro hlead
  simp [canonical, unmapped?, hlead] at h

/-- So no address in canonical form is a mapped one. -/
theorem ne_mapped_of_canonical {ip : Ip} (h : ip.canonical = ip) (o : Octets 4) :
    ip ≠ v6 (mapped o) := by
  rintro rfl
  rw [canonical_mapped] at h
  cases h

end Ip

end TorrentTracker
