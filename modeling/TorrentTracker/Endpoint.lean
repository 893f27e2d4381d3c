import TorrentTracker.Ip.Text

/-
Endpoints: an IP address with a port.

A datagram comes from a `SocketAddress`, which on IPv6 may also name a
scope. What identifies a client is its `Endpoint`: the canonical address
and the port, and nothing else.
-/

namespace TorrentTracker

/-- An address and a port, the name of a client. -/
structure Endpoint where
  ip : Ip
  port : UInt16
deriving DecidableEq

/-- The address of a socket; a link-local IPv6 one has a scope. -/
inductive SocketAddress where
  | v4 (octets : Octets 4) (port : UInt16)
  | v6 (octets : Octets 16) (port : UInt16) (scope : UInt32)
deriving DecidableEq

namespace SocketAddress

/-- The IP address. -/
def ip : SocketAddress → Ip
  | v4 o _ => .v4 o
  | v6 o _ _ => .v6 o

/-- The port. -/
def port : SocketAddress → UInt16
  | v4 _ p => p
  | v6 _ p _ => p

/-- The client behind a socket address: the address in canonical form, the
port as it is, the scope dropped. -/
def client (a : SocketAddress) : Endpoint :=
  ⟨a.ip.canonical, a.port⟩

/-- An address in brackets where its family needs them, and the port. -/
def text : SocketAddress → String
  | v4 o p => Ip.text (.v4 o) ++ ":" ++ numeral 10 p.toNat
  | v6 o p scope =>
    "[" ++ Ip.text (.v6 o) ++ (if scope = 0 then "" else "%" ++ numeral 10 scope.toNat) ++ "]:"
      ++ numeral 10 p.toNat

end SocketAddress

/-- The socket address of an endpoint, in no scope. -/
def Endpoint.socketAddress : Endpoint → SocketAddress
  | ⟨.v4 o, p⟩ => .v4 o p
  | ⟨.v6 o, p⟩ => .v6 o p 0

/-- An endpoint as text. -/
def Endpoint.text (e : Endpoint) : String := e.socketAddress.text

namespace SocketAddress

open TextReader

/-- A colon and a port number, which may have leading zeros. -/
def readPort : TextReader UInt16 := fun text => do
  let (_, rest) ← (char ':').run text
  let (n, rest) ← (number 10 rest.length UInt16.size true).run rest
  return (UInt16.ofNat n, rest)

/-- A percent sign and a number; without both there is no scope. -/
def readScope : TextReader UInt32 := fun text =>
  match (char '%').run text with
  | none => some (0, text)
  | some (_, rest) =>
    match (number 10 rest.length UInt32.size true).run rest with
    | some (n, rest) => some (UInt32.ofNat n, rest)
    | none => some (0, text)

/-- `a.b.c.d:port`. -/
def readV4 : TextReader SocketAddress := do
  let o ← Ip.readV4
  let p ← readPort
  return .v4 o p

/-- `[address]:port` or `[address%scope]:port`. -/
def readV6 : TextReader SocketAddress := do
  char '['
  let o ← Ip.readV6
  let scope ← readScope
  char ']'
  let p ← readPort
  return .v6 o p scope

/-- The socket address a text spells. -/
def parse? (text : String) : Option SocketAddress :=
  match whole? readV4 text with
  | some a => some a
  | none => whole? readV6 text

end SocketAddress

end TorrentTracker
