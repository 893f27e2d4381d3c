import TorrentTracker.Decimal.Shortest

/-
Requests and responses of the query transport.

A request is read off its head only; no path here has a use for a body. A
response body is either bytes or a flat JSON object, whose text is made
when it is sent.
-/

namespace TorrentTracker.Http

-- ============================================================ requests

/-- What a request is aimed at. The query is absent where the target has
no question mark. -/
structure Target where
  path : Bytes
  query : Option Bytes
deriving DecidableEq

/-- The part of an absolute target after its scheme and authority; any
other target as it is. An authority ends before a slash, a question mark or
a fragment. -/
def Target.origin (text : Bytes) : Bytes :=
  match text.splitOn 58 with
  | scheme :: (47 :: 47 :: _) :: _ =>
    if scheme.contains 47 then text
    else
      let ends (b : UInt8) : Bool := b = 47 || b = 63 || b = 35
      let path := (text.drop (scheme.length + 3)).dropWhile fun b => !ends b
      if path.head? = some 47 then path else 47 :: path
  | _ => text

/-- The target that a text names. A fragment is not part of it. -/
def Target.ofBytes (text : Bytes) : Target :=
  let text := (origin text).takeWhile (· ≠ 35)
  { path := text.takeWhile (· ≠ 63)
    query := match text.dropWhile (· ≠ 63) with
      | _ :: query => some query
      | [] => none }

/-- A request without its body. -/
structure Request where
  method : String
  target : Target
  headers : List (String × Bytes)

/-- The value of the first header of a name, in any case. -/
def Request.header? (r : Request) (name : String) : Option Bytes :=
  (r.headers.find? fun h => h.1.toLower = name.toLower).map Prod.snd

-- =========================================================== responses

/-- A value of a field of a JSON object. -/
inductive Scalar where
  | boolean (b : Bool)
  | integer (n : Int)
  /-- A finite number of zero or more. -/
  | real (x : Float)
  /-- A text of printable characters without quotes or backslashes. -/
  | word (s : String)

/-- A scalar as JSON. -/
def Scalar.text : Scalar → String
  | boolean b => if b then "true" else "false"
  | integer n => (if n < 0 then "-" else "") ++ numeral 10 n.natAbs
  | real x => Decimal.realText x
  | word s => "\"" ++ s ++ "\""

/-- The content of a response. -/
inductive Body where
  | bytes (data : Bytes)
  | object (fields : List (String × Scalar))

/-- The content as it is sent. -/
def Body.render : Body → Bytes
  | bytes data => data
  | object fields =>
    utf8 <| "\x7b"
      ++ String.intercalate "," (fields.map fun f => "\"" ++ f.1 ++ "\":" ++ f.2.text)
      ++ "\x7d"

/-- A response. -/
structure Response where
  status : Nat
  contentType : Option String
  body : Body

/-- The response without its content, for a request that wants only to
know what it would be. -/
def Response.withoutBody (r : Response) : Response := { r with body := .bytes [] }

/-- A plain answer. -/
def Response.plain (status : Nat) (data : Bytes) : Response :=
  ⟨status, some "text/plain", .bytes data⟩

/-- An answer in JSON. -/
def Response.json (fields : List (String × Scalar)) : Response :=
  ⟨200, some "application/json", .object fields⟩

end TorrentTracker.Http
