import TorrentTracker.Bencode
import TorrentTracker.Http.Message
import TorrentTracker.Query

/-
Failures as a client reads them: a dictionary with the reason.

A client parses the body whatever the status, so a failed announce or
scrape is still answered with success at this level.
-/

namespace TorrentTracker.Http

/-- Why an announce or a scrape fails. -/
inductive Failure where
  | invalid (cause : Query.Error)
  /-- There is no query at all, as when the address is opened in a
  browser. -/
  | browserAccess
  | internal
deriving DecidableEq

namespace Failure

/-- The wording of a failure. -/
def message : Failure → String
  | invalid cause => cause.message
  | browserAccess =>
    "This is a BitTorrent tracker announce URL, not meant to be opened in a web browser."
  | internal => "internal server error"

/-- The dictionary that gives a reason. -/
def reason (text : String) : Bencode :=
  .dict [(utf8 "failure reason", .text text)]

/-- The response to a failed request. -/
def response (f : Failure) : Response := .plain 200 (reason f.message).encode

end Failure

end TorrentTracker.Http
