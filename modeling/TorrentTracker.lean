import TorrentTracker.Bencode.Reader
import TorrentTracker.Config.Document
import TorrentTracker.Main
import TorrentTracker.Tracker.Datagram
import TorrentTracker.Tracker.Upkeep
import TorrentTracker.Tracker.Web
import TorrentTracker.Proofs.Swarm
import TorrentTracker.Proofs.Store
import TorrentTracker.Proofs.MessagePack
import TorrentTracker.Proofs.Store.Snapshot
import TorrentTracker.Proofs.Store.Reached
import TorrentTracker.Proofs.Store.Restore
import TorrentTracker.Proofs.Tracker.Answer
import TorrentTracker.Proofs.Tracker.Handshake
import TorrentTracker.Proofs.Overflow
import TorrentTracker.Proofs.Clock
import TorrentTracker.Proofs.History
import TorrentTracker.Proofs.Store.History
import TorrentTracker.Proofs.MessagePack.Format
import TorrentTracker.Proofs.Store.RoundTrip
import TorrentTracker.Proofs.Wire.Request
import TorrentTracker.Proofs.Wire.Response
import TorrentTracker.Proofs.Tracker.Reply
import TorrentTracker.Proofs.Store.Selection
import TorrentTracker.Proofs.Announce
import TorrentTracker.Proofs.Tracker.Reached
import TorrentTracker.Proofs.Config
import TorrentTracker.Proofs.Tracker.Announced
import TorrentTracker.Proofs.Decimal
import TorrentTracker.Proofs.Disk
import TorrentTracker.Proofs.Percent
import TorrentTracker.Proofs.Query
import TorrentTracker.Proofs.Query.Announce
import TorrentTracker.Proofs.Tracker.Transports
import TorrentTracker.Proofs.Wire.Format
import TorrentTracker.Proofs.Store.Entry
import TorrentTracker.Proofs.Tracker.Frame
import TorrentTracker.Proofs.Tracker.Amplification
import TorrentTracker.Proofs.Bencode
import TorrentTracker.Proofs.TextReader
import TorrentTracker.Proofs.Ip.Text
import TorrentTracker.Proofs.Http.Replies
import TorrentTracker.Proofs.Connections.Snapshot
import TorrentTracker.Proofs.Connections.History
import TorrentTracker.Proofs.Connections.Restart
import TorrentTracker.Proofs.Backup
import TorrentTracker.Proofs.Tracker.Restore
import TorrentTracker.Proofs.Tracker.Restart
import TorrentTracker.Proofs.Tracker.Origins
import TorrentTracker.Proofs.Store.Sections
import TorrentTracker.Proofs.Tracker.Accounts
import TorrentTracker.Proofs.Query.Scrape
import TorrentTracker.Proofs.Store.Unbounded
import TorrentTracker.Proofs.Store.Trim
import TorrentTracker.Proofs.Tracker.Scrapes
import TorrentTracker.Proofs.Tracker.Spellings
import TorrentTracker.Proofs.Store.Overflow
import TorrentTracker.Proofs.Expiry
import TorrentTracker.Proofs.Backup.Load
import TorrentTracker.Proofs.Disk.Course
import TorrentTracker.Proofs.Disk.Way
import TorrentTracker.Proofs.Backup.Atomic
import TorrentTracker.Proofs.Query.Fields
import TorrentTracker.Proofs.Query.Composition
import TorrentTracker.Proofs.Query.Spelling
import TorrentTracker.Proofs.Percent.Grammar
import TorrentTracker.Proofs.Config.Laws
import TorrentTracker.Proofs.Config.Interval
import TorrentTracker.Proofs.Tracker.Overflow
import TorrentTracker.Proofs.Tracker.Derived
import TorrentTracker.Proofs.Tracker.Truncation
import TorrentTracker.Proofs.BufferPool
