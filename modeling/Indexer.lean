import Indexer.Bulk.Coordinator
import Indexer.Bulk.FailureClass
import Indexer.Bulk.Http
import Indexer.Bulk.ItemError
import Indexer.Bulk.Operation
import Indexer.Bulk.Outcome
import Indexer.Bulk.Response
import Indexer.Bytes.Base64
import Indexer.Bytes.Packed
import Indexer.Change
import Indexer.Content.Basic
import Indexer.Content.Extract
import Indexer.Content.Keywords
import Indexer.Content.Reader
import Indexer.Crawl.Event
import Indexer.Crawl.Plan
import Indexer.Crawl.Summary
import Indexer.Crawl.Walk
import Indexer.Delivery.Basic
import Indexer.Delivery.Buffer
import Indexer.Delivery.Event
import Indexer.Delivery.Sender
import Indexer.Digest.Basic
import Indexer.Digest.Md5
import Indexer.Digest.Sha1
import Indexer.Digest.Sha256
import Indexer.Digest.Words
import Indexer.Digest.XxHash64
import Indexer.Document
import Indexer.Exclusion
import Indexer.Fault.Basic
import Indexer.Fault.Policy
import Indexer.File.Checksum
import Indexer.File.Entry
import Indexer.File.Scan
import Indexer.File.Tree
import Indexer.Json.Basic
import Indexer.Json.Display
import Indexer.Json.Parser
import Indexer.Json.Printer
import Indexer.Json.Prune
import Indexer.Log
import Indexer.MediaType
import Indexer.Number.Basic
import Indexer.Number.Binary64
import Indexer.Number.Quantity
import Indexer.Number.Reading
import Indexer.Number.Shortest
import Indexer.Number.Text
import Indexer.Path.Basic
import Indexer.Path.Host
import Indexer.Path.Uri
import Indexer.Proofs.Bulk.Answers
import Indexer.Proofs.Bulk.Calls
import Indexer.Proofs.Bulk.ErrorNames
import Indexer.Proofs.Bulk.ExceptionNames
import Indexer.Proofs.Bulk.Payload
import Indexer.Proofs.Bulk.Reasons
import Indexer.Proofs.Bulk.Reconciliation
import Indexer.Proofs.Bulk.Verdicts
import Indexer.Proofs.Content.Decoding
import Indexer.Proofs.Content.Keywords
import Indexer.Proofs.Crawl.Checksums
import Indexer.Proofs.Crawl.Convergence
import Indexer.Proofs.Crawl.Deletion
import Indexer.Proofs.Crawl.Ledger
import Indexer.Proofs.Crawl.Progress
import Indexer.Proofs.Crawl.Recrawl
import Indexer.Proofs.Crawl.Resilience
import Indexer.Proofs.Crawl.Sequence
import Indexer.Proofs.Crawl.Shares
import Indexer.Proofs.Crawl.Timeliness
import Indexer.Proofs.Delivery.Closing
import Indexer.Proofs.Delivery.Endings
import Indexer.Proofs.Delivery.Escalation
import Indexer.Proofs.Delivery.Granting
import Indexer.Proofs.Delivery.Halt
import Indexer.Proofs.Delivery.Journeys
import Indexer.Proofs.Delivery.Parcels
import Indexer.Proofs.Delivery.Returns
import Indexer.Proofs.Delivery.Room
import Indexer.Proofs.Delivery.Shipments
import Indexer.Proofs.Delivery.Transparency
import Indexer.Proofs.Document.Source
import Indexer.Proofs.File.Mishap
import Indexer.Proofs.File.Sequence
import Indexer.Proofs.Json.Quotation
import Indexer.Proofs.Json.RoundTrip
import Indexer.Proofs.Settings.Environment
import Indexer.Proofs.Settings.Roots
import Indexer.Proofs.Simulation.Accounting
import Indexer.Proofs.Store.FileMap
import Indexer.Proofs.Store.Order
import Indexer.Proofs.Watch.Hearing
import Indexer.Settings.Basic
import Indexer.Settings.Environment
import Indexer.Settings.Shared
import Indexer.Simulation.Clock
import Indexer.Simulation.Courier
import Indexer.Simulation.Feed
import Indexer.Simulation.Link
import Indexer.Simulation.Lookout
import Indexer.Simulation.Reply
import Indexer.Simulation.Session
import Indexer.Simulation.Tour
import Indexer.Store
import Indexer.Store.Database
import Indexer.Text.Blank
import Indexer.Text.CharSet
import Indexer.Text.Digit
import Indexer.Text.Lower
import Indexer.Text.Printable
import Indexer.Text.Quoted
import Indexer.Text.Split
import Indexer.Text.Word
import Indexer.Time.Civil
import Indexer.Time.DateTime
import Indexer.Time.Iso
import Indexer.Time.Moment
import Indexer.Watch.Event
import Indexer.Watch.Watcher
import Indexer.Proofs.Crawl.Checksums
import Indexer.Proofs.Content.Keywords
