import LedgerClient.Account.Address
import LedgerClient.Account.Error
import LedgerClient.Account.SigningKey
import LedgerClient.Bytes
import LedgerClient.Bytes.Hex
import LedgerClient.Client.Error
import LedgerClient.Curve.Eddsa
import LedgerClient.Curve.Edwards
import LedgerClient.Curve.Field
import LedgerClient.Decimal.Binary64
import LedgerClient.Decimal.Numeral
import LedgerClient.Decimal.Stepwise
import LedgerClient.Digest.Sha2
import LedgerClient.Ledger.Block
import LedgerClient.Ledger.Catalogue
import LedgerClient.Ledger.Coordination
import LedgerClient.Ledger.Exchange
import LedgerClient.Ledger.Receipt
import LedgerClient.Ledger.Stream
import LedgerClient.Ledger.Transaction
import LedgerClient.Logging.Directive
import LedgerClient.Logging.Filter
import LedgerClient.Logging.Logger
import LedgerClient.Pool.Basic
import LedgerClient.Pool.Search
import LedgerClient.Proofs.Pool.Ownership
import LedgerClient.Proofs.Pool.Slots
import LedgerClient.Proofs.Session.Acquiring
import LedgerClient.Proofs.Session.Failover
import LedgerClient.Proofs.Submission.Forgetting
import LedgerClient.Proofs.Submission.Queues
import LedgerClient.Proofs.Submission.Service
import LedgerClient.Proofs.Submission.Turns
import LedgerClient.Proofs.Task.Alone
import LedgerClient.Proofs.Task.Conduct
import LedgerClient.Proofs.Task.Party
import LedgerClient.Proofs.Wire.Injective
import LedgerClient.Rpc.Method
import LedgerClient.Rpc.Status
import LedgerClient.Rpc.Timeout
import LedgerClient.Session.Acquire
import LedgerClient.Session.Answer
import LedgerClient.Session.Basic
import LedgerClient.Session.Call
import LedgerClient.Session.Query
import LedgerClient.Session.Submit
import LedgerClient.Session.Subscribe
import LedgerClient.Settings.Client
import LedgerClient.Settings.Json
import LedgerClient.Settings.Load
import LedgerClient.Settings.Overlay
import LedgerClient.Settings.Toml.Document
import LedgerClient.Settings.Toml.Scalar
import LedgerClient.Settings.Tree
import LedgerClient.Simulation.Run
import LedgerClient.Simulation.Script
import LedgerClient.Simulation.World
import LedgerClient.Storage.Files
import LedgerClient.Submission.Draft
import LedgerClient.Submission.Locks
import LedgerClient.Submission.Options
import LedgerClient.Subscription.Feed
import LedgerClient.Subscription.Topic
import LedgerClient.Task.Basic
import LedgerClient.Task.Retry
import LedgerClient.Task.Timeline
import LedgerClient.Text.Blank
import LedgerClient.Text.Printable
import LedgerClient.Text.Quoted
import LedgerClient.Text.Utf8
import LedgerClient.Time.Span
import LedgerClient.Transport.Connectivity
import LedgerClient.Transport.Dial
import LedgerClient.Transport.Pem
import LedgerClient.Transport.Uri
import LedgerClient.Wire.ByteMap
import LedgerClient.Wire.Decode
import LedgerClient.Wire.Encode
import LedgerClient.Wire.Fault
import LedgerClient.Wire.Layout
import LedgerClient.Wire.Message
import LedgerClient.Wire.Unknown
import LedgerClient.Wire.Varint
import LedgerClient.Proofs.Session.Calling
import LedgerClient.Proofs.Session.Submitting
import LedgerClient.Proofs.Session.Submitters
import LedgerClient.Proofs.Session.Seating
import LedgerClient.Proofs.Session.Proceeding
import LedgerClient.Proofs.Session.Nonces
import LedgerClient.Proofs.Subscription.Flow
import LedgerClient.Proofs.Subscription.Traffic
import LedgerClient.Proofs.Subscription.Delivery
import LedgerClient.Proofs.Subscription.Closing
import LedgerClient.Proofs.Subscription.Cancelling
import LedgerClient.Proofs.Pool.Acquisitions
import LedgerClient.Proofs.Pool.Closing
import LedgerClient.Proofs.Wire.RoundTrip
import LedgerClient.Proofs.Submission.Signing
import LedgerClient.Proofs.Task.Terms
import LedgerClient.Proofs.Task.Course
import LedgerClient.Proofs.Session.Commands
import LedgerClient.Proofs.Session.Operating
import LedgerClient.Proofs.Session.Lending
import LedgerClient.Proofs.Session.Crashing
import LedgerClient.Proofs.Pool.Interleaving
import LedgerClient.Proofs.Pool.Reaching
import LedgerClient.Proofs.Pool.Exhausting
import LedgerClient.Proofs.Task.Attempts
import LedgerClient.Proofs.Task.Pauses
import LedgerClient.Proofs.Task.Tries
import LedgerClient.Proofs.Session.Courses
import LedgerClient.Proofs.Session.Sending
import LedgerClient.Proofs.Session.Errands
import LedgerClient.Proofs.Session.Mandates
import LedgerClient.Proofs.Session.Callers
import LedgerClient.Proofs.Wire.Extension
import LedgerClient.Proofs.Subscription.Compatibility
import LedgerClient.Proofs.Ledger.Receipts
import LedgerClient.Proofs.Logging.Installing
import LedgerClient.Proofs.Session.Exchanging
import LedgerClient.Proofs.Transport.Material
import LedgerClient.Proofs.Account.Spelling
import LedgerClient.Proofs.Decimal.Digits
import LedgerClient.Proofs.Session.Numerals
import LedgerClient.Proofs.Settings.Writing
import LedgerClient.Proofs.Settings.Revising
