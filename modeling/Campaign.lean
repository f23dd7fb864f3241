import Campaign.Act
import Campaign.Address
import Campaign.Amount
import Campaign.Arguments
import Campaign.Client
import Campaign.Clock
import Campaign.Command.Basic
import Campaign.Command.Drawing
import Campaign.Command.Incubate
import Campaign.Command.Initialize
import Campaign.Command.Populate
import Campaign.Command.Program
import Campaign.Command.Query
import Campaign.Command.Sign
import Campaign.Command.Transact
import Campaign.Decimal.Binary64
import Campaign.Decimal.Reading
import Campaign.Decimal.Shortest
import Campaign.Draw.Sample
import Campaign.Draw.Seed
import Campaign.Draw.Split
import Campaign.Draw.Twister
import Campaign.Environment.Binding
import Campaign.Environment.Load
import Campaign.Environment.Reference
import Campaign.Fault
import Campaign.Files
import Campaign.Hash.Blake2b
import Campaign.Hash.Sha512
import Campaign.Hash.Words
import Campaign.Inquiry
import Campaign.Journal
import Campaign.Keyring
import Campaign.Kind
import Campaign.Node
import Campaign.Node.Sequential
import Campaign.Number
import Campaign.Plan.Builder
import Campaign.Plan.Call
import Campaign.Plan.Drawing
import Campaign.Plan.Incubation
import Campaign.Plan.Sale
import Campaign.Plan.Transaction
import Campaign.Poll
import Campaign.Proofs.Action
import Campaign.Proofs.History
import Campaign.Proofs.Tracker
import Campaign.Report
import Campaign.Scale
import Campaign.Seconds
import Campaign.Session
import Campaign.Settings
import Campaign.Signature
import Campaign.Sort.Merge
import Campaign.Sort.Runs
import Campaign.Step
import Campaign.Table
import Campaign.Text.Blank
import Campaign.Text.Digit
import Campaign.Text.Hex
import Campaign.Text.Printable
import Campaign.Text.Quoted
import Campaign.Text.Upper
import Campaign.Value
import Campaign.Value.Access
import Campaign.Value.Equality
import Campaign.Value.Json
import Campaign.Value.Order
import Campaign.World
import Campaign.Main
import Campaign.Proofs.Waiting
import Campaign.Proofs.Steps
import Campaign.Proofs.Moves
import Campaign.Proofs.Accounting
import Campaign.Proofs.Growth
import Campaign.Proofs.Rejection
import Campaign.Proofs.Barrier
import Campaign.Proofs.Appointment
import Campaign.Proofs.Submission
import Campaign.Proofs.Ledger
import Campaign.Proofs.Retry
import Campaign.Proofs.Walk
import Campaign.Proofs.Progress
import Campaign.Proofs.Whole
import Campaign.Proofs.Sampling
import Campaign.Proofs.Division
import Campaign.Proofs.Resolution
import Campaign.Proofs.CommandLine
import Campaign.Proofs.Confirmation
import Campaign.Proofs.Gating
import Campaign.Proofs.Unread
import Campaign.Proofs.Regrouping
import Campaign.Proofs.Mirror
import Campaign.Proofs.Rational
import Campaign.Proofs.Pacing
import Campaign.Proofs.Undisturbed
import Campaign.Proofs.Course
import Campaign.Proofs.Telling
import Campaign.Proofs.Log
import Campaign.Proofs.Message
import Campaign.Proofs.Base58
import Campaign.Proofs.Addresses
import Campaign.Proofs.Metadata
import Campaign.Proofs.Authorisation
import Campaign.Proofs.Parsing
import Campaign.Proofs.DivisionText
import Campaign.Proofs.Preview
import Campaign.Proofs.Reordering
import Campaign.Proofs.Schedule
import Campaign.Proofs.Connection
import Campaign.Proofs.Options
import Campaign.Proofs.Faults
import Campaign.Proofs.Keys
import Campaign.Proofs.MissingKeys
import Campaign.Proofs.Served
import Campaign.Proofs.Building
import Campaign.Proofs.Roles
import Campaign.Proofs.Arrival
import Campaign.Proofs.Rounds
import Campaign.Proofs.SharedDeadline
import Campaign.Proofs.Extended
import Campaign.Proofs.Endless
import Campaign.Proofs.Inclusion
import Campaign.Proofs.Delay
import Campaign.Proofs.Repetition
import Campaign.Proofs.Given
import Campaign.Proofs.Loading
import Campaign.Proofs.Precedence
import Campaign.Proofs.Reporting
import Campaign.Proofs.Exchanges
