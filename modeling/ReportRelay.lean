import ReportRelay.Bytes
import ReportRelay.Bytes.Signed
import ReportRelay.Chain
import ReportRelay.Contract.Attributes
import ReportRelay.Contract.Cache
import ReportRelay.Contract.Config
import ReportRelay.Contract.Context
import ReportRelay.Contract.Digest
import ReportRelay.Contract.Response
import ReportRelay.Contract.Service
import ReportRelay.Contract.State
import ReportRelay.Contract.Transmitter
import ReportRelay.Decimal.Arithmetic
import ReportRelay.Decimal.Basic
import ReportRelay.Decimal.Binary64
import ReportRelay.Decimal.Text
import ReportRelay.Dialogue
import ReportRelay.Dialogue.Together
import ReportRelay.Dispatch
import ReportRelay.Dispatch.Batch
import ReportRelay.Dispatch.Confirmation
import ReportRelay.Dispatch.Interface
import ReportRelay.Dispatch.Settings
import ReportRelay.Duration
import ReportRelay.Error
import ReportRelay.Files
import ReportRelay.GasPrice
import ReportRelay.GasPrice.Estimator
import ReportRelay.GasPrice.Json
import ReportRelay.Hash.Blake2s
import ReportRelay.Hash.Ripemd160
import ReportRelay.Hash.Sha256
import ReportRelay.Hash.Words
import ReportRelay.Json.Number
import ReportRelay.Json.Reader
import ReportRelay.Json.Record
import ReportRelay.Json.Skipped
import ReportRelay.Json.Text
import ReportRelay.Keyring
import ReportRelay.Log
import ReportRelay.Message
import ReportRelay.Polling
import ReportRelay.Polling.Background
import ReportRelay.Power
import ReportRelay.Proofs.Dialogue.Answering
import ReportRelay.Proofs.Dialogue.Course
import ReportRelay.Proofs.Dialogue.Interleaving
import ReportRelay.Proofs.Dialogue.Timeless
import ReportRelay.Proofs.Dialogue.Transcript
import ReportRelay.Proofs.Dispatch.AtMostOnce
import ReportRelay.Proofs.Dispatch.BatchCourse
import ReportRelay.Proofs.Dispatch.Clearance
import ReportRelay.Proofs.Dispatch.Closure
import ReportRelay.Proofs.Dispatch.CommandCourse
import ReportRelay.Proofs.Dispatch.CommonFate
import ReportRelay.Proofs.Dispatch.ConfirmCourse
import ReportRelay.Proofs.Dispatch.Delivery
import ReportRelay.Proofs.Dispatch.Effect
import ReportRelay.Proofs.Dispatch.Exclusivity
import ReportRelay.Proofs.Dispatch.Grounds
import ReportRelay.Proofs.Dispatch.HeldBack
import ReportRelay.Proofs.Dispatch.Independence
import ReportRelay.Proofs.Dispatch.Leftovers
import ReportRelay.Proofs.Dispatch.Overlap
import ReportRelay.Proofs.Dispatch.Parts
import ReportRelay.Proofs.Dispatch.Preparation
import ReportRelay.Proofs.Dispatch.Pricing
import ReportRelay.Proofs.Dispatch.Progress
import ReportRelay.Proofs.Dispatch.Reach
import ReportRelay.Proofs.Dispatch.Readiness
import ReportRelay.Proofs.Dispatch.Selection
import ReportRelay.Proofs.Dispatch.SenderCourse
import ReportRelay.Proofs.Dispatch.SenderFate
import ReportRelay.Proofs.Dispatch.SenderOrder
import ReportRelay.Proofs.Dispatch.Session
import ReportRelay.Proofs.Dispatch.Settlement
import ReportRelay.Proofs.Dispatch.Sights
import ReportRelay.Proofs.Dispatch.Step
import ReportRelay.Proofs.Dispatch.Supply
import ReportRelay.Proofs.Dispatch.Sweep
import ReportRelay.Proofs.Dispatch.Timing
import ReportRelay.Proofs.Dispatch.Turns
import ReportRelay.Proofs.Dispatch.Wholeness
import ReportRelay.Proofs.GasPrice.Keyed
import ReportRelay.Proofs.Queue.Atomicity
import ReportRelay.Proofs.Queue.Clearing
import ReportRelay.Proofs.Queue.Confinement
import ReportRelay.Proofs.Queue.Evolution
import ReportRelay.Proofs.Queue.FailedUpdate
import ReportRelay.Proofs.Queue.Isolation
import ReportRelay.Proofs.Queue.Load
import ReportRelay.Proofs.Queue.Transaction
import ReportRelay.Proofs.Queue.Update
import ReportRelay.Proofs.Relay.Estimate
import ReportRelay.Proofs.Relay.Session
import ReportRelay.Proofs.Relay.SignedPrice
import ReportRelay.Protobuf.Wire
import ReportRelay.Queue.Json
import ReportRelay.Queue.Location
import ReportRelay.Queue.State
import ReportRelay.Queue.Store
import ReportRelay.Relay
import ReportRelay.Relay.Manager
import ReportRelay.Reply
import ReportRelay.Report
import ReportRelay.Retry
import ReportRelay.Settings.Chain
import ReportRelay.Settings.File
import ReportRelay.Settings.Placeholder
import ReportRelay.Text.Base64
import ReportRelay.Text.Bech32
import ReportRelay.Text.Hex
import ReportRelay.Text.Integer
import ReportRelay.Text.Printable
import ReportRelay.Text.Quoted
import ReportRelay.Text.Url
import ReportRelay.Text.Utf8
import ReportRelay.Toml.Date
import ReportRelay.Toml.Document
import ReportRelay.Toml.Field
import ReportRelay.Toml.Number
import ReportRelay.Toml.Reader
import ReportRelay.Toml.Value
import ReportRelay.Proofs.Bytes.Signed
import ReportRelay.Proofs.Except
import ReportRelay.Proofs.Report.Layout
import ReportRelay.Proofs.Report.Resilience
import ReportRelay.Proofs.Bytes.Text
import ReportRelay.Proofs.Protobuf.Field
import ReportRelay.Proofs.Message.Canonical
import ReportRelay.Proofs.Dispatch.Admission
import ReportRelay.Proofs.Text.Base64
import ReportRelay.Proofs.Json.Reading
import ReportRelay.Proofs.Json.Value
import ReportRelay.Proofs.Contract.Transmission
import ReportRelay.Proofs.Report.Order
import ReportRelay.Proofs.Report.Shuffle
import ReportRelay.Proofs.Bytes.BigEndian
import ReportRelay.Proofs.Contract.Fingerprint
import ReportRelay.Proofs.Dialogue.Clock
import ReportRelay.Proofs.Contract.Reading
import ReportRelay.Proofs.Contract.History
import ReportRelay.Proofs.Contract.Sides
import ReportRelay.Proofs.Contract.Updates
import ReportRelay.Proofs.Contract.Served
import ReportRelay.Proofs.Contract.Announced
import ReportRelay.Proofs.Contract.Skipping
import ReportRelay.Proofs.Contract.Calls
import ReportRelay.Proofs.Contract.Overtaking
import ReportRelay.Proofs.Queue.Acceptance
import ReportRelay.Proofs.GasPrice.Fallback
import ReportRelay.Proofs.Keyring.Action
import ReportRelay.Proofs.Keyring.Mapping
import ReportRelay.Proofs.Keyring.Requests
import ReportRelay.Proofs.Dispatch.Recovery
import ReportRelay.Proofs.Contract.OwnConfig
import ReportRelay.Proofs.Dispatch.Expiry
import ReportRelay.Proofs.Keyring.Address
import ReportRelay.Proofs.Keyring.AccountIds
import ReportRelay.Proofs.GasPrice.Bumping
import ReportRelay.Proofs.Dispatch.LookUpWindow
import ReportRelay.Proofs.Retry.Delay
import ReportRelay.Proofs.Retry.Schedule
import ReportRelay.Proofs.Settings.Endurance
import ReportRelay.Proofs.Settings.Filling
import ReportRelay.Proofs.Report.AnyBytes
