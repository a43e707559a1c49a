import CrossChain.Amount
import CrossChain.Bitmap
import CrossChain.Bridge.Endpoint
import CrossChain.Bytes.Basic
import CrossChain.Bytes.Format
import CrossChain.Bytes.Hex
import CrossChain.Chain
import CrossChain.Governance.Contract
import CrossChain.Governance.Message
import CrossChain.Inbox
import CrossChain.Json.Token
import CrossChain.Json.Value
import CrossChain.Keccak
import CrossChain.Manager.Admin
import CrossChain.Manager.Call
import CrossChain.Manager.Config
import CrossChain.Manager.Create
import CrossChain.Manager.Error
import CrossChain.Manager.Inbound
import CrossChain.Manager.Outbound
import CrossChain.Manager.State
import CrossChain.Manager.Transfer
import CrossChain.Message.Announcement
import CrossChain.Message.Envelope
import CrossChain.Message.Error
import CrossChain.Message.Instructions
import CrossChain.Message.Manager
import CrossChain.Message.Payload
import CrossChain.Message.Relay
import CrossChain.Message.Transfer
import CrossChain.Message.Wire
import CrossChain.Mode
import CrossChain.Outbox
import CrossChain.Proofs.Basic
import CrossChain.Proofs.Run
import CrossChain.RateLimit
import CrossChain.Release
import CrossChain.Settings.Basic
import CrossChain.Settings.Text
import CrossChain.Snapshot.Contract
import CrossChain.Snapshot.Error
import CrossChain.Snapshot.Format
import CrossChain.Snapshot.Manager
import CrossChain.Snapshot.Message
import CrossChain.SortedMap
import CrossChain.SortedMap.Keys
import CrossChain.Token
import CrossChain.Word
import CrossChain.Proofs.Scaling
import CrossChain.Proofs.Codec
import CrossChain.Proofs.Ledger
import CrossChain.Proofs.Gate
import CrossChain.Proofs.Members
import CrossChain.Proofs.Plans
import CrossChain.Proofs.Transition
import CrossChain.Proofs.Inbound
import CrossChain.Proofs.Redemption
import CrossChain.Proofs.Quorum
import CrossChain.Proofs.Outbound
import CrossChain.Proofs.Reconciliation
import CrossChain.Proofs.EndToEnd
import CrossChain.Proofs.Atomicity
import CrossChain.Proofs.Sizes
import CrossChain.Proofs.Canonical
import CrossChain.Proofs.Delivery
import CrossChain.Proofs.Cancellation
import CrossChain.Proofs.Capacity
import CrossChain.Proofs.Bucket
import CrossChain.Proofs.Change
import CrossChain.Proofs.Governance
import CrossChain.Proofs.Registry
import CrossChain.Proofs.Limits
import CrossChain.Proofs.Store
import CrossChain.Proofs.Forward
import CrossChain.Proofs.Queue
import CrossChain.Proofs.Calls
import CrossChain.Proofs.Progress
import CrossChain.Proofs.Inflow
import CrossChain.Proofs.Order
import CrossChain.Proofs.Snapshot
import CrossChain.Proofs.Handling
import CrossChain.Proofs.Privilege
import CrossChain.Proofs.Isolation
import CrossChain.Proofs.Publication
import CrossChain.Proofs.Consumption
import CrossChain.Proofs.Backflow
import CrossChain.Proofs.Trimming
import CrossChain.Proofs.Outflow
import CrossChain.Proofs.Damage
import CrossChain.Proofs.Dispatch
import CrossChain.Proofs.LimitChange
import CrossChain.Proofs.Exactness
import CrossChain.Proofs.Routing
import CrossChain.Proofs.Deployment
import CrossChain.Proofs.Records
import CrossChain.Proofs.SettingsText
import CrossChain.Proofs.Touches
import CrossChain.Proofs.Supply
import CrossChain.Proofs.Membership
