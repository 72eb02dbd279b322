import AgentBond.App.Completion
import AgentBond.App.Hex
import AgentBond.App.Inspect
import AgentBond.App.Planner
import AgentBond.App.ReceiptDto
import AgentBond.App.Services
import AgentBond.App.Timeouts
import AgentBond.Chain.Abstraction
import AgentBond.Chain.Bonds
import AgentBond.Chain.Closing
import AgentBond.Chain.Commutation
import AgentBond.Chain.Creation
import AgentBond.Chain.Deadlines
import AgentBond.Chain.Events
import AgentBond.Chain.Exits
import AgentBond.Chain.Funding
import AgentBond.Chain.History
import AgentBond.Chain.Holdings
import AgentBond.Chain.Keys
import AgentBond.Chain.Lifecycle
import AgentBond.Chain.Origins
import AgentBond.Chain.Pause
import AgentBond.Chain.Payouts
import AgentBond.Chain.Prepared
import AgentBond.Chain.Progress
import AgentBond.Chain.Receipts
import AgentBond.Chain.Recourse
import AgentBond.Chain.Refinement
import AgentBond.Chain.Script
import AgentBond.Chain.System
import AgentBond.Chain.Terms
import AgentBond.Chain.Timeouts
import AgentBond.Cli.Send
import AgentBond.Foundation.ByteLayout
import AgentBond.Foundation.ByteSlices
import AgentBond.Foundation.Checked
import AgentBond.Foundation.Contracts
import AgentBond.Foundation.Descent
import AgentBond.Foundation.Encodings
import AgentBond.Foundation.Failures
import AgentBond.Foundation.Gated
import AgentBond.Foundation.HexPairs
import AgentBond.Foundation.Interaction
import AgentBond.Foundation.Journal
import AgentBond.Foundation.Json
import AgentBond.Foundation.Lease
import AgentBond.Foundation.LeaseHistory
import AgentBond.Foundation.Lockstep
import AgentBond.Foundation.Packed
import AgentBond.Foundation.Paging
import AgentBond.Foundation.Panics
import AgentBond.Foundation.Register
import AgentBond.Foundation.Rising
import AgentBond.Foundation.Session
import AgentBond.Foundation.Sums
import AgentBond.Foundation.Table
import AgentBond.Foundation.Text
import AgentBond.Foundation.Transition
import AgentBond.Indexer.Ancestry
import AgentBond.Indexer.Atomicity
import AgentBond.Indexer.Cells
import AgentBond.Indexer.Climbing
import AgentBond.Indexer.Convergence
import AgentBond.Indexer.Coverage
import AgentBond.Indexer.Db
import AgentBond.Indexer.Decode
import AgentBond.Indexer.Engine
import AgentBond.Indexer.Events
import AgentBond.Indexer.Extraction
import AgentBond.Indexer.Filing
import AgentBond.Indexer.Indexable
import AgentBond.Indexer.Lineage
import AgentBond.Indexer.Logs
import AgentBond.Indexer.Operations
import AgentBond.Indexer.Overtaking
import AgentBond.Indexer.Projection
import AgentBond.Indexer.PublicHistory
import AgentBond.Indexer.ReadConsistency
import AgentBond.Indexer.Reads
import AgentBond.Indexer.Redelivery
import AgentBond.Indexer.RuntimeLog
import AgentBond.Indexer.SlotCalls
import AgentBond.Indexer.Slots
import AgentBond.Indexer.Source
import AgentBond.Indexer.Statements
import AgentBond.Indexer.Suppression
import AgentBond.Indexer.Transactions
import AgentBond.Indexer.Types
import AgentBond.Indexer.Versions
import AgentBond.Payments.Acceptance
import AgentBond.Payments.Calls
import AgentBond.Payments.Capacity
import AgentBond.Payments.Cells
import AgentBond.Payments.Challenges
import AgentBond.Payments.Conversation
import AgentBond.Payments.Exclusive
import AgentBond.Payments.Facilitator
import AgentBond.Payments.Laws
import AgentBond.Payments.Models
import AgentBond.Payments.PaidResults
import AgentBond.Payments.Remembering
import AgentBond.Payments.Requests
import AgentBond.Payments.Resource
import AgentBond.Payments.Settlement
import AgentBond.Payments.StoreRefinement
import AgentBond.Payments.Validate
import AgentBond.Program.Accounts
import AgentBond.Program.Bond
import AgentBond.Program.Ed25519
import AgentBond.Program.Helpers
import AgentBond.Program.Job
import AgentBond.Program.Precompile
import AgentBond.Program.Processor
import AgentBond.Program.Registry
import AgentBond.Program.Settlement
import AgentBond.Program.Token
import AgentBond.Protocol.Accounting
import AgentBond.Protocol.Evolution
import AgentBond.Protocol.Invariant
import AgentBond.Protocol.Keys
import AgentBond.Protocol.Lifecycle
import AgentBond.Protocol.Payout
import AgentBond.Protocol.Records
import AgentBond.Protocol.Resolution
import AgentBond.Protocol.Solvency
import AgentBond.Protocol.State
import AgentBond.Protocol.Step
import AgentBond.Runtime.Ledger
import AgentBond.Runtime.Platform
import AgentBond.Runtime.Reference
import AgentBond.Runtime.Tokens
import AgentBond.Sdk.Address
import AgentBond.Sdk.Builders
import AgentBond.Sdk.Built
import AgentBond.Sdk.Layouts
import AgentBond.Sdk.Plan
import AgentBond.Sdk.Receipt
import AgentBond.Sdk.Send
import AgentBond.Sdk.Submit
import AgentBond.Types.Accounts
import AgentBond.Types.Canonical
import AgentBond.Types.Codec
import AgentBond.Types.Encoding
import AgentBond.Types.Error
import AgentBond.Types.Events
import AgentBond.Types.Instruction
import AgentBond.Types.Pda
import AgentBond.Types.Receipt
import AgentBond.Types.Record
import AgentBond.Types.State
