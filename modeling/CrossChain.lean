import CrossChain.Binary.Bech32
import CrossChain.Denom
import CrossChain.Message
import CrossChain.Cache
import CrossChain.Relay.Handshake
import CrossChain.Relay.Sweep
import CrossChain.Hermes.Relayer
import CrossChain.Readiness
import CrossChain.Ledger
import CrossChain.Outcome
import CrossChain.Bootstrap
import CrossChain.Campaign
import CrossChain.Deploy.Options
import CrossChain.Scenario
import CrossChain.Deploy
import CrossChain.Health
import CrossChain.Rehearsal.Chain
import CrossChain.Rehearsal.Node
import CrossChain.Rehearsal.World
import CrossChain.Main
import CrossChain.Proofs.Bootstrap.AllOrNothing
import CrossChain.Proofs.Bootstrap.Operations
import CrossChain.Proofs.Relay.LastSweep
import CrossChain.Proofs.Bootstrap.Refinement
import CrossChain.Proofs.Bootstrap.Idempotence
import CrossChain.Proofs.Bootstrap.Lookup
import CrossChain.Proofs.Bootstrap.Verification
import CrossChain.Proofs.Outcome.Acknowledgement
import CrossChain.Proofs.Outcome.Checks
import CrossChain.Proofs.Hermes.Failures
import CrossChain.Proofs.Binary.Base64
import CrossChain.Proofs.Envelope.Body
import CrossChain.Proofs.Envelope.Wire
import CrossChain.Proofs.Outcome.Exactness
import CrossChain.Proofs.Hermes.Lines
import CrossChain.Proofs.Hermes.Payloads
import CrossChain.Proofs.Link.Plan
import CrossChain.Proofs.Link.Openings
import CrossChain.Proofs.Bootstrap.Publications
import CrossChain.Proofs.Deploy.Chains
import CrossChain.Proofs.Link.Mirror
import CrossChain.Proofs.Scenario.Journal
import CrossChain.Proofs.Scenario.Recovery
import CrossChain.Proofs.Scenario.Vouchers
import CrossChain.Proofs.Cache.Sharing
import CrossChain.Proofs.Bootstrap.Resumption
import CrossChain.Proofs.Scenario.Resumption
import CrossChain.Proofs.Relay.Budget
import CrossChain.Proofs.Link.Handshakes
import CrossChain.Proofs.Scenario.KernelChannels
import CrossChain.Proofs.Bootstrap.Commutation
import CrossChain.Proofs.Hermes.Events
import CrossChain.Proofs.Cache.Keeping
import CrossChain.Proofs.Hermes.LastObject
import CrossChain.Proofs.Json.Display
import CrossChain.Proofs.Hermes.Classification
import CrossChain.Proofs.Denom
import CrossChain.Proofs.Ledger.Transactions
import CrossChain.Proofs.Ledger.Sequence
import CrossChain.Proofs.Readiness.Status
import CrossChain.Proofs.Readiness.Waiting
import CrossChain.Proofs.Scenario.Sending
import CrossChain.Proofs.Envelope.Recipient
import CrossChain.Proofs.Relay.Merging
import CrossChain.Proofs.Bootstrap.Releases
import CrossChain.Proofs.Health
import CrossChain.Proofs.Ledger.Attachment
