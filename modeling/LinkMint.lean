import LinkMint.Audit.Proof.Appends
import LinkMint.Audit.Proof.Projection
import LinkMint.Audit.Proof.Ranges
import LinkMint.Chain.Proof.Active
import LinkMint.Chain.Proof.CommitteeVotes
import LinkMint.Chain.Proof.Evidence
import LinkMint.Chain.Proof.FeeArithmetic
import LinkMint.Chain.Proof.FeeShares
import LinkMint.Chain.Proof.Indexes
import LinkMint.Chain.Proof.MempoolRuns
import LinkMint.Chain.Proof.NonceGap
import LinkMint.Chain.Proof.Ownership
import LinkMint.Chain.Proof.Quorum
import LinkMint.Chain.Proof.Receipts
import LinkMint.Chain.Proof.RuleHistory
import LinkMint.Chain.Proof.Satisfiable
import LinkMint.Chain.Proof.Stake
import LinkMint.Chain.Proof.Stream
import LinkMint.Chain.Proof.Supply
import LinkMint.Chain.Proof.VoteOrder
import LinkMint.Compliance.Proof.AmlLedger
import LinkMint.Compliance.Proof.RiskOrder
import LinkMint.Compliance.Proof.TierInForce
import LinkMint.Escrows.Proof.Refunds
import LinkMint.Escrows.Proof.Release
import LinkMint.EventBus.Proof.AtLeastOnce
import LinkMint.Idem.Proof.Exclusive
import LinkMint.Identity.Proof.Owners
import LinkMint.Identity.Proof.SingleUse
import LinkMint.Invoices.Proof.ExactTotals
import LinkMint.Invoices.Proof.PaidOnce
import LinkMint.Ledger.Proof.DoubleEntry
import LinkMint.Ledger.Proof.Parity
import LinkMint.Orchestrator.Proof.Freshness
import LinkMint.Orchestrator.Proof.Mirror
import LinkMint.Pricing.Proof.Billing
import LinkMint.Pricing.Proof.ExactQuotes
import LinkMint.Settle.Proof.Amounts
import LinkMint.Settle.Proof.NoLoss
