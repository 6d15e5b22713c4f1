import ZkPayroll.Host.Store
import ZkPayroll.Host.Checked
import ZkPayroll.Host.Runs
import ZkPayroll.Host.Failure
import ZkPayroll.Host.Walk
import ZkPayroll.Host.Sha256
import ZkPayroll.Host.Handover
import ZkPayroll.Host.Numerals
import ZkPayroll.Host.PrefixCode
import ZkPayroll.Host.Reorder
import ZkPayroll.Host.Crc
import ZkPayroll.Host.Primality
import ZkPayroll.Host.Bits
import ZkPayroll.Host.Hex
import ZkPayroll.Host.EventLog
import ZkPayroll.Host.Process
import ZkPayroll.Env
import ZkPayroll.Events
import ZkPayroll.Token
import ZkPayroll.Wallet
import ZkPayroll.SalaryCommitment
import ZkPayroll.SalaryCommitmentLaws
import ZkPayroll.SalaryCommitment.Values
import ZkPayroll.SalaryCommitment.ReferenceIds
import ZkPayroll.SalaryCommitment.Trail
import ZkPayroll.SalaryCommitment.History
import ZkPayroll.Payroll.Types
import ZkPayroll.Payroll.Checks
import ZkPayroll.Payroll.Config
import ZkPayroll.Payroll.Runs
import ZkPayroll.Payroll.Treasury
import ZkPayroll.Payroll.Records
import ZkPayroll.Payroll.Views
import ZkPayroll.Payroll.Contract
import ZkPayroll.Payroll.CheckLaws
import ZkPayroll.Payroll.ConfigLaws
import ZkPayroll.Payroll.RunLaws
import ZkPayroll.Payroll.RecordLaws
import ZkPayroll.Payroll.TreasuryLaws
import ZkPayroll.Payroll.Footprint
import ZkPayroll.Payroll.Steps
import ZkPayroll.Payroll.RunRecords
import ZkPayroll.Payroll.Nonces
import ZkPayroll.Payroll.Reservations
import ZkPayroll.Payroll.Settlement
import ZkPayroll.Payroll.Solvency
import ZkPayroll.Payroll.ConfigLock
import ZkPayroll.Payroll.AdminChange
import ZkPayroll.Payroll.Lifecycle
import ZkPayroll.Payroll.Reconciliation
import ZkPayroll.Payroll.Privileged
import ZkPayroll.Payroll.Repeat
import ZkPayroll.Payroll.EmergencyStop
import ZkPayroll.Payroll.Execution
import ZkPayroll.Payroll.Holds
import ZkPayroll.Payroll.DraftTokens
import ZkPayroll.Payroll.PeriodGuard
import ZkPayroll.Payroll.Reviews
import ZkPayroll.Payroll.Archive
import ZkPayroll.Payroll.Availability
import ZkPayroll.Payroll.Withdrawals
import ZkPayroll.Payroll.Splits
import ZkPayroll.Payroll.Drafts
import ZkPayroll.Payroll.Checkpoints
import ZkPayroll.Payroll.Assets
import ZkPayroll.Payroll.Deposits
import ZkPayroll.Payroll.Quorum
import ZkPayroll.Payroll.QuorumPayload
import ZkPayroll.Payroll.Payout
import ZkPayroll.Payroll.Published
import ZkPayroll.Payroll.EventLog
import ZkPayroll.PayrollRegistry
import ZkPayroll.PayrollRegistryLaws
import ZkPayroll.PayrollRegistry.Steps
import ZkPayroll.PayrollRegistry.EventLog
import ZkPayroll.PayrollRegistry.AdminIndex
import ZkPayroll.PayrollRegistry.Thresholds
import ZkPayroll.PayrollRegistry.Base32
import ZkPayroll.PayrollRegistry.Strkey
import ZkPayroll.PayrollRegistry.Typos
import ZkPayroll.PaymentExecutor.Contract
import ZkPayroll.PaymentExecutor.Laws
import ZkPayroll.PaymentExecutor.Steps
import ZkPayroll.PaymentExecutor.Ledger
import ZkPayroll.PaymentExecutor.Isolation
import ZkPayroll.PaymentExecutor.Replay
import ZkPayroll.PaymentExecutor.Eligibility
import ZkPayroll.PaymentExecutor.Periods
import ZkPayroll.PaymentExecutor.EventLog
import ZkPayroll.PaymentExecutor.PeriodLog
import ZkPayroll.PaymentExecutor.Order
import ZkPayroll.AuditModule.Contract
import ZkPayroll.AuditModule.Laws
import ZkPayroll.AuditModule.Cascade
import ZkPayroll.AuditModule.Revocation
import ZkPayroll.AuditModule.Scope
import ZkPayroll.AuditModule.Consent
import ZkPayroll.AuditModule.Authority
import ZkPayroll.SalaryCommitment.Openings
import ZkPayroll.AuditModule.Log
import ZkPayroll.AuditModule.LogIntegrity
import ZkPayroll.AuditModule.Access
import ZkPayroll.AuditModule.Fates
import ZkPayroll.PauseManager
import ZkPayroll.PauseManager.Rotation
import ZkPayroll.PauseManager.EventLog
import ZkPayroll.SalaryCommitment.Rotation
import ZkPayroll.SalaryCommitment.EventLog
import ZkPayroll.PauseGuard
import ZkPayroll.ProofVerifier.Contract
import ZkPayroll.ProofVerifier.References
import ZkPayroll.ProofVerifier.Control
import ZkPayroll.Cli.Rpc
import ZkPayroll.Cli.Payments
import ZkPayroll.Circuits.Field
import ZkPayroll.Circuits.Payment
import ZkPayroll.Circuits.Generator
import ZkPayroll.Circuits.ProofHelper
import ZkPayroll.Circuits.TextLaws
import ZkPayroll.Circuits.ProofFile
import ZkPayroll.Cli.Database
import ZkPayroll.Cli.Commands
import ZkPayroll.Cli.Records
import ZkPayroll.Cli.Reports
import ZkPayroll.Cli.Wallets
