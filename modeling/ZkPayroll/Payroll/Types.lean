import ZkPayroll.Env

/-!
# What the payroll contract stores

The records of `contracts/payroll`, its storage keys, and the type of the
value under each key. The two key kinds the contract declares and never uses
(`BatchSplitTracker`, and the values of a later schema) are left out.
-/

namespace ZkPayroll.Payroll

open Host

-- ---------------------------------------------------------------------------
-- Configuration
-- ---------------------------------------------------------------------------

structure ContractAddresses where
  admin : Address
  token : Address
  verifier : Address
  commitment : Address
  treasury : Address
  treasuryOwner : Address
  deriving DecidableEq

/-- Payroll runs only in `active`; an absent state counts as `active`. -/
inductive CompanyState
  | active
  | paused
  | archived
  | incomplete
  deriving DecidableEq

structure StorageVersionState where
  version : Nat
  updatedAt : Nat
  migrationComplete : Bool
  versionDescription : String
  deriving DecidableEq

structure MigrationReadinessState where
  ready : Bool
  currentVersion : Nat
  minSupported : Nat
  maxSupported : Nat
  checkedAt : Nat
  deriving DecidableEq

structure PendingRotation where
  newHolder : Address
  proposedBy : Address
  proposedAt : Nat
  deriving DecidableEq

structure PendingAdminHandover where
  currentAdmin : Address
  pendingAdmin : Address
  requestedAt : Nat
  deriving DecidableEq

-- ---------------------------------------------------------------------------
-- Runs
-- ---------------------------------------------------------------------------

inductive ReconciliationStatus
  | unreconciled
  | reconciled
  | failed
  deriving DecidableEq

inductive PayrollRunState
  | draft
  | validating
  | proofPending
  | readyToSubmit
  | submitted
  | confirming
  | completed
  | failed
  | cancelled
  | reconciliationRequired
  deriving DecidableEq

structure PendingPayrollRun where
  runId : Nat
  preparedAt : Nat
  admin : Address
  totalAmount : Int
  employeeCount : Nat
  draftHash : BytesN 32
  nonce : BytesN 32
  deriving DecidableEq

structure PayrollRun where
  runId : Nat
  executedAt : Nat
  admin : Address
  totalAmount : Int
  employeeCount : Nat
  draftHash : BytesN 32
  nonce : BytesN 32
  reconciliationStatus : ReconciliationStatus
  metadataHash : BytesN 32
  deriving DecidableEq

structure CancelledBatchStatus where
  runId : Nat
  cancelledAt : Nat
  cancelledBy : Address
  reason : Symbol
  employeeCount : Nat
  totalAmount : Int
  draftHash : BytesN 32
  isCancelled : Bool
  deriving DecidableEq

structure EmployerNonceSequenceState where
  currentSequence : Nat
  lastAcceptedAt : Nat
  lastNonce : BytesN 32
  deriving DecidableEq

inductive ReviewDecision
  | approved
  | rejected
  | changesRequested
  deriving DecidableEq

structure RunReview where
  runId : Nat
  reviewer : Address
  decision : ReviewDecision
  reason : Symbol
  reviewedAt : Nat
  deriving DecidableEq

structure ArchiveMarker where
  runId : Nat
  archivedAt : Nat
  archivedBy : Address
  archiveReason : Symbol
  deriving DecidableEq

structure BatchSplitRecord where
  parentRunId : Nat
  childRunId : Nat
  parentTotal : Int
  parentEmployeeCount : Nat
  childTotal : Int
  childEmployeeCount : Nat
  splitAt : Nat
  splitBy : Address
  deriving DecidableEq

-- ---------------------------------------------------------------------------
-- Drafts, checkpoints, treasury and compliance
-- ---------------------------------------------------------------------------

inductive RunDraftState
  | pending
  | finalized
  | submitted
  | cancelled
  | expired
  deriving DecidableEq

structure PayrollRunDraft where
  draftId : Nat
  createdAt : Nat
  admin : Address
  totalAmount : Int
  employeeCount : Nat
  periodLabel : Symbol
  state : RunDraftState
  amendmentCount : Nat
  deriving DecidableEq

inductive BatchCheckpointState
  | started
  | partiallyCheckpointed
  | resumed
  | completed
  | failed
  deriving DecidableEq

structure BatchCheckpoint where
  employer : Address
  batchRoot : BytesN 32
  asset : Address
  executionNonce : BytesN 32
  state : BatchCheckpointState
  lastCheckpointIndex : Nat
  totalCheckpoints : Nat
  completed : Bool
  failed : Bool
  deriving DecidableEq

structure EmergencyWithdrawalRequest where
  amount : Int
  recipient : Address
  requestedAt : Nat
  approved : Bool
  deriving DecidableEq

structure QuorumApprovalPayload where
  batchRoot : BytesN 32
  employer : Address
  period : Symbol
  asset : Address
  nonce : BytesN 32
  policyVersion : Nat
  deriving DecidableEq

inductive ComplianceHoldScope
  | batch
  | employee
  | employer
  deriving DecidableEq

structure ComplianceHold where
  holdId : Nat
  scope : ComplianceHoldScope
  target : Address
  reasonCode : Symbol
  placedAt : Nat
  placedBy : Address
  isActive : Bool
  deriving DecidableEq

structure ReservationExpiry where
  asset : Address
  reservedAmount : Int
  expiresAt : Nat
  createdAt : Nat
  deriving DecidableEq

structure SafeTreasurySummary where
  asset : Address
  totalBalance : Int
  availableBalance : Int
  reservedBalance : Int
  blockedBalance : Int
  deriving DecidableEq

inductive EvidencePointerScope
  | employer
  | period
  | reviewCase
  deriving DecidableEq

structure ComplianceEvidencePointer where
  pointerId : BytesN 32
  contentHash : BytesN 32
  scope : EvidencePointerScope
  target : Address
  createdAt : Nat
  createdBy : Address
  metadataHash : BytesN 32
  deriving DecidableEq

-- ---------------------------------------------------------------------------
-- Storage
-- ---------------------------------------------------------------------------

inductive DataKey
  | addresses
  | pauseManager
  | payrollRun (runId : Nat)
  | pendingRun (runId : Nat)
  | treasuryOwner
  | runCounter
  | runDraft (draftId : Nat)
  | runDraftCounter
  | pendingAdminRotation
  | pendingTreasuryRotation
  | runNonce (nonce : BytesN 32)
  | depositNonce (depositId : BytesN 32)
  | draftCommitment (hash : BytesN 32)
  | emergencyRequest
  | companyBalance (depositor : Address)
  | archivedRun (runId : Nat)
  | challengedRun (runId : Nat)
  | activeDraftForPeriod (periodLabel : Symbol)
  | companyState
  | payrollState (runId : Nat)
  | allowedAsset (asset : Address)
  | supportedAssets
  | pendingRunCount
  | batchCheckpoint (employer : Address) (batchRoot : BytesN 32) (asset : Address)
      (executionNonce : BytesN 32)
  | authorizedReviewer (reviewer : Address)
  | runReview (runId : Nat)
  | pendingAdminHandover
  | lockedPayrollFunds (asset : Address)
  | consumedQuorum (quorumHash : BytesN 32)
  | complianceHold (holdId : Nat)
  | complianceHoldCounter
  | reservationExpiry (asset : Address)
  | archiveMarker (runId : Nat)
  | employerNonceSequence (employer : Address)
  | evidencePointer (pointerId : BytesN 32)
  | evidencePointerIndex (contentHash : BytesN 32)
  | storageVersion
  | migrationReadiness
  | cancelledBatchRecord (runId : Nat)
  | batchSplitRecord (parentRunId childRunId : Nat)
  deriving DecidableEq

abbrev DataKey.Val : DataKey → Type
  | .addresses => ContractAddresses
  | .pauseManager => Address
  | .payrollRun _ => PayrollRun
  | .pendingRun _ => PendingPayrollRun
  | .treasuryOwner => Address
  | .runCounter => Nat
  | .runDraft _ => PayrollRunDraft
  | .runDraftCounter => Nat
  | .pendingAdminRotation => PendingRotation
  | .pendingTreasuryRotation => PendingRotation
  | .runNonce _ => Nat
  | .depositNonce _ => Bool
  | .draftCommitment _ => Bool
  | .emergencyRequest => EmergencyWithdrawalRequest
  | .companyBalance _ => Int
  | .archivedRun _ => Bool
  | .challengedRun _ => Bool
  | .activeDraftForPeriod _ => Nat
  | .companyState => CompanyState
  | .payrollState _ => PayrollRunState
  | .allowedAsset _ => Bool
  | .supportedAssets => List Address
  | .pendingRunCount => Nat
  | .batchCheckpoint .. => BatchCheckpoint
  | .authorizedReviewer _ => Bool
  | .runReview _ => RunReview
  | .pendingAdminHandover => PendingAdminHandover
  | .lockedPayrollFunds _ => Int
  | .consumedQuorum _ => Nat
  | .complianceHold _ => ComplianceHold
  | .complianceHoldCounter => Nat
  | .reservationExpiry _ => ReservationExpiry
  | .archiveMarker _ => ArchiveMarker
  | .employerNonceSequence _ => EmployerNonceSequenceState
  | .evidencePointer _ => ComplianceEvidencePointer
  | .evidencePointerIndex _ => BytesN 32
  | .storageVersion => StorageVersionState
  | .migrationReadiness => MigrationReadinessState
  | .cancelledBatchRecord _ => CancelledBatchStatus
  | .batchSplitRecord .. => BatchSplitRecord

abbrev Storage := Store DataKey.Val

end ZkPayroll.Payroll
