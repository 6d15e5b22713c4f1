import ZkPayroll.Payroll.Config
import ZkPayroll.Payroll.Treasury
import ZkPayroll.Payroll.Records

/-!
# Read-only entry points

Every public function of the contract that writes nothing, as a query with
the type of its answer. A query sees the storage and the token balances and
may abort, for instance where the record it asks for is absent.
-/

namespace ZkPayroll.Payroll

open Host

def getSupportedAssets (s : Storage) : List Address :=
  match s.get .supportedAssets with
  | some assets => assets
  | none => match s.get .addresses with
    | some addrs => if isAssetAllowed s addrs.token then [addrs.token] else []
    | none => []

def isStorageVersionSupported (s : Storage) : Bool :=
  match s.get .storageVersion with
  | some state => decide (minSupportedStorageVersion ≤ state.version ∧
      state.version ≤ maxSupportedStorageVersion)
  | none => true

def isMigrationRequired (s : Storage) : Bool :=
  match s.get .storageVersion with
  | some state => decide (state.version < minSupportedStorageVersion)
  | none => false

def checkMigrationReadiness (e : Env) (s : Storage) : MigrationReadinessState :=
  match s.get .storageVersion with
  | some state => { readyState e state.version with
      ready := isStorageVersionSupported s && state.migrationComplete }
  | none => readyState e currentStorageVersion

def getSafeTreasurySummary (w : World) (asset : Address) : Result SafeTreasurySummary := do
  let addrs ← getAddresses w.payroll
  let totalBalance := w.tokenBalance asset addrs.treasury
  let reservedBalance := getLockedFunds w.payroll asset
  let blockedBalance := 0
  let availableBalance :=
    (checkedSub ((checkedSub totalBalance reservedBalance).getD 0) blockedBalance).getD 0
  return ⟨asset, totalBalance, availableBalance, reservedBalance, blockedBalance⟩

def getPayrollRun (s : Storage) (runId : Nat) : Result PayrollRun := do
  validateRunId runId
  expect (s.get (.payrollRun runId)) "Run not found"

def getArchivedRun (s : Storage) (runId : Nat) : Result PayrollRun := do
  validateRunId runId
  ensure (s.has (.archivedRun runId)) "Run is not archived"
  expect (s.get (.payrollRun runId)) "Run not found"

def isRunArchived (s : Storage) (runId : Nat) : Result Bool := do
  validateRunId runId
  return s.has (.archivedRun runId)

def getBatchLockTimestamp (s : Storage) (runId : Nat) : Option Nat :=
  match s.get (.pendingRun runId) with
  | some pending => some pending.preparedAt
  | none => (s.get (.payrollRun runId)).map PayrollRun.executedAt

def isComplianceHoldActive (s : Storage) (holdId : Nat) : Bool :=
  ((s.get (.complianceHold holdId)).map ComplianceHold.isActive).getD false

/-- Compares with the parent's own record; the recorded splits are not
read. -/
def validateBatchSplitAggregate (s : Storage) (parentRunId : Nat) (expectedTotalAmount : Int)
    (expectedEmployeeCount : Nat) : Bool :=
  match s.get (.payrollRun parentRunId) with
  | some parentRun => decide (parentRun.totalAmount = expectedTotalAmount ∧
      parentRun.employeeCount = expectedEmployeeCount)
  | none => false

inductive Query
  | hasActivePayrollRun
  | getEmployerNonceSequence (employer : Address)
  | getEvidencePointer (pointerId : BytesN 32)
  | evidencePointerExists (contentHash : BytesN 32)
  | getStorageVersion
  | isStorageVersionSupported
  | isMigrationRequired
  | checkMigrationReadiness
  | isAssetAllowed (asset : Address)
  | getSupportedAssets
  | getTreasuryBalance (depositor : Address)
  | isStateTransitionAllowed (current target : PayrollRunState)
  | isPayrollStateTerminal (state : PayrollRunState)
  | isPayrollStateRetryable (state : PayrollRunState)
  | getBatchExecutionCheckpoint (c : CheckpointId)
  | getPayrollRunState (runId : Nat)
  | getPayrollRun (runId : Nat)
  | getEmergencyRequest
  | getPendingRun (runId : Nat)
  | getRunDraft (draftId : Nat)
  | isDraftTransitionAllowed (current target : RunDraftState)
  | isDraftStateTerminal (state : RunDraftState)
  | getPendingAdminRotation
  | getPendingTreasuryRotation
  | getPendingAdminHandover
  | getLockedFunds (asset : Address)
  | getAvailableTreasuryBalance (asset : Address)
  | hashQuorumPayload (payload : QuorumApprovalPayload)
  | isQuorumConsumed (quorumHash : BytesN 32)
  | getMetadataHash (runId : Nat)
  | verifyMetadataHash (runId : Nat) (expectedHash : BytesN 32)
  | getCompanyState
  | getArchivedRun (runId : Nat)
  | isRunArchived (runId : Nat)
  | isReviewer (reviewer : Address)
  | getRunReview (runId : Nat)
  | getAddresses
  | getTreasuryOwner
  | getRunCounter
  | isComplianceHoldActive (holdId : Nat)
  | getComplianceHold (holdId : Nat)
  | getReservationExpiry (asset : Address)
  | getRequiredReservationExpiry (asset : Address)
  | isPayrollRunArchived (runId : Nat)
  | getArchiveMarker (runId : Nat)
  | getBatchLockTimestamp (runId : Nat)
  | getSafeTreasurySummary (asset : Address)
  | isPayrollApprovalExpired (runId maxAgeSeconds : Nat)
  | validateApprovalNotExpired (runId maxAgeSeconds : Nat)
  | getCancelledBatchStatus (runId : Nat)
  | getBatchSplit (parentRunId childRunId : Nat)
  | validateBatchSplitAggregate (parentRunId : Nat) (expectedTotalAmount : Int)
      (expectedEmployeeCount : Nat)

abbrev Query.Answer : Query → Type
  | .getEmployerNonceSequence _ => Option EmployerNonceSequenceState
  | .getEvidencePointer _ => ComplianceEvidencePointer
  | .getStorageVersion => Option StorageVersionState
  | .checkMigrationReadiness => MigrationReadinessState
  | .getSupportedAssets => List Address
  | .getTreasuryBalance _ | .getLockedFunds _ | .getAvailableTreasuryBalance _ => Int
  | .getBatchExecutionCheckpoint _ => BatchCheckpoint
  | .getPayrollRunState _ => PayrollRunState
  | .getPayrollRun _ | .getArchivedRun _ => PayrollRun
  | .getEmergencyRequest => Option EmergencyWithdrawalRequest
  | .getPendingRun _ => Option PendingPayrollRun
  | .getRunDraft _ => PayrollRunDraft
  | .getPendingAdminRotation | .getPendingTreasuryRotation => Option PendingRotation
  | .getPendingAdminHandover => Option PendingAdminHandover
  | .hashQuorumPayload _ | .getMetadataHash _ => BytesN 32
  | .getCompanyState => CompanyState
  | .getRunReview _ => Option RunReview
  | .getAddresses => ContractAddresses
  | .getTreasuryOwner => Address
  | .getRunCounter => Nat
  | .getComplianceHold _ => Option ComplianceHold
  | .getReservationExpiry _ => Option ReservationExpiry
  | .getRequiredReservationExpiry _ => ReservationExpiry
  | .getArchiveMarker _ => Option ArchiveMarker
  | .getBatchLockTimestamp _ => Option Nat
  | .getSafeTreasurySummary _ => SafeTreasurySummary
  | .validateApprovalNotExpired _ _ => Unit
  | .getCancelledBatchStatus _ => Option CancelledBatchStatus
  | .getBatchSplit _ _ => Option BatchSplitRecord
  | _ => Bool

def answer (e : Env) (w : World) : (q : Query) → Result q.Answer
  | .hasActivePayrollRun => pure (decide (0 < pendingPayrollRunCount w.payroll))
  | .getEmployerNonceSequence employer => pure (w.payroll.get (.employerNonceSequence employer))
  | .getEvidencePointer pointerId =>
    expect (w.payroll.get (.evidencePointer pointerId)) "Evidence pointer not found"
  | .evidencePointerExists contentHash => pure (w.payroll.has (.evidencePointerIndex contentHash))
  | .getStorageVersion => pure (w.payroll.get .storageVersion)
  | .isStorageVersionSupported => pure (isStorageVersionSupported w.payroll)
  | .isMigrationRequired => pure (isMigrationRequired w.payroll)
  | .checkMigrationReadiness => pure (checkMigrationReadiness e w.payroll)
  | .isAssetAllowed asset => pure (isAssetAllowed w.payroll asset)
  | .getSupportedAssets => pure (getSupportedAssets w.payroll)
  | .getTreasuryBalance depositor => pure ((w.payroll.get (.companyBalance depositor)).getD 0)
  | .isStateTransitionAllowed current target =>
    pure (isAllowedPayrollStateTransitionInternal current target)
  | .isPayrollStateTerminal state => pure (isTerminalPayrollStateInternal state)
  | .isPayrollStateRetryable state => pure (isRetryablePayrollStateInternal state)
  | .getBatchExecutionCheckpoint c =>
    expect (w.payroll.get c.key) "Batch execution checkpoint not found"
  | .getPayrollRunState runId => getPayrollRunStateInternal w.payroll runId
  | .getPayrollRun runId => getPayrollRun w.payroll runId
  | .getEmergencyRequest => pure (w.payroll.get .emergencyRequest)
  | .getPendingRun runId => pure (w.payroll.get (.pendingRun runId))
  | .getRunDraft draftId => expect (w.payroll.get (.runDraft draftId)) "Draft not found"
  | .isDraftTransitionAllowed current target =>
    pure (isAllowedDraftStateTransitionInternal current target)
  | .isDraftStateTerminal state => pure (isTerminalDraftStateInternal state)
  | .getPendingAdminRotation => pure (w.payroll.get .pendingAdminRotation)
  | .getPendingTreasuryRotation => pure (w.payroll.get .pendingTreasuryRotation)
  | .getPendingAdminHandover => pure (w.payroll.get .pendingAdminHandover)
  | .getLockedFunds asset => pure (getLockedFunds w.payroll asset)
  | .getAvailableTreasuryBalance asset => getAvailableTreasuryBalance w asset
  | .hashQuorumPayload payload => pure (hashQuorumPayload e payload)
  | .isQuorumConsumed quorumHash => pure (isQuorumConsumed w.payroll quorumHash)
  | .getMetadataHash runId => PayrollRun.metadataHash <$> getPayrollRun w.payroll runId
  | .verifyMetadataHash runId expectedHash =>
    (fun run => decide (run.metadataHash = expectedHash)) <$> getPayrollRun w.payroll runId
  | .getCompanyState => pure ((w.payroll.get .companyState).getD .active)
  | .getArchivedRun runId => getArchivedRun w.payroll runId
  | .isRunArchived runId => isRunArchived w.payroll runId
  | .isReviewer reviewer => pure (isReviewer w.payroll reviewer)
  | .getRunReview runId => pure (w.payroll.get (.runReview runId))
  | .getAddresses => getAddresses w.payroll
  | .getTreasuryOwner => getTreasuryOwner w.payroll
  | .getRunCounter => pure ((w.payroll.get .runCounter).getD 0)
  | .isComplianceHoldActive holdId => pure (isComplianceHoldActive w.payroll holdId)
  | .getComplianceHold holdId => pure (w.payroll.get (.complianceHold holdId))
  | .getReservationExpiry asset => pure (w.payroll.get (.reservationExpiry asset))
  | .getRequiredReservationExpiry asset =>
    expect (w.payroll.get (.reservationExpiry asset)) "Treasury reservation not found"
  | .isPayrollRunArchived runId => pure (w.payroll.has (.archiveMarker runId))
  | .getArchiveMarker runId => pure (w.payroll.get (.archiveMarker runId))
  | .getBatchLockTimestamp runId => pure (getBatchLockTimestamp w.payroll runId)
  | .getSafeTreasurySummary asset => getSafeTreasurySummary w asset
  | .isPayrollApprovalExpired runId maxAgeSeconds =>
    pure (isPayrollApprovalExpired e w.payroll runId maxAgeSeconds)
  | .validateApprovalNotExpired runId maxAgeSeconds =>
    validateApprovalNotExpired e w.payroll runId maxAgeSeconds
  | .getCancelledBatchStatus runId => pure (w.payroll.get (.cancelledBatchRecord runId))
  | .getBatchSplit parentRunId childRunId =>
    pure (w.payroll.get (.batchSplitRecord parentRunId childRunId))
  | .validateBatchSplitAggregate parentRunId expectedTotalAmount expectedEmployeeCount =>
    pure (validateBatchSplitAggregate w.payroll parentRunId expectedTotalAmount expectedEmployeeCount)

end ZkPayroll.Payroll
