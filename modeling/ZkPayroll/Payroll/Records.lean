import ZkPayroll.Payroll.Runs

/-!
# Drafts, checkpoints, archives and compliance records

Entry points that keep records beside the runs. The older ones compare the
caller with the stored admin; the compliance, archive-with-reason, split and
evidence ones only ask the named caller for its authorisation.
-/

namespace ZkPayroll.Payroll

open Host

-- ---------------------------------------------------------------------------
-- Run drafts
-- ---------------------------------------------------------------------------

def isAllowedDraftStateTransitionInternal : (current target : RunDraftState) → Bool
  | .pending, .finalized | .pending, .submitted | .pending, .cancelled | .pending, .expired => true
  | .finalized, .submitted | .finalized, .cancelled | .finalized, .expired => true
  | _, _ => false

def isTerminalDraftStateInternal : RunDraftState → Bool
  | .submitted | .cancelled | .expired => true
  | _ => false

def createRunDraft (e : Env) (admin : Address) (totalAmount : Int) (employeeCount : Nat)
    (periodLabel : Symbol) (s : Storage) : Result (Nat × Storage) := do
  requireNotPaused e s
  validateSymbolNotEmpty periodLabel
  let _ ← requireAdmin e s admin "Unauthorized"
  ensure (0 < totalAmount) "total_amount must be positive"
  ensure (s.has (.activeDraftForPeriod periodLabel) = false)
    "A pending draft already exists for this payroll period"
  let draftId ← addU64 ((s.get .runDraftCounter).getD 0) 1
  let s := s.set .runDraftCounter draftId
  let s := s.set (.runDraft draftId)
    { draftId := draftId
      createdAt := e.timestamp
      admin := admin
      totalAmount := totalAmount
      employeeCount := employeeCount
      periodLabel := periodLabel
      state := .pending
      amendmentCount := 0 }
  let s := s.set (.activeDraftForPeriod periodLabel) draftId
  return (draftId, s)

def amendRunDraft (e : Env) (admin : Address) (draftId : Nat) (newTotalAmount : Int)
    (newEmployeeCount : Nat) (s : Storage) : Result Storage := do
  requireNotPaused e s
  validateDraftId draftId
  let _ ← requireAdmin e s admin "Unauthorized"
  let draft ← expect (s.get (.runDraft draftId)) "Draft not found"
  ensure (draft.state = .pending) "Only pending drafts can be amended"
  ensure (0 < newTotalAmount) "total_amount must be positive"
  let amendmentCount ← addU32 draft.amendmentCount 1
  return s.set (.runDraft draftId)
    { draft with
      totalAmount := newTotalAmount
      employeeCount := newEmployeeCount
      amendmentCount := amendmentCount }

def finalizeRunDraft (e : Env) (admin : Address) (draftId : Nat) (s : Storage) : Result Storage := do
  requireNotPaused e s
  let _ ← requireAdmin e s admin "Unauthorized"
  let draft ← expect (s.get (.runDraft draftId)) "Draft not found"
  ensure (draft.state = .pending) "Draft is already finalized"
  return s.set (.runDraft draftId) { draft with state := .finalized }

/-- The common body of the three moves into a terminal draft state. -/
def closeRunDraft (e : Env) (admin : Address) (draftId : Nat) (target : RunDraftState)
    (s : Storage) : Result Storage := do
  requireNotPaused e s
  let _ ← requireAdmin e s admin "Unauthorized"
  let draft ← expect (s.get (.runDraft draftId)) "Draft not found"
  ensure (isAllowedDraftStateTransitionInternal draft.state target = true)
    "Invalid draft state transition"
  return s.set (.runDraft draftId) { draft with state := target }

def submitRunDraft (e : Env) (admin : Address) (draftId : Nat) : Storage → Result Storage :=
  closeRunDraft e admin draftId .submitted

def cancelRunDraft (e : Env) (admin : Address) (draftId : Nat) : Storage → Result Storage :=
  closeRunDraft e admin draftId .cancelled

def expireRunDraft (e : Env) (admin : Address) (draftId : Nat) : Storage → Result Storage :=
  closeRunDraft e admin draftId .expired

-- ---------------------------------------------------------------------------
-- Batch checkpoints
-- ---------------------------------------------------------------------------

/-- The tuple a checkpoint is stored under. -/
structure CheckpointId where
  employer : Address
  batchRoot : BytesN 32
  asset : Address
  executionNonce : BytesN 32
  deriving DecidableEq

abbrev CheckpointId.key (c : CheckpointId) : DataKey :=
  .batchCheckpoint c.employer c.batchRoot c.asset c.executionNonce

def checkpointMismatch : Panic := "ERR_BATCH_CHECKPOINT_MISMATCH"

def beginBatchExecutionCheckpoint (e : Env) (admin : Address) (c : CheckpointId)
    (checkpointIndex : Nat) (s : Storage) : Result Storage := do
  validateNonZeroDigest c.batchRoot
  validateNonZeroDigest c.executionNonce
  let _ ← requireAdmin e s admin "Unauthorized"
  ensure (s.has c.key = false) "Batch execution checkpoint already exists"
  return s.set c.key
    { employer := c.employer
      batchRoot := c.batchRoot
      asset := c.asset
      executionNonce := c.executionNonce
      state := .started
      lastCheckpointIndex := checkpointIndex
      totalCheckpoints := 1
      completed := false
      failed := false }

def BatchCheckpoint.Describes (checkpoint : BatchCheckpoint) (c : CheckpointId) : Prop :=
  checkpoint.employer = c.employer ∧ checkpoint.batchRoot = c.batchRoot ∧
    checkpoint.asset = c.asset ∧ checkpoint.executionNonce = c.executionNonce

instance (checkpoint : BatchCheckpoint) (c : CheckpointId) : Decidable (checkpoint.Describes c) :=
  inferInstanceAs (Decidable (_ ∧ _))

def recordBatchCheckpointProgress (e : Env) (admin : Address) (c : CheckpointId)
    (checkpointIndex : Nat) (state : BatchCheckpointState) (s : Storage) : Result Storage := do
  let _ ← requireAdmin e s admin "Unauthorized"
  let checkpoint : BatchCheckpoint ← expect (s.get c.key) checkpointMismatch
  ensure (checkpoint.Describes c) checkpointMismatch
  ensure (¬ (checkpoint.completed = true ∨ checkpoint.failed = true ∨
      checkpointIndex < checkpoint.lastCheckpointIndex ∨ state = .started ∨ state = .resumed))
    checkpointMismatch
  ensure (checkpoint.totalCheckpoints + 1 ≤ u32Max) checkpointMismatch
  return s.set c.key
    { checkpoint with
      lastCheckpointIndex := checkpointIndex
      state := state
      totalCheckpoints := checkpoint.totalCheckpoints + 1
      completed := decide (state = .completed)
      failed := decide (state = .failed) }

def resumeBatchExecution (e : Env) (admin : Address) (c : CheckpointId) (checkpointIndex : Nat)
    (s : Storage) : Result Storage := do
  validateNonZeroDigest c.batchRoot
  validateNonZeroDigest c.executionNonce
  let _ ← requireAdmin e s admin "Unauthorized"
  let checkpoint : BatchCheckpoint ← expect (s.get c.key) checkpointMismatch
  ensure (checkpoint.Describes c ∧ checkpointIndex = checkpoint.lastCheckpointIndex ∧
      ¬ (checkpoint.state = .resumed ∨ checkpoint.state = .completed ∨ checkpoint.state = .failed) ∧
      checkpoint.completed = false ∧ checkpoint.failed = false)
    checkpointMismatch
  return s.set c.key
    { checkpoint with state := .resumed, lastCheckpointIndex := checkpointIndex }

-- ---------------------------------------------------------------------------
-- Evidence pointers and quorum approvals
-- ---------------------------------------------------------------------------

def toBeBytes : (n value : Nat) → List UInt8
  | 0, _ => []
  | n + 1, value => toBeBytes n (value / 256) ++ [UInt8.ofNat (value % 256)]

def generatePointerId (e : Env) (contentHash : BytesN 32) : BytesN 32 :=
  e.crypto.sha256 (contentHash.toList ++ toBeBytes 8 e.timestamp)

def createEvidencePointer (e : Env) (admin : Address) (contentHash : BytesN 32)
    (scope : EvidencePointerScope) (target : Address) (metadataHash : Option (BytesN 32))
    (s : Storage) : Result (BytesN 32 × Storage) := do
  requireNotPaused e s
  requireAuth e admin
  ensure (contentHash ≠ BytesN.zero) "Content hash cannot be empty (all zeros)"
  ensure (s.has (.evidencePointerIndex contentHash) = false)
    "Duplicate evidence pointer: content hash already exists"
  let pointerId := generatePointerId e contentHash
  ensure (s.has (.evidencePointer pointerId) = false)
    "Duplicate evidence pointer: pointer ID already exists"
  let s := s.set (.evidencePointer pointerId)
    { pointerId := pointerId
      contentHash := contentHash
      scope := scope
      target := target
      createdAt := e.timestamp
      createdBy := admin
      metadataHash := metadataHash.getD BytesN.zero }
  let s := s.set (.evidencePointerIndex contentHash) pointerId
  return (pointerId, s)

def hashQuorumPayload (e : Env) (payload : QuorumApprovalPayload) : BytesN 32 :=
  e.crypto.sha256
    (e.crypto.bytesToXdr payload.batchRoot ++ e.crypto.addressToXdr payload.employer ++
      e.crypto.symbolToXdr payload.period ++ e.crypto.addressToXdr payload.asset ++
      e.crypto.bytesToXdr payload.nonce ++ toBeBytes 4 payload.policyVersion)

def isQuorumConsumed (s : Storage) (quorumHash : BytesN 32) : Bool :=
  s.has (.consumedQuorum quorumHash)

/-- Every listed signer must authorise; the list may be empty. -/
def requireSigners (e : Env) : List Address → Result Unit
  | [] => pure ()
  | signer :: rest => do
    requireAuth e signer
    requireSigners e rest

def verifyAndConsumeQuorum (e : Env) (payload : QuorumApprovalPayload) (signers : List Address)
    (requiredQuorum : Nat) (s : Storage) : Result (BytesN 32 × Storage) := do
  requireNotPaused e s
  ensure (¬ signers.length < requiredQuorum) "Insufficient signer quorum"
  requireSigners e signers
  let addrs ← getAddresses s
  ensure (payload.employer = addrs.admin) "Employer mismatch in quorum payload"
  ensure (payload.asset = addrs.token) "Asset mismatch in quorum payload"
  let quorumHash := hashQuorumPayload e payload
  ensure (isQuorumConsumed s quorumHash = false)
    "Quorum approval payload already consumed: replay rejected"
  return (quorumHash, s.set (.consumedQuorum quorumHash) e.timestamp)

-- ---------------------------------------------------------------------------
-- Archives, challenges and splits
-- ---------------------------------------------------------------------------

def archivePayrollRun (e : Env) (admin : Address) (runId : Nat) (s : Storage) : Result Storage := do
  validateRunId runId
  let _ ← requireAdmin e s admin "Unauthorized"
  ensure (s.has (.payrollRun runId)) "Run not found"
  ensure (s.has (.challengedRun runId) = false) "Run has an unresolved audit challenge"
  ensure (s.has (.archivedRun runId) = false) "Run is already archived"
  return s.set (.archivedRun runId) true

def flagRunChallenged (e : Env) (admin : Address) (runId : Nat) (s : Storage) : Result Storage := do
  let _ ← requireAdmin e s admin "Unauthorized"
  return s.set (.challengedRun runId) true

def clearRunChallenge (e : Env) (admin : Address) (runId : Nat) (s : Storage) : Result Storage := do
  let _ ← requireAdmin e s admin "Unauthorized"
  return s.remove (.challengedRun runId)

def archivePayrollRunWithReason (e : Env) (admin : Address) (runId : Nat) (archiveReason : Symbol)
    (s : Storage) : Result Storage := do
  requireAuth e admin
  let _ ← expect (s.get (.payrollRun runId)) "Payroll run not found"
  ensure (s.has (.archiveMarker runId) = false) "Payroll run is already archived"
  return s.set (.archiveMarker runId) ⟨runId, e.timestamp, admin, archiveReason⟩

structure BatchSplit where
  parentRunId : Nat
  childRunId : Nat
  parentTotal : Int
  parentEmployeeCount : Nat
  childTotal : Int
  childEmployeeCount : Nat

def BatchSplit.record (b : BatchSplit) (e : Env) (admin : Address) : BatchSplitRecord :=
  ⟨b.parentRunId, b.childRunId, b.parentTotal, b.parentEmployeeCount, b.childTotal,
    b.childEmployeeCount, e.timestamp, admin⟩

def recordBatchSplit (e : Env) (admin : Address) (b : BatchSplit) (s : Storage) : Result Storage := do
  requireAuth e admin
  ensure (¬ (b.childTotal ≤ 0 ∨ b.parentTotal ≤ 0)) "Batch amounts must be positive"
  ensure (¬ b.parentTotal < b.childTotal) "Child batch total cannot exceed parent total"
  ensure (¬ b.parentEmployeeCount < b.childEmployeeCount)
    "Child employee count cannot exceed parent count"
  return s.set (.batchSplitRecord b.parentRunId b.childRunId) (b.record e admin)

-- ---------------------------------------------------------------------------
-- Compliance holds and reservation expiry
-- ---------------------------------------------------------------------------

def placeComplianceHold (e : Env) (admin : Address) (scope : ComplianceHoldScope) (target : Address)
    (reasonCode : Symbol) (s : Storage) : Result (Nat × Storage) := do
  requireAuth e admin
  let holdId ← addU64 ((s.get .complianceHoldCounter).getD 0) 1
  let s := s.set (.complianceHold holdId)
    { holdId := holdId
      scope := scope
      target := target
      reasonCode := reasonCode
      placedAt := e.timestamp
      placedBy := admin
      isActive := true }
  let s := s.set .complianceHoldCounter holdId
  return (holdId, s)

def releaseComplianceHold (e : Env) (admin : Address) (holdId : Nat) (s : Storage) :
    Result Storage := do
  requireAuth e admin
  let hold ← expect (s.get (.complianceHold holdId)) "Hold not found"
  ensure (hold.isActive = true) "Hold is not active"
  return s.set (.complianceHold holdId) { hold with isActive := false }

def setReservationExpiryPolicy (e : Env) (admin asset : Address) (reservedAmount : Int)
    (expiryLedgerOffset : Nat) (s : Storage) : Result Storage := do
  requireAuth e admin
  let expiresAt ← addU64 e.timestamp expiryLedgerOffset
  return s.set (.reservationExpiry asset) ⟨asset, reservedAmount, expiresAt, e.timestamp⟩

/-- Open to anyone, and leaves the locked funds as they are. -/
def releaseExpiredReservation (e : Env) (asset : Address) (s : Storage) : Result Storage := do
  let expiry ← expect (s.get (.reservationExpiry asset)) "Reservation not found"
  ensure (¬ e.timestamp ≤ expiry.expiresAt) "Reservation has not yet expired"
  return s.remove (.reservationExpiry asset)

end ZkPayroll.Payroll
