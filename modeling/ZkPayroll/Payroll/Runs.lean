import ZkPayroll.Payroll.Checks

/-!
# Payroll runs inside the contract's own storage

The canonical state machine, the hashes committed ahead of a run, and the
two-step life of a run: prepared, then finalized or cancelled. Direct
execution of a batch moves tokens and is in `ZkPayroll.Payroll.Treasury`.
-/

namespace ZkPayroll.Payroll

open Host

-- ---------------------------------------------------------------------------
-- The canonical state machine
-- ---------------------------------------------------------------------------

def isAllowedPayrollStateTransitionInternal : (current target : PayrollRunState) → Bool
  | .draft, .validating | .draft, .cancelled => true
  | .validating, .proofPending | .validating, .failed | .validating, .cancelled => true
  | .proofPending, .readyToSubmit | .proofPending, .failed | .proofPending, .cancelled => true
  | .readyToSubmit, .submitted | .readyToSubmit, .failed | .readyToSubmit, .cancelled => true
  | .submitted, .confirming | .submitted, .failed | .submitted, .cancelled => true
  | .confirming, .completed | .confirming, .failed | .confirming, .reconciliationRequired => true
  | .failed, .validating | .failed, .proofPending | .failed, .cancelled => true
  | .reconciliationRequired, .completed | .reconciliationRequired, .failed => true
  | _, _ => false

def isTerminalPayrollStateInternal : PayrollRunState → Bool
  | .completed | .cancelled => true
  | _ => false

def isRetryablePayrollStateInternal : PayrollRunState → Bool
  | .failed => true
  | _ => false

def recordPayrollRunState (runId : Nat) (state : PayrollRunState) (s : Storage) : Storage :=
  s.set (.payrollState runId) state

/-- The recorded state, or what the run's own record says where none was
recorded. -/
def getPayrollRunStateInternal (s : Storage) (runId : Nat) : Result PayrollRunState :=
  match s.get (.payrollState runId) with
  | some state => pure state
  | none => match s.get (.payrollRun runId) with
    | some run => match run.reconciliationStatus with
      | .reconciled => pure .completed
      | .unreconciled | .failed => pure .reconciliationRequired
    | none => do
      ensure (s.has (.pendingRun runId)) "Payroll run state not found"
      return .submitted

def transitionPayrollRunState (e : Env) (admin : Address) (runId : Nat)
    (nextState : PayrollRunState) (s : Storage) : Result Storage := do
  requireNotPaused e s
  let _ ← requireAdmin e s admin "Unauthorized"
  let current ← getPayrollRunStateInternal s runId
  ensure (isAllowedPayrollStateTransitionInternal current nextState = true)
    "Invalid payroll state transition"
  return recordPayrollRunState runId nextState s

def reconciledState : ReconciliationStatus → PayrollRunState
  | .reconciled => .completed
  | .unreconciled => .reconciliationRequired
  | .failed => .failed

def updateReconciliationStatus (e : Env) (admin : Address) (runId : Nat)
    (status : ReconciliationStatus) (s : Storage) : Result Storage := do
  requireNotPaused e s
  let _ ← requireAdmin e s admin "Unauthorized"
  let run ← expect (s.get (.payrollRun runId)) "Run not found"
  let currentState ← getPayrollRunStateInternal s runId
  ensure (currentState ≠ .completed)
    "Settlement already finalized: run is Completed and cannot be updated again"
  let s := s.set (.payrollRun runId) { run with reconciliationStatus := status }
  let nextState := reconciledState status
  ensure (¬ (currentState ≠ nextState ∧
      isAllowedPayrollStateTransitionInternal currentState nextState = false))
    "Invalid payroll state transition"
  return recordPayrollRunState runId nextState s

-- ---------------------------------------------------------------------------
-- Hashes committed ahead of a run
-- ---------------------------------------------------------------------------

/-- The common body of `commitDraft` and `commitMetadataHash`, which share
one key space. -/
def commitHash (e : Env) (admin : Address) (hash : BytesN 32) (taken : Panic) (s : Storage) :
    Result Storage := do
  requireNotPaused e s
  validateNonZeroDigest hash
  let _ ← requireAdmin e s admin "Unauthorized"
  ensure (s.has (.draftCommitment hash) = false) taken
  return s.set (.draftCommitment hash) true

def commitDraft (e : Env) (admin : Address) (draftHash : BytesN 32) : Storage → Result Storage :=
  commitHash e admin draftHash "Draft already committed"

def commitMetadataHash (e : Env) (admin : Address) (metadataHash : BytesN 32) :
    Storage → Result Storage :=
  commitHash e admin metadataHash "Metadata hash already committed"

def setRunMetadata (e : Env) (admin : Address) (runId : Nat) (metadataHash : BytesN 32)
    (s : Storage) : Result Storage := do
  requireNotPaused e s
  validateRunId runId
  validateNonZeroDigest metadataHash
  let _ ← requireAdmin e s admin "Unauthorized"
  ensure (s.has (.draftCommitment metadataHash))
    "Metadata hash not pre-committed: call commit_metadata_hash first"
  let s := s.remove (.draftCommitment metadataHash)
  let run ← expect (s.get (.payrollRun runId)) "Run not found"
  return s.set (.payrollRun runId) { run with metadataHash := metadataHash }

-- ---------------------------------------------------------------------------
-- Prepared runs
-- ---------------------------------------------------------------------------

/-- The arguments of `prepare_payroll_run` and `batch_process_payroll`. -/
structure Batch where
  proofs : List (BytesN 256)
  amounts : List Int
  employees : List Address
  expectedTotalSpend : Int
  nonce : BytesN 32
  draftHash : Option (BytesN 32)

def Batch.validateShape (b : Batch) : Result Unit := do
  ensure (¬ (b.amounts.length ≠ b.proofs.length ∨ b.employees.length ≠ b.proofs.length))
    "Array length mismatch"
  ensure (b.proofs.length ≠ 0) "Empty payroll batch"
  ensure (b.proofs.length ≤ maxBatch) "Batch too large"

/-- Nothing but the wallet and amount checks, which both entry points make in
this order. -/
def Batch.validatePayments (b : Batch) : Result Unit := do
  validateNoDuplicateEmployees b.employees
  let total ← sumAmounts 0 b.amounts
  validateExpectedSpend total b.expectedTotalSpend

def Batch.resolvedDraftHash (b : Batch) : BytesN 32 := b.draftHash.getD BytesN.zero

/-- The pre-commitment is looked up and left in place. -/
def requireDraftCommitment (draftHash : Option (BytesN 32)) (s : Storage) : Result Unit :=
  match draftHash with
  | some dh =>
    ensure (s.has (.draftCommitment dh)) "Draft hash not pre-committed: call commit_draft first"
  | none => pure ()

def preparePayrollRun (e : Env) (b : Batch) (s : Storage) : Result (Nat × Storage) := do
  requireCompanyActive s
  validateStorageVersionForOperation s "prepare_payroll_run"
  b.validateShape
  ensure (s.has (.runNonce b.nonce) = false)
    "Duplicate run nonce: this payroll batch has already been submitted"
  requireDraftCommitment b.draftHash s
  b.validatePayments
  let addrs ← getAddresses s
  validateNonceMonotonicity s addrs.admin b.nonce
  requireAuth e addrs.admin
  ensure (isAssetAllowed s addrs.token = true) "Asset not allowed"
  let (runId, s) ← deriveRunId s
  let s := s.set (.runNonce b.nonce) runId
  let s ← updateNonceSequence e addrs.admin b.nonce s
  let s := s.set (.pendingRun runId)
    { runId := runId
      preparedAt := e.timestamp
      admin := addrs.admin
      totalAmount := b.expectedTotalSpend
      employeeCount := b.proofs.length
      draftHash := b.resolvedDraftHash
      nonce := b.nonce }
  let s := recordPayrollRunState runId .submitted s
  let count ← addU32 (pendingPayrollRunCount s) 1
  let s := s.set .pendingRunCount count
  let s ← addLockedFunds addrs.token b.expectedTotalSpend s
  return (runId, s)

def defaultApprovalExpirySeconds : Nat := 7 * 24 * 60 * 60

def isPayrollApprovalExpired (e : Env) (s : Storage) (runId maxAgeSeconds : Nat) : Bool :=
  match s.get (.runReview runId) with
  | some review =>
    if review.decision = .approved then
      -- `saturating_add`
      decide (min (review.reviewedAt + maxAgeSeconds) u64Max < e.timestamp)
    else false
  | none => false

def validateApprovalNotExpired (e : Env) (s : Storage) (runId maxAgeSeconds : Nat) : Result Unit :=
  ensure (isPayrollApprovalExpired e s runId maxAgeSeconds = false)
    "Payroll approval expired: approval record exceeds maximum allowed age"

/-- No token moves here: the reservation is released and the pending record
becomes an executed one. -/
def finalizePayrollRun (e : Env) (admin : Address) (runId : Nat) (s : Storage) : Result Storage := do
  requireNotPaused e s
  validateRunId runId
  let addrs ← requireAdmin e s admin "Unauthorized"
  let pendingRun ← expect (s.get (.pendingRun runId)) "Pending run not found"
  validateApprovalNotExpired e s runId defaultApprovalExpirySeconds
  ensure (s.has (.payrollRun runId) = false) "Cannot cancel: run has already been executed"
  let s ← subtractLockedFunds addrs.token pendingRun.totalAmount s
  let s := s.remove (.pendingRun runId)
  let s := recordPayrollRunState runId .reconciliationRequired s
  -- `saturating_sub` on an unsigned count is truncated subtraction
  let s := s.set .pendingRunCount (pendingPayrollRunCount s - 1)
  return s.set (.payrollRun runId)
    { runId := runId
      executedAt := e.timestamp
      admin := addrs.admin
      totalAmount := pendingRun.totalAmount
      employeeCount := pendingRun.employeeCount
      draftHash := pendingRun.draftHash
      nonce := pendingRun.nonce
      reconciliationStatus := .unreconciled
      metadataHash := BytesN.zero }

/-- Deliberately without a pause check. -/
def cancelPayrollRunWithReason (e : Env) (admin : Address) (runId : Nat) (reason : Symbol)
    (s : Storage) : Result Storage := do
  validateRunId runId
  validateSymbolNotEmpty reason
  let addrs ← requireAdmin e s admin "Unauthorized"
  ensure (s.has (.payrollRun runId) = false) "Cannot cancel a finalized payroll run"
  let pendingRun ← expect (s.get (.pendingRun runId)) "Pending run not found"
  let s ← subtractLockedFunds addrs.token pendingRun.totalAmount s
  let s := s.set (.cancelledBatchRecord runId)
    { runId := runId
      cancelledAt := e.timestamp
      cancelledBy := admin
      reason := reason
      employeeCount := pendingRun.employeeCount
      totalAmount := pendingRun.totalAmount
      draftHash := pendingRun.draftHash
      isCancelled := true }
  let s := s.remove (.pendingRun runId)
  let s := recordPayrollRunState runId .cancelled s
  return s.set .pendingRunCount (pendingPayrollRunCount s - 1)

def cancelPayrollRun (e : Env) (admin : Address) (runId : Nat) (reason : Symbol) :
    Storage → Result Storage :=
  cancelPayrollRunWithReason e admin runId reason

end ZkPayroll.Payroll
