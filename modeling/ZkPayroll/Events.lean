import ZkPayroll.Env

/-!
# Events

`contracts/events`: the functions through which the contracts publish, and the
values their topics and data are made of. Some of the functions stand twice in
the file, with one text. Topics and data are values of the host; a tuple is a
list of values, and the server adds the time the ledger closed.

A call that aborts publishes nothing.
-/

namespace ZkPayroll

inductive Value
  | symbol (s : Symbol)
  | u32 (n : Nat)
  | u64 (n : Nat)
  | i128 (v : Int)
  | bool (b : Bool)
  | address (a : Address)
  | bytes (b : BytesN 32)
  | string (s : String)
  /-- A variant without fields, which the host passes as a vector of its name. -/
  | variant (name : Symbol)
  deriving DecidableEq

inductive Data
  | void
  | value (v : Value)
  | tuple (values : List Value)
  deriving DecidableEq

structure Event where
  topics : List Value
  data : Data
  closedAt : Nat
  deriving DecidableEq

/-- `e.events().publish(topics, data)`. -/
def Env.publish (e : Env) (topics : List Value) (data : Data) : Event := ⟨topics, data, e.timestamp⟩

namespace Events

-- ---------------------------------------------------------------------------
-- The payroll contract
-- ---------------------------------------------------------------------------

def payrollTopic : Value := .symbol "payroll"

def emitPayrollInitialized (e : Env) (admin token verifier commitment treasury
    treasuryOwner : Address) : Event :=
  e.publish [payrollTopic, .symbol "initialized"]
    (.tuple [.address admin, .address token, .address verifier, .address commitment,
      .address treasury, .address treasuryOwner])

def emitPauseManagerSet (e : Env) (pauseManager : Address) : Event :=
  e.publish [payrollTopic, .symbol "pause_mgr_set"] (.tuple [.address pauseManager])

def emitMetadataCommitted (e : Env) (metadataHash : BytesN 32) : Event :=
  e.publish [payrollTopic, .symbol "meta_committed"] (.value (.bytes metadataHash))

def emitMetadataBound (e : Env) (runId : Nat) (metadataHash : BytesN 32) : Event :=
  e.publish [payrollTopic, .symbol "meta_bound"] (.tuple [.u64 runId, .bytes metadataHash])

def emitDraftCommitted (e : Env) (draftHash : BytesN 32) : Event :=
  e.publish [payrollTopic, .symbol "draft_committed"] (.value (.bytes draftHash))

def emitEmergencyRequested (e : Env) (amount : Int) (recipient : Address) : Event :=
  e.publish [payrollTopic, .symbol "emrg_requested"] (.tuple [.i128 amount, .address recipient])

def emitEmergencyApproved (e : Env) (amount : Int) (recipient : Address) : Event :=
  e.publish [payrollTopic, .symbol "emrg_approved"] (.tuple [.i128 amount, .address recipient])

def emitEmergencyCancelled (e : Env) (caller : Address) : Event :=
  e.publish [payrollTopic, .symbol "emrg_cancelled"] (.value (.address caller))

def emitRunPrepared (e : Env) (runId : Nat) (totalSpend : Int) : Event :=
  e.publish [payrollTopic, .symbol "run_prepared"] (.tuple [.u64 runId, .i128 totalSpend])

def emitPaymentExecuted (e : Env) (employee : Address) (amount : Int) : Event :=
  e.publish [payrollTopic, .symbol "payment_executed"] (.tuple [.address employee, .i128 amount])

def emitRunExecuted (e : Env) (runId : Nat) (totalSpend : Int) : Event :=
  e.publish [payrollTopic, .symbol "run_executed"] (.tuple [.u64 runId, .i128 totalSpend])

def emitBatchCheckpointStarted (e : Env) (employer : Address) (batchRoot : BytesN 32)
    (asset : Address) (executionNonce : BytesN 32) (checkpointIndex : Nat) : Event :=
  e.publish [payrollTopic, .symbol "batch_checkpoint_started"]
    (.tuple [.address employer, .bytes batchRoot, .address asset, .bytes executionNonce,
      .u32 checkpointIndex])

def emitBatchCheckpointUpdated (e : Env) (employer : Address) (batchRoot : BytesN 32)
    (asset : Address) (executionNonce : BytesN 32) (checkpointIndex state : Nat) : Event :=
  e.publish [payrollTopic, .symbol "batch_checkpoint_updated"]
    (.tuple [.address employer, .bytes batchRoot, .address asset, .bytes executionNonce,
      .u32 checkpointIndex, .u32 state])

def emitBatchCheckpointResumed (e : Env) (employer : Address) (batchRoot : BytesN 32)
    (asset : Address) (executionNonce : BytesN 32) (checkpointIndex : Nat) : Event :=
  e.publish [payrollTopic, .symbol "batch_checkpoint_resumed"]
    (.tuple [.address employer, .bytes batchRoot, .address asset, .bytes executionNonce,
      .u32 checkpointIndex])

def emitDraftCreated (e : Env) (draftId : Nat) (admin : Address) (periodLabel : Symbol) : Event :=
  e.publish [payrollTopic, .symbol "draft_created"]
    (.tuple [.u64 draftId, .address admin, .symbol periodLabel])

def emitDraftAmended (e : Env) (draftId : Nat) (newTotal : Int) (amendmentCount : Nat) : Event :=
  e.publish [payrollTopic, .symbol "draft_amended"]
    (.tuple [.u64 draftId, .i128 newTotal, .u32 amendmentCount])

def emitDraftUpdated (e : Env) (draftId : Nat) (periodLabel : Symbol) (newTotal : Int)
    (newEmployeeCount amendmentCount : Nat) : Event :=
  e.publish [payrollTopic, .symbol "draft_updated"]
    (.tuple [.u64 draftId, .symbol periodLabel, .i128 newTotal, .u32 newEmployeeCount,
      .u32 amendmentCount])

def emitDraftFinalized (e : Env) (draftId : Nat) (total : Int) (amendmentCount : Nat) : Event :=
  e.publish [payrollTopic, .symbol "draft_finalized"]
    (.tuple [.u64 draftId, .i128 total, .u32 amendmentCount])

def emitDraftSubmitted (e : Env) (draftId : Nat) (admin : Address) : Event :=
  e.publish [payrollTopic, .symbol "draft_submitted"] (.tuple [.u64 draftId, .address admin])

def emitDraftCancelled (e : Env) (draftId : Nat) (admin : Address) : Event :=
  e.publish [payrollTopic, .symbol "draft_cancelled"] (.tuple [.u64 draftId, .address admin])

def emitDraftExpired (e : Env) (draftId : Nat) (admin : Address) : Event :=
  e.publish [payrollTopic, .symbol "draft_expired"] (.tuple [.u64 draftId, .address admin])

def emitAdminProposed (e : Env) (currentAdmin newAdmin : Address) : Event :=
  e.publish [payrollTopic, .symbol "admin_proposed"]
    (.tuple [.address currentAdmin, .address newAdmin])

def emitAdminRotated (e : Env) (oldAdmin newAdmin : Address) : Event :=
  e.publish [payrollTopic, .symbol "admin_rotated"] (.tuple [.address oldAdmin, .address newAdmin])

def emitAdminRotationCancelled (e : Env) (caller : Address) : Event :=
  e.publish [payrollTopic, .symbol "admin_rot_cancel"] (.value (.address caller))

def emitAdminHandoverRequested (e : Env) (currentAdmin pendingAdmin : Address) : Event :=
  e.publish [payrollTopic, .symbol "admin_handover_req"]
    (.tuple [.address currentAdmin, .address pendingAdmin])

def emitAdminHandoverAccepted (e : Env) (oldAdmin newAdmin : Address) : Event :=
  e.publish [payrollTopic, .symbol "admin_handover_acc"]
    (.tuple [.address oldAdmin, .address newAdmin])

def emitAdminHandoverCancelled (e : Env) (caller : Address) : Event :=
  e.publish [payrollTopic, .symbol "admin_handover_can"] (.value (.address caller))

def emitTreasuryProposed (e : Env) (currentOwner newOwner : Address) : Event :=
  e.publish [payrollTopic, .symbol "treasury_proposed"]
    (.tuple [.address currentOwner, .address newOwner])

def emitTreasuryRotated (e : Env) (oldOwner newOwner : Address) : Event :=
  e.publish [payrollTopic, .symbol "treasury_rotated"]
    (.tuple [.address oldOwner, .address newOwner])

def emitTreasuryRotationCancelled (e : Env) (caller : Address) : Event :=
  e.publish [payrollTopic, .symbol "treas_rot_cancel"] (.value (.address caller))

def emitReviewerAdded (e : Env) (reviewer : Address) : Event :=
  e.publish [payrollTopic, .symbol "reviewer_added"] (.value (.address reviewer))

def emitReviewerRemoved (e : Env) (reviewer : Address) : Event :=
  e.publish [payrollTopic, .symbol "reviewer_removed"] (.value (.address reviewer))

def emitRunApproved (e : Env) (runId : Nat) (reviewer : Address) : Event :=
  e.publish [payrollTopic, .symbol "run_approved"] (.tuple [.u64 runId, .address reviewer])

def emitRunRejected (e : Env) (runId : Nat) (reviewer : Address) (reason : Symbol) : Event :=
  e.publish [payrollTopic, .symbol "run_rejected"]
    (.tuple [.u64 runId, .address reviewer, .symbol reason])

def emitRunChangesRequested (e : Env) (runId : Nat) (reviewer : Address) (reason : Symbol) :
    Event :=
  e.publish [payrollTopic, .symbol "changes_requested"]
    (.tuple [.u64 runId, .address reviewer, .symbol reason])

def emitLockedFundsUpdated (e : Env) (asset : Address) (lockedAmount : Int) : Event :=
  e.publish [.symbol "treasury", .symbol "locked_funds_updated"]
    (.tuple [.address asset, .i128 lockedAmount])

def emitQuorumConsumed (e : Env) (batchRoot : BytesN 32) (employer : Address) (nonce : BytesN 32) :
    Event :=
  e.publish [.symbol "signing", .symbol "quorum_consumed"]
    (.tuple [.bytes batchRoot, .address employer, .bytes nonce])

def emitComplianceHoldPlaced (e : Env) (holdId : Nat) (scope : Symbol) (target : Address)
    (reasonCode : Symbol) (placedBy : Address) : Event :=
  e.publish [payrollTopic, .symbol "hold_placed"]
    (.tuple [.u64 holdId, .symbol scope, .address target, .symbol reasonCode, .address placedBy])

def emitComplianceHoldReleased (e : Env) (holdId : Nat) (releasedBy : Address) : Event :=
  e.publish [payrollTopic, .symbol "hold_released"] (.tuple [.u64 holdId, .address releasedBy])

def emitReservationExpiryReleased (e : Env) (asset : Address) (releasedAmount : Int) : Event :=
  e.publish [payrollTopic, .symbol "reservation_released"]
    (.tuple [.address asset, .i128 releasedAmount])

def emitPayrollRunArchived (e : Env) (runId : Nat) (archivedBy : Address) (archiveReason : Symbol) :
    Event :=
  e.publish [payrollTopic, .symbol "run_archived"]
    (.tuple [.u64 runId, .address archivedBy, .symbol archiveReason])

-- ---------------------------------------------------------------------------
-- The pause manager
-- ---------------------------------------------------------------------------

def emitPauseManagerInitialized (e : Env) (operator : Address) : Event :=
  e.publish [.symbol "PauseManager", .symbol "initialized"] (.tuple [.address operator])

def emitPaused (e : Env) : Event :=
  e.publish [.symbol "PauseManager", .symbol "paused"] .void

def emitUnpaused (e : Env) : Event :=
  e.publish [.symbol "PauseManager", .symbol "unpaused"] .void

def emitCategoryPaused (e : Env) (categorySymbol : Symbol) : Event :=
  e.publish [.symbol "PauseManager", .symbol "category_paused"] (.tuple [.symbol categorySymbol])

def emitCategoryUnpaused (e : Env) (categorySymbol : Symbol) : Event :=
  e.publish [.symbol "PauseManager", .symbol "category_unpaused"] (.tuple [.symbol categorySymbol])

-- ---------------------------------------------------------------------------
-- The registry
-- ---------------------------------------------------------------------------

def emitCompanyRegistered (e : Env) (companyId : Nat) (admin treasury : Address) : Event :=
  e.publish [.symbol "CompanyRegistered", .u64 companyId]
    (.tuple [.address admin, .address treasury])

def emitEmployeeAdded (e : Env) (companyId : Nat) (employee : Address) (commitment : BytesN 32) :
    Event :=
  e.publish [.symbol "EmployeeAdded", .u64 companyId, .address employee]
    (.tuple [.bytes commitment])

def emitEmployeeRemoved (e : Env) (companyId : Nat) (employee : Address) : Event :=
  e.publish [.symbol "EmployeeRemoved", .u64 companyId, .address employee] .void

def emitRegistryCommitmentUpdated (e : Env) (companyId : Nat) (employee : Address)
    (newCommitment : BytesN 32) : Event :=
  e.publish [.symbol "CommitmentUpdated", .u64 companyId, .address employee]
    (.tuple [.bytes newCommitment])

def emitRegistryPauseManagerSet (e : Env) (pauseManager : Address) : Event :=
  e.publish [.symbol "RegistryPauseMgrSet"] (.tuple [.address pauseManager])

def emitCompanyAdminProposed (e : Env) (companyId : Nat) (currentAdmin newAdmin : Address) : Event :=
  e.publish [.symbol "CompanyAdminProposed", .u64 companyId, .address currentAdmin]
    (.tuple [.address newAdmin])

def emitCompanyAdminRotated (e : Env) (companyId : Nat) (oldAdmin newAdmin : Address) : Event :=
  e.publish [.symbol "CompanyAdminRotated", .u64 companyId, .address oldAdmin]
    (.tuple [.address newAdmin])

def emitCompanyAdminRotationCancelled (e : Env) (companyId : Nat) (caller : Address) : Event :=
  e.publish [.symbol "CompanyAdminRotCancelled", .u64 companyId, .address caller] .void

-- ---------------------------------------------------------------------------
-- The commitment contract
-- ---------------------------------------------------------------------------

def emitCommitmentStored (e : Env) (employee : Address) (commitment : BytesN 32) : Event :=
  e.publish [.symbol "CommitmentUpdated", .address employee] (.tuple [.bytes commitment])

def emitCommitmentRotated (e : Env) (employee : Address) (oldCommitment newCommitment : BytesN 32) :
    Event :=
  e.publish [.symbol "CommitmentRotated", .address employee]
    (.tuple [.bytes oldCommitment, .bytes newCommitment])

def emitCommitmentLocked (e : Env) (employee : Address) : Event :=
  e.publish [.symbol "CommitmentLocked", .address employee] .void

def emitCommitmentUnlocked (e : Env) (employee : Address) : Event :=
  e.publish [.symbol "CommitmentUnlocked", .address employee] .void

def emitReferenceIdSet (e : Env) (employee : Address) (referenceId : String) : Event :=
  e.publish [.symbol "ReferenceIdSet", .address employee] (.tuple [.string referenceId])

def emitNullifierRecorded (e : Env) (nullifier : BytesN 32) : Event :=
  e.publish [.symbol "NullifierRecorded"] (.tuple [.bytes nullifier])

def emitPayrollOperatorSet (e : Env) (operator : Address) : Event :=
  e.publish [.symbol "PayrollOperatorSet"] (.tuple [.address operator])

def emitPayrollOperatorRemoved (e : Env) (operator : Address) : Event :=
  e.publish [.symbol "PayrollOperatorRemoved"] (.tuple [.address operator])

def emitCommitmentAdminProposed (e : Env) (currentAdmin newAdmin : Address) : Event :=
  e.publish [.symbol "AdminRotationProposed", .address currentAdmin] (.tuple [.address newAdmin])

def emitCommitmentAdminAccepted (e : Env) (newAdmin : Address) : Event :=
  e.publish [.symbol "AdminRotationAccepted", .address newAdmin] .void

def emitCommitmentAdminCancelled (e : Env) (currentAdmin : Address) : Event :=
  e.publish [.symbol "AdminRotationCancelled", .address currentAdmin] .void

def emitCommitmentPauseManagerSet (e : Env) (pauseManager : Address) : Event :=
  e.publish [.symbol "CommitPauseMgrSet"] (.tuple [.address pauseManager])

-- ---------------------------------------------------------------------------
-- The executor
-- ---------------------------------------------------------------------------

def emitExecutorAdminSet (e : Env) (admin : Address) : Event :=
  e.publish [.symbol "ExecutorAdminSet"] (.tuple [.address admin])

def emitExecutorPauseManagerSet (e : Env) (pauseManager : Address) : Event :=
  e.publish [.symbol "ExecutorPauseMgrSet"] (.tuple [.address pauseManager])

def emitPeriodCreated (e : Env) (companyId periodId : Nat) : Event :=
  e.publish [.symbol "PeriodCreated", .u64 companyId] (.tuple [.u32 periodId])

def emitPeriodClosed (e : Env) (companyId periodId : Nat) : Event :=
  e.publish [.symbol "PeriodClosed", .u64 companyId] (.tuple [.u32 periodId])

def emitExecutorPaymentProcessed (e : Env) (companyId : Nat) (employee : Address) (amount : Int)
    (period : Nat) : Event :=
  e.publish [.symbol "PayrollProcessed", .u64 companyId]
    (.tuple [.address employee, .i128 amount, .u32 period])

end Events

end ZkPayroll
