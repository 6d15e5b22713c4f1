import ZkPayroll.Events
import ZkPayroll.Payroll.Steps

/-!
# What the payroll contract publishes

The events of each call that goes through, in the order of the source. Some
are published through `contracts/events` and some by the contract itself;
changes of the allowlist, reservation policies and queries publish nothing.

The token and the commitment contract that a call reaches have logs of their
own.
-/

namespace ZkPayroll.Payroll

open Host Events

-- ---------------------------------------------------------------------------
-- Values
-- ---------------------------------------------------------------------------

/-- The discriminant, which is how the host passes the state on. -/
def PayrollRunState.code : PayrollRunState → Nat
  | .draft => 0
  | .validating => 1
  | .proofPending => 2
  | .readyToSubmit => 3
  | .submitted => 4
  | .confirming => 5
  | .completed => 6
  | .failed => 7
  | .cancelled => 8
  | .reconciliationRequired => 9

def BatchCheckpointState.code : BatchCheckpointState → Nat
  | .started => 0
  | .partiallyCheckpointed => 1
  | .resumed => 2
  | .completed => 3
  | .failed => 4

def EvidencePointerScope.code : EvidencePointerScope → Nat
  | .employer => 0
  | .period => 1
  | .reviewCase => 2

/-- The source declares no discriminants here, so the host passes the name. -/
def ReconciliationStatus.variantName : ReconciliationStatus → Symbol
  | .unreconciled => "Unreconciled"
  | .reconciled => "Reconciled"
  | .failed => "Failed"

def CompanyState.variantName : CompanyState → Symbol
  | .active => "Active"
  | .paused => "Paused"
  | .archived => "Archived"
  | .incomplete => "Incomplete"

def ComplianceHoldScope.eventName : ComplianceHoldScope → Symbol
  | .batch => "batch"
  | .employee => "employee"
  | .employer => "employer"

-- ---------------------------------------------------------------------------
-- Events of the contract's own
-- ---------------------------------------------------------------------------

def publishTuple (e : Env) (name : Symbol) (values : List Value) : Event :=
  e.publish [payrollTopic, .symbol name] (.tuple values)

def publishValue (e : Env) (name : Symbol) (value : Value) : Event :=
  e.publish [payrollTopic, .symbol name] (.value value)

def runStateRecorded (e : Env) (runId : Nat) (state : PayrollRunState) : Event :=
  publishTuple e "run_state" [.u64 runId, .u32 state.code]

def pointerCreated (e : Env) (admin : Address) (contentHash : BytesN 32)
    (scope : EvidencePointerScope) (target : Address) : Event :=
  publishTuple e "evidence_pointer_created"
    [.bytes (generatePointerId e contentHash), .bytes contentHash, .u32 scope.code, .address target,
      .address admin]

def batchSplitRecorded (e : Env) (b : BatchSplit) : Event :=
  e.publish [.symbol "BatchSplitRecorded", .u64 b.parentRunId]
    (.tuple [.u64 b.childRunId, .i128 b.childTotal, .u64 e.timestamp])

def lockedFundsMoved (e : Env) (s : Storage) (asset : Address) (change : Int) : Event :=
  emitLockedFundsUpdated e asset (getLockedFunds s asset + change)

-- ---------------------------------------------------------------------------
-- Events of a call
-- ---------------------------------------------------------------------------

def preparedEvents (e : Env) (s : Storage) (b : Batch) : List Event :=
  match s.get .addresses with
  | some addrs =>
    [runStateRecorded e (runCount s + 1) .submitted,
      lockedFundsMoved e s addrs.token b.expectedTotalSpend,
      emitRunPrepared e (runCount s + 1) b.expectedTotalSpend]
  | none => []

def resolvedEvents (e : Env) (s : Storage) (runId : Nat) (state : PayrollRunState)
    (last : PendingPayrollRun → Event) : List Event :=
  match s.get .addresses, s.get (.pendingRun runId) with
  | some addrs, some pendingRun =>
    [lockedFundsMoved e s addrs.token (-pendingRun.totalAmount), runStateRecorded e runId state,
      last pendingRun]
  | _, _ => []

def finalizedEvents (e : Env) (s : Storage) (runId : Nat) : List Event :=
  resolvedEvents e s runId .reconciliationRequired fun pendingRun =>
    publishTuple e "run_finalized" [.u64 runId, .i128 pendingRun.totalAmount]

def cancelledEvents (e : Env) (s : Storage) (runId : Nat) (reason : Symbol) : List Event :=
  resolvedEvents e s runId .cancelled fun _ =>
    publishTuple e "run_cancelled" [.u64 runId, .symbol reason]

def executedEvents (e : Env) (s : Storage) (b : Batch) : List Event :=
  b.payments.map (fun p => emitPaymentExecuted e p.2.2 p.2.1) ++
    [runStateRecorded e (runCount s + 1) .reconciliationRequired,
      emitRunExecuted e (runCount s + 1) b.expectedTotalSpend]

def amendedEvents (e : Env) (s : Storage) (draftId : Nat) (newTotalAmount : Int)
    (newEmployeeCount : Nat) : List Event :=
  match s.get (.runDraft draftId) with
  | some draft =>
    [emitDraftAmended e draftId newTotalAmount (draft.amendmentCount + 1),
      emitDraftUpdated e draftId draft.periodLabel newTotalAmount newEmployeeCount
        (draft.amendmentCount + 1)]
  | none => []

def Call.events (e : Env) (s : Storage) : Call → List Event
  | .initializePayroll a =>
    [emitPayrollInitialized e a.admin a.token a.verifier a.commitment a.treasury a.treasuryOwner]
  | .setStorageVersion admin version _ =>
    [publishTuple e "storage_version_set" [.u32 version, .address admin]]
  | .setPauseManager pauseManager => [emitPauseManagerSet e pauseManager]
  | .setAssetAllowed .. => []
  | .setCompanyState _ state => [publishValue e "state_changed" (.variant state.variantName)]
  | .proposeAdminRotation currentAdmin newAdmin => [emitAdminProposed e currentAdmin newAdmin]
  | .acceptAdminRotation newAdmin =>
    ((s.get .addresses).map fun addrs => emitAdminRotated e addrs.admin newAdmin).toList
  | .cancelAdminRotation currentAdmin => [emitAdminRotationCancelled e currentAdmin]
  | .proposeTreasuryRotation currentOwner newOwner => [emitTreasuryProposed e currentOwner newOwner]
  | .acceptTreasuryRotation newOwner =>
    ((s.get .treasuryOwner).map fun owner => emitTreasuryRotated e owner newOwner).toList
  | .cancelTreasuryRotation currentOwner => [emitTreasuryRotationCancelled e currentOwner]
  | .requestAdminHandover currentAdmin pendingAdmin =>
    [emitAdminHandoverRequested e currentAdmin pendingAdmin]
  | .acceptAdminHandover pendingAdmin =>
    ((s.get .addresses).map fun addrs => emitAdminHandoverAccepted e addrs.admin pendingAdmin).toList
  | .cancelAdminHandover currentAdmin => [emitAdminHandoverCancelled e currentAdmin]
  | .addReviewer _ reviewer => [emitReviewerAdded e reviewer]
  | .removeReviewer _ reviewer => [emitReviewerRemoved e reviewer]
  | .approvePayrollRun reviewer runId => [emitRunApproved e runId reviewer]
  | .rejectPayrollRun reviewer runId reason => [emitRunRejected e runId reviewer reason]
  | .requestChangesPayrollRun reviewer runId reason =>
    [emitRunChangesRequested e runId reviewer reason]
  | .transitionPayrollRunState _ runId nextState => [runStateRecorded e runId nextState]
  | .updateReconciliationStatus _ runId status =>
    [runStateRecorded e runId (reconciledState status),
      publishTuple e "reconciliation_updated" [.u64 runId, .variant status.variantName]]
  | .commitDraft _ draftHash => [emitDraftCommitted e draftHash]
  | .commitMetadataHash _ metadataHash => [emitMetadataCommitted e metadataHash]
  | .setRunMetadata _ runId metadataHash => [emitMetadataBound e runId metadataHash]
  | .preparePayrollRun b => preparedEvents e s b
  | .finalizePayrollRun _ runId => finalizedEvents e s runId
  | .cancelPayrollRunWithReason _ runId reason => cancelledEvents e s runId reason
  | .cancelPayrollRun _ runId reason => cancelledEvents e s runId reason
  | .batchProcessPayroll b => executedEvents e s b
  | .deposit depositor amount depositId =>
    [publishTuple e "deposit"
      [.address depositor, .i128 amount, .bytes depositId,
        .i128 ((s.get (.companyBalance depositor)).getD 0 + amount)]]
  | .requestEmergencyWithdrawal _ amount recipient => [emitEmergencyRequested e amount recipient]
  | .approveEmergencyWithdrawal _ =>
    ((s.get .emergencyRequest).map fun request =>
      emitEmergencyApproved e request.amount request.recipient).toList
  | .cancelEmergencyWithdrawal caller => [emitEmergencyCancelled e caller]
  | .addLockedFunds asset amount => [lockedFundsMoved e s asset amount]
  | .subtractLockedFunds asset amount => [lockedFundsMoved e s asset (-amount)]
  | .createRunDraft admin _ _ periodLabel => [emitDraftCreated e (draftCount s + 1) admin periodLabel]
  | .amendRunDraft _ draftId newTotalAmount newEmployeeCount =>
    amendedEvents e s draftId newTotalAmount newEmployeeCount
  | .finalizeRunDraft _ draftId =>
    ((s.get (.runDraft draftId)).map fun draft =>
      emitDraftFinalized e draftId draft.totalAmount draft.amendmentCount).toList
  | .submitRunDraft admin draftId => [emitDraftSubmitted e draftId admin]
  | .cancelRunDraft admin draftId => [emitDraftCancelled e draftId admin]
  | .expireRunDraft admin draftId => [emitDraftExpired e draftId admin]
  | .beginBatchExecutionCheckpoint _ c checkpointIndex =>
    [emitBatchCheckpointStarted e c.employer c.batchRoot c.asset c.executionNonce checkpointIndex]
  | .recordBatchCheckpointProgress _ c checkpointIndex state =>
    [emitBatchCheckpointUpdated e c.employer c.batchRoot c.asset c.executionNonce checkpointIndex
      state.code]
  | .resumeBatchExecution _ c checkpointIndex =>
    [emitBatchCheckpointResumed e c.employer c.batchRoot c.asset c.executionNonce checkpointIndex]
  | .createEvidencePointer admin contentHash scope target _ =>
    [pointerCreated e admin contentHash scope target]
  | .verifyAndConsumeQuorum payload _ _ =>
    [emitQuorumConsumed e payload.batchRoot payload.employer payload.nonce]
  | .archivePayrollRun _ runId => [publishValue e "run_archived" (.u64 runId)]
  | .flagRunChallenged _ runId => [publishValue e "run_challenged" (.u64 runId)]
  | .clearRunChallenge _ runId => [publishValue e "run_challenge_cleared" (.u64 runId)]
  | .archivePayrollRunWithReason admin runId archiveReason =>
    [emitPayrollRunArchived e runId admin archiveReason]
  | .recordBatchSplit _ b => [batchSplitRecorded e b]
  | .placeComplianceHold admin scope target reasonCode =>
    [emitComplianceHoldPlaced e (holdCount s + 1) scope.eventName target reasonCode admin]
  | .releaseComplianceHold admin holdId => [emitComplianceHoldReleased e holdId admin]
  | .setReservationExpiryPolicy .. => []
  | .releaseExpiredReservation asset =>
    ((s.get (.reservationExpiry asset)).map fun expiry =>
      emitReservationExpiryReleased e asset expiry.reservedAmount).toList
  | .query _ => []

/-- The events of a transaction of the system, of which only the contract's
own calls have any here. -/
def published (w : World) (i : Input) : List Event :=
  match i.message, deliver i.env i.message w with
  | .payroll call, .ok _ => call.events i.env w.payroll
  | _, _ => []

theorem published_executes (h : Executes i w call ret w') :
    published w i = call.events i.env w.payroll := by
  have hd := h.deliver
  rw [h.1] at hd
  simp [published, h.1, hd]

theorem published_unperformed (h : performed ⟨w, i, post⟩ = none) : published w i = [] := by
  unfold performed at h
  unfold published
  split at h
  · simp at h
  · rename_i hno
    split
    · rename_i hm hd
      exact absurd hd (hno _ _ _ hm)
    · rfl

end ZkPayroll.Payroll
