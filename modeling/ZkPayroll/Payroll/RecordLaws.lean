import ZkPayroll.Payroll.Records
import ZkPayroll.Payroll.CheckLaws

/-!
# What the record-keeping entry points do

For each entry point, exactly when it succeeds and the storage it leaves. The
ones that only ask the named caller for its authorisation have
`admin ∈ e.auths` where the others have `AdminCalls`.
-/

namespace ZkPayroll.Payroll

open Host

section
variable {e : Env} {s s' : Storage}

-- ---------------------------------------------------------------------------
-- Run drafts
-- ---------------------------------------------------------------------------

def draftCount (s : Storage) : Nat := (s.get .runDraftCounter).getD 0

/-- The draft `create_run_draft` stores. -/
def newDraft (e : Env) (admin : Address) (totalAmount : Int) (employeeCount : Nat)
    (periodLabel : Symbol) (draftId : Nat) : PayrollRunDraft :=
  { draftId := draftId
    createdAt := e.timestamp
    admin := admin
    totalAmount := totalAmount
    employeeCount := employeeCount
    periodLabel := periodLabel
    state := .pending
    amendmentCount := 0 }

theorem createRunDraft_ok :
    createRunDraft e admin totalAmount employeeCount periodLabel s = .ok (draftId, s') ↔
      ¬ Paused e s ∧ periodLabel ≠ "" ∧ AdminCalls e s admin ∧ 0 < totalAmount ∧
        s.get (.activeDraftForPeriod periodLabel) = none ∧ draftCount s + 1 ≤ u64Max ∧
        draftId = draftCount s + 1 ∧
        s' = ((s.set .runDraftCounter (draftCount s + 1)).set (.runDraft (draftCount s + 1))
          (newDraft e admin totalAmount employeeCount periodLabel (draftCount s + 1))).set
            (.activeDraftForPeriod periodLabel) (draftCount s + 1) := by
  simp only [createRunDraft, bind_ok, requireNotPaused_ok, validateSymbolNotEmpty_ok,
    exists_requireAdmin, ensure_ok, Store.has_eq_false, addUpTo_ok, pure_ok, exists_const,
    exists_and_right, and_assoc, exists_and_left, exists_eq_left, Prod.mk.injEq, draftCount,
    newDraft]

theorem amendRunDraft_ok :
    amendRunDraft e admin draftId newTotalAmount newEmployeeCount s = .ok s' ↔
      ¬ Paused e s ∧ draftId ≠ 0 ∧ AdminCalls e s admin ∧
        ∃ draft, s.get (.runDraft draftId) = some draft ∧ draft.state = .pending ∧
          0 < newTotalAmount ∧ draft.amendmentCount + 1 ≤ u32Max ∧
          s' = s.set (.runDraft draftId)
            { draft with
              totalAmount := newTotalAmount
              employeeCount := newEmployeeCount
              amendmentCount := draft.amendmentCount + 1 } := by
  simp only [amendRunDraft, bind_ok, requireNotPaused_ok, validateDraftId_ok, exists_requireAdmin,
    expect_ok, ensure_ok, addUpTo_ok, pure_ok, exists_const, exists_and_right, and_assoc,
    exists_and_left, exists_eq_left]

theorem finalizeRunDraft_ok : finalizeRunDraft e admin draftId s = .ok s' ↔
    ¬ Paused e s ∧ AdminCalls e s admin ∧
      ∃ draft, s.get (.runDraft draftId) = some draft ∧ draft.state = .pending ∧
        s' = s.set (.runDraft draftId) { draft with state := .finalized } := by
  simp only [finalizeRunDraft, bind_ok, requireNotPaused_ok, exists_requireAdmin, expect_ok,
    ensure_ok, pure_ok, exists_const, exists_and_right]

theorem closeRunDraft_ok : closeRunDraft e admin draftId target s = .ok s' ↔
    ¬ Paused e s ∧ AdminCalls e s admin ∧
      ∃ draft, s.get (.runDraft draftId) = some draft ∧
        isAllowedDraftStateTransitionInternal draft.state target = true ∧
        s' = s.set (.runDraft draftId) { draft with state := target } := by
  simp only [closeRunDraft, bind_ok, requireNotPaused_ok, exists_requireAdmin, expect_ok,
    ensure_ok, pure_ok, exists_const, exists_and_right]

-- ---------------------------------------------------------------------------
-- Batch checkpoints
-- ---------------------------------------------------------------------------

/-- The checkpoint `begin_batch_execution_checkpoint` stores. -/
def CheckpointId.started (c : CheckpointId) (checkpointIndex : Nat) : BatchCheckpoint :=
  { employer := c.employer
    batchRoot := c.batchRoot
    asset := c.asset
    executionNonce := c.executionNonce
    state := .started
    lastCheckpointIndex := checkpointIndex
    totalCheckpoints := 1
    completed := false
    failed := false }

theorem beginBatchExecutionCheckpoint_ok :
    beginBatchExecutionCheckpoint e admin c checkpointIndex s = .ok s' ↔
      c.batchRoot ≠ BytesN.zero ∧ c.executionNonce ≠ BytesN.zero ∧ AdminCalls e s admin ∧
        s.get c.key = none ∧ s' = s.set c.key (c.started checkpointIndex) := by
  simp only [beginBatchExecutionCheckpoint, bind_ok, validateNonZeroDigest_ok, exists_requireAdmin,
    ensure_ok, Store.has_eq_false, pure_ok, exists_const, exists_and_right, CheckpointId.started]

theorem recordBatchCheckpointProgress_ok :
    recordBatchCheckpointProgress e admin c checkpointIndex state s = .ok s' ↔
      AdminCalls e s admin ∧ ∃ checkpoint : BatchCheckpoint, s.get c.key = some checkpoint ∧
        checkpoint.Describes c ∧
        ¬ (checkpoint.completed = true ∨ checkpoint.failed = true ∨
          checkpointIndex < checkpoint.lastCheckpointIndex ∨ state = .started ∨
          state = .resumed) ∧
        checkpoint.totalCheckpoints + 1 ≤ u32Max ∧
        s' = s.set c.key
          { checkpoint with
            lastCheckpointIndex := checkpointIndex
            state := state
            totalCheckpoints := checkpoint.totalCheckpoints + 1
            completed := decide (state = .completed)
            failed := decide (state = .failed) } := by
  simp only [recordBatchCheckpointProgress, bind_ok, exists_requireAdmin, expect_ok, ensure_ok,
    pure_ok, exists_const, exists_and_right]

theorem resumeBatchExecution_ok :
    resumeBatchExecution e admin c checkpointIndex s = .ok s' ↔
      c.batchRoot ≠ BytesN.zero ∧ c.executionNonce ≠ BytesN.zero ∧ AdminCalls e s admin ∧
        ∃ checkpoint : BatchCheckpoint, s.get c.key = some checkpoint ∧
          (checkpoint.Describes c ∧ checkpointIndex = checkpoint.lastCheckpointIndex ∧
            ¬ (checkpoint.state = .resumed ∨ checkpoint.state = .completed ∨
              checkpoint.state = .failed) ∧
            checkpoint.completed = false ∧ checkpoint.failed = false) ∧
          s' = s.set c.key
            { checkpoint with state := .resumed, lastCheckpointIndex := checkpointIndex } := by
  simp only [resumeBatchExecution, bind_ok, validateNonZeroDigest_ok, exists_requireAdmin,
    expect_ok, ensure_ok, pure_ok, exists_const, exists_and_right]

-- ---------------------------------------------------------------------------
-- Evidence pointers and quorum approvals
-- ---------------------------------------------------------------------------

def newPointer (e : Env) (admin : Address) (contentHash : BytesN 32) (scope : EvidencePointerScope)
    (target : Address) (metadataHash : Option (BytesN 32)) : ComplianceEvidencePointer :=
  { pointerId := generatePointerId e contentHash
    contentHash := contentHash
    scope := scope
    target := target
    createdAt := e.timestamp
    createdBy := admin
    metadataHash := metadataHash.getD BytesN.zero }

theorem createEvidencePointer_ok :
    createEvidencePointer e admin contentHash scope target metadataHash s = .ok (pointerId, s') ↔
      ¬ Paused e s ∧ admin ∈ e.auths ∧ contentHash ≠ BytesN.zero ∧
        s.get (.evidencePointerIndex contentHash) = none ∧
        s.get (.evidencePointer (generatePointerId e contentHash)) = none ∧
        pointerId = generatePointerId e contentHash ∧
        s' = (s.set (.evidencePointer (generatePointerId e contentHash))
          (newPointer e admin contentHash scope target metadataHash)).set
            (.evidencePointerIndex contentHash) (generatePointerId e contentHash) := by
  simp only [createEvidencePointer, bind_ok, requireNotPaused_ok, requireAuth_ok, ensure_ok,
    Store.has_eq_false, pure_ok, exists_const, Prod.mk.injEq, newPointer]

theorem requireSigners_ok :
    requireSigners e signers = .ok u ↔ ∀ signer ∈ signers, signer ∈ e.auths := by
  induction signers with
  | nil => simp [requireSigners, pure_ok]
  | cons signer rest ih =>
    simp only [requireSigners, bind_ok, requireAuth_ok, exists_const, ih, List.forall_mem_cons]

theorem verifyAndConsumeQuorum_ok :
    verifyAndConsumeQuorum e payload signers requiredQuorum s = .ok (quorumHash, s') ↔
      ¬ Paused e s ∧ requiredQuorum ≤ signers.length ∧ (∀ signer ∈ signers, signer ∈ e.auths) ∧
        (∃ addrs, s.get .addresses = some addrs ∧ payload.employer = addrs.admin ∧
          payload.asset = addrs.token) ∧
        s.get (.consumedQuorum (hashQuorumPayload e payload)) = none ∧
        quorumHash = hashQuorumPayload e payload ∧
        s' = s.set (.consumedQuorum (hashQuorumPayload e payload)) e.timestamp := by
  simp only [verifyAndConsumeQuorum, bind_ok, requireNotPaused_ok, ensure_ok, requireSigners_ok,
    getAddresses_ok, isQuorumConsumed, Store.has_eq_false, pure_ok, exists_const, not_lt,
    Prod.mk.injEq]
  refine and_congr_right fun _ => and_congr_right fun _ => and_congr_right fun _ => ?_
  constructor
  · rintro ⟨addrs, hstored, hemployer, hasset, hfree, rfl, rfl⟩
    exact ⟨⟨addrs, hstored, hemployer, hasset⟩, hfree, rfl, rfl⟩
  · rintro ⟨⟨addrs, hstored, hemployer, hasset⟩, hfree, rfl, rfl⟩
    exact ⟨addrs, hstored, hemployer, hasset, hfree, rfl, rfl⟩

-- ---------------------------------------------------------------------------
-- Archives, challenges and splits
-- ---------------------------------------------------------------------------

theorem archivePayrollRun_ok : archivePayrollRun e admin runId s = .ok s' ↔
    runId ≠ u64Max ∧ AdminCalls e s admin ∧ (∃ run, s.get (.payrollRun runId) = some run) ∧
      s.get (.challengedRun runId) = none ∧ s.get (.archivedRun runId) = none ∧
      s' = s.set (.archivedRun runId) true := by
  simp only [archivePayrollRun, bind_ok, validateRunId_ok, exists_requireAdmin, ensure_ok,
    Store.has_eq_true, Store.has_eq_false, pure_ok, exists_const, exists_and_right]

theorem flagRunChallenged_ok : flagRunChallenged e admin runId s = .ok s' ↔
    AdminCalls e s admin ∧ s' = s.set (.challengedRun runId) true := by
  simp only [flagRunChallenged, bind_ok, exists_requireAdmin, pure_ok, exists_and_right]

theorem clearRunChallenge_ok : clearRunChallenge e admin runId s = .ok s' ↔
    AdminCalls e s admin ∧ s' = s.remove (.challengedRun runId) := by
  simp only [clearRunChallenge, bind_ok, exists_requireAdmin, pure_ok, exists_and_right]

theorem archivePayrollRunWithReason_ok :
    archivePayrollRunWithReason e admin runId archiveReason s = .ok s' ↔
      admin ∈ e.auths ∧ (∃ run, s.get (.payrollRun runId) = some run) ∧
        s.get (.archiveMarker runId) = none ∧
        s' = s.set (.archiveMarker runId) ⟨runId, e.timestamp, admin, archiveReason⟩ := by
  simp only [archivePayrollRunWithReason, bind_ok, requireAuth_ok, expect_ok, ensure_ok,
    Store.has_eq_false, pure_ok, exists_const, exists_and_right]

def BatchSplit.Balanced (b : BatchSplit) : Prop :=
  0 < b.childTotal ∧ 0 < b.parentTotal ∧ b.childTotal ≤ b.parentTotal ∧
    b.childEmployeeCount ≤ b.parentEmployeeCount

instance (b : BatchSplit) : Decidable b.Balanced := inferInstanceAs (Decidable (_ ∧ _))

theorem recordBatchSplit_ok : recordBatchSplit e admin b s = .ok s' ↔
    admin ∈ e.auths ∧ b.Balanced ∧
      s' = s.set (.batchSplitRecord b.parentRunId b.childRunId) (b.record e admin) := by
  simp only [recordBatchSplit, bind_ok, requireAuth_ok, ensure_ok, pure_ok, exists_const, not_or,
    not_le, not_lt, and_assoc, BatchSplit.Balanced]

-- ---------------------------------------------------------------------------
-- Compliance holds and reservation expiry
-- ---------------------------------------------------------------------------

def holdCount (s : Storage) : Nat := (s.get .complianceHoldCounter).getD 0

/-- The hold `place_compliance_hold` stores. -/
def newHold (e : Env) (admin : Address) (scope : ComplianceHoldScope) (target : Address)
    (reasonCode : Symbol) (holdId : Nat) : ComplianceHold :=
  { holdId := holdId
    scope := scope
    target := target
    reasonCode := reasonCode
    placedAt := e.timestamp
    placedBy := admin
    isActive := true }

theorem placeComplianceHold_ok :
    placeComplianceHold e admin scope target reasonCode s = .ok (holdId, s') ↔
      admin ∈ e.auths ∧ holdCount s + 1 ≤ u64Max ∧ holdId = holdCount s + 1 ∧
        s' = (s.set (.complianceHold (holdCount s + 1))
          (newHold e admin scope target reasonCode (holdCount s + 1))).set
            .complianceHoldCounter (holdCount s + 1) := by
  simp only [placeComplianceHold, bind_ok, requireAuth_ok, addUpTo_ok, pure_ok, exists_const,
    and_assoc, exists_and_left, exists_eq_left, Prod.mk.injEq, holdCount, newHold]

theorem releaseComplianceHold_ok : releaseComplianceHold e admin holdId s = .ok s' ↔
    admin ∈ e.auths ∧ ∃ hold, s.get (.complianceHold holdId) = some hold ∧ hold.isActive = true ∧
      s' = s.set (.complianceHold holdId) { hold with isActive := false } := by
  simp only [releaseComplianceHold, bind_ok, requireAuth_ok, expect_ok, ensure_ok, pure_ok,
    exists_const]

def newReservation (e : Env) (asset : Address) (reservedAmount : Int) (expiryLedgerOffset : Nat) :
    ReservationExpiry :=
  ⟨asset, reservedAmount, e.timestamp + expiryLedgerOffset, e.timestamp⟩

theorem setReservationExpiryPolicy_ok :
    setReservationExpiryPolicy e admin asset reservedAmount expiryLedgerOffset s = .ok s' ↔
      admin ∈ e.auths ∧ e.timestamp + expiryLedgerOffset ≤ u64Max ∧
        s' = s.set (.reservationExpiry asset)
          (newReservation e asset reservedAmount expiryLedgerOffset) := by
  simp only [setReservationExpiryPolicy, bind_ok, requireAuth_ok, addUpTo_ok, pure_ok,
    exists_const, and_assoc, exists_and_left, exists_eq_left, newReservation]

theorem releaseExpiredReservation_ok : releaseExpiredReservation e asset s = .ok s' ↔
    (∃ expiry, s.get (.reservationExpiry asset) = some expiry ∧ expiry.expiresAt < e.timestamp) ∧
      s' = s.remove (.reservationExpiry asset) := by
  simp only [releaseExpiredReservation, bind_ok, expect_ok, ensure_ok, pure_ok, exists_const,
    not_le, ← and_assoc, exists_and_right]

end

end ZkPayroll.Payroll
