import ZkPayroll.Payroll.Runs
import ZkPayroll.Payroll.CheckLaws

/-!
# What the run entry points do

For each entry point, exactly when it succeeds and the storage it leaves. The
storages left by the larger ones have names (`claimRunId`, `prepared`,
`finalized`, `cancelled`), so that a proof about one of their entries does
not carry the whole chain of writes.
-/

namespace ZkPayroll.Payroll

open Host

section
variable {e : Env} {s s' : Storage}

-- ---------------------------------------------------------------------------
-- The canonical state machine
-- ---------------------------------------------------------------------------

theorem getPayrollRunStateInternal_recorded (h : s.get (.payrollState runId) = some state) :
    getPayrollRunStateInternal s runId = .ok state := by
  simp only [getPayrollRunStateInternal, h]
  rfl

theorem transitionPayrollRunState_ok :
    transitionPayrollRunState e admin runId nextState s = .ok s' ↔
      ¬ Paused e s ∧ AdminCalls e s admin ∧
        ∃ current, getPayrollRunStateInternal s runId = .ok current ∧
          isAllowedPayrollStateTransitionInternal current nextState = true ∧
          s' = s.set (.payrollState runId) nextState := by
  simp only [transitionPayrollRunState, bind_ok, requireNotPaused_ok, exists_requireAdmin,
    ensure_ok, pure_ok, exists_const, exists_and_right, recordPayrollRunState]

theorem updateReconciliationStatus_ok :
    updateReconciliationStatus e admin runId status s = .ok s' ↔
      ¬ Paused e s ∧ AdminCalls e s admin ∧
        ∃ run, s.get (.payrollRun runId) = some run ∧
        ∃ current, getPayrollRunStateInternal s runId = .ok current ∧ current ≠ .completed ∧
          ¬ (current ≠ reconciledState status ∧
            isAllowedPayrollStateTransitionInternal current (reconciledState status) = false) ∧
          s' = (s.set (.payrollRun runId) { run with reconciliationStatus := status }).set
            (.payrollState runId) (reconciledState status) := by
  simp only [updateReconciliationStatus, bind_ok, requireNotPaused_ok, exists_requireAdmin,
    expect_ok, ensure_ok, pure_ok, exists_const, exists_and_right, recordPayrollRunState]

-- ---------------------------------------------------------------------------
-- Hashes committed ahead of a run
-- ---------------------------------------------------------------------------

theorem commitHash_ok : commitHash e admin digest taken s = .ok s' ↔
    ¬ Paused e s ∧ digest ≠ BytesN.zero ∧ AdminCalls e s admin ∧
      s.get (.draftCommitment digest) = none ∧ s' = s.set (.draftCommitment digest) true := by
  simp only [commitHash, bind_ok, requireNotPaused_ok, validateNonZeroDigest_ok,
    exists_requireAdmin, ensure_ok, Store.has_eq_false, pure_ok, exists_const, exists_and_right]

theorem setRunMetadata_ok : setRunMetadata e admin runId metadataHash s = .ok s' ↔
    ¬ Paused e s ∧ runId ≠ u64Max ∧ metadataHash ≠ BytesN.zero ∧ AdminCalls e s admin ∧
      (∃ v, s.get (.draftCommitment metadataHash) = some v) ∧
      ∃ run, s.get (.payrollRun runId) = some run ∧
        s' = (s.remove (.draftCommitment metadataHash)).set (.payrollRun runId)
          { run with metadataHash := metadataHash } := by
  simp only [setRunMetadata, bind_ok, requireNotPaused_ok, validateRunId_ok,
    validateNonZeroDigest_ok, exists_requireAdmin, ensure_ok, Store.has_eq_true, expect_ok,
    pure_ok, exists_const, exists_and_right, ne_eq, reduceCtorEq, not_false_eq_true,
    Store.get_remove_ne]

-- ---------------------------------------------------------------------------
-- Batches
-- ---------------------------------------------------------------------------

def Batch.ShapeOk (b : Batch) : Prop :=
  b.amounts.length = b.proofs.length ∧ b.employees.length = b.proofs.length ∧
    b.proofs.length ≠ 0 ∧ b.proofs.length ≤ maxBatch

theorem Batch.validateShape_ok {b : Batch} : b.validateShape = .ok u ↔ b.ShapeOk := by
  simp only [Batch.validateShape, Batch.ShapeOk, bind_ok, ensure_ok, exists_const, not_or,
    ne_eq, not_not, and_assoc]

def Batch.PaymentsOk (b : Batch) : Prop :=
  b.employees.Nodup ∧ (∀ amount ∈ b.amounts, 0 < amount) ∧ b.amounts.sum ≤ i128Max ∧
    b.amounts.sum = b.expectedTotalSpend

theorem Batch.validatePayments_ok {b : Batch} : b.validatePayments = .ok u ↔ b.PaymentsOk := by
  have hmax : (0 : Int) ≤ i128Max := by decide
  simp only [Batch.validatePayments, Batch.PaymentsOk, bind_ok, validateNoDuplicateEmployees_ok,
    sumAmounts_ok le_rfl hmax, validateExpectedSpend_ok, exists_const, zero_add, and_assoc,
    exists_and_left, exists_eq_left]

theorem Batch.spend_pos {b : Batch} (hshape : b.ShapeOk) (hpay : b.PaymentsOk) :
    0 < b.expectedTotalSpend := by
  obtain ⟨hlen, -, hne, -⟩ := hshape
  obtain ⟨-, hpos, -, hsum⟩ := hpay
  rw [← hsum]
  exact List.sum_pos _ hpos fun hnil => hne (by rw [← hlen, hnil]; rfl)

/-- A supplied draft hash is pre-committed. -/
def DraftCommitted (draftHash : Option (BytesN 32)) (s : Storage) : Prop :=
  ∀ dh, draftHash = some dh → ∃ v, s.get (.draftCommitment dh) = some v

theorem requireDraftCommitment_ok :
    requireDraftCommitment draftHash s = .ok u ↔ DraftCommitted draftHash s := by
  unfold DraftCommitted
  cases draftHash <;> simp [requireDraftCommitment, ensure_ok, pure_ok]

-- ---------------------------------------------------------------------------
-- Prepared runs
-- ---------------------------------------------------------------------------

/-- The next run id is taken for the nonce, and counted. -/
def claimRunId (e : Env) (admin : Address) (nonce : BytesN 32) (s : Storage) : Storage :=
  ((s.set .runCounter (runCount s + 1)).set (.runNonce nonce) (runCount s + 1)).set
    (.employerNonceSequence admin) ⟨nonceSequenceLength s admin + 1, e.timestamp, nonce⟩

/-- What the next run of either kind needs. -/
def ClaimOk (admin : Address) (s : Storage) : Prop :=
  runCount s + 1 ≤ u64Max ∧ nonceSequenceLength s admin + 1 ≤ u64Max

theorem nonceSequenceLength_claim (runId : Nat) :
    nonceSequenceLength ((s.set .runCounter runId).set (.runNonce nonce) runId) admin =
      nonceSequenceLength s admin := by
  simp [nonceSequenceLength]

def Batch.pendingRun (b : Batch) (e : Env) (admin : Address) (runId : Nat) : PendingPayrollRun :=
  { runId := runId
    preparedAt := e.timestamp
    admin := admin
    totalAmount := b.expectedTotalSpend
    employeeCount := b.proofs.length
    draftHash := b.resolvedDraftHash
    nonce := b.nonce }

def prepared (e : Env) (addrs : ContractAddresses) (b : Batch) (s : Storage) : Storage :=
  ((((claimRunId e addrs.admin b.nonce s).set (.pendingRun (runCount s + 1))
    (b.pendingRun e addrs.admin (runCount s + 1))).set (.payrollState (runCount s + 1)) .submitted).set
      .pendingRunCount (pendingPayrollRunCount s + 1)).set (.lockedPayrollFunds addrs.token)
        (getLockedFunds s addrs.token + b.expectedTotalSpend)

theorem preparePayrollRun_ok : preparePayrollRun e b s = .ok (runId, s') ↔
    CompanyActive s ∧ VersionSupported s ∧ b.ShapeOk ∧ s.get (.runNonce b.nonce) = none ∧
      DraftCommitted b.draftHash s ∧ b.PaymentsOk ∧
      ∃ addrs, s.get .addresses = some addrs ∧ NonceAccepted s addrs.admin b.nonce ∧
        addrs.admin ∈ e.auths ∧ isAssetAllowed s addrs.token = true ∧ ClaimOk addrs.admin s ∧
        pendingPayrollRunCount s + 1 ≤ u32Max ∧
        InI128 (getLockedFunds s addrs.token + b.expectedTotalSpend) ∧
        runId = runCount s + 1 ∧ s' = prepared e addrs b s := by
  simp only [preparePayrollRun, bind_ok, requireCompanyActive_ok,
    validateStorageVersionForOperation_ok, Batch.validateShape_ok, ensure_ok, Store.has_eq_false,
    requireDraftCommitment_ok, Batch.validatePayments_ok, getAddresses_ok,
    validateNonceMonotonicity_ok, requireAuth_ok, deriveRunId_ok, updateNonceSequence_ok,
    nonceSequenceLength_claim, recordPayrollRunState, addUpTo_ok, addLockedFunds_ok, pure_ok,
    exists_const, and_assoc, exists_and_left, exists_eq_left, Prod.mk.injEq, ClaimOk]
  simp only [prepared, claimRunId, Batch.pendingRun, pendingPayrollRunCount, getLockedFunds, ne_eq,
    reduceCtorEq, not_false_eq_true, Store.get_set_ne]

/-- The guards of `prepare_payroll_run`. -/
def CanPrepare (e : Env) (b : Batch) (s : Storage) : Prop :=
  CompanyActive s ∧ VersionSupported s ∧ b.ShapeOk ∧ s.get (.runNonce b.nonce) = none ∧
    DraftCommitted b.draftHash s ∧ b.PaymentsOk ∧
    ∃ addrs, s.get .addresses = some addrs ∧ NonceAccepted s addrs.admin b.nonce ∧
      addrs.admin ∈ e.auths ∧ isAssetAllowed s addrs.token = true ∧ ClaimOk addrs.admin s ∧
      pendingPayrollRunCount s + 1 ≤ u32Max ∧
      InI128 (getLockedFunds s addrs.token + b.expectedTotalSpend)

theorem canPrepare_iff :
    CanPrepare e b s ↔ ∃ runId s', preparePayrollRun e b s = .ok (runId, s') := by
  simp only [preparePayrollRun_ok, CanPrepare]
  constructor
  · rintro ⟨hactive, hversion, hshape, hfresh, hdraft, hpay, addrs, haddrs, hnonce, hauth, hallowed,
      hclaim, hcount, hfits⟩
    exact ⟨_, _, hactive, hversion, hshape, hfresh, hdraft, hpay, addrs, haddrs, hnonce, hauth,
      hallowed, hclaim, hcount, hfits, rfl, rfl⟩
  · rintro ⟨_, _, hactive, hversion, hshape, hfresh, hdraft, hpay, addrs, haddrs, hnonce, hauth,
      hallowed, hclaim, hcount, hfits, -, -⟩
    exact ⟨hactive, hversion, hshape, hfresh, hdraft, hpay, addrs, haddrs, hnonce, hauth, hallowed,
      hclaim, hcount, hfits⟩

theorem validateApprovalNotExpired_ok : validateApprovalNotExpired e s runId maxAge = .ok u ↔
    isPayrollApprovalExpired e s runId maxAge = false := ensure_ok

def PendingPayrollRun.executed (p : PendingPayrollRun) (e : Env) (admin : Address) (runId : Nat) :
    PayrollRun :=
  { runId := runId
    executedAt := e.timestamp
    admin := admin
    totalAmount := p.totalAmount
    employeeCount := p.employeeCount
    draftHash := p.draftHash
    nonce := p.nonce
    reconciliationStatus := .unreconciled
    metadataHash := BytesN.zero }

def finalized (e : Env) (addrs : ContractAddresses) (runId : Nat) (p : PendingPayrollRun)
    (s : Storage) : Storage :=
  ((((s.set (.lockedPayrollFunds addrs.token) (getLockedFunds s addrs.token - p.totalAmount)).remove
    (.pendingRun runId)).set (.payrollState runId) .reconciliationRequired).set
      .pendingRunCount (pendingPayrollRunCount s - 1)).set (.payrollRun runId)
        (p.executed e addrs.admin runId)

theorem finalizePayrollRun_ok : finalizePayrollRun e admin runId s = .ok s' ↔
    ¬ Paused e s ∧ runId ≠ u64Max ∧
      ∃ addrs, s.get .addresses = some addrs ∧ admin = addrs.admin ∧ admin ∈ e.auths ∧
      ∃ p, s.get (.pendingRun runId) = some p ∧
        isPayrollApprovalExpired e s runId defaultApprovalExpirySeconds = false ∧
        s.get (.payrollRun runId) = none ∧
        InI128 (getLockedFunds s addrs.token - p.totalAmount) ∧
        s' = finalized e addrs runId p s := by
  simp only [finalizePayrollRun, bind_ok, requireNotPaused_ok, validateRunId_ok, requireAdmin_ok,
    expect_ok, validateApprovalNotExpired_ok, ensure_ok, Store.has_eq_false, subtractLockedFunds_ok,
    recordPayrollRunState, pendingPayrollRunCount, ne_eq, reduceCtorEq, not_false_eq_true,
    Store.get_set_ne, Store.get_remove_ne, pure_ok, exists_const, and_assoc, exists_and_left,
    exists_eq_left, finalized, PendingPayrollRun.executed]

/-- The guards of `finalize_payroll_run`. -/
def CanFinalize (e : Env) (admin : Address) (runId : Nat) (s : Storage) : Prop :=
  ¬ Paused e s ∧ runId ≠ u64Max ∧
    ∃ addrs, s.get .addresses = some addrs ∧ admin = addrs.admin ∧ admin ∈ e.auths ∧
    ∃ p, s.get (.pendingRun runId) = some p ∧
      isPayrollApprovalExpired e s runId defaultApprovalExpirySeconds = false ∧
      s.get (.payrollRun runId) = none ∧ InI128 (getLockedFunds s addrs.token - p.totalAmount)

theorem canFinalize_iff :
    CanFinalize e admin runId s ↔ ∃ s', finalizePayrollRun e admin runId s = .ok s' := by
  simp only [finalizePayrollRun_ok, CanFinalize]
  constructor
  · rintro ⟨hpaused, hid, addrs, haddrs, hadmin, hauth, p, hp, hlive, hfree, hfits⟩
    exact ⟨_, hpaused, hid, addrs, haddrs, hadmin, hauth, p, hp, hlive, hfree, hfits, rfl⟩
  · rintro ⟨_, hpaused, hid, addrs, haddrs, hadmin, hauth, p, hp, hlive, hfree, hfits, -⟩
    exact ⟨hpaused, hid, addrs, haddrs, hadmin, hauth, p, hp, hlive, hfree, hfits⟩

def PendingPayrollRun.cancelled (p : PendingPayrollRun) (e : Env) (admin : Address) (runId : Nat)
    (reason : Symbol) : CancelledBatchStatus :=
  { runId := runId
    cancelledAt := e.timestamp
    cancelledBy := admin
    reason := reason
    employeeCount := p.employeeCount
    totalAmount := p.totalAmount
    draftHash := p.draftHash
    isCancelled := true }

def cancelled (e : Env) (addrs : ContractAddresses) (runId : Nat) (reason : Symbol)
    (p : PendingPayrollRun) (s : Storage) : Storage :=
  ((((s.set (.lockedPayrollFunds addrs.token) (getLockedFunds s addrs.token - p.totalAmount)).set
    (.cancelledBatchRecord runId) (p.cancelled e addrs.admin runId reason)).remove
      (.pendingRun runId)).set (.payrollState runId) .cancelled).set
        .pendingRunCount (pendingPayrollRunCount s - 1)

theorem cancelPayrollRunWithReason_ok :
    cancelPayrollRunWithReason e admin runId reason s = .ok s' ↔
      runId ≠ u64Max ∧ reason ≠ "" ∧
        ∃ addrs, s.get .addresses = some addrs ∧ admin = addrs.admin ∧ admin ∈ e.auths ∧
          s.get (.payrollRun runId) = none ∧
        ∃ p, s.get (.pendingRun runId) = some p ∧
          InI128 (getLockedFunds s addrs.token - p.totalAmount) ∧
          s' = cancelled e addrs runId reason p s := by
  simp only [cancelPayrollRunWithReason, bind_ok, validateRunId_ok, validateSymbolNotEmpty_ok,
    requireAdmin_ok, expect_ok, ensure_ok, Store.has_eq_false, subtractLockedFunds_ok,
    recordPayrollRunState, pendingPayrollRunCount, ne_eq, reduceCtorEq, not_false_eq_true,
    Store.get_set_ne, Store.get_remove_ne, pure_ok, exists_const, and_assoc, exists_and_left,
    exists_eq_left, cancelled, PendingPayrollRun.cancelled]
  refine and_congr_right fun _ => and_congr_right fun _ => exists_congr fun addrs => ?_
  refine and_congr_right fun _ => and_congr_right fun hadmin => ?_
  subst hadmin
  rfl

/-- The guards of `cancel_payroll_run_with_reason`. -/
def CanCancel (e : Env) (admin : Address) (runId : Nat) (reason : Symbol) (s : Storage) : Prop :=
  runId ≠ u64Max ∧ reason ≠ "" ∧
    ∃ addrs, s.get .addresses = some addrs ∧ admin = addrs.admin ∧ admin ∈ e.auths ∧
      s.get (.payrollRun runId) = none ∧
    ∃ p, s.get (.pendingRun runId) = some p ∧
      InI128 (getLockedFunds s addrs.token - p.totalAmount)

theorem canCancel_iff : CanCancel e admin runId reason s ↔
    ∃ s', cancelPayrollRunWithReason e admin runId reason s = .ok s' := by
  simp only [cancelPayrollRunWithReason_ok, CanCancel]
  constructor
  · rintro ⟨hid, hreason, addrs, haddrs, hadmin, hauth, hfree, p, hp, hfits⟩
    exact ⟨_, hid, hreason, addrs, haddrs, hadmin, hauth, hfree, p, hp, hfits, rfl⟩
  · rintro ⟨_, hid, hreason, addrs, haddrs, hadmin, hauth, hfree, p, hp, hfits, -⟩
    exact ⟨hid, hreason, addrs, haddrs, hadmin, hauth, hfree, p, hp, hfits⟩

end

end ZkPayroll.Payroll
