import ZkPayroll.Host.EventLog
import ZkPayroll.Payroll.Published

/-!
# The log of the payroll contract

A reader of the events has a mirror of the storage and the list of transfers.
Many events leave out who acted or for how much; the reader supplies the admin
and the addresses it has read before, the amounts of pending runs, and the
counters.

What is never told: which assets are allowed, reservation policies, hash
commitments, quorum hashes and nonces. Runs are told without employee count,
draft hash and nonce, and a draft's amount and headcount only once they are
amended. Of a split only the child's total and the time are told.
-/

namespace ZkPayroll.Payroll

open Host Events

-- ---------------------------------------------------------------------------
-- What is told
-- ---------------------------------------------------------------------------

structure RunTold where
  executedAt : Nat
  admin : Address
  totalAmount : Int
  reconciliationStatus : ReconciliationStatus
  metadataHash : BytesN 32
  deriving DecidableEq

structure PendingTold where
  preparedAt : Nat
  admin : Address
  totalAmount : Int
  deriving DecidableEq

structure CancelledTold where
  cancelledAt : Nat
  cancelledBy : Address
  reason : Symbol
  totalAmount : Int
  deriving DecidableEq

structure DraftTold where
  createdAt : Nat
  admin : Address
  periodLabel : Symbol
  state : RunDraftState
  amendmentCount : Nat
  /-- Total amount and employee count, as last amended. -/
  amended : Option (Int × Nat)
  deriving DecidableEq

structure VersionTold where
  version : Nat
  updatedAt : Nat
  migrationComplete : Bool
  deriving DecidableEq

structure PointerTold where
  contentHash : BytesN 32
  scope : EvidencePointerScope
  target : Address
  createdAt : Nat
  createdBy : Address
  deriving DecidableEq

def PayrollRun.told (run : PayrollRun) : RunTold :=
  ⟨run.executedAt, run.admin, run.totalAmount, run.reconciliationStatus, run.metadataHash⟩

def PendingPayrollRun.told (p : PendingPayrollRun) : PendingTold :=
  ⟨p.preparedAt, p.admin, p.totalAmount⟩

def CancelledBatchStatus.told (c : CancelledBatchStatus) : CancelledTold :=
  ⟨c.cancelledAt, c.cancelledBy, c.reason, c.totalAmount⟩

def PayrollRunDraft.told (d : PayrollRunDraft) : DraftTold :=
  ⟨d.createdAt, d.admin, d.periodLabel, d.state, d.amendmentCount,
    if d.amendmentCount = 0 then none else some (d.totalAmount, d.employeeCount)⟩

def StorageVersionState.told (v : StorageVersionState) : VersionTold :=
  ⟨v.version, v.updatedAt, v.migrationComplete⟩

def ComplianceEvidencePointer.told (p : ComplianceEvidencePointer) : PointerTold :=
  ⟨p.contentHash, p.scope, p.target, p.createdAt, p.createdBy⟩

abbrev DataKey.Told : DataKey → Type
  | .payrollRun _ => RunTold
  | .pendingRun _ => PendingTold
  | .cancelledBatchRecord _ => CancelledTold
  | .runDraft _ => DraftTold
  | .employerNonceSequence _ => Nat × Nat
  | .evidencePointer _ => PointerTold
  | .storageVersion => VersionTold
  | .batchSplitRecord .. => Int × Nat
  | .runNonce _ | .draftCommitment _ | .consumedQuorum _ => Empty
  | .allowedAsset _ | .supportedAssets | .reservationExpiry _ => Empty
  | k => k.Val

def DataKey.told : (k : DataKey) → k.Val → Option k.Told
  | .payrollRun _, v => some v.told
  | .pendingRun _, v => some v.told
  | .cancelledBatchRecord _, v => some v.told
  | .runDraft _, v => some v.told
  | .employerNonceSequence _, v => some (v.currentSequence, v.lastAcceptedAt)
  | .evidencePointer _, v => some v.told
  | .storageVersion, v => some v.told
  | .batchSplitRecord .., v => some (v.childTotal, v.splitAt)
  | .runNonce _, _ | .draftCommitment _, _ | .consumedQuorum _, _ => none
  | .allowedAsset _, _ | .supportedAssets, _ | .reservationExpiry _, _ => none
  | .addresses, v | .pauseManager, v | .treasuryOwner, v | .companyState, v => some v
  | .runCounter, v | .runDraftCounter, v | .complianceHoldCounter, v | .pendingRunCount, v => some v
  | .pendingAdminRotation, v | .pendingTreasuryRotation, v | .pendingAdminHandover, v => some v
  | .depositNonce _, v | .companyBalance _, v | .emergencyRequest, v => some v
  | .archivedRun _, v | .challengedRun _, v | .archiveMarker _, v => some v
  | .activeDraftForPeriod _, v | .payrollState _, v | .runReview _, v => some v
  | .authorizedReviewer _, v | .lockedPayrollFunds _, v | .complianceHold _, v => some v
  | .batchCheckpoint .., v | .evidencePointerIndex _, v | .migrationReadiness, v => some v

abbrev Mirrored := Mirror DataKey.Told

def mirror (s : Storage) : Mirrored := s.mirror DataKey.told

-- ---------------------------------------------------------------------------
-- The reader
-- ---------------------------------------------------------------------------

def decodeWith [DecidableEq κ] (code : α → κ) (all : List α) (c : κ) : Option α :=
  all.find? fun a => code a = c

def runStateOf : Nat → Option PayrollRunState :=
  decodeWith PayrollRunState.code
    [.draft, .validating, .proofPending, .readyToSubmit, .submitted, .confirming, .completed, .failed,
      .cancelled, .reconciliationRequired]

def checkpointStateOf : Nat → Option BatchCheckpointState :=
  decodeWith BatchCheckpointState.code
    [.started, .partiallyCheckpointed, .resumed, .completed, .failed]

def pointerScopeOf : Nat → Option EvidencePointerScope :=
  decodeWith EvidencePointerScope.code [.employer, .period, .reviewCase]

def reconciliationOf : Symbol → Option ReconciliationStatus :=
  decodeWith ReconciliationStatus.variantName [.unreconciled, .reconciled, .failed]

def companyStateOf : Symbol → Option CompanyState :=
  decodeWith CompanyState.variantName [.active, .paused, .archived, .incomplete]

def holdScopeOf : Symbol → Option ComplianceHoldScope :=
  decodeWith ComplianceHoldScope.eventName [.batch, .employee, .employer]

def change (k : DataKey) (f : k.Told → k.Told) (m : Mirrored) : Mirrored :=
  match m k with
  | some t => m.put k (f t)
  | none => m

def readyAt (checkedAt version : Nat) : MigrationReadinessState :=
  ⟨true, version, minSupportedStorageVersion, maxSupportedStorageVersion, checkedAt⟩

def readVersion (closedAt version : Nat) (m : Mirrored) : Mirrored :=
  (m.put .storageVersion ⟨version, closedAt, true⟩).put .migrationReadiness (readyAt closedAt version)

/-- A version that is there already stays. -/
def readInitialized (closedAt : Nat) (addrs : ContractAddresses) (m : Mirrored) : Mirrored :=
  let m := ((m.put .addresses addrs).put .treasuryOwner addrs.treasuryOwner).put .runCounter 0
  if (m .storageVersion).isSome then m else readVersion closedAt currentStorageVersion m

def noncesTold (m : Mirrored) (admin : Address) : Nat :=
  (m (.employerNonceSequence admin)).elim 0 Prod.fst

def pendingTold (m : Mirrored) : Nat := (m .pendingRunCount).getD 0

def readClaim (closedAt runId : Nat) (admin : Address) (m : Mirrored) : Mirrored :=
  (m.put .runCounter runId).put (.employerNonceSequence admin) (noncesTold m admin + 1, closedAt)

def readPrepared (closedAt runId : Nat) (totalSpend : Int) (m : Mirrored) : Mirrored :=
  match m .addresses with
  | some addrs =>
    ((readClaim closedAt runId addrs.admin m).put (.pendingRun runId)
      ⟨closedAt, addrs.admin, totalSpend⟩).put .pendingRunCount (pendingTold m + 1)
  | none => m

def readExecuted (closedAt runId : Nat) (totalSpend : Int) (m : Mirrored) : Mirrored :=
  match m .addresses with
  | some addrs =>
    (readClaim closedAt runId addrs.admin m).put (.payrollRun runId)
      ⟨closedAt, addrs.admin, totalSpend, .unreconciled, BytesN.zero⟩
  | none => m

def readResolved (runId : Nat) (m : Mirrored) : Mirrored :=
  (m.drop (.pendingRun runId)).put .pendingRunCount (pendingTold m - 1)

def readFinalized (closedAt runId : Nat) (totalAmount : Int) (m : Mirrored) : Mirrored :=
  match m .addresses with
  | some addrs =>
    (readResolved runId m).put (.payrollRun runId)
      ⟨closedAt, addrs.admin, totalAmount, .unreconciled, BytesN.zero⟩
  | none => m

/-- The event has no amount; the pending run has it. -/
def readCancelled (closedAt runId : Nat) (reason : Symbol) (m : Mirrored) : Mirrored :=
  match m .addresses, m (.pendingRun runId) with
  | some addrs, some pendingRun =>
    (readResolved runId m).put (.cancelledBatchRecord runId)
      ⟨closedAt, addrs.admin, reason, pendingRun.totalAmount⟩
  | _, _ => m

def readProgress (c : CheckpointId) (checkpointIndex : Nat) (state : BatchCheckpointState) :
    Mirrored → Mirrored :=
  change c.key fun checkpoint : BatchCheckpoint =>
    { checkpoint with
      lastCheckpointIndex := checkpointIndex
      state := state
      totalCheckpoints := checkpoint.totalCheckpoints + 1
      completed := decide (state = .completed)
      failed := decide (state = .failed) }

def readDraftState (draftId : Nat) (state : RunDraftState) : Mirrored → Mirrored :=
  change (.runDraft draftId) fun draft : DraftTold => { draft with state := state }

def readAdmin (newAdmin : Address) : Mirrored → Mirrored :=
  change .addresses fun addrs : ContractAddresses => { addrs with admin := newAdmin }

def readTreasuryOwner (newOwner : Address) (m : Mirrored) : Mirrored :=
  change .addresses (fun addrs : ContractAddresses => { addrs with treasuryOwner := newOwner })
    (m.put .treasuryOwner newOwner)

def readRunTuple (closedAt : Nat) (name : Symbol) (values : List Value) (m : Mirrored) : Mirrored :=
  match name, values with
  | "run_prepared", [.u64 runId, .i128 totalSpend] => readPrepared closedAt runId totalSpend m
  | "run_executed", [.u64 runId, .i128 totalSpend] => readExecuted closedAt runId totalSpend m
  | "run_finalized", [.u64 runId, .i128 totalAmount] => readFinalized closedAt runId totalAmount m
  | "run_cancelled", [.u64 runId, .symbol reason] => readCancelled closedAt runId reason m
  | "run_state", [.u64 runId, .u32 code] => (runStateOf code).elim m (m.put (.payrollState runId))
  | "reconciliation_updated", [.u64 runId, .variant status] =>
    (reconciliationOf status).elim m fun status =>
      change (.payrollRun runId) (fun run : RunTold => { run with reconciliationStatus := status }) m
  | "meta_bound", [.u64 runId, .bytes metadataHash] =>
    change (.payrollRun runId) (fun run : RunTold => { run with metadataHash := metadataHash }) m
  | "batch_checkpoint_started",
      [.address employer, .bytes batchRoot, .address asset, .bytes nonce, .u32 index] =>
    let c : CheckpointId := ⟨employer, batchRoot, asset, nonce⟩
    m.put c.key (c.started index)
  | "batch_checkpoint_updated",
      [.address employer, .bytes batchRoot, .address asset, .bytes nonce, .u32 index, .u32 code] =>
    (checkpointStateOf code).elim m fun state =>
      readProgress ⟨employer, batchRoot, asset, nonce⟩ index state m
  | "batch_checkpoint_resumed",
      [.address employer, .bytes batchRoot, .address asset, .bytes nonce, .u32 index] =>
    change (CheckpointId.key ⟨employer, batchRoot, asset, nonce⟩)
      (fun checkpoint : BatchCheckpoint =>
        { checkpoint with state := .resumed, lastCheckpointIndex := index }) m
  | "draft_created", [.u64 draftId, .address admin, .symbol periodLabel] =>
    ((m.put .runDraftCounter draftId).put (.runDraft draftId)
      ⟨closedAt, admin, periodLabel, .pending, 0, none⟩).put (.activeDraftForPeriod periodLabel) draftId
  | "draft_updated", [.u64 draftId, .symbol _, .i128 total, .u32 employeeCount, .u32 amendments] =>
    change (.runDraft draftId) (fun draft : DraftTold =>
      { draft with amendmentCount := amendments, amended := some (total, employeeCount) }) m
  | "draft_finalized", [.u64 draftId, .i128 _, .u32 _] => readDraftState draftId .finalized m
  | "draft_submitted", [.u64 draftId, .address _] => readDraftState draftId .submitted m
  | "draft_cancelled", [.u64 draftId, .address _] => readDraftState draftId .cancelled m
  | "draft_expired", [.u64 draftId, .address _] => readDraftState draftId .expired m
  | _, _ => m

def readRecordTuple (closedAt : Nat) (name : Symbol) (values : List Value) (m : Mirrored) : Mirrored :=
  match name, values with
  | "initialized", [.address admin, .address token, .address verifier, .address commitment,
      .address treasury, .address treasuryOwner] =>
    readInitialized closedAt ⟨admin, token, verifier, commitment, treasury, treasuryOwner⟩ m
  | "storage_version_set", [.u32 version, .address _] => readVersion closedAt version m
  | "pause_mgr_set", [.address pauseManager] => m.put .pauseManager pauseManager
  | "deposit", [.address depositor, .i128 _, .bytes depositId, .i128 newBalance] =>
    (m.put (.depositNonce depositId) true).put (.companyBalance depositor) newBalance
  | "emrg_requested", [.i128 amount, .address recipient] =>
    m.put .emergencyRequest ⟨amount, recipient, closedAt, false⟩
  | "emrg_approved", [.i128 _, .address _] => m.drop .emergencyRequest
  | "admin_proposed", [.address currentAdmin, .address newAdmin] =>
    m.put .pendingAdminRotation ⟨newAdmin, currentAdmin, closedAt⟩
  | "admin_rotated", [.address _, .address newAdmin] =>
    (readAdmin newAdmin m).drop .pendingAdminRotation
  | "admin_handover_req", [.address currentAdmin, .address pendingAdmin] =>
    m.put .pendingAdminHandover ⟨currentAdmin, pendingAdmin, closedAt⟩
  | "admin_handover_acc", [.address _, .address newAdmin] =>
    (readAdmin newAdmin m).drop .pendingAdminHandover
  | "treasury_proposed", [.address currentOwner, .address newOwner] =>
    m.put .pendingTreasuryRotation ⟨newOwner, currentOwner, closedAt⟩
  | "treasury_rotated", [.address _, .address newOwner] =>
    (readTreasuryOwner newOwner m).drop .pendingTreasuryRotation
  | "run_approved", [.u64 runId, .address reviewer] =>
    m.put (.runReview runId) ⟨runId, reviewer, .approved, "approved", closedAt⟩
  | "run_rejected", [.u64 runId, .address reviewer, .symbol reason] =>
    m.put (.runReview runId) ⟨runId, reviewer, .rejected, reason, closedAt⟩
  | "changes_requested", [.u64 runId, .address reviewer, .symbol reason] =>
    m.put (.runReview runId) ⟨runId, reviewer, .changesRequested, reason, closedAt⟩
  | "evidence_pointer_created",
      [.bytes pointerId, .bytes contentHash, .u32 code, .address target, .address admin] =>
    (pointerScopeOf code).elim m fun scope =>
      (m.put (.evidencePointer pointerId) ⟨contentHash, scope, target, closedAt, admin⟩).put
        (.evidencePointerIndex contentHash) pointerId
  | "hold_placed",
      [.u64 holdId, .symbol scope, .address target, .symbol reasonCode, .address placedBy] =>
    (holdScopeOf scope).elim m fun scope =>
      (m.put (.complianceHold holdId) ⟨holdId, scope, target, reasonCode, closedAt, placedBy, true⟩).put
        .complianceHoldCounter holdId
  | "hold_released", [.u64 holdId, .address _] =>
    change (.complianceHold holdId) (fun hold : ComplianceHold => { hold with isActive := false }) m
  | "run_archived", [.u64 runId, .address archivedBy, .symbol archiveReason] =>
    m.put (.archiveMarker runId) ⟨runId, closedAt, archivedBy, archiveReason⟩
  | _, _ => m

def readValue (name : Symbol) (value : Value) (m : Mirrored) : Mirrored :=
  match name, value with
  | "state_changed", .variant state => (companyStateOf state).elim m (m.put .companyState)
  | "emrg_cancelled", .address _ => m.drop .emergencyRequest
  | "admin_rot_cancel", .address _ => m.drop .pendingAdminRotation
  | "admin_handover_can", .address _ => m.drop .pendingAdminHandover
  | "treas_rot_cancel", .address _ => m.drop .pendingTreasuryRotation
  | "reviewer_added", .address reviewer => m.put (.authorizedReviewer reviewer) true
  | "reviewer_removed", .address reviewer => m.drop (.authorizedReviewer reviewer)
  | "run_archived", .u64 runId => m.put (.archivedRun runId) true
  | "run_challenged", .u64 runId => m.put (.challengedRun runId) true
  | "run_challenge_cleared", .u64 runId => m.drop (.challengedRun runId)
  | _, _ => m

def readEvent (m : Mirrored) (event : Event) : Mirrored :=
  match event.topics, event.data with
  | [.symbol "payroll", .symbol name], .tuple values =>
    readRecordTuple event.closedAt name values (readRunTuple event.closedAt name values m)
  | [.symbol "payroll", .symbol name], .value value => readValue name value m
  | [.symbol "treasury", .symbol "locked_funds_updated"], .tuple [.address asset, .i128 locked] =>
    m.put (.lockedPayrollFunds asset) locked
  | [.symbol "BatchSplitRecorded", .u64 parentRunId],
      .tuple [.u64 childRunId, .i128 childTotal, .u64 splitAt] =>
    m.put (.batchSplitRecord parentRunId childRunId) (childTotal, splitAt)
  | _, _ => m

/-- The transfer an event is about, between addresses the event does not name. -/
def transferTold (event : Event) : Option (ContractAddresses → Transfer) :=
  match event.topics, event.data with
  | [.symbol "payroll", .symbol "payment_executed"], .tuple [.address employee, .i128 amount] =>
    some fun addrs => ⟨.salary, addrs.token, addrs.treasury, employee, amount⟩
  | [.symbol "payroll", .symbol "emrg_approved"], .tuple [.i128 amount, .address recipient] =>
    some fun addrs => ⟨.emergency, addrs.token, addrs.treasury, recipient, amount⟩
  | [.symbol "payroll", .symbol "deposit"],
      .tuple [.address depositor, .i128 amount, .bytes _, .i128 _] =>
    some fun addrs => ⟨.deposit, addrs.token, depositor, addrs.treasury, amount⟩
  | _, _ => none

def readTransfer (m : Mirrored) (event : Event) : List Transfer :=
  match transferTold event, m .addresses with
  | some transfer, some addrs => [transfer addrs]
  | _, _ => []

/-- What an indexer knows: the mirror and the transfers, newest first. -/
structure Book where
  entries : Mirrored
  transfers : List Transfer

def Book.blank : Book := ⟨.blank, []⟩

def Book.read (x : Book) (event : Event) : Book :=
  ⟨readEvent x.entries event, readTransfer x.entries event ++ x.transfers⟩

def World.book (w : World) : Book := ⟨mirror w.payroll, w.transfers⟩

section
variable {e : Env} {s s' : Storage} {w w' : World}

-- ---------------------------------------------------------------------------
-- Reading what was published
-- ---------------------------------------------------------------------------

theorem runStateOf_code (state : PayrollRunState) : runStateOf state.code = some state := by
  cases state <;> rfl

theorem checkpointStateOf_code (state : BatchCheckpointState) :
    checkpointStateOf state.code = some state := by
  cases state <;> rfl

theorem pointerScopeOf_code (scope : EvidencePointerScope) :
    pointerScopeOf scope.code = some scope := by
  cases scope <;> rfl

theorem reconciliationOf_name (status : ReconciliationStatus) :
    reconciliationOf status.variantName = some status := by
  cases status <;> rfl

theorem companyStateOf_name (state : CompanyState) : companyStateOf state.variantName = some state := by
  cases state <;> rfl

theorem holdScopeOf_name (scope : ComplianceHoldScope) : holdScopeOf scope.eventName = some scope := by
  cases scope <;> rfl

theorem mirror_remove (s : Storage) (k : DataKey) : mirror (s.remove k) = (mirror s).drop k :=
  mirror_drop s k

theorem change_mirror {v v' : k.Val} {t : k.Told} {f : k.Told → k.Told} (h : s.get k = some v)
    (ht : k.told v = some t) (ht' : k.told v' = some (f t)) :
    change k f (mirror s) = mirror (s.set k v') := by
  rw [change, mirror, mirror_some h, ht]
  exact (mirror_put ht').symm

theorem read_runState (e : Env) (runId : Nat) (state : PayrollRunState) (m : Mirrored) :
    readEvent m (runStateRecorded e runId state) = m.put (.payrollState runId) state := by
  have hread : readEvent m (runStateRecorded e runId state) =
      (runStateOf state.code).elim m (m.put (.payrollState runId)) := rfl
  rw [hread, runStateOf_code]
  rfl

theorem noncesTold_mirror (s : Storage) (admin : Address) :
    noncesTold (mirror s) admin = nonceSequenceLength s admin := by
  unfold noncesTold nonceSequenceLength mirror Store.mirror
  cases s.get (.employerNonceSequence admin) <;> rfl

theorem pendingTold_mirror (s : Storage) : pendingTold (mirror s) = pendingPayrollRunCount s := by
  unfold pendingTold pendingPayrollRunCount mirror Store.mirror
  cases s.get .pendingRunCount <;> rfl

theorem mirror_claim (e : Env) (admin : Address) (nonce : BytesN 32) (s : Storage) :
    mirror (claimRunId e admin nonce s) =
      ((mirror s).put .runCounter (runCount s + 1)).put (.employerNonceSequence admin)
        (nonceSequenceLength s admin + 1, e.timestamp) := by
  have hcounter : mirror (s.set .runCounter (runCount s + 1)) =
      (mirror s).put .runCounter (runCount s + 1) := mirror_put rfl
  have hnonce : mirror ((s.set .runCounter (runCount s + 1)).set (.runNonce nonce) (runCount s + 1)) =
      mirror (s.set .runCounter (runCount s + 1)) := mirror_hidden _ _
  rw [← hcounter, ← hnonce]
  exact mirror_put rfl

@[simp] theorem noncesTold_put (m : Mirrored) {v : k.Told}
    (h : ∀ a, k ≠ .employerNonceSequence a) :
    noncesTold (m.put k v) admin = noncesTold m admin := by
  simp [noncesTold, Mirror.put_ne m v (h admin).symm]

@[simp] theorem pendingTold_put (m : Mirrored) {v : k.Told} (h : k ≠ .pendingRunCount) :
    pendingTold (m.put k v) = pendingTold m := by
  simp [pendingTold, Mirror.put_ne m v h.symm]

@[simp] theorem pendingTold_drop (m : Mirrored) (h : k ≠ .pendingRunCount) :
    pendingTold (m.drop k) = pendingTold m := by
  simp [pendingTold, Mirror.drop_ne m h.symm]

-- ---------------------------------------------------------------------------
-- Runs
-- ---------------------------------------------------------------------------

/-- The contract stores the entries of a prepared run in another order than it
tells of them. -/
theorem prepared_order (m : Mirrored) (claim : Nat × Nat) (p : PendingTold) (state : PayrollRunState)
    (count : Nat) (locked : Int) :
    (((((m.put (.payrollState r) state).put (.lockedPayrollFunds asset) locked).put .runCounter r).put
      (.employerNonceSequence admin) claim).put (.pendingRun r) p).put .pendingRunCount count =
    (((((m.put .runCounter r).put (.employerNonceSequence admin) claim).put (.pendingRun r) p).put
      (.payrollState r) state).put .pendingRunCount count).put (.lockedPayrollFunds asset) locked := by
  simp only [Mirror.put_comm, ne_eq, reduceCtorEq, not_false_eq_true]

theorem executed_order (m : Mirrored) (claim : Nat × Nat) (run : RunTold) (state : PayrollRunState) :
    (((m.put (.payrollState r) state).put .runCounter r).put (.employerNonceSequence admin) claim).put
      (.payrollRun r) run =
    (((m.put .runCounter r).put (.employerNonceSequence admin) claim).put (.payrollRun r) run).put
      (.payrollState r) state := by
  simp only [Mirror.put_comm, ne_eq, reduceCtorEq, not_false_eq_true]

theorem finalized_order (m : Mirrored) (run : RunTold) (state : PayrollRunState) (count : Nat) :
    (((m.put (.payrollState r) state).drop (.pendingRun r)).put .pendingRunCount count).put
      (.payrollRun r) run =
    (((m.drop (.pendingRun r)).put (.payrollState r) state).put .pendingRunCount count).put
      (.payrollRun r) run := by
  rw [Mirror.put_drop m (by simp)]

theorem cancelled_order (m : Mirrored) (c : CancelledTold) (state : PayrollRunState) (count : Nat) :
    (((m.put (.payrollState r) state).drop (.pendingRun r)).put .pendingRunCount count).put
      (.cancelledBatchRecord r) c =
    (((m.put (.cancelledBatchRecord r) c).drop (.pendingRun r)).put (.payrollState r) state).put
      .pendingRunCount count := by
  simp only [Mirror.put_drop, Mirror.put_comm, ne_eq, reduceCtorEq, not_false_eq_true]

theorem read_prepared (haddrs : s.get .addresses = some addrs) :
    (preparedEvents e s b).foldl readEvent (mirror s) = mirror (prepared e addrs b s) := by
  have hknown : mirror s .addresses = some addrs := mirror_some haddrs
  have hread : (preparedEvents e s b).foldl readEvent (mirror s) =
      readPrepared e.timestamp (runCount s + 1) b.expectedTotalSpend
        (((mirror s).put (.payrollState (runCount s + 1)) .submitted).put
          (.lockedPayrollFunds addrs.token) (getLockedFunds s addrs.token + b.expectedTotalSpend)) := by
    simp only [preparedEvents, haddrs, List.foldl_cons, List.foldl_nil, read_runState]
    rfl
  have hstored : mirror (prepared e addrs b s) =
      ((((mirror (claimRunId e addrs.admin b.nonce s)).put (.pendingRun (runCount s + 1))
        (b.pendingRun e addrs.admin (runCount s + 1)).told).put (.payrollState (runCount s + 1))
          .submitted).put .pendingRunCount (pendingPayrollRunCount s + 1)).put
            (.lockedPayrollFunds addrs.token)
              (getLockedFunds s addrs.token + b.expectedTotalSpend) := by
    simp only [prepared, mirror, mirror_set]
    rfl
  rw [hread, hstored, mirror_claim, readPrepared]
  simp only [ne_eq, reduceCtorEq, not_false_eq_true, Mirror.put_ne, hknown, readClaim,
    noncesTold_put, pendingTold_put, implies_true, noncesTold_mirror, pendingTold_mirror]
  exact prepared_order ..

theorem read_payments (e : Env) (payments : List Payment) (m : Mirrored) :
    (payments.map fun p => emitPaymentExecuted e p.2.2 p.2.1).foldl readEvent m = m := by
  induction payments with
  | nil => rfl
  | cons p rest ih => exact ih

theorem read_executed (haddrs : s.get .addresses = some addrs) :
    (executedEvents e s b).foldl readEvent (mirror s) = mirror (executed e addrs b s) := by
  have hknown : mirror s .addresses = some addrs := mirror_some haddrs
  have hread : (executedEvents e s b).foldl readEvent (mirror s) =
      readExecuted e.timestamp (runCount s + 1) b.expectedTotalSpend
        ((mirror s).put (.payrollState (runCount s + 1)) .reconciliationRequired) := by
    simp only [executedEvents, List.foldl_append, read_payments, List.foldl_cons, List.foldl_nil,
      read_runState]
    rfl
  have hstored : mirror (executed e addrs b s) =
      ((mirror (claimRunId e addrs.admin b.nonce s)).put (.payrollRun (runCount s + 1))
        (b.payrollRun e addrs.admin (runCount s + 1)).told).put (.payrollState (runCount s + 1))
          .reconciliationRequired := by
    simp only [executed, mirror, mirror_set]
    rfl
  rw [hread, hstored, mirror_claim, readExecuted]
  simp only [ne_eq, reduceCtorEq, not_false_eq_true, Mirror.put_ne, hknown, readClaim,
    noncesTold_put, implies_true, noncesTold_mirror]
  exact executed_order ..

theorem mirror_dropDraft (draftHash : Option (BytesN 32)) (s : Storage) :
    mirror (dropDraft draftHash s) = mirror s := by
  cases draftHash with
  | none => rfl
  | some dh => exact mirror_drop_hidden s

theorem read_finalized (haddrs : s.get .addresses = some addrs)
    (hp : s.get (.pendingRun runId) = some p) :
    (finalizedEvents e s runId).foldl readEvent (mirror s) =
      mirror (finalized e addrs runId p s) := by
  have hknown : mirror s .addresses = some addrs := mirror_some haddrs
  have hread : (finalizedEvents e s runId).foldl readEvent (mirror s) =
      readFinalized e.timestamp runId p.totalAmount
        (((mirror s).put (.lockedPayrollFunds addrs.token)
          (getLockedFunds s addrs.token - p.totalAmount)).put (.payrollState runId)
            .reconciliationRequired) := by
    simp only [finalizedEvents, resolvedEvents, haddrs, hp, List.foldl_cons, List.foldl_nil,
      read_runState]
    rfl
  have hstored : mirror (finalized e addrs runId p s) =
      (((((mirror s).put (.lockedPayrollFunds addrs.token)
        (getLockedFunds s addrs.token - p.totalAmount)).drop (.pendingRun runId)).put
          (.payrollState runId) .reconciliationRequired).put .pendingRunCount
            (pendingPayrollRunCount s - 1)).put (.payrollRun runId)
              (p.executed e addrs.admin runId).told := by
    simp only [finalized, mirror, mirror_set, mirror_drop]
    rfl
  rw [hread, hstored, readFinalized]
  simp only [ne_eq, reduceCtorEq, not_false_eq_true, Mirror.put_ne, hknown, readResolved,
    pendingTold_put, pendingTold_mirror]
  exact finalized_order ..

theorem read_cancelled (haddrs : s.get .addresses = some addrs)
    (hp : s.get (.pendingRun runId) = some p) :
    (cancelledEvents e s runId reason).foldl readEvent (mirror s) =
      mirror (cancelled e addrs runId reason p s) := by
  have hknown : mirror s .addresses = some addrs := mirror_some haddrs
  have hpending : mirror s (.pendingRun runId) = some p.told := mirror_some hp
  have hread : (cancelledEvents e s runId reason).foldl readEvent (mirror s) =
      readCancelled e.timestamp runId reason
        (((mirror s).put (.lockedPayrollFunds addrs.token)
          (getLockedFunds s addrs.token - p.totalAmount)).put (.payrollState runId) .cancelled) := by
    simp only [cancelledEvents, resolvedEvents, haddrs, hp, List.foldl_cons, List.foldl_nil,
      read_runState]
    rfl
  have hstored : mirror (cancelled e addrs runId reason p s) =
      (((((mirror s).put (.lockedPayrollFunds addrs.token)
        (getLockedFunds s addrs.token - p.totalAmount)).put (.cancelledBatchRecord runId)
          (p.cancelled e addrs.admin runId reason).told).drop (.pendingRun runId)).put
            (.payrollState runId) .cancelled).put .pendingRunCount
              (pendingPayrollRunCount s - 1) := by
    simp only [cancelled, mirror, mirror_set, mirror_drop]
    rfl
  rw [hread, hstored, readCancelled]
  simp only [ne_eq, reduceCtorEq, not_false_eq_true, Mirror.put_ne, hknown, hpending, readResolved,
    pendingTold_put, pendingTold_mirror]
  exact cancelled_order ..

-- ---------------------------------------------------------------------------
-- Settings, drafts and records
-- ---------------------------------------------------------------------------

theorem read_version (e : Env) (version : Nat) (description : String) (s : Storage) :
    readVersion e.timestamp version (mirror s) =
      mirror ((s.set .storageVersion ⟨version, e.timestamp, true, description⟩).set
        .migrationReadiness (readyState e version)) := by
  simp only [mirror, mirror_set]
  rfl

theorem read_initialized (e : Env) (addrs : ContractAddresses) (s : Storage) :
    readInitialized e.timestamp addrs (mirror s) =
      mirror (initializeStorageVersion e ((((s.set .addresses addrs).set (.allowedAsset addrs.token)
        true).set .treasuryOwner addrs.treasuryOwner).set .runCounter 0)) := by
  have hset : mirror ((((s.set .addresses addrs).set (.allowedAsset addrs.token) true).set
      .treasuryOwner addrs.treasuryOwner).set .runCounter 0) =
      (((mirror s).put .addresses addrs).put .treasuryOwner addrs.treasuryOwner).put .runCounter 0 := by
    have hhidden : mirror ((s.set .addresses addrs).set (.allowedAsset addrs.token) true) =
        mirror (s.set .addresses addrs) := mirror_hidden _ _
    have haddrs : mirror (s.set .addresses addrs) = (mirror s).put .addresses addrs := mirror_put rfl
    rw [← haddrs, ← hhidden]
    simp only [mirror, mirror_set]
    rfl
  generalize (((s.set .addresses addrs).set (.allowedAsset addrs.token) true).set
    .treasuryOwner addrs.treasuryOwner).set .runCounter 0 = s₁ at hset ⊢
  rw [readInitialized, ← hset, initializeStorageVersion]
  cases hversion : s₁.get .storageVersion with
  | none =>
    have hknown : mirror s₁ .storageVersion = none := by simp [mirror, Store.mirror, hversion]
    have hfree : s₁.has .storageVersion = false := Store.has_eq_false.mpr hversion
    simp only [hknown, hfree]
    exact read_version e currentStorageVersion "Initial version" s₁
  | some version =>
    have hknown : mirror s₁ .storageVersion = some version.told := mirror_some hversion
    have hstored : s₁.has .storageVersion = true := Store.has_eq_true.mpr ⟨version, hversion⟩
    simp only [hknown, hstored]
    rfl

theorem read_draftState (hdraft : s.get (.runDraft draftId) = some draft) :
    readDraftState draftId state (mirror s) =
      mirror (s.set (.runDraft draftId) { draft with state := state }) :=
  change_mirror hdraft rfl rfl

theorem read_admin (haddrs : s.get .addresses = some addrs) :
    readAdmin newAdmin (mirror s) = mirror (s.set .addresses { addrs with admin := newAdmin }) :=
  change_mirror haddrs rfl rfl

theorem read_statusUpdated (e : Env) (runId : Nat) (status : ReconciliationStatus) (m : Mirrored) :
    readEvent m
      (publishTuple e "reconciliation_updated" [.u64 runId, .variant status.variantName]) =
      change (.payrollRun runId) (fun run : RunTold => { run with reconciliationStatus := status })
        m := by
  have hread : readEvent m
      (publishTuple e "reconciliation_updated" [.u64 runId, .variant status.variantName]) =
      (reconciliationOf status.variantName).elim m fun status =>
        change (.payrollRun runId) (fun run : RunTold => { run with reconciliationStatus := status })
          m := rfl
  rw [hread, reconciliationOf_name]
  rfl

/-- The event with the state comes first, though the contract stores it last. -/
theorem read_reconciliation (e : Env) (hrun : s.get (.payrollRun runId) = some run)
    (status : ReconciliationStatus) :
    (Call.events e s (.updateReconciliationStatus admin runId status)).foldl readEvent (mirror s) =
      mirror ((s.set (.payrollRun runId) { run with reconciliationStatus := status }).set
        (.payrollState runId) (reconciledState status)) := by
  have hknown : mirror s (.payrollRun runId) = some run.told := mirror_some hrun
  simp only [Call.events, List.foldl_cons, List.foldl_nil, read_runState, read_statusUpdated, change,
    ne_eq, reduceCtorEq, not_false_eq_true, Mirror.put_ne, hknown]
  rw [Mirror.put_comm _ (by simp)]
  simp only [mirror, mirror_set]
  rfl

theorem read_progress (e : Env) {checkpoint : BatchCheckpoint} (h : s.get c.key = some checkpoint)
    (checkpointIndex : Nat) (state : BatchCheckpointState) :
    (Call.events e s (.recordBatchCheckpointProgress admin c checkpointIndex state)).foldl readEvent
      (mirror s) =
      mirror (s.set c.key
        { checkpoint with
          lastCheckpointIndex := checkpointIndex
          state := state
          totalCheckpoints := checkpoint.totalCheckpoints + 1
          completed := decide (state = .completed)
          failed := decide (state = .failed) }) := by
  have hread : (Call.events e s (.recordBatchCheckpointProgress admin c checkpointIndex state)).foldl
      readEvent (mirror s) = (checkpointStateOf state.code).elim (mirror s) fun state =>
        readProgress c checkpointIndex state (mirror s) := rfl
  rw [hread, checkpointStateOf_code]
  exact change_mirror h rfl rfl

theorem read_pointer (e : Env) (admin : Address) (contentHash : BytesN 32)
    (scope : EvidencePointerScope) (target : Address) (metadataHash : Option (BytesN 32))
    (s : Storage) :
    readEvent (mirror s) (pointerCreated e admin contentHash scope target) =
      mirror ((s.set (.evidencePointer (generatePointerId e contentHash))
        (newPointer e admin contentHash scope target metadataHash)).set
          (.evidencePointerIndex contentHash) (generatePointerId e contentHash)) := by
  have hread : readEvent (mirror s) (pointerCreated e admin contentHash scope target) =
      (pointerScopeOf scope.code).elim (mirror s) fun scope =>
        ((mirror s).put (.evidencePointer (generatePointerId e contentHash))
          ⟨contentHash, scope, target, e.timestamp, admin⟩).put (.evidencePointerIndex contentHash)
            (generatePointerId e contentHash) := rfl
  rw [hread, pointerScopeOf_code]
  simp only [mirror, mirror_set]
  rfl

theorem read_hold (e : Env) (admin : Address) (scope : ComplianceHoldScope) (target : Address)
    (reasonCode : Symbol) (s : Storage) :
    readEvent (mirror s)
      (emitComplianceHoldPlaced e (holdCount s + 1) scope.eventName target reasonCode admin) =
      mirror ((s.set (.complianceHold (holdCount s + 1))
        (newHold e admin scope target reasonCode (holdCount s + 1))).set .complianceHoldCounter
          (holdCount s + 1)) := by
  have hread : readEvent (mirror s)
      (emitComplianceHoldPlaced e (holdCount s + 1) scope.eventName target reasonCode admin) =
      (holdScopeOf scope.eventName).elim (mirror s) fun scope =>
        ((mirror s).put (.complianceHold (holdCount s + 1))
          ⟨holdCount s + 1, scope, target, reasonCode, e.timestamp, admin, true⟩).put
            .complianceHoldCounter (holdCount s + 1) := rfl
  rw [hread, holdScopeOf_name]
  simp only [mirror, mirror_set]
  rfl

theorem read_entries (h : exec e call w = .ok (ret, w')) :
    (call.events e w.payroll).foldl readEvent (mirror w.payroll) = mirror w'.payroll := by
  cases call with
  | initializePayroll addrs =>
    obtain ⟨_, hf, -, rfl⟩ := onStorage_ok.mp h
    obtain ⟨-, rfl⟩ := initializePayroll_ok.mp hf
    exact read_initialized e addrs w.payroll
  | setStorageVersion admin version description =>
    obtain ⟨_, hf, -, rfl⟩ := onStorage_ok.mp h
    obtain ⟨-, -, -, -, rfl⟩ := setStorageVersion_ok.mp hf
    exact read_version e version description w.payroll
  | setPauseManager =>
    obtain ⟨_, hf, -, rfl⟩ := onStorage_ok.mp h
    obtain ⟨-, rfl⟩ := setPauseManager_ok.mp hf
    exact (mirror_put rfl).symm
  | setAssetAllowed =>
    obtain ⟨_, hf, -, rfl⟩ := onStorage_ok.mp h
    obtain ⟨_, -, -, -, rfl⟩ := setAssetAllowed_ok.mp hf
    exact ((mirror_hidden _ _).trans (mirror_hidden _ _)).symm
  | setCompanyState admin state =>
    obtain ⟨_, hf, -, rfl⟩ := onStorage_ok.mp h
    obtain ⟨-, -, rfl⟩ := setCompanyState_ok.mp hf
    have hread : (Call.events e w.payroll (.setCompanyState admin state)).foldl readEvent
        (mirror w.payroll) =
        (companyStateOf state.variantName).elim (mirror w.payroll)
          ((mirror w.payroll).put .companyState) := rfl
    rw [hread, companyStateOf_name]
    exact (mirror_put rfl).symm
  | proposeAdminRotation =>
    obtain ⟨_, hf, -, rfl⟩ := onStorage_ok.mp h
    obtain ⟨-, -, -, rfl⟩ := proposeAdminRotation_ok.mp hf
    exact (mirror_put rfl).symm
  | acceptAdminRotation newAdmin =>
    obtain ⟨_, hf, -, rfl⟩ := onStorage_ok.mp h
    obtain ⟨-, _, -, -, -, -, addrs, haddrs, rfl⟩ := acceptAdminRotation_ok.mp hf
    rw [mirror_remove, ← read_admin haddrs]
    simp only [Call.events, haddrs, Option.map_some, Option.toList_some]
    rfl
  | cancelAdminRotation =>
    obtain ⟨_, hf, -, rfl⟩ := onStorage_ok.mp h
    obtain ⟨-, -, -, rfl⟩ := cancelAdminRotation_ok.mp hf
    exact (mirror_remove _ _).symm
  | proposeTreasuryRotation =>
    obtain ⟨_, hf, -, rfl⟩ := onStorage_ok.mp h
    obtain ⟨-, -, -, -, rfl⟩ := proposeTreasuryRotation_ok.mp hf
    exact (mirror_put rfl).symm
  | acceptTreasuryRotation newOwner =>
    obtain ⟨_, hf, -, rfl⟩ := onStorage_ok.mp h
    obtain ⟨-, _, -, -, -, -, ⟨owner, howner⟩, addrs, haddrs, rfl⟩ := acceptTreasuryRotation_ok.mp hf
    have hset : mirror (w.payroll.set .treasuryOwner newOwner) =
        (mirror w.payroll).put .treasuryOwner newOwner := mirror_put rfl
    have hchange : readTreasuryOwner newOwner (mirror w.payroll) =
        mirror ((w.payroll.set .treasuryOwner newOwner).set .addresses
          { addrs with treasuryOwner := newOwner }) := by
      rw [readTreasuryOwner, ← hset]
      exact change_mirror (v := addrs) (by simpa using haddrs) rfl rfl
    rw [mirror_remove, ← hchange]
    simp only [Call.events, howner, Option.map_some, Option.toList_some]
    rfl
  | cancelTreasuryRotation =>
    obtain ⟨_, hf, -, rfl⟩ := onStorage_ok.mp h
    obtain ⟨-, -, -, -, rfl⟩ := cancelTreasuryRotation_ok.mp hf
    exact (mirror_remove _ _).symm
  | requestAdminHandover =>
    obtain ⟨_, hf, -, rfl⟩ := onStorage_ok.mp h
    obtain ⟨-, -, -, rfl⟩ := requestAdminHandover_ok.mp hf
    exact (mirror_put rfl).symm
  | acceptAdminHandover pendingAdmin =>
    obtain ⟨_, hf, -, rfl⟩ := onStorage_ok.mp h
    obtain ⟨-, _, -, -, -, addrs, haddrs, rfl⟩ := acceptAdminHandover_ok.mp hf
    rw [mirror_remove, ← read_admin haddrs]
    simp only [Call.events, haddrs, Option.map_some, Option.toList_some]
    rfl
  | cancelAdminHandover =>
    obtain ⟨_, hf, -, rfl⟩ := onStorage_ok.mp h
    obtain ⟨-, -, -, rfl⟩ := cancelAdminHandover_ok.mp hf
    exact (mirror_remove _ _).symm
  | addReviewer =>
    obtain ⟨_, hf, -, rfl⟩ := onStorage_ok.mp h
    obtain ⟨-, -, rfl⟩ := addReviewer_ok.mp hf
    exact (mirror_put rfl).symm
  | removeReviewer =>
    obtain ⟨_, hf, -, rfl⟩ := onStorage_ok.mp h
    obtain ⟨-, -, rfl⟩ := removeReviewer_ok.mp hf
    exact (mirror_remove _ _).symm
  | approvePayrollRun | rejectPayrollRun | requestChangesPayrollRun =>
    obtain ⟨_, hf, -, rfl⟩ := onStorage_ok.mp h
    obtain ⟨-, -, -, rfl⟩ := reviewPayrollRun_ok.mp hf
    exact (mirror_put rfl).symm
  | transitionPayrollRunState admin runId nextState =>
    obtain ⟨_, hf, -, rfl⟩ := onStorage_ok.mp h
    obtain ⟨-, -, _, -, -, rfl⟩ := transitionPayrollRunState_ok.mp hf
    simp only [Call.events, List.foldl_cons, List.foldl_nil, read_runState]
    exact (mirror_put rfl).symm
  | updateReconciliationStatus admin runId status =>
    obtain ⟨_, hf, -, rfl⟩ := onStorage_ok.mp h
    obtain ⟨-, -, run, hrun, _, -, -, -, rfl⟩ := updateReconciliationStatus_ok.mp hf
    exact read_reconciliation e hrun status
  | commitDraft | commitMetadataHash =>
    obtain ⟨_, hf, -, rfl⟩ := onStorage_ok.mp h
    obtain ⟨-, -, -, -, rfl⟩ := commitHash_ok.mp hf
    exact (mirror_hidden _ _).symm
  | setRunMetadata admin runId metadataHash =>
    obtain ⟨_, hf, -, rfl⟩ := onStorage_ok.mp h
    obtain ⟨-, -, -, -, -, run, hrun, rfl⟩ := setRunMetadata_ok.mp hf
    have hdrop : mirror (w.payroll.remove (.draftCommitment metadataHash)) = mirror w.payroll :=
      mirror_drop_hidden _
    rw [← hdrop]
    exact change_mirror (v := run) (by simpa using hrun) rfl rfl
  | preparePayrollRun =>
    obtain ⟨_, _, hf, -, rfl⟩ := onStorageRet_ok.mp h
    obtain ⟨-, -, -, -, -, -, _, haddrs, -, -, -, -, -, -, -, rfl⟩ := preparePayrollRun_ok.mp hf
    exact read_prepared haddrs
  | finalizePayrollRun =>
    obtain ⟨_, hf, -, rfl⟩ := onStorage_ok.mp h
    obtain ⟨-, -, _, haddrs, -, -, _, hp, -, -, -, rfl⟩ := finalizePayrollRun_ok.mp hf
    exact read_finalized haddrs hp
  | cancelPayrollRunWithReason | cancelPayrollRun =>
    obtain ⟨_, hf, -, rfl⟩ := onStorage_ok.mp h
    obtain ⟨-, -, _, haddrs, -, -, -, _, hp, -, rfl⟩ := cancelPayrollRunWithReason_ok.mp hf
    exact read_cancelled haddrs hp
  | batchProcessPayroll b =>
    obtain ⟨_, hf, -⟩ := exec_batchProcessPayroll_ok.mp h
    obtain ⟨-, addrs, haddrs, -, -, -, -, -, -, _, -, _, -, -, rfl⟩ := batchProcessPayroll_ok.mp hf
    have hcount : executedEvents e w.payroll b =
        executedEvents e (dropDraft b.draftHash w.payroll) b := by
      simp only [executedEvents, runCount_dropDraft]
    rw [← mirror_dropDraft b.draftHash]
    simp only [Call.events, hcount]
    exact read_executed (by simpa using haddrs)
  | deposit =>
    obtain ⟨hf, -⟩ := onWorld_ok.mp h
    obtain ⟨-, -, -, -, _, -, _, -, -, -, _, -, -, rfl⟩ := deposit_ok.mp hf
    simp only [mirror, mirror_set]
    rfl
  | requestEmergencyWithdrawal =>
    obtain ⟨hf, -⟩ := onWorld_ok.mp h
    obtain ⟨-, -, -, -, -, -, rfl⟩ := requestEmergencyWithdrawal_ok.mp hf
    exact (mirror_put rfl).symm
  | approveEmergencyWithdrawal =>
    obtain ⟨hf, -⟩ := onWorld_ok.mp h
    obtain ⟨-, _, -, -, -, _, hrequest, -, _, -, rfl⟩ := approveEmergencyWithdrawal_ok.mp hf
    simp only [Call.events, hrequest, Option.map_some, Option.toList_some]
    exact (mirror_remove _ _).symm
  | cancelEmergencyWithdrawal =>
    obtain ⟨_, hf, -, rfl⟩ := onStorage_ok.mp h
    obtain ⟨-, -, -, -, rfl⟩ := cancelEmergencyWithdrawal_ok.mp hf
    exact (mirror_remove _ _).symm
  | addLockedFunds =>
    obtain ⟨_, hf, -, rfl⟩ := onStorage_ok.mp h
    obtain ⟨-, rfl⟩ := addLockedFunds_ok.mp hf
    exact (mirror_put rfl).symm
  | subtractLockedFunds =>
    obtain ⟨_, hf, -, rfl⟩ := onStorage_ok.mp h
    obtain ⟨-, rfl⟩ := subtractLockedFunds_ok.mp hf
    exact (mirror_put rfl).symm
  | createRunDraft =>
    obtain ⟨_, _, hf, -, rfl⟩ := onStorageRet_ok.mp h
    obtain ⟨-, -, -, -, -, -, -, rfl⟩ := createRunDraft_ok.mp hf
    simp only [mirror, mirror_set]
    rfl
  | amendRunDraft =>
    obtain ⟨_, hf, -, rfl⟩ := onStorage_ok.mp h
    obtain ⟨-, -, -, _, hdraft, -, -, -, rfl⟩ := amendRunDraft_ok.mp hf
    simp only [Call.events, amendedEvents, hdraft]
    exact change_mirror hdraft rfl rfl
  | finalizeRunDraft =>
    obtain ⟨_, hf, -, rfl⟩ := onStorage_ok.mp h
    obtain ⟨-, -, _, hdraft, -, rfl⟩ := finalizeRunDraft_ok.mp hf
    simp only [Call.events, hdraft, Option.map_some, Option.toList_some]
    exact read_draftState hdraft
  | submitRunDraft | cancelRunDraft | expireRunDraft =>
    obtain ⟨_, hf, -, rfl⟩ := onStorage_ok.mp h
    obtain ⟨-, -, _, hdraft, -, rfl⟩ := closeRunDraft_ok.mp hf
    exact read_draftState hdraft
  | beginBatchExecutionCheckpoint =>
    obtain ⟨_, hf, -, rfl⟩ := onStorage_ok.mp h
    obtain ⟨-, -, -, -, rfl⟩ := beginBatchExecutionCheckpoint_ok.mp hf
    exact (mirror_put rfl).symm
  | recordBatchCheckpointProgress admin c checkpointIndex state =>
    obtain ⟨_, hf, -, rfl⟩ := onStorage_ok.mp h
    obtain ⟨-, _, hcheckpoint, -, -, -, rfl⟩ := recordBatchCheckpointProgress_ok.mp hf
    exact read_progress e hcheckpoint checkpointIndex state
  | resumeBatchExecution =>
    obtain ⟨_, hf, -, rfl⟩ := exec_resumeBatchExecution_ok.mp h
    obtain ⟨-, -, -, _, hcheckpoint, -, rfl⟩ := resumeBatchExecution_ok.mp hf
    exact change_mirror hcheckpoint rfl rfl
  | createEvidencePointer =>
    obtain ⟨_, _, hf, -, rfl⟩ := onStorageRet_ok.mp h
    obtain ⟨-, -, -, -, -, -, rfl⟩ := createEvidencePointer_ok.mp hf
    exact read_pointer ..
  | verifyAndConsumeQuorum =>
    obtain ⟨_, _, hf, -, rfl⟩ := onStorageRet_ok.mp h
    obtain ⟨-, -, -, -, -, -, rfl⟩ := verifyAndConsumeQuorum_ok.mp hf
    exact (mirror_hidden _ _).symm
  | archivePayrollRun =>
    obtain ⟨_, hf, -, rfl⟩ := onStorage_ok.mp h
    obtain ⟨-, -, -, -, -, rfl⟩ := archivePayrollRun_ok.mp hf
    exact (mirror_put rfl).symm
  | flagRunChallenged =>
    obtain ⟨_, hf, -, rfl⟩ := onStorage_ok.mp h
    obtain ⟨-, rfl⟩ := flagRunChallenged_ok.mp hf
    exact (mirror_put rfl).symm
  | clearRunChallenge =>
    obtain ⟨_, hf, -, rfl⟩ := onStorage_ok.mp h
    obtain ⟨-, rfl⟩ := clearRunChallenge_ok.mp hf
    exact (mirror_remove _ _).symm
  | archivePayrollRunWithReason =>
    obtain ⟨_, hf, -, rfl⟩ := onStorage_ok.mp h
    obtain ⟨-, -, -, rfl⟩ := archivePayrollRunWithReason_ok.mp hf
    exact (mirror_put rfl).symm
  | recordBatchSplit =>
    obtain ⟨_, hf, -, rfl⟩ := onStorage_ok.mp h
    obtain ⟨-, -, rfl⟩ := recordBatchSplit_ok.mp hf
    exact (mirror_put rfl).symm
  | placeComplianceHold =>
    obtain ⟨_, _, hf, -, rfl⟩ := onStorageRet_ok.mp h
    obtain ⟨-, -, -, rfl⟩ := placeComplianceHold_ok.mp hf
    exact read_hold ..
  | releaseComplianceHold =>
    obtain ⟨_, hf, -, rfl⟩ := onStorage_ok.mp h
    obtain ⟨-, _, hhold, -, rfl⟩ := releaseComplianceHold_ok.mp hf
    exact change_mirror hhold rfl rfl
  | setReservationExpiryPolicy =>
    obtain ⟨_, hf, -, rfl⟩ := onStorage_ok.mp h
    obtain ⟨-, -, rfl⟩ := setReservationExpiryPolicy_ok.mp hf
    exact (mirror_hidden _ _).symm
  | releaseExpiredReservation =>
    obtain ⟨_, hf, -, rfl⟩ := onStorage_ok.mp h
    obtain ⟨⟨_, hexpiry, -⟩, rfl⟩ := releaseExpiredReservation_ok.mp hf
    simp only [Call.events, hexpiry, Option.map_some, Option.toList_some]
    exact (mirror_drop_hidden _).symm
  | query =>
    rw [exec_query_ok h]
    rfl

-- ---------------------------------------------------------------------------
-- Transfers
-- ---------------------------------------------------------------------------

theorem forall_mem_map_toList {P : Event → Prop} {o : Option α} {f : α → Event}
    (h : ∀ a, P (f a)) : ∀ event ∈ (o.map f).toList, P event := by
  cases o with
  | none => simp
  | some a => simpa using h a

theorem events_quiet (e : Env) (s : Storage) {call : Call} (hout : call.reachesOut = false) :
    ∀ event ∈ call.events e s, transferTold event = none := by
  cases call with
  | batchProcessPayroll | deposit | approveEmergencyWithdrawal => simp [Call.reachesOut] at hout
  | setAssetAllowed | setReservationExpiryPolicy | query => exact List.forall_mem_nil _
  | acceptAdminRotation | acceptTreasuryRotation | acceptAdminHandover | finalizeRunDraft
  | releaseExpiredReservation => exact forall_mem_map_toList fun _ => rfl
  | updateReconciliationStatus =>
    exact List.forall_mem_cons.mpr ⟨rfl, List.forall_mem_singleton.mpr rfl⟩
  | preparePayrollRun =>
    simp only [Call.events, preparedEvents]
    split
    · exact List.forall_mem_cons.mpr ⟨rfl, List.forall_mem_cons.mpr
        ⟨rfl, List.forall_mem_singleton.mpr rfl⟩⟩
    · exact List.forall_mem_nil _
  | finalizePayrollRun | cancelPayrollRunWithReason | cancelPayrollRun =>
    simp only [Call.events, finalizedEvents, cancelledEvents, resolvedEvents]
    split
    · exact List.forall_mem_cons.mpr ⟨rfl, List.forall_mem_cons.mpr
        ⟨rfl, List.forall_mem_singleton.mpr rfl⟩⟩
    · exact List.forall_mem_nil _
  | amendRunDraft =>
    simp only [Call.events, amendedEvents]
    split
    · exact List.forall_mem_cons.mpr ⟨rfl, List.forall_mem_singleton.mpr rfl⟩
    · exact List.forall_mem_nil _
  | _ => exact List.forall_mem_singleton.mpr rfl

theorem book_quiet {events : List Event} (h : ∀ event ∈ events, transferTold event = none)
    (x : Book) : events.foldl Book.read x = ⟨events.foldl readEvent x.entries, x.transfers⟩ := by
  induction events generalizing x with
  | nil => rfl
  | cons event rest ih =>
    obtain ⟨hfirst, hrest⟩ := List.forall_mem_cons.mp h
    have hread : x.read event = ⟨readEvent x.entries event, x.transfers⟩ := by
      simp [Book.read, readTransfer, hfirst]
    rw [List.foldl_cons, List.foldl_cons, hread, ih hrest]

theorem book_transfer {m : Mirrored} (haddrs : m .addresses = some addrs)
    (ht : transferTold event = some transfer) (transfers : List Transfer) :
    Book.read ⟨m, transfers⟩ event = ⟨readEvent m event, transfer addrs :: transfers⟩ := by
  simp [Book.read, readTransfer, ht, haddrs]

theorem book_payments (e : Env) (payments : List Payment) {m : Mirrored}
    (haddrs : m .addresses = some addrs) (transfers : List Transfer) :
    (payments.map fun p => emitPaymentExecuted e p.2.2 p.2.1).foldl Book.read ⟨m, transfers⟩ =
      ⟨m, salaryTransfers addrs payments ++ transfers⟩ := by
  induction payments generalizing transfers with
  | nil => rfl
  | cons p rest ih =>
    have htold : transferTold (emitPaymentExecuted e p.2.2 p.2.1) =
        some fun addrs => ⟨.salary, addrs.token, addrs.treasury, p.2.2, p.2.1⟩ := rfl
    have hentries : readEvent m (emitPaymentExecuted e p.2.2 p.2.1) = m := rfl
    rw [List.map_cons, List.foldl_cons, book_transfer haddrs htold, hentries, ih]
    simp [salaryTransfers]

/-- What a call does to the storage and to the transfers, its events tell. -/
theorem read_exec (h : exec e call w = .ok (ret, w')) :
    (call.events e w.payroll).foldl Book.read w.book = w'.book := by
  have hentries := read_entries h
  cases hout : call.reachesOut with
  | false =>
    have htransfers : w'.transfers = w.transfers := by rw [exec_inside h hout]
    rw [book_quiet (events_quiet e w.payroll hout), World.book, hentries, World.book, htransfers]
  | true =>
    cases call with
    | batchProcessPayroll b =>
      obtain ⟨_, hf, -⟩ := exec_batchProcessPayroll_ok.mp h
      obtain ⟨-, addrs, haddrs, -, -, -, -, -, -, _, -, _, -, -, hw'⟩ := batchProcessPayroll_ok.mp hf
      have hquiet : ∀ event ∈ [runStateRecorded e (runCount w.payroll + 1) .reconciliationRequired,
          emitRunExecuted e (runCount w.payroll + 1) b.expectedTotalSpend],
          transferTold event = none :=
        List.forall_mem_cons.mpr ⟨rfl, List.forall_mem_singleton.mpr rfl⟩
      have hlog : w'.transfers = salaryTransfers addrs b.payments ++ w.transfers := by
        rw [hw']
        rfl
      simp only [Call.events, executedEvents, List.foldl_append, read_payments] at hentries ⊢
      rw [World.book, book_payments e b.payments (mirror_some haddrs), book_quiet hquiet, hentries,
        World.book, hlog]
    | deposit depositor amount depositId =>
      obtain ⟨hf, -⟩ := onWorld_ok.mp h
      obtain ⟨-, -, -, -, addrs, haddrs, _, -, -, -, _, -, -, hw'⟩ := deposit_ok.mp hf
      have hlog : w'.transfers =
          ⟨.deposit, addrs.token, depositor, addrs.treasury, amount⟩ :: w.transfers := by rw [hw']
      simp only [Call.events, List.foldl_cons, List.foldl_nil] at hentries ⊢
      rw [World.book, book_transfer (mirror_some haddrs) rfl, hentries, World.book, hlog]
    | approveEmergencyWithdrawal =>
      obtain ⟨hf, -⟩ := onWorld_ok.mp h
      obtain ⟨-, addrs, haddrs, -, -, request, hrequest, -, _, -, hw'⟩ :=
        approveEmergencyWithdrawal_ok.mp hf
      have hlog : w'.transfers = ⟨.emergency, addrs.token, addrs.treasury, request.recipient,
          request.amount⟩ :: w.transfers := by rw [hw']
      simp only [Call.events, hrequest, Option.map_some, Option.toList_some, List.foldl_cons,
        List.foldl_nil] at hentries ⊢
      rw [World.book, book_transfer (mirror_some haddrs) rfl, hentries, World.book, hlog]
    | _ => simp [Call.reachesOut] at hout

end

theorem read_published (w : World) (i : Input) :
    (published w i).foldl Book.read w.book = (next w i).book := by
  rcases next_payroll w i with ⟨call, ret, hx, -⟩ | ⟨hsame, hlog, hnone⟩
  · rw [published_executes hx]
    exact read_exec hx.2
  · rw [published_unperformed hnone, World.book, World.book, hsame, hlog]
    rfl

/-- The log of a run gives back the transfers, and what the events tell of the
storage. -/
theorem log_gives_book (inputs : List Input) :
    (log next published World.genesis inputs).foldl Book.read Book.blank =
      (runFrom next World.genesis inputs).book := by
  have hblank : World.genesis.book = Book.blank := by
    simp [World.book, World.genesis, Book.blank, mirror]
  rw [← hblank]
  exact replay_log (fun w i _ => read_published w i) inputs

end ZkPayroll.Payroll
