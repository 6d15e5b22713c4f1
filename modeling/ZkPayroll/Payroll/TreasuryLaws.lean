import ZkPayroll.Payroll.Treasury
import ZkPayroll.Payroll.RunLaws

/-!
# What the entry points that reach other contracts do

For each entry point, exactly when it succeeds and the world it leaves. The
payout loop alternates between the commitment and the token contract; it is
cut into what it asks of the token (`settleTokens`) and what it asks of the
commitment contract (`settleCommitments`), which do not see each other.
-/

namespace ZkPayroll.Payroll

open Host

section
variable {e : Env} {s s' : Storage} {w w' : World}

-- ---------------------------------------------------------------------------
-- Calls to the other contracts
-- ---------------------------------------------------------------------------

theorem World.transfer_ok {t : Transfer} : w.transfer t = .ok w' ↔
    ∃ balances, Token.transfer (w.tokens t.asset) t.source t.dest t.amount = .ok balances ∧
      w' = { w with
        tokens := Function.update w.tokens t.asset balances
        transfers := t :: w.transfers } := by
  simp only [World.transfer, bind_ok, pure_ok]

theorem World.callCommitment_ok {call : SalaryCommitmentContract.Call} :
    w.callCommitment e callee call = .ok w' ↔
      ∃ c, SalaryCommitmentContract.exec (e.calling callee) (w.commitments callee) call = .ok c ∧
        w' = { w with commitments := Function.update w.commitments callee c } := by
  simp only [World.callCommitment, bind_ok, pure_ok]

-- ---------------------------------------------------------------------------
-- Deposits and withdrawals
-- ---------------------------------------------------------------------------

/-- What is left of a balance when the reservation is taken off, and nothing
where the difference does not fit. -/
def unreserved (w : World) (asset treasury : Address) : Int :=
  (checkedSub (w.tokenBalance asset treasury) (getLockedFunds w.payroll asset)).getD 0

theorem getAvailableTreasuryBalance_ok : getAvailableTreasuryBalance w asset = .ok x ↔
    ∃ addrs, w.payroll.get .addresses = some addrs ∧ x = unreserved w asset addrs.treasury := by
  simp only [getAvailableTreasuryBalance, bind_ok, getAddresses_ok, pure_ok, unreserved]

theorem deposit_ok : deposit e depositor amount depositId w = .ok w' ↔
    ¬ Paused e w.payroll ∧ depositId ≠ BytesN.zero ∧ 0 < amount ∧
      w.payroll.get (.depositNonce depositId) = none ∧
      ∃ addrs, w.payroll.get .addresses = some addrs ∧
      ∃ owner, w.payroll.get .treasuryOwner = some owner ∧ depositor ∈ e.auths ∧ owner ∈ e.auths ∧
      ∃ balances, Token.transfer (w.tokens addrs.token) depositor addrs.treasury amount =
          .ok balances ∧
        InI128 ((w.payroll.get (.companyBalance depositor)).getD 0 + amount) ∧
        w' = { w with
          payroll := (w.payroll.set (.depositNonce depositId) true).set (.companyBalance depositor)
            ((w.payroll.get (.companyBalance depositor)).getD 0 + amount)
          tokens := Function.update w.tokens addrs.token balances
          transfers := ⟨.deposit, addrs.token, depositor, addrs.treasury, amount⟩ :: w.transfers } := by
  simp only [deposit, bind_ok, requireNotPaused_ok, validateNonZeroDigest_ok, ensure_ok,
    Store.has_eq_false, getAddresses_ok, expect_ok, requireAuth_ok, World.transfer_ok, addI128_ok,
    pure_ok, ne_eq, reduceCtorEq, not_false_eq_true, Store.get_set_ne, exists_const, and_assoc,
    exists_and_left, exists_eq_left]
  refine and_congr_right fun _ => and_congr_right fun _ => and_congr_right fun _ =>
    and_congr_right fun _ => exists_congr fun addrs => and_congr_right fun _ =>
    exists_congr fun owner => and_congr_right fun _ => and_congr_right fun _ =>
    and_congr_right fun _ => ?_
  constructor
  · rintro ⟨_, ⟨balances, ht, rfl⟩, hfit, rfl⟩
    exact ⟨balances, ht, by simpa using hfit, by simp⟩
  · rintro ⟨balances, ht, hfit, rfl⟩
    exact ⟨_, ⟨balances, ht, rfl⟩, by simpa using hfit, by simp⟩

theorem requestEmergencyWithdrawal_ok :
    requestEmergencyWithdrawal e treasuryOwner amount recipient w = .ok w' ↔
      ¬ Paused e w.payroll ∧ 0 < amount ∧ w.payroll.get .treasuryOwner = some treasuryOwner ∧
        treasuryOwner ∈ e.auths ∧ w.payroll.get .emergencyRequest = none ∧
        (∃ addrs, w.payroll.get .addresses = some addrs ∧
          amount ≤ unreserved w addrs.token addrs.treasury) ∧
        w' = { w with
          payroll := w.payroll.set .emergencyRequest ⟨amount, recipient, e.timestamp, false⟩ } := by
  simp only [requestEmergencyWithdrawal, bind_ok, requireNotPaused_ok, ensure_ok, expect_ok,
    requireAuth_ok, Store.has_eq_false, getAddresses_ok, getAvailableTreasuryBalance_ok, pure_ok,
    exists_const]
  refine and_congr_right fun _ => and_congr_right fun _ => ?_
  constructor
  · rintro ⟨_, howner, rfl, hauth, hnone, addrs, haddrs, _, ⟨addrs', haddrs', rfl⟩, hle, rfl⟩
    obtain rfl : addrs = addrs' := by simpa [haddrs] using haddrs'
    exact ⟨howner, hauth, hnone, ⟨addrs, haddrs, hle⟩, rfl⟩
  · rintro ⟨howner, hauth, hnone, ⟨addrs, haddrs, hle⟩, rfl⟩
    exact ⟨_, howner, rfl, hauth, hnone, addrs, haddrs, _, ⟨addrs, haddrs, rfl⟩, hle, rfl⟩

theorem approveEmergencyWithdrawal_ok : approveEmergencyWithdrawal e admin w = .ok w' ↔
    ¬ Paused e w.payroll ∧
      ∃ addrs, w.payroll.get .addresses = some addrs ∧ admin = addrs.admin ∧ admin ∈ e.auths ∧
      ∃ request, w.payroll.get .emergencyRequest = some request ∧
        request.amount ≤ unreserved w addrs.token addrs.treasury ∧
      ∃ balances, Token.transfer (w.tokens addrs.token) addrs.treasury request.recipient
          request.amount = .ok balances ∧
        w' = { w with
          payroll := w.payroll.remove .emergencyRequest
          tokens := Function.update w.tokens addrs.token balances
          transfers := ⟨.emergency, addrs.token, addrs.treasury, request.recipient,
            request.amount⟩ :: w.transfers } := by
  simp only [approveEmergencyWithdrawal, bind_ok, requireNotPaused_ok, requireAdmin_ok, expect_ok,
    ensure_ok, getAvailableTreasuryBalance_ok, World.transfer_ok, exists_const, and_assoc]
  refine and_congr_right fun _ => exists_congr fun addrs => and_congr_right fun haddrs =>
    and_congr_right fun _ => and_congr_right fun _ => exists_congr fun request =>
    and_congr_right fun _ => ?_
  constructor
  · rintro ⟨_, ⟨addrs', haddrs', rfl⟩, hle, h⟩
    obtain rfl : addrs = addrs' := by simpa [haddrs] using haddrs'
    exact ⟨hle, h⟩
  · rintro ⟨hle, h⟩
    exact ⟨_, ⟨addrs, haddrs, rfl⟩, hle, h⟩

theorem cancelEmergencyWithdrawal_ok : cancelEmergencyWithdrawal e caller s = .ok s' ↔
    ¬ Paused e s ∧
      (∃ addrs, s.get .addresses = some addrs ∧ ∃ owner, s.get .treasuryOwner = some owner ∧
        (caller = addrs.admin ∨ caller = owner)) ∧
      caller ∈ e.auths ∧ (∃ request, s.get .emergencyRequest = some request) ∧
      s' = s.remove .emergencyRequest := by
  simp only [cancelEmergencyWithdrawal, bind_ok, requireNotPaused_ok, getAddresses_ok, expect_ok,
    ensure_ok, requireAuth_ok, Store.has_eq_true, pure_ok, exists_const]
  refine and_congr_right fun _ => ?_
  constructor
  · rintro ⟨addrs, haddrs, owner, howner, hcaller, hauth, hrequest, rfl⟩
    exact ⟨⟨addrs, haddrs, owner, howner, hcaller⟩, hauth, hrequest, rfl⟩
  · rintro ⟨⟨addrs, haddrs, owner, howner, hcaller⟩, hauth, hrequest, rfl⟩
    exact ⟨addrs, haddrs, owner, howner, hcaller, hauth, hrequest, rfl⟩

-- ---------------------------------------------------------------------------
-- The payout loop
-- ---------------------------------------------------------------------------

/-- The loop as the token contract sees it. -/
def settleTokens (treasury : Address) : List Payment → Token.Storage → Result Token.Storage
  | [], t => pure t
  | (_, amount, employee) :: rest, t => do
    let t ← Token.transfer t treasury employee amount
    settleTokens treasury rest t

/-- The loop as the commitment contract sees it, from index `i` on. -/
def settleCommitments (e : Env) (verifier : Address) :
    (i : Nat) → List Payment → SalaryCommitmentContract.Storage →
      Result SalaryCommitmentContract.Storage
  | _, [], c => pure c
  | i, (proof, _, employee) :: rest, c => do
    let stored ← SalaryCommitmentContract.getCommitment c employee
    ensure (e.verifyPaymentProof verifier proof
        [stored.commitment, paymentNullifier i, BytesN.zero] = true)
      ("Invalid payment proof for employee " ++ toString i)
    let c ← SalaryCommitmentContract.recordNullifier e (paymentNullifier i) c
    let c ← SalaryCommitmentContract.lockCommitmentUpdates e employee c
    settleCommitments e verifier (i + 1) rest c

def salaryTransfers (addrs : ContractAddresses) (payments : List Payment) : List Transfer :=
  (payments.map fun p => ⟨.salary, addrs.token, addrs.treasury, p.2.2, p.2.1⟩).reverse

def World.settled (w : World) (addrs : ContractAddresses) (payments : List Payment)
    (t : Token.Storage) (c : SalaryCommitmentContract.Storage) : World :=
  { w with
    tokens := Function.update w.tokens addrs.token t
    commitments := Function.update w.commitments addrs.commitment c
    transfers := salaryTransfers addrs payments ++ w.transfers }

theorem payEmployees_ok {addrs : ContractAddresses} {payments : List Payment} :
    payEmployees e addrs i payments w = .ok w' ↔
      ∃ t, settleTokens addrs.treasury payments (w.tokens addrs.token) = .ok t ∧
      ∃ c, settleCommitments (e.calling addrs.commitment) addrs.verifier i payments
          (w.commitments addrs.commitment) = .ok c ∧
        w' = w.settled addrs payments t c := by
  induction payments generalizing i w with
  | nil =>
    simp [payEmployees, settleTokens, settleCommitments, pure_ok, World.settled, salaryTransfers]
  | cons p rest ih =>
    obtain ⟨proof, amount, employee⟩ := p
    simp only [payEmployees, payEmployee, settleTokens, settleCommitments, bind_ok, ensure_ok, ih,
      World.callCommitment_ok, World.transfer_ok, SalaryCommitmentContract.exec, exists_const]
    constructor
    · rintro ⟨_, ⟨stored, hstored, hproof, _, ⟨c, hc, rfl⟩, _, ⟨t, ht, rfl⟩, c', hc', rfl⟩, t', ht',
        c'', hc'', rfl⟩
      simp only [Function.update_self] at hc' ht' hc''
      refine ⟨t', ⟨t, ht, ht'⟩, c'', ⟨stored, hstored, hproof, c, hc, c', hc', hc''⟩, ?_⟩
      simp [World.settled, salaryTransfers]
    · rintro ⟨t', ⟨t, ht, ht'⟩, c'', ⟨stored, hstored, hproof, c, hc, c', hc', hc''⟩, rfl⟩
      refine ⟨_, ⟨stored, hstored, hproof, _, ⟨c, hc, rfl⟩, _, ⟨t, ht, rfl⟩, c', ?_, rfl⟩, t', ?_,
        c'', ?_, ?_⟩
      · simpa using hc'
      · simpa using ht'
      · simpa using hc''
      · simp [World.settled, salaryTransfers]

-- ---------------------------------------------------------------------------
-- Direct execution of a batch
-- ---------------------------------------------------------------------------

theorem validateDraftHash_ok :
    validateDraftHash draftHash = .ok u ↔ ∀ dh, draftHash = some dh → dh ≠ BytesN.zero := by
  cases draftHash <;> simp [validateDraftHash, validateNonZeroDigest_ok, pure_ok]

def dropDraft (draftHash : Option (BytesN 32)) (s : Storage) : Storage :=
  draftHash.elim s fun dh => s.remove (.draftCommitment dh)

theorem consumeDraftCommitment_ok : consumeDraftCommitment draftHash s = .ok s' ↔
    DraftCommitted draftHash s ∧ s' = dropDraft draftHash s := by
  unfold DraftCommitted dropDraft
  cases draftHash <;>
    simp [consumeDraftCommitment, bind_ok, ensure_ok, pure_ok, -bind_pure_comp]

@[simp] theorem get_dropDraft (h : ∀ dh, k ≠ .draftCommitment dh) :
    (dropDraft draftHash s).get k = s.get k := by
  unfold dropDraft
  cases draftHash with
  | none => rfl
  | some dh => exact Store.get_remove_ne s (h dh)

theorem nonceAccepted_dropDraft :
    NonceAccepted (dropDraft draftHash s) admin nonce ↔ NonceAccepted s admin nonce := by
  simp [NonceAccepted]

theorem claimOk_dropDraft : ClaimOk admin (dropDraft draftHash s) ↔ ClaimOk admin s := by
  simp [ClaimOk, runCount, nonceSequenceLength]

theorem paused_dropDraft : Paused e (dropDraft draftHash s) ↔ Paused e s := by
  simp [Paused]

theorem isAssetAllowed_dropDraft :
    isAssetAllowed (dropDraft draftHash s) asset = isAssetAllowed s asset := by
  simp [isAssetAllowed]

theorem runCount_dropDraft : runCount (dropDraft draftHash s) = runCount s := by
  simp [runCount]

/-- The record `batch_process_payroll` stores. -/
def Batch.payrollRun (b : Batch) (e : Env) (admin : Address) (runId : Nat) : PayrollRun :=
  { runId := runId
    executedAt := e.timestamp
    admin := admin
    totalAmount := b.expectedTotalSpend
    employeeCount := b.proofs.length
    draftHash := b.resolvedDraftHash
    nonce := b.nonce
    reconciliationStatus := .unreconciled
    metadataHash := BytesN.zero }

def executed (e : Env) (addrs : ContractAddresses) (b : Batch) (s : Storage) : Storage :=
  ((claimRunId e addrs.admin b.nonce s).set (.payrollRun (runCount s + 1))
    (b.payrollRun e addrs.admin (runCount s + 1))).set (.payrollState (runCount s + 1))
      .reconciliationRequired

/-- The checks `batch_process_payroll` makes before it claims a run id. -/
structure BatchAdmitted (e : Env) (b : Batch) (s : Storage) : Prop where
  active : CompanyActive s
  version : VersionSupported s
  nonceNonZero : b.nonce ≠ BytesN.zero
  draftNonZero : ∀ dh, b.draftHash = some dh → dh ≠ BytesN.zero
  shape : b.ShapeOk
  nonceFresh : s.get (.runNonce b.nonce) = none
  draftCommitted : DraftCommitted b.draftHash s
  payments : b.PaymentsOk

theorem batchProcessPayroll_ok : batchProcessPayroll e b w = .ok (runId, w') ↔
    BatchAdmitted e b w.payroll ∧
      ∃ addrs, w.payroll.get .addresses = some addrs ∧
        NonceAccepted w.payroll addrs.admin b.nonce ∧ isAssetAllowed w.payroll addrs.token = true ∧
        ¬ Paused e w.payroll ∧ addrs.admin ∈ e.auths ∧ ClaimOk addrs.admin w.payroll ∧
        b.expectedTotalSpend ≤ w.tokenBalance addrs.token addrs.treasury ∧
      ∃ t, settleTokens addrs.treasury b.payments (w.tokens addrs.token) = .ok t ∧
      ∃ c, settleCommitments (e.calling addrs.commitment) addrs.verifier 0 b.payments
          (w.commitments addrs.commitment) = .ok c ∧
        runId = runCount w.payroll + 1 ∧
        w' = { w.settled addrs b.payments t c with
          payroll := executed e addrs b (dropDraft b.draftHash w.payroll) } := by
  simp only [batchProcessPayroll, bind_ok, requireCompanyActive_ok,
    validateStorageVersionForOperation_ok, validateNonZeroDigest_ok, validateDraftHash_ok,
    Batch.validateShape_ok, ensure_ok, Store.has_eq_false, consumeDraftCommitment_ok,
    Batch.validatePayments_ok, getAddresses_ok, validateNonceMonotonicity_ok, requireNotPaused_ok,
    requireAuth_ok, deriveRunId_ok, updateNonceSequence_ok, nonceSequenceLength_claim,
    payEmployees_ok, recordPayrollRunState, pure_ok, exists_const, and_assoc, exists_and_left,
    exists_eq_left, Prod.mk.injEq]
  constructor
  · rintro ⟨hactive, hversion, hnonce, hdraft, hshape, hfresh, hcommitted, hpay, addrs, haddrs,
      haccepted, hallowed, hpaused, hauth, hcount, hseq, hfunds, _, ⟨t, ht, c, hc, rfl⟩, hid, hw⟩
    have hclaim : ClaimOk addrs.admin (dropDraft b.draftHash w.payroll) := ⟨hcount, hseq⟩
    refine ⟨⟨hactive, hversion, hnonce, hdraft, hshape, hfresh, hcommitted, hpay⟩, addrs,
      by simpa using haddrs, nonceAccepted_dropDraft.mp haccepted, ?_,
      fun h => hpaused (paused_dropDraft.mpr h), hauth, claimOk_dropDraft.mp hclaim, hfunds, t, ht, c,
      hc, ?_, ?_⟩
    · simpa [isAssetAllowed_dropDraft] using hallowed
    · simpa [runCount_dropDraft] using hid
    · rw [hw]
      rfl
  · rintro ⟨hadmitted, addrs, haddrs, haccepted, hallowed, hpaused, hauth, hclaim, hfunds, t, ht, c,
      hc, rfl, rfl⟩
    have hclaim' : ClaimOk addrs.admin (dropDraft b.draftHash w.payroll) :=
      claimOk_dropDraft.mpr hclaim
    refine ⟨hadmitted.active, hadmitted.version, hadmitted.nonceNonZero, hadmitted.draftNonZero,
      hadmitted.shape, hadmitted.nonceFresh, hadmitted.draftCommitted, hadmitted.payments, addrs,
      by simpa using haddrs,
      nonceAccepted_dropDraft.mpr haccepted, ?_, fun h => hpaused (paused_dropDraft.mp h), hauth,
      hclaim'.1, hclaim'.2, hfunds, _, ⟨t, ht, c, hc, rfl⟩, ?_, ?_⟩
    · simpa [isAssetAllowed_dropDraft] using hallowed
    · simp [runCount_dropDraft]
    · rfl

end

end ZkPayroll.Payroll
