import ZkPayroll.PaymentExecutor.Contract

/-!
# What the executor's functions do

For each function, exactly when it succeeds and what it leaves. A payment is
read as the values it looks up (`Reads`), its guards (`Payable`) and the
system it leaves (`System.paid`); a batch is a sequence of payments (`Pays`),
each made in the system the one before left.
-/

namespace ZkPayroll.PaymentExecutor

open Host

section
variable {e : LedgerEnv} {s s' : Storage} {w w' : System}

-- ---------------------------------------------------------------------------
-- Guards and configuration
-- ---------------------------------------------------------------------------

def Paused (e : LedgerEnv) (s : Storage) : Prop :=
  ∃ pm, s.get .pauseManager = some pm ∧ e.isPaused pm = true

theorem requireNotPaused_ok : requireNotPaused e s = .ok u ↔ ¬ Paused e s := by
  unfold requireNotPaused Paused
  cases s.get .pauseManager <;> simp [ensure_ok, pure_ok]

theorem getAddresses_ok : getAddresses s = .ok addresses ↔ s.get .addresses = some addresses :=
  expect_ok

theorem company_ok {addresses : ContractAddresses} : w.company addresses companyId = .ok company ↔
    (w.registries addresses.registry).get (.company companyId) = some company :=
  PayrollRegistry.getCompany_ok

def DataKey.isConfig : DataKey → Bool
  | .addresses | .executorAdmin | .pauseManager | .allowedAsset _ | .storageVersion
  | .assetDecimals _ => true
  | _ => false

theorem initializeExecutor_frame (h : initializeExecutor addresses s = .ok s') :
    Store.Frame (fun k => k.isConfig = true) s s' := by
  simp only [initializeExecutor, bind_ok, ensure_ok, pure_ok] at h
  obtain ⟨_, -, rfl⟩ := h
  simp [DataKey.isConfig, Store.Frame.refl]

theorem setExecutorAdmin_frame (h : setExecutorAdmin e admin s = .ok s') :
    Store.Frame (fun k => k.isConfig = true) s s' := by
  simp only [setExecutorAdmin, bind_ok, ensure_ok, pure_ok] at h
  obtain ⟨_, -, _, -, rfl⟩ := h
  simp [DataKey.isConfig, Store.Frame.refl]

theorem setPauseManager_frame (h : setPauseManager e pm s = .ok s') :
    Store.Frame (fun k => k.isConfig = true) s s' := by
  simp only [setPauseManager, bind_ok, pure_ok] at h
  obtain ⟨_, -, rfl⟩ := h
  simp [DataKey.isConfig, Store.Frame.refl]

theorem setAssetAllowed_frame (h : setAssetAllowed e asset allowed s = .ok s') :
    Store.Frame (fun k => k.isConfig = true) s s' := by
  simp only [setAssetAllowed, bind_ok, pure_ok] at h
  obtain ⟨_, -, rfl⟩ := h
  simp [DataKey.isConfig, Store.Frame.refl]

theorem setAssetDecimals_frame (h : setAssetDecimals e asset decimals s = .ok s') :
    Store.Frame (fun k => k.isConfig = true) s s' := by
  simp only [setAssetDecimals, bind_ok, ensure_ok, pure_ok] at h
  obtain ⟨_, -, _, -, rfl⟩ := h
  simp [DataKey.isConfig, Store.Frame.refl]

-- ---------------------------------------------------------------------------
-- Periods
-- ---------------------------------------------------------------------------

def CompanyCalls (e : LedgerEnv) (companyId : Nat) (w : System) : Prop :=
  ¬ Paused e w.executor ∧ ∃ addresses, w.executor.get .addresses = some addresses ∧
    ∃ company, (w.registries addresses.registry).get (.company companyId) = some company ∧
      company.admin ∈ e.auths

/-- The number the company's next period gets. -/
def nextPeriodId (s : Storage) (companyId : Nat) : Nat :=
  (s.get (.periodSequence companyId)).getD 1

def newPeriod (e : LedgerEnv) (companyId periodId : Nat) : PayrollPeriod :=
  ⟨periodId, companyId, e.sequence, 0, e.timestamp, false, 0⟩

/-- The company's latest period is still open. -/
def PreviousOpen (s : Storage) (companyId : Nat) : Prop :=
  1 < nextPeriodId s companyId ∧
    (s.get (.period companyId (nextPeriodId s companyId - 1))).any (fun p => !p.closed) = true

theorem createPeriod_ok : createPeriod e companyId w = .ok (period, w') ↔
    CompanyCalls e companyId w ∧
      w.executor.get (.period companyId (nextPeriodId w.executor companyId)) = none ∧
      ¬ PreviousOpen w.executor companyId ∧ nextPeriodId w.executor companyId + 1 ≤ u32Max ∧
      period = newPeriod e companyId (nextPeriodId w.executor companyId) ∧
      w' = { w with
        executor := (w.executor.set (.period companyId (nextPeriodId w.executor companyId))
          (newPeriod e companyId (nextPeriodId w.executor companyId))).set
            (.periodSequence companyId) (nextPeriodId w.executor companyId + 1) } := by
  simp only [createPeriod, bind_ok, orPanic_ok, requireNotPaused_ok, getAddresses_ok, company_ok,
    requireAuth_ok, check_ok, Store.has_eq_false, addUpTo_ok, pure_ok, exists_const, Prod.mk.injEq,
    and_assoc, exists_and_left, exists_eq_left]
  constructor
  · rintro ⟨hunpaused, addresses, haddresses, company, hcompany, hauth, hfree, hclosed, hroom, hperiod,
      hw⟩
    exact ⟨⟨hunpaused, addresses, haddresses, company, hcompany, hauth⟩, hfree, hclosed, hroom,
      hperiod, hw⟩
  · rintro ⟨⟨hunpaused, addresses, haddresses, company, hcompany, hauth⟩, hfree, hclosed, hroom,
      hperiod, hw⟩
    exact ⟨hunpaused, addresses, haddresses, company, hcompany, hauth, hfree, hclosed, hroom, hperiod,
      hw⟩

def PayrollPeriod.ended (p : PayrollPeriod) (e : LedgerEnv) : PayrollPeriod :=
  { p with closed := true, endLedger := e.sequence }

theorem closePeriod_ok : closePeriod e companyId periodId w = .ok (period, w') ↔
    CompanyCalls e companyId w ∧
      ∃ stored, w.executor.get (.period companyId periodId) = some stored ∧ stored.closed = false ∧
        period = stored.ended e ∧
        w' = { w with executor := w.executor.set (.period companyId periodId) (stored.ended e) } := by
  simp only [closePeriod, bind_ok, orPanic_ok, requireNotPaused_ok, getAddresses_ok, company_ok,
    requireAuth_ok, check_ok, okOr_ok, pure_ok, exists_const, Prod.mk.injEq]
  constructor
  · rintro ⟨hunpaused, addresses, haddresses, company, hcompany, hauth, stored, hstored, hopen,
      hperiod, hw⟩
    exact ⟨⟨hunpaused, addresses, haddresses, company, hcompany, hauth⟩, stored, hstored, hopen,
      hperiod, hw⟩
  · rintro ⟨⟨hunpaused, addresses, haddresses, company, hcompany, hauth⟩, stored, hstored, hopen,
      hperiod, hw⟩
    exact ⟨hunpaused, addresses, haddresses, company, hcompany, hauth, stored, hstored, hopen, hperiod,
      hw⟩

-- ---------------------------------------------------------------------------
-- One payment
-- ---------------------------------------------------------------------------

/-- What a payment looks up, and the token's storage after its transfer. -/
structure Reads where
  addresses : ContractAddresses
  period : PayrollPeriod
  stored : SalaryCommitmentContract.SalaryCommitment
  company : PayrollRegistry.CompanyInfo
  balances : Token.Storage

/-- The guards of `execute_payment`, those of the contracts it calls
included. -/
structure Payable (e : LedgerEnv) (p : PaymentRequest) (w : System) (r : Reads) : Prop where
  configured : w.executor.get .addresses = some r.addresses
  unpaused : ¬ Paused e w.executor
  inPeriod : w.executor.get (.period p.companyId p.period) = some r.period
  periodOpen : r.period.closed = false
  unexpired : ¬ maxProofAgeSeconds < e.timestamp - r.period.createdAt
  unspent : w.executor.get (.nullifier p.nullifier) = none
  unpaid : w.executor.get (.payment p.employee p.period) = none
  committed : (w.commitments r.addresses.commitment).get (.commitment p.employee) = some r.stored
  registered : (w.registries r.addresses.registry).get (.company p.companyId) = some r.company
  adminAuth : r.company.admin ∈ e.auths
  treasuryAuth : r.company.treasury ∈ e.auths
  proven : ∃ amountInput, amountToPublicInput p.amount = .ok amountInput ∧
    verify e r.addresses.verifier p.proof [r.stored.commitment, amountInput] = true
  allowed : isAssetAllowed w.executor r.addresses.token = true
  decimals : getAssetDecimals w.executor r.addresses.token ≠ 0
  nonneg : ¬ p.amount < 0
  normalised : ¬ (0 < p.amount ∧
    p.amount < 10 ^ getAssetDecimals w.executor r.addresses.token / 1000000000)
  transferred : Token.transfer (w.tokens r.addresses.token) r.company.treasury p.employee p.amount =
    .ok r.balances
  counted : r.period.paymentCount + 1 ≤ u32Max
  totalFits : InI128 (getTotalPaid w.executor p.companyId + p.amount)

def paidStorage (e : LedgerEnv) (p : PaymentRequest) (period : PayrollPeriod) (s : Storage) :
    Storage :=
  (((s.set (.payment p.employee p.period) (p.record e)).set (.nullifier p.nullifier) true).set
    (.period p.companyId p.period) { period with paymentCount := period.paymentCount + 1 }).set
      (.totalPaid p.companyId) (getTotalPaid s p.companyId + p.amount)

def PaymentRequest.transfer (p : PaymentRequest) (r : Reads) : Transfer :=
  ⟨p.companyId, r.addresses.token, r.company.treasury, p.employee, p.amount⟩

def System.paid (w : System) (e : LedgerEnv) (p : PaymentRequest) (r : Reads) : System :=
  { w with
    executor := paidStorage e p r.period w.executor
    tokens := Function.update w.tokens r.addresses.token r.balances
    transfers := p.transfer r :: w.transfers }

theorem paid_executor (w : System) (e : LedgerEnv) (p : PaymentRequest) (r : Reads) :
    (w.paid e p r).executor = paidStorage e p r.period w.executor := rfl

theorem System.transfer_ok {t : Transfer} : w.transfer t = .ok w' ↔
    ∃ balances, Token.transfer (w.tokens t.asset) t.source t.dest t.amount = .ok balances ∧
      w' = { w with
        tokens := Function.update w.tokens t.asset balances
        transfers := t :: w.transfers } := by
  simp only [System.transfer, bind_ok, pure_ok]

theorem countPayment_ok (h : s.get (.period companyId periodId) = some period) :
    countPayment companyId periodId s = .ok s' ↔
      period.paymentCount + 1 ≤ u32Max ∧ s' = s.set (.period companyId periodId)
        { period with paymentCount := period.paymentCount + 1 } := by
  simp only [countPayment, h, bind_ok, addUpTo_ok, pure_ok, and_assoc, exists_and_left,
    exists_eq_left]

theorem executePayment_ok : executePayment e p w = .ok (record, w') ↔
    ∃ r, Payable e p w r ∧ record = p.record e ∧ w' = w.paid e p r := by
  simp only [executePayment, bind_ok, orPanic_ok, requireNotPaused_ok, getAddresses_ok, company_ok,
    SalaryCommitmentContract.getCommitment_ok, requireAuth_ok, check_ok, okOr_ok, ensure_ok,
    Store.has_eq_false, System.transfer_ok, pure_ok, exists_const, Prod.mk.injEq]
  constructor
  · rintro ⟨addresses, haddresses, hunpaused, period, hperiod, hopen, hfresh, hunspent, hunpaid,
      stored, hstored, company, hcompany, hadmin, htreasury, amountInput, hinput, hproof, hallowed,
      hdecimals, hnonneg, hnormal, _, ⟨balances, htransfer, rfl⟩, s', hcount, total, htotal, rfl, rfl⟩
    have hperiod' : ((w.executor.set (.payment p.employee p.period) (p.record e)).set
        (.nullifier p.nullifier) true).get (.period p.companyId p.period) = some period := by
      simpa using hperiod
    obtain ⟨hroom, rfl⟩ := (countPayment_ok hperiod').mp hcount
    obtain ⟨hfits, rfl⟩ := addI128_ok.mp htotal
    refine ⟨⟨addresses, period, stored, company, balances⟩, ⟨haddresses, hunpaused, hperiod, hopen,
      hfresh, hunspent, hunpaid, hstored, hcompany, hadmin, htreasury, ⟨amountInput, hinput, hproof⟩,
      hallowed, hdecimals, hnonneg, hnormal, htransfer, hroom, ?_⟩, rfl, ?_⟩
    · simpa [getTotalPaid] using hfits
    · simp [System.paid, paidStorage, PaymentRequest.transfer, getTotalPaid]
  · rintro ⟨r, h, rfl, rfl⟩
    obtain ⟨amountInput, hinput, hproof⟩ := h.proven
    have hperiod' : ((w.executor.set (.payment p.employee p.period) (p.record e)).set
        (.nullifier p.nullifier) true).get (.period p.companyId p.period) = some r.period := by
      simpa using h.inPeriod
    refine ⟨r.addresses, h.configured, h.unpaused, r.period, h.inPeriod, h.periodOpen, h.unexpired,
      h.unspent, h.unpaid, r.stored, h.committed, r.company, h.registered, h.adminAuth,
      h.treasuryAuth, amountInput, hinput, hproof, h.allowed, h.decimals, h.nonneg, h.normalised, _,
      ⟨r.balances, h.transferred, rfl⟩, _, (countPayment_ok hperiod').mpr ⟨h.counted, rfl⟩,
      getTotalPaid w.executor p.companyId + p.amount, addI128_ok.mpr ⟨?_, ?_⟩, rfl, ?_⟩
    · simpa [getTotalPaid] using h.totalFits
    · simp [getTotalPaid]
    · simp [System.paid, paidStorage, PaymentRequest.transfer]

theorem executePayment_alreadyPaid (h : executePayment e p w = .error (.code .alreadyPaid)) :
    w.executor.get (.payment p.employee p.period) ≠ none := by
  simp only [executePayment, bind_code, orPanic_code, okOr_code, check_code, pure_code, check_ok,
    Store.has_eq_false, reduceCtorEq, and_false, and_true, false_or, or_false, exists_false] at h
  obtain ⟨_, -, _, -, _, -, _, -, _, -, _, -, hpaid⟩ := h
  exact hpaid

-- ---------------------------------------------------------------------------
-- Batches
-- ---------------------------------------------------------------------------

inductive Pays (e : LedgerEnv) : List PaymentRequest → System → System → Prop
  | nil (before : System) : Pays e [] before before
  | cons {before after : System} (p : PaymentRequest) (r : Reads) (payable : Payable e p before r)
      (rest : Pays e ps (before.paid e p r) after) : Pays e (p :: ps) before after

theorem executePayments_ok {ps : List PaymentRequest} :
    executePayments e ps w = .ok (records, w') ↔
      Pays e ps w w' ∧ records = ps.map (PaymentRequest.record · e) := by
  induction ps generalizing w w' records with
  | nil =>
    simp only [executePayments, pure_ok, Prod.mk.injEq, List.map_nil]
    constructor
    · rintro ⟨rfl, rfl⟩
      exact ⟨.nil _, rfl⟩
    · rintro ⟨⟨⟩, rfl⟩
      exact ⟨rfl, rfl⟩
  | cons p ps ih =>
    simp only [executePayments, bind_ok, Prod.exists, executePayment_ok, ih, pure_ok,
      Prod.mk.injEq, List.map_cons]
    constructor
    · rintro ⟨_, _, ⟨r, hpayable, rfl, rfl⟩, _, _, ⟨hrest, rfl⟩, rfl, rfl⟩
      exact ⟨.cons p r hpayable hrest, rfl⟩
    · rintro ⟨hpays, rfl⟩
      cases hpays with
      | cons _ r hpayable hrest =>
        exact ⟨_, _, ⟨r, hpayable, rfl, rfl⟩, _, _, ⟨hrest, rfl⟩, rfl, rfl⟩

def BatchRequest.ShapeOk (b : BatchRequest) : Prop :=
  b.amounts.length = b.employees.length ∧ b.proofsA.length = b.employees.length ∧
    b.proofsB.length = b.employees.length ∧ b.proofsC.length = b.employees.length ∧
    b.nullifiers.length = b.employees.length ∧ b.employees.length ≠ 0

theorem executeBatchPayroll_ok {b : BatchRequest} :
    executeBatchPayroll e b w = .ok (records, w') ↔
      b.ShapeOk ∧ Pays e b.requests w w' ∧ records = b.requests.map (PaymentRequest.record · e) := by
  simp only [executeBatchPayroll, bind_ok, check_ok, executePayments_ok, exists_const, not_or, ne_eq,
    not_not, and_assoc, BatchRequest.ShapeOk]

end

end ZkPayroll.PaymentExecutor
