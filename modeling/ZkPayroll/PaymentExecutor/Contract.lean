import ZkPayroll.Host.Failure
import ZkPayroll.Host.Runs
import ZkPayroll.Token
import ZkPayroll.SalaryCommitmentLaws
import ZkPayroll.PayrollRegistry

/-!
# The payment executor

`contracts/payment_executor`: numbered payroll periods for each company, and
payments out of the company's treasury against a Groth16 proof. A payment is
recorded under the employee and the period number, its nullifier is marked,
the period counts it and the company's total grows.

The executor asks the registry for the company, the commitment contract for
the employee's commitment and the verifier about the proof, and it moves
tokens; the system below has these contracts, and a log of the transfers the
executor made, which no function reads. A function that returns an error code
or panics leaves no write.
-/

namespace ZkPayroll.PaymentExecutor

open Host

/-- The sections of a Groth16 proof: two points of G1 and one of G2. -/
structure Groth16Proof where
  a : BytesN 64
  b : BytesN 128
  c : BytesN 64
  deriving DecidableEq

structure PaymentRecord where
  companyId : Nat
  employee : Address
  proofHash : BytesN 32
  timestamp : Nat
  period : Nat
  deriving DecidableEq

structure PayrollPeriod where
  periodId : Nat
  companyId : Nat
  startLedger : Nat
  /-- 0 while the period is open. -/
  endLedger : Nat
  createdAt : Nat
  closed : Bool
  paymentCount : Nat
  deriving DecidableEq

inductive PaymentError
  | proofAlreadyUsed
  | arrayLengthMismatch
  | alreadyPaid
  | periodNotFound
  | periodClosed
  | periodAlreadyExists
  | proofExpired
  | emptyBatch
  | assetDecimalsMissing
  | assetDecimalsMismatch
  deriving DecidableEq

structure ContractAddresses where
  registry : Address
  commitment : Address
  verifier : Address
  token : Address
  deriving DecidableEq

inductive DataKey
  | addresses
  | payment (employee : Address) (period : Nat)
  | nullifier (nullifier : BytesN 32)
  | totalPaid (companyId : Nat)
  | executorAdmin
  | pauseManager
  | period (companyId period : Nat)
  | periodSequence (companyId : Nat)
  | allowedAsset (asset : Address)
  | storageVersion
  | assetDecimals (asset : Address)
  deriving DecidableEq

abbrev DataKey.Val : DataKey → Type
  | .addresses => ContractAddresses
  | .payment .. => PaymentRecord
  | .nullifier _ => Bool
  | .totalPaid _ => Int
  | .executorAdmin => Address
  | .pauseManager => Address
  | .period .. => PayrollPeriod
  | .periodSequence _ => Nat
  | .allowedAsset _ => Bool
  | .storageVersion => Nat
  | .assetDecimals _ => Nat

abbrev Storage := Store DataKey.Val

def maxProofAgeSeconds : Nat := 7 * 24 * 60 * 60

-- ---------------------------------------------------------------------------
-- Views
-- ---------------------------------------------------------------------------

def isAssetAllowed (s : Storage) (asset : Address) : Bool := (s.get (.allowedAsset asset)).getD false

def getStorageVersion (s : Storage) : Nat := (s.get .storageVersion).getD 1

/-- 0 where no decimals are configured. -/
def getAssetDecimals (s : Storage) (asset : Address) : Nat := (s.get (.assetDecimals asset)).getD 0

def getPeriod (s : Storage) (companyId period : Nat) : Option PayrollPeriod :=
  s.get (.period companyId period)

def getPayment (s : Storage) (employee : Address) (period : Nat) : Result PaymentRecord :=
  expect (s.get (.payment employee period)) "Payment not found"

def isPaid (s : Storage) (employee : Address) (period : Nat) : Bool :=
  s.has (.payment employee period)

def getTotalPaid (s : Storage) (companyId : Nat) : Int := (s.get (.totalPaid companyId)).getD 0

def getAddresses (s : Storage) : Result ContractAddresses :=
  expect (s.get .addresses) "Not initialized"

def getExecutorAdmin (s : Storage) : Result Address :=
  expect (s.get .executorAdmin) "Executor admin not set"

def getPeriodSequence (s : Storage) (companyId : Nat) : Nat :=
  (s.get (.periodSequence companyId)).getD 0

-- ---------------------------------------------------------------------------
-- Configuration
-- ---------------------------------------------------------------------------

def requireNotPaused (e : LedgerEnv) (s : Storage) : Result Unit :=
  match s.get .pauseManager with
  | some pm => ensure (e.isPaused pm = false) "Payroll is paused"
  | none => pure ()

def requireExecutorAdmin (e : LedgerEnv) (s : Storage) : Result Unit := do
  let admin ← getExecutorAdmin s
  requireAuth e.toEnv admin

def initializeExecutor (addresses : ContractAddresses) (s : Storage) : Result Storage := do
  ensure (s.has .addresses = false) "Already initialized"
  let s := s.set .addresses addresses
  let s := s.set (.allowedAsset addresses.token) true
  return s.set .storageVersion 1

def setExecutorAdmin (e : LedgerEnv) (admin : Address) (s : Storage) : Result Storage := do
  ensure (s.has .executorAdmin = false) "Executor admin already set"
  requireAuth e.toEnv admin
  return s.set .executorAdmin admin

def setPauseManager (e : LedgerEnv) (pauseManager : Address) (s : Storage) : Result Storage := do
  requireExecutorAdmin e s
  return s.set .pauseManager pauseManager

def setAssetAllowed (e : LedgerEnv) (asset : Address) (allowed : Bool) (s : Storage) :
    Result Storage := do
  requireExecutorAdmin e s
  return s.set (.allowedAsset asset) allowed

def setAssetDecimals (e : LedgerEnv) (asset : Address) (decimals : Nat) (s : Storage) :
    Result Storage := do
  requireExecutorAdmin e s
  ensure (¬ 18 < decimals) "Asset decimals must not exceed 18"
  return s.set (.assetDecimals asset) decimals

-- ---------------------------------------------------------------------------
-- The system
-- ---------------------------------------------------------------------------

/-- A transfer the executor made for a company. -/
structure Transfer where
  companyId : Nat
  asset : Address
  source : Address
  dest : Address
  amount : Int
  deriving DecidableEq

structure System where
  executor : Storage
  registries : Address → PayrollRegistry.Storage
  commitments : Address → SalaryCommitmentContract.Storage
  tokens : Address → Token.Storage
  /-- Newest first. -/
  transfers : List Transfer

def System.genesis : System := ⟨.empty, fun _ => .empty, fun _ => .empty, fun _ => .empty, []⟩

def System.transfer (w : System) (t : Transfer) : Result System := do
  let balances ← Token.transfer (w.tokens t.asset) t.source t.dest t.amount
  return { w with
    tokens := Function.update w.tokens t.asset balances
    transfers := t :: w.transfers }

-- ---------------------------------------------------------------------------
-- Periods
-- ---------------------------------------------------------------------------

def System.company (w : System) (addresses : ContractAddresses) (companyId : Nat) :
    Result PayrollRegistry.CompanyInfo :=
  PayrollRegistry.getCompany (w.registries addresses.registry) companyId

def createPeriod (e : LedgerEnv) (companyId : Nat) (w : System) :
    Outcome PaymentError (PayrollPeriod × System) := do
  let s := w.executor
  orPanic (requireNotPaused e s)
  let addresses ← orPanic (getAddresses s)
  let company ← orPanic (w.company addresses companyId)
  orPanic (requireAuth e.toEnv company.admin)
  let nextId := (s.get (.periodSequence companyId)).getD 1
  check (s.has (.period companyId nextId) = false) .periodAlreadyExists
  -- only one period of a company is open at a time
  check (¬ (1 < nextId ∧ (s.get (.period companyId (nextId - 1))).any fun p => !p.closed))
    .periodAlreadyExists
  let period : PayrollPeriod := ⟨nextId, companyId, e.sequence, 0, e.timestamp, false, 0⟩
  let s := s.set (.period companyId nextId) period
  let sequence ← orPanic (addU32 nextId 1)
  return (period, { w with executor := s.set (.periodSequence companyId) sequence })

def closePeriod (e : LedgerEnv) (companyId periodId : Nat) (w : System) :
    Outcome PaymentError (PayrollPeriod × System) := do
  let s := w.executor
  orPanic (requireNotPaused e s)
  let addresses ← orPanic (getAddresses s)
  let company ← orPanic (w.company addresses companyId)
  orPanic (requireAuth e.toEnv company.admin)
  let period ← okOr (s.get (.period companyId periodId)) .periodNotFound
  check (period.closed = false) .periodClosed
  let period := { period with closed := true, endLedger := e.sequence }
  return (period, { w with executor := s.set (.period companyId periodId) period })

-- ---------------------------------------------------------------------------
-- Payments
-- ---------------------------------------------------------------------------

structure PaymentRequest where
  companyId : Nat
  employee : Address
  amount : Int
  proof : Groth16Proof
  nullifier : BytesN 32
  period : Nat
  deriving DecidableEq

/-- `u128::to_be_bytes`. -/
def bigEndian16 (n : Nat) : List UInt8 :=
  (List.range 16).map fun k => UInt8.ofNat (n / 256 ^ (15 - k))

def amountToPublicInput (amount : Int) : Result (BytesN 32) := do
  ensure (¬ amount < 0) "Amount must be non-negative"
  return ⟨List.replicate 16 0 ++ bigEndian16 amount.toNat, by simp [bigEndian16]⟩

/-- `ProofVerifier::pack_groth16_proof`. -/
def packGroth16Proof (proof : Groth16Proof) : BytesN 256 :=
  ⟨proof.a.toList ++ proof.b.toList ++ proof.c.toList, by simp⟩

/-- `ProofVerifier::verify`. -/
def verify (e : LedgerEnv) (verifier : Address) (proof : Groth16Proof)
    (publicInputs : List (BytesN 32)) : Bool :=
  e.verifyPaymentProof verifier (packGroth16Proof proof) publicInputs

def PaymentRequest.record (p : PaymentRequest) (e : LedgerEnv) : PaymentRecord :=
  ⟨p.companyId, p.employee, p.nullifier, e.timestamp, p.period⟩

/-- The count is left alone where the period is missing. -/
def countPayment (companyId period : Nat) (s : Storage) : Result Storage :=
  match s.get (.period companyId period) with
  | some periodStruct => do
    let paymentCount ← addU32 periodStruct.paymentCount 1
    return s.set (.period companyId period) { periodStruct with paymentCount := paymentCount }
  | none => pure s

/-- The source also compares the printed token and treasury addresses with the
empty string, which no address prints as. -/
def executePayment (e : LedgerEnv) (p : PaymentRequest) (w : System) :
    Outcome PaymentError (PaymentRecord × System) := do
  let s := w.executor
  let addresses ← orPanic (getAddresses s)
  orPanic (requireNotPaused e s)
  let period ← okOr (s.get (.period p.companyId p.period)) .periodNotFound
  check (period.closed = false) .periodClosed
  -- `saturating_sub` is truncated subtraction
  check (¬ maxProofAgeSeconds < e.timestamp - period.createdAt) .proofExpired
  check (s.has (.nullifier p.nullifier) = false) .proofAlreadyUsed
  check (s.has (.payment p.employee p.period) = false) .alreadyPaid
  let stored ← orPanic
    (SalaryCommitmentContract.getCommitment (w.commitments addresses.commitment) p.employee)
  let company ← orPanic (w.company addresses p.companyId)
  orPanic (requireAuth e.toEnv company.admin)
  orPanic (requireAuth e.toEnv company.treasury)
  let amountInput ← orPanic (amountToPublicInput p.amount)
  orPanic (ensure (verify e addresses.verifier p.proof [stored.commitment, amountInput] = true)
    "Invalid payment proof")
  orPanic (ensure (isAssetAllowed s addresses.token = true) "Asset not allowed")
  let decimals := getAssetDecimals s addresses.token
  check (decimals ≠ 0) .assetDecimalsMissing
  check (¬ p.amount < 0) .assetDecimalsMismatch
  check (¬ (0 < p.amount ∧ p.amount < 10 ^ decimals / 1000000000)) .assetDecimalsMismatch
  let w ← orPanic
    (w.transfer ⟨p.companyId, addresses.token, company.treasury, p.employee, p.amount⟩)
  let s := s.set (.payment p.employee p.period) (p.record e)
  let s := s.set (.nullifier p.nullifier) true
  let s ← orPanic (countPayment p.companyId p.period s)
  let total ← orPanic (addI128 (getTotalPaid s p.companyId) p.amount)
  return (p.record e, { w with executor := s.set (.totalPaid p.companyId) total })

structure BatchRequest where
  companyId : Nat
  employees : List Address
  amounts : List Int
  proofsA : List (BytesN 64)
  proofsB : List (BytesN 128)
  proofsC : List (BytesN 64)
  nullifiers : List (BytesN 32)
  period : Nat

/-- The `i`-th entries of the six arrays make the `i`-th payment. -/
def BatchRequest.requests (b : BatchRequest) : List PaymentRequest :=
  (b.employees.zip (b.amounts.zip (b.proofsA.zip (b.proofsB.zip (b.proofsC.zip b.nullifiers))))).map
    fun (employee, amount, proofA, proofB, proofC, nullifier) =>
      ⟨b.companyId, employee, amount, ⟨proofA, proofB, proofC⟩, nullifier, b.period⟩

def executePayments (e : LedgerEnv) :
    List PaymentRequest → System → Outcome PaymentError (List PaymentRecord × System)
  | [], w => pure ([], w)
  | p :: rest, w => do
    let (record, w) ← executePayment e p w
    let (records, w) ← executePayments e rest w
    return (record :: records, w)

def executeBatchPayroll (e : LedgerEnv) (b : BatchRequest) (w : System) :
    Outcome PaymentError (List PaymentRecord × System) := do
  let count := b.employees.length
  check (¬ (b.amounts.length ≠ count ∨ b.proofsA.length ≠ count ∨ b.proofsB.length ≠ count ∨
    b.proofsC.length ≠ count ∨ b.nullifiers.length ≠ count)) .arrayLengthMismatch
  check (count ≠ 0) .emptyBatch
  executePayments e b.requests w

-- ---------------------------------------------------------------------------
-- The machine
-- ---------------------------------------------------------------------------

inductive Call
  | initializeExecutor (addresses : ContractAddresses)
  | setExecutorAdmin (admin : Address)
  | setPauseManager (pauseManager : Address)
  | setAssetAllowed (asset : Address) (allowed : Bool)
  | setAssetDecimals (asset : Address) (decimals : Nat)
  | createPeriod (companyId : Nat)
  | closePeriod (companyId periodId : Nat)
  | executePayment (p : PaymentRequest)
  | executeBatchPayroll (b : BatchRequest)

inductive Ret
  | unit
  | period (p : PayrollPeriod)
  | records (records : List PaymentRecord)

def onStorage (f : Storage → Result Storage) (w : System) : Outcome PaymentError (Ret × System) := do
  let s ← orPanic (f w.executor)
  return (.unit, { w with executor := s })

def exec (e : LedgerEnv) : Call → System → Outcome PaymentError (Ret × System)
  | .initializeExecutor addresses => onStorage (initializeExecutor addresses)
  | .setExecutorAdmin admin => onStorage (setExecutorAdmin e admin)
  | .setPauseManager pauseManager => onStorage (setPauseManager e pauseManager)
  | .setAssetAllowed asset allowed => onStorage (setAssetAllowed e asset allowed)
  | .setAssetDecimals asset decimals => onStorage (setAssetDecimals e asset decimals)
  | .createPeriod companyId => fun w => do
    let (period, w) ← createPeriod e companyId w
    return (.period period, w)
  | .closePeriod companyId periodId => fun w => do
    let (period, w) ← closePeriod e companyId periodId w
    return (.period period, w)
  | .executePayment p => fun w => do
    let (record, w) ← executePayment e p w
    return (.records [record], w)
  | .executeBatchPayroll b => fun w => do
    let (records, w) ← executeBatchPayroll e b w
    return (.records records, w)

inductive Message
  | executor (call : Call)
  | registry (id : Address) (call : PayrollRegistry.Call)
  | commitment (id : Address) (call : SalaryCommitmentContract.Call)
  | token (asset : Address) (call : Token.Call)

structure Input where
  env : LedgerEnv
  message : Message

def deliver (e : LedgerEnv) : Message → System → Outcome PaymentError (Ret × System)
  | .executor call, w => exec e call w
  | .registry id call, w => do
    let r ← orPanic (PayrollRegistry.exec e (w.registries id) call)
    return (.unit, { w with registries := Function.update w.registries id r })
  | .commitment id call, w => do
    let c ← orPanic (SalaryCommitmentContract.exec e.toEnv (w.commitments id) call)
    return (.unit, { w with commitments := Function.update w.commitments id c })
  | .token asset call, w => do
    let balances ← orPanic (Token.exec (w.tokens asset) call)
    return (.unit, { w with tokens := Function.update w.tokens asset balances })

/-- The system after a transaction: a failure of either kind reverts it. -/
def next (w : System) (i : Input) : System :=
  match deliver i.env i.message w with
  | .ok (_, w') => w'
  | .error _ => w

end ZkPayroll.PaymentExecutor
