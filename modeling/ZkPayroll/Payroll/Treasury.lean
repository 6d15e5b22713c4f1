import ZkPayroll.Payroll.Runs
import ZkPayroll.Token
import ZkPayroll.SalaryCommitment
import Mathlib.Logic.Function.Basic

/-!
# Entry points that reach other contracts

Deposits, emergency withdrawals and the direct execution of a batch. They run
on a `World`: the payroll contract's storage beside the token and salary
commitment contracts at every address.

`transfers` is a ghost: it lists the token transfers payroll asked for and
that went through, and no entry point reads it.
-/

namespace ZkPayroll.Payroll

open Host

inductive Purpose
  | salary
  | deposit
  | emergency
  deriving DecidableEq

structure Transfer where
  purpose : Purpose
  asset : Address
  source : Address
  dest : Address
  amount : Int
  deriving DecidableEq

structure World where
  payroll : Storage
  tokens : Address → Token.Storage
  commitments : Address → SalaryCommitmentContract.Storage
  /-- Newest first. -/
  transfers : List Transfer

/-- Every contract freshly deployed. -/
def World.genesis : World := ⟨.empty, fun _ => .empty, fun _ => .empty, []⟩

def World.tokenBalance (w : World) (asset id : Address) : Int := Token.balance (w.tokens asset) id

def World.transfer (w : World) (t : Transfer) : Result World := do
  let balances ← Token.transfer (w.tokens t.asset) t.source t.dest t.amount
  return { w with
    tokens := Function.update w.tokens t.asset balances
    transfers := t :: w.transfers }

def World.callCommitment (w : World) (e : Env) (id : Address)
    (call : SalaryCommitmentContract.Call) : Result World := do
  let c ← SalaryCommitmentContract.exec (e.calling id) (w.commitments id) call
  return { w with commitments := Function.update w.commitments id c }

-- ---------------------------------------------------------------------------
-- Deposits and withdrawals
-- ---------------------------------------------------------------------------

def getAvailableTreasuryBalance (w : World) (asset : Address) : Result Int := do
  let addrs ← getAddresses w.payroll
  let totalBalance := w.tokenBalance asset addrs.treasury
  return (checkedSub totalBalance (getLockedFunds w.payroll asset)).getD 0

def deposit (e : Env) (depositor : Address) (amount : Int) (depositId : BytesN 32) (w : World) :
    Result World := do
  requireNotPaused e w.payroll
  validateNonZeroDigest depositId
  ensure (0 < amount) "Deposit amount must be positive"
  ensure (w.payroll.has (.depositNonce depositId) = false) "Deposit already processed"
  let w := { w with payroll := w.payroll.set (.depositNonce depositId) true }
  let addrs ← getAddresses w.payroll
  let treasuryOwner ← expect (w.payroll.get .treasuryOwner) "Treasury owner not set"
  requireAuth e depositor
  requireAuth e treasuryOwner
  let w ← w.transfer ⟨.deposit, addrs.token, depositor, addrs.treasury, amount⟩
  let newBalance ← addI128 ((w.payroll.get (.companyBalance depositor)).getD 0) amount
  return { w with payroll := w.payroll.set (.companyBalance depositor) newBalance }

def requestEmergencyWithdrawal (e : Env) (treasuryOwner : Address) (amount : Int)
    (recipient : Address) (w : World) : Result World := do
  requireNotPaused e w.payroll
  ensure (0 < amount) "Amount must be positive"
  let storedOwner ← expect (w.payroll.get .treasuryOwner) "Treasury owner not set"
  ensure (treasuryOwner = storedOwner) "Unauthorized: caller is not treasury owner"
  requireAuth e treasuryOwner
  ensure (w.payroll.has .emergencyRequest = false) "A pending emergency request already exists"
  let addrs ← getAddresses w.payroll
  let available ← getAvailableTreasuryBalance w addrs.token
  ensure (amount ≤ available)
    "Insufficient available treasury balance: funds locked for pending payroll"
  return { w with
    payroll := w.payroll.set .emergencyRequest ⟨amount, recipient, e.timestamp, false⟩ }

def approveEmergencyWithdrawal (e : Env) (admin : Address) (w : World) : Result World := do
  requireNotPaused e w.payroll
  let addrs ← requireAdmin e w.payroll admin "Unauthorized"
  let request ← expect (w.payroll.get .emergencyRequest) "No pending emergency request"
  let available ← getAvailableTreasuryBalance w addrs.token
  ensure (request.amount ≤ available)
    "Insufficient available treasury balance: funds locked for pending payroll"
  let w := { w with payroll := w.payroll.remove .emergencyRequest }
  w.transfer ⟨.emergency, addrs.token, addrs.treasury, request.recipient, request.amount⟩

def cancelEmergencyWithdrawal (e : Env) (caller : Address) (s : Storage) : Result Storage := do
  requireNotPaused e s
  let addrs ← getAddresses s
  let storedOwner ← expect (s.get .treasuryOwner) "Treasury owner not set"
  ensure (caller = addrs.admin ∨ caller = storedOwner)
    "Unauthorized: only admin or treasury owner may cancel"
  requireAuth e caller
  ensure (s.has .emergencyRequest) "No pending emergency request to cancel"
  return s.remove .emergencyRequest

-- ---------------------------------------------------------------------------
-- Direct execution of a batch
-- ---------------------------------------------------------------------------

/-- The nullifier of the payment at index `i`: it depends on the position in
the batch and on nothing else. -/
def paymentNullifier (i : Nat) : BytesN 32 :=
  ⟨UInt8.ofNat (i % 256) :: UInt8.ofNat (i / 256) :: List.replicate 30 0, rfl⟩

abbrev Payment := BytesN 256 × Int × Address

def payEmployee (e : Env) (addrs : ContractAddresses) (i : Nat) : Payment → World → Result World
  | (proof, amount, employee), w => do
    let stored ← SalaryCommitmentContract.getCommitment (w.commitments addrs.commitment) employee
    let nullifier := paymentNullifier i
    ensure (e.verifyPaymentProof addrs.verifier proof
        [stored.commitment, nullifier, BytesN.zero] = true)
      ("Invalid payment proof for employee " ++ toString i)
    let w ← w.callCommitment e addrs.commitment (.recordNullifier nullifier)
    let w ← w.transfer ⟨.salary, addrs.token, addrs.treasury, employee, amount⟩
    w.callCommitment e addrs.commitment (.lockCommitmentUpdates employee)

def payEmployees (e : Env) (addrs : ContractAddresses) :
    (i : Nat) → List Payment → World → Result World
  | _, [], w => pure w
  | i, p :: rest, w => do
    let w ← payEmployee e addrs i p w
    payEmployees e addrs (i + 1) rest w

def Batch.payments (b : Batch) : List Payment := b.proofs.zip (b.amounts.zip b.employees)

def validateDraftHash : Option (BytesN 32) → Result Unit
  | some dh => validateNonZeroDigest dh
  | none => pure ()

/-- A supplied draft hash must be pre-committed and is used up. -/
def consumeDraftCommitment (draftHash : Option (BytesN 32)) (s : Storage) : Result Storage :=
  match draftHash with
  | some dh => do
    ensure (s.has (.draftCommitment dh)) "Draft hash not pre-committed: call commit_draft first"
    return s.remove (.draftCommitment dh)
  | none => pure s

def batchProcessPayroll (e : Env) (b : Batch) (w : World) : Result (Nat × World) := do
  let s := w.payroll
  requireCompanyActive s
  validateStorageVersionForOperation s "batch_process_payroll"
  validateNonZeroDigest b.nonce
  validateDraftHash b.draftHash
  b.validateShape
  ensure (s.has (.runNonce b.nonce) = false)
    "Duplicate run nonce: this payroll batch has already been submitted"
  let s ← consumeDraftCommitment b.draftHash s
  b.validatePayments
  let addrs ← getAddresses s
  validateNonceMonotonicity s addrs.admin b.nonce
  ensure (isAssetAllowed s addrs.token = true) "Asset not allowed"
  requireNotPaused e s
  requireAuth e addrs.admin
  let (runId, s) ← deriveRunId s
  let s := s.set (.runNonce b.nonce) runId
  let s ← updateNonceSequence e addrs.admin b.nonce s
  let treasuryBalance := w.tokenBalance addrs.token addrs.treasury
  ensure (b.expectedTotalSpend ≤ treasuryBalance)
    ("Insufficient treasury balance: available " ++ toString treasuryBalance ++
      " but batch requires " ++ toString b.expectedTotalSpend)
  let w ← payEmployees e addrs 0 b.payments { w with payroll := s }
  let s := w.payroll.set (.payrollRun runId)
    { runId := runId
      executedAt := e.timestamp
      admin := addrs.admin
      totalAmount := b.expectedTotalSpend
      employeeCount := b.proofs.length
      draftHash := b.resolvedDraftHash
      nonce := b.nonce
      reconciliationStatus := .unreconciled
      metadataHash := BytesN.zero }
  let s := recordPayrollRunState runId .reconciliationRequired s
  return (runId, { w with payroll := s })

end ZkPayroll.Payroll
