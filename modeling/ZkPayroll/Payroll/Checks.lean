import ZkPayroll.Payroll.Types

/-!
# Guards and bookkeeping shared by the entry points

The private helpers of `contracts/payroll`: the checks entry points open
with, the run counter, the nonce sequence, and the reserved funds.
-/

namespace ZkPayroll.Payroll

open Host

def maxBatch : Nat := 50

-- ---------------------------------------------------------------------------
-- Configuration checks
-- ---------------------------------------------------------------------------

def requireNotPaused (e : Env) (s : Storage) : Result Unit :=
  match s.get .pauseManager with
  | some pm => ensure (e.isPaused pm = false) "Payroll is paused"
  | none => pure ()

def getAddresses (s : Storage) : Result ContractAddresses :=
  expect (s.get .addresses) "Not initialized"

/-- The opening of most admin entry points: the caller named in the arguments
is the stored admin and authorises the call. -/
def requireAdmin (e : Env) (s : Storage) (admin : Address) (msg : Panic) :
    Result ContractAddresses := do
  let addrs ← getAddresses s
  ensure (admin = addrs.admin) msg
  requireAuth e admin
  return addrs

def requireCompanyActive (s : Storage) : Result Unit :=
  match s.get .companyState with
  | none | some .active => pure ()
  | some .paused => throw "Company is paused; payroll execution is not permitted"
  | some .archived => throw "Company is archived; payroll execution is not permitted"
  | some .incomplete => throw "Company setup is incomplete; payroll execution is not permitted"

def pendingPayrollRunCount (s : Storage) : Nat := (s.get .pendingRunCount).getD 0

def requireNoActivePayrollRun (s : Storage) : Result Unit :=
  ensure (¬ 0 < pendingPayrollRunCount s)
    "Configuration is locked: a payroll run is currently in progress. Cancel all pending runs before changing this setting"

def currentStorageVersion : Nat := 1

def minSupportedStorageVersion : Nat := 1

def maxSupportedStorageVersion : Nat := 1

def validateStorageVersionForOperation (s : Storage) (operationName : String) : Result Unit :=
  match s.get .storageVersion with
  | some state => do
    ensure (¬ (state.version < minSupportedStorageVersion ∨
        maxSupportedStorageVersion < state.version))
      ("Storage version " ++ toString state.version ++ " is not supported for operation: " ++
        operationName ++ ". Supported range: " ++ toString minSupportedStorageVersion ++ "-" ++
        toString maxSupportedStorageVersion)
    ensure (state.migrationComplete = true)
      ("Migration not complete for operation: " ++ operationName ++ ". Current version: " ++
        toString state.version)
  | none => pure ()

def isAssetAllowed (s : Storage) (asset : Address) : Bool := (s.get (.allowedAsset asset)).getD false

-- ---------------------------------------------------------------------------
-- Argument checks
-- ---------------------------------------------------------------------------

def validateRunId (runId : Nat) : Result Unit := ensure (runId ≠ u64Max) "Invalid payroll run ID"

def validateDraftId (draftId : Nat) : Result Unit :=
  ensure (draftId ≠ 0) "Invalid draft ID: must be non-zero"

def validateNonZeroDigest (digest : BytesN 32) : Result Unit :=
  ensure (digest ≠ BytesN.zero) "Digest cannot be all-zero bytes"

def validateSymbolNotEmpty (symbol : Symbol) : Result Unit :=
  ensure (symbol ≠ "") "Symbol cannot be empty"

/-- The pairwise scan: every entry is compared with the ones behind it. -/
def validateNoDuplicateEmployees : List Address → Result Unit
  | [] => pure ()
  | current :: rest => do
    ensure (current ∉ rest) "Duplicate employee wallet in payroll batch"
    validateNoDuplicateEmployees rest

/-- The loop that adds up a batch, from the partial sum `total`. -/
def sumAmounts : (total : Int) → List Int → Result Int
  | total, [] => pure total
  | total, amount :: rest => do
    ensure (0 < amount) "Amount must be positive"
    let total ← addI128 total amount
    sumAmounts total rest

def validateExpectedSpend (total expectedTotalSpend : Int) : Result Unit :=
  ensure (total = expectedTotalSpend)
    ("Expected spend mismatch: authorised " ++ toString expectedTotalSpend ++ " but batch totals " ++
      toString total)

-- ---------------------------------------------------------------------------
-- Nonces
-- ---------------------------------------------------------------------------

/-- Despite the name only the first 16 bytes count, read as a big-endian
`u128`. -/
def nonceToU256 (nonce : BytesN 32) : Nat :=
  (nonce.toList.take 16).foldl (fun value byte => value * 256 + byte.toNat) 0

def validateNonceMonotonicity (s : Storage) (employer : Address) (nonce : BytesN 32) : Result Unit :=
  match s.get (.employerNonceSequence employer) with
  | some sequenceState => do
    ensure (nonce ≠ sequenceState.lastNonce)
      "Nonce replay detected: this nonce has already been used for this employer"
    ensure (¬ nonceToU256 nonce ≤ nonceToU256 sequenceState.lastNonce)
      "Stale nonce detected: nonce must be strictly greater than the last accepted nonce for this employer"
  | none => pure ()

def updateNonceSequence (e : Env) (employer : Address) (nonce : BytesN 32) (s : Storage) :
    Result Storage := do
  let newState : EmployerNonceSequenceState ← match s.get (.employerNonceSequence employer) with
    | some existing => do
      let currentSequence ← addU64 existing.currentSequence 1
      pure ⟨currentSequence, e.timestamp, nonce⟩
    | none => pure ⟨1, e.timestamp, nonce⟩
  return s.set (.employerNonceSequence employer) newState

/-- The next run id, with the counter moved on to it. -/
def deriveRunId (s : Storage) : Result (Nat × Storage) := do
  let runId ← addU64 ((s.get .runCounter).getD 0) 1
  return (runId, s.set .runCounter runId)

-- ---------------------------------------------------------------------------
-- Reserved funds
-- ---------------------------------------------------------------------------

def getLockedFunds (s : Storage) (asset : Address) : Int := (s.get (.lockedPayrollFunds asset)).getD 0

def addLockedFunds (asset : Address) (amount : Int) (s : Storage) : Result Storage := do
  let newLocked ← expect (checkedAdd (getLockedFunds s asset) amount) "Locked funds overflow"
  return s.set (.lockedPayrollFunds asset) newLocked

def subtractLockedFunds (asset : Address) (amount : Int) (s : Storage) : Result Storage := do
  let newLocked ← expect (checkedSub (getLockedFunds s asset) amount) "Locked funds underflow"
  return s.set (.lockedPayrollFunds asset) newLocked

end ZkPayroll.Payroll
