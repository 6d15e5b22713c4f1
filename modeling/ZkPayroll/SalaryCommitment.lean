import ZkPayroll.Env

/-!
# The salary commitment contract

`contracts/salary_commitment`: the commitment of every employee with its
archive, the locks payroll sets on it, the spent payment nullifiers, the
external reference ids, and the two-step rotation of the HR admin.

The scan for a free archive slot counts in `u32`, so it aborts when all
`2^32` slots are taken; the fuel of `freeHistorySlot` is that count. The
hash-based views (`compute_commitment`, `verify_commitment`) are in
`SalaryCommitment.Openings`.
-/

namespace ZkPayroll.SalaryCommitmentContract

open Host

structure SalaryCommitment where
  commitment : BytesN 32
  createdAt : Nat
  updatedAt : Nat
  version : Nat
  revoked : Bool
  deriving DecidableEq

structure PaymentNullifier where
  nullifier : BytesN 32
  usedAt : Nat
  deriving DecidableEq

structure CommitmentSnapshot where
  commitment : BytesN 32
  version : Nat
  rotatedAt : Nat
  deriving DecidableEq

structure PendingRotation where
  newHolder : Address
  proposedBy : Address
  proposedAt : Nat
  deriving DecidableEq

inductive DataKey
  | commitment (employee : Address)
  | nullifier (nullifier : BytesN 32)
  | commitmentHistory (employee : Address) (index : Nat)
  | admin
  | payrollOperator
  | employeeReferenceId (employee : Address)
  | referenceIdIndex (referenceId : String)
  | commitmentLock (employee : Address)
  | commitmentIndex (commitment : BytesN 32)
  | pauseManager
  | pendingAdminRotation
  deriving DecidableEq

abbrev DataKey.Val : DataKey → Type
  | .commitment _ => SalaryCommitment
  | .nullifier _ => PaymentNullifier
  | .commitmentHistory _ _ => CommitmentSnapshot
  | .admin => Address
  | .payrollOperator => Address
  | .employeeReferenceId _ => String
  | .referenceIdIndex _ => Address
  | .commitmentLock _ => Bool
  | .commitmentIndex _ => Bool
  | .pauseManager => Address
  | .pendingAdminRotation => PendingRotation

abbrev Storage := Store DataKey.Val

-- ---------------------------------------------------------------------------
-- Guards
-- ---------------------------------------------------------------------------

def requireNotPaused (e : Env) (s : Storage) : Result Unit :=
  match s.get .pauseManager with
  | some pm => ensure (e.isPaused pm = false) "Salary commitment operations are paused"
  | none => pure ()

def requireAdmin (e : Env) (s : Storage) : Result Unit := do
  let admin ← expect (s.get .admin) "Not initialized"
  requireAuth e admin

/-- With an operator set, only the operator's authorisation counts. -/
def requireAdminOrOperator (e : Env) (s : Storage) : Result Unit := do
  let admin ← expect (s.get .admin) "Not initialized"
  match s.get .payrollOperator with
  | some op => requireAuth e op
  | none => requireAuth e admin

-- ---------------------------------------------------------------------------
-- Roles
-- ---------------------------------------------------------------------------

def initCommitmentAdmin (admin : Address) (s : Storage) : Result Storage := do
  ensure (s.has .admin = false) "Already initialized"
  return s.set .admin admin

def setPayrollOperator (e : Env) (operator : Address) (s : Storage) : Result Storage := do
  requireNotPaused e s
  requireAdmin e s
  return s.set .payrollOperator operator

def removePayrollOperator (e : Env) (s : Storage) : Result Storage := do
  requireNotPaused e s
  requireAdmin e s
  ensure (s.has .payrollOperator) "No payroll operator set"
  return s.remove .payrollOperator

def proposeAdminRotation (e : Env) (currentAdmin newAdmin : Address) (s : Storage) :
    Result Storage := do
  requireNotPaused e s
  let stored ← expect (s.get .admin) "Not initialized"
  ensure (currentAdmin = stored) "Unauthorized: caller is not the current admin"
  requireAuth e currentAdmin
  ensure (s.has .pendingAdminRotation = false) "A pending admin rotation already exists"
  return s.set .pendingAdminRotation ⟨newAdmin, currentAdmin, e.timestamp⟩

def acceptAdminRotation (e : Env) (newAdmin : Address) (s : Storage) : Result Storage := do
  requireNotPaused e s
  let proposal ← expect (s.get .pendingAdminRotation) "No pending admin rotation"
  ensure (newAdmin = proposal.newHolder) "Unauthorized: caller is not the proposed admin"
  requireAuth e newAdmin
  let s := s.set .admin newAdmin
  return s.remove .pendingAdminRotation

def cancelAdminRotation (e : Env) (currentAdmin : Address) (s : Storage) : Result Storage := do
  requireNotPaused e s
  let stored ← expect (s.get .admin) "Not initialized"
  ensure (currentAdmin = stored) "Unauthorized"
  requireAuth e currentAdmin
  ensure (s.has .pendingAdminRotation) "No pending admin rotation to cancel"
  return s.remove .pendingAdminRotation

def setPauseManager (e : Env) (pauseManager : Address) (s : Storage) : Result Storage := do
  requireAdmin e s
  return s.set .pauseManager pauseManager

-- ---------------------------------------------------------------------------
-- Locks and nullifiers
-- ---------------------------------------------------------------------------

def lockCommitmentUpdates (e : Env) (employee : Address) (s : Storage) : Result Storage := do
  requireNotPaused e s
  requireAdminOrOperator e s
  ensure (s.has (.commitmentLock employee) = false) "Commitment is already locked"
  return s.set (.commitmentLock employee) true

def unlockCommitmentUpdates (e : Env) (employee : Address) (s : Storage) : Result Storage := do
  requireNotPaused e s
  requireAdmin e s
  ensure (s.has (.commitmentLock employee)) "Commitment is not locked"
  return s.remove (.commitmentLock employee)

def isCommitmentLocked (s : Storage) (employee : Address) : Bool := s.has (.commitmentLock employee)

def recordNullifier (e : Env) (nullifier : BytesN 32) (s : Storage) : Result Storage := do
  requireNotPaused e s
  requireAdminOrOperator e s
  ensure (s.has (.nullifier nullifier) = false) "Nullifier already used"
  return s.set (.nullifier nullifier) ⟨nullifier, e.timestamp⟩

def isNullifierUsed (s : Storage) (nullifier : BytesN 32) : Bool := s.has (.nullifier nullifier)

-- ---------------------------------------------------------------------------
-- Commitments
-- ---------------------------------------------------------------------------

/-- Rejects a value bound before, to any employee, and marks it as bound. -/
def registerCommitmentUniqueness (commitment : BytesN 32) (s : Storage) : Result Storage := do
  ensure (s.has (.commitmentIndex commitment) = false)
    "Commitment already in use: commitments must be unique across employees and payroll runs"
  return s.set (.commitmentIndex commitment) true

def freeHistorySlot (s : Storage) (employee : Address) : (fuel index : Nat) → Result Nat
  | 0, _ => throw "attempt to add with overflow"
  | fuel + 1, index =>
    if s.has (.commitmentHistory employee index) then freeHistorySlot s employee fuel (index + 1)
    else pure index

def archiveCommitment (e : Env) (employee : Address) (commitment : BytesN 32) (version : Nat)
    (s : Storage) : Result Storage := do
  let index ← freeHistorySlot s employee (u32Max + 1) 0
  return s.set (.commitmentHistory employee index) ⟨commitment, version, e.timestamp⟩

def storeCommitment (e : Env) (employee : Address) (commitment : BytesN 32) (s : Storage) :
    Result Storage := do
  requireNotPaused e s
  requireAdmin e s
  let s ← registerCommitmentUniqueness commitment s
  return s.set (.commitment employee) ⟨commitment, e.timestamp, e.timestamp, 1, false⟩

def updateCommitment (e : Env) (employee : Address) (newCommitment : BytesN 32) (s : Storage) :
    Result Storage := do
  requireNotPaused e s
  requireAdmin e s
  ensure (isCommitmentLocked s employee = false)
    "Commitment is locked: cannot update until unlocked by admin"
  let existing ← expect (s.get (.commitment employee)) "Commitment not found"
  let s ← registerCommitmentUniqueness newCommitment s
  let s ← archiveCommitment e employee existing.commitment existing.version s
  let version ← addU32 existing.version 1
  return s.set (.commitment employee)
    ⟨newCommitment, existing.createdAt, e.timestamp, version, false⟩

/-- The replacement goes through `storeCommitment`, which starts again at
version 1. -/
def rotateCommitment (e : Env) (employee : Address) (newCommitment : BytesN 32) (s : Storage) :
    Result Storage := do
  requireNotPaused e s
  requireAdmin e s
  ensure (isCommitmentLocked s employee = false)
    "Commitment is locked: cannot rotate until unlocked by admin"
  let existing ← expect (s.get (.commitment employee)) "Commitment not found"
  let s := s.set (.commitment employee) { existing with revoked := true }
  let s ← archiveCommitment e employee existing.commitment existing.version s
  storeCommitment e employee newCommitment s

def getCommitment (s : Storage) (employee : Address) : Result SalaryCommitment :=
  expect (s.get (.commitment employee)) "Commitment not found"

def historyFrom (s : Storage) (employee : Address) :
    (fuel index : Nat) → Result (List CommitmentSnapshot)
  | 0, _ => throw "attempt to add with overflow"
  | fuel + 1, index =>
    match s.get (.commitmentHistory employee index) with
    | some snapshot => do
      let rest ← historyFrom s employee fuel (index + 1)
      return snapshot :: rest
    | none => pure []

def getCommitmentHistory (s : Storage) (employee : Address) : Result (List CommitmentSnapshot) :=
  historyFrom s employee (u32Max + 1) 0

-- ---------------------------------------------------------------------------
-- Reference ids
-- ---------------------------------------------------------------------------

def requireReferenceIdFree (employee : Address) (referenceId : String) (s : Storage) : Result Unit :=
  match s.get (.referenceIdIndex referenceId) with
  | some existing => ensure (existing = employee) "Reference ID already assigned to another employee"
  | none => pure ()

/-- A different id the employee had before stops resolving. -/
def dropOldReferenceId (employee : Address) (referenceId : String) (s : Storage) : Storage :=
  match s.get (.employeeReferenceId employee) with
  | some old => if old ≠ referenceId then s.remove (.referenceIdIndex old) else s
  | none => s

def setEmployeeReferenceId (e : Env) (employee : Address) (referenceId : String) (s : Storage) :
    Result Storage := do
  requireNotPaused e s
  requireAdmin e s
  ensure (¬ (referenceId.utf8ByteSize = 0 ∨ 256 < referenceId.utf8ByteSize))
    "Reference ID must be 1-256 characters"
  requireReferenceIdFree employee referenceId s
  let s := dropOldReferenceId employee referenceId s
  let s := s.set (.employeeReferenceId employee) referenceId
  return s.set (.referenceIdIndex referenceId) employee

def getEmployeeReferenceId (s : Storage) (employee : Address) : Option String :=
  s.get (.employeeReferenceId employee)

def getEmployeeByReferenceId (s : Storage) (referenceId : String) : Option Address :=
  if referenceId.utf8ByteSize = 0 ∨ 256 < referenceId.utf8ByteSize then none
  else s.get (.referenceIdIndex referenceId)

-- ---------------------------------------------------------------------------
-- The contract
-- ---------------------------------------------------------------------------

inductive Call
  | initCommitmentAdmin (admin : Address)
  | setPayrollOperator (operator : Address)
  | removePayrollOperator
  | proposeAdminRotation (currentAdmin newAdmin : Address)
  | acceptAdminRotation (newAdmin : Address)
  | cancelAdminRotation (currentAdmin : Address)
  | setPauseManager (pauseManager : Address)
  | lockCommitmentUpdates (employee : Address)
  | unlockCommitmentUpdates (employee : Address)
  | recordNullifier (nullifier : BytesN 32)
  | storeCommitment (employee : Address) (commitment : BytesN 32)
  | updateCommitment (employee : Address) (newCommitment : BytesN 32)
  | rotateCommitment (employee : Address) (newCommitment : BytesN 32)
  | setEmployeeReferenceId (employee : Address) (referenceId : String)

def exec (e : Env) (s : Storage) : Call → Result Storage
  | .initCommitmentAdmin admin => initCommitmentAdmin admin s
  | .setPayrollOperator operator => setPayrollOperator e operator s
  | .removePayrollOperator => removePayrollOperator e s
  | .proposeAdminRotation currentAdmin newAdmin => proposeAdminRotation e currentAdmin newAdmin s
  | .acceptAdminRotation newAdmin => acceptAdminRotation e newAdmin s
  | .cancelAdminRotation currentAdmin => cancelAdminRotation e currentAdmin s
  | .setPauseManager pauseManager => setPauseManager e pauseManager s
  | .lockCommitmentUpdates employee => lockCommitmentUpdates e employee s
  | .unlockCommitmentUpdates employee => unlockCommitmentUpdates e employee s
  | .recordNullifier nullifier => recordNullifier e nullifier s
  | .storeCommitment employee commitment => storeCommitment e employee commitment s
  | .updateCommitment employee newCommitment => updateCommitment e employee newCommitment s
  | .rotateCommitment employee newCommitment => rotateCommitment e employee newCommitment s
  | .setEmployeeReferenceId employee referenceId => setEmployeeReferenceId e employee referenceId s

end ZkPayroll.SalaryCommitmentContract
