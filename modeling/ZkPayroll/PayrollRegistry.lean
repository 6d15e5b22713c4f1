import ZkPayroll.Wallet

/-!
# The payroll registry

`contracts/payroll_registry`: companies with their admin and treasury, the
employees of each company with a commitment and an eligibility status, the
two-step rotations of admin and treasury, and the approval thresholds.

`remove_employee` removes the commitment and leaves the status, so a removed
employee is told apart by the missing commitment only. The pause manager can
be set by anyone who signs for the address named as admin.
-/

namespace ZkPayroll.PayrollRegistry

open Host

structure CompanyInfo where
  admin : Address
  treasury : Address
  deriving DecidableEq

inductive EmployeeStatus
  | active
  | inactive
  | incomplete
  deriving DecidableEq

structure PendingCompanyRotation where
  newHolder : Address
  proposedBy : Address
  proposedAt : Nat
  deriving DecidableEq

structure ApprovalThreshold where
  companyId : Nat
  requiredApprovals : Nat
  configuredAt : Nat
  configuredBy : Address
  isActive : Bool
  deriving DecidableEq

structure PendingThresholdRotation where
  companyId : Nat
  newThreshold : Nat
  proposedAt : Nat
  proposedBy : Address
  effectiveAfter : Nat
  deriving DecidableEq

inductive DataKey
  | company (companyId : Nat)
  | employee (companyId : Nat) (employee : Address)
  | companySequence
  | empStatus (companyId : Nat) (employee : Address)
  | pendingAdminRotation (companyId : Nat)
  | pendingTreasuryRotation (companyId : Nat)
  | companyAdmin (admin : Address)
  | pauseManager
  | approvalThreshold (companyId : Nat)
  | pendingThresholdRotation (companyId : Nat)
  deriving DecidableEq

abbrev DataKey.Val : DataKey → Type
  | .company _ => CompanyInfo
  | .employee .. => BytesN 32
  | .companySequence => Nat
  | .empStatus .. => EmployeeStatus
  | .pendingAdminRotation _ => PendingCompanyRotation
  | .pendingTreasuryRotation _ => PendingCompanyRotation
  | .companyAdmin _ => Nat
  | .pauseManager => Address
  | .approvalThreshold _ => ApprovalThreshold
  | .pendingThresholdRotation _ => PendingThresholdRotation

abbrev Storage := Store DataKey.Val

-- ---------------------------------------------------------------------------
-- Guards and reads
-- ---------------------------------------------------------------------------

def requireNotPaused (e : LedgerEnv) (s : Storage) : Result Unit :=
  match s.get .pauseManager with
  | some pm => ensure (e.isPaused pm = false) "Payroll is paused"
  | none => pure ()

def getCompany (s : Storage) (companyId : Nat) : Result CompanyInfo :=
  expect (s.get (.company companyId)) "Company not found"

def requireCompanyAdmin (e : LedgerEnv) (s : Storage) (companyId : Nat) : Result Unit := do
  let info ← getCompany s companyId
  requireAuth e.toEnv info.admin

def getCommitment (s : Storage) (companyId : Nat) (employee : Address) : Result (BytesN 32) :=
  expect (s.get (.employee companyId employee)) "Employee not found"

def getEmployeeStatus (s : Storage) (companyId : Nat) (employee : Address) : EmployeeStatus :=
  (s.get (.empStatus companyId employee)).getD .incomplete

def isEmployeeActive (s : Storage) (companyId : Nat) (employee : Address) : Bool :=
  s.has (.employee companyId employee) &&
    decide (getEmployeeStatus s companyId employee = .active)

def isEligible (s : Storage) (companyId : Nat) (employee : Address) : Bool :=
  isEmployeeActive s companyId employee

def getCompanySequence (s : Storage) : Nat := (s.get .companySequence).getD 0

def validateEmployeeWalletFormat (employeeWallet : List UInt8) : Bool :=
  employeeWalletFormatIsValid employeeWallet

-- ---------------------------------------------------------------------------
-- Companies and employees
-- ---------------------------------------------------------------------------

def setPauseManager (e : LedgerEnv) (admin pauseManager : Address) (s : Storage) :
    Result Storage := do
  requireAuth e.toEnv admin
  return s.set .pauseManager pauseManager

/-- The first company gets the id 0. -/
def registerCompany (e : LedgerEnv) (admin treasury : Address) (s : Storage) :
    Result (Nat × Storage) := do
  requireNotPaused e s
  requireAuth e.toEnv admin
  ensure (s.has (.companyAdmin admin) = false) "Company already registered"
  let id := getCompanySequence s
  let next ← addU64 id 1
  let s := s.set .companySequence next
  let s := s.set (.company id) ⟨admin, treasury⟩
  return (id, s.set (.companyAdmin admin) id)

def addEmployee (e : LedgerEnv) (companyId : Nat) (employee : Address) (commitment : BytesN 32)
    (s : Storage) : Result Storage := do
  requireNotPaused e s
  requireCompanyAdmin e s companyId
  let s := s.set (.employee companyId employee) commitment
  return s.set (.empStatus companyId employee) .active

def addEmployeeByWallet (e : LedgerEnv) (companyId : Nat) (employeeWallet : List UInt8)
    (commitment : BytesN 32) (s : Storage) : Result Storage := do
  ensure (employeeWalletFormatIsValid employeeWallet = true) "Invalid employee wallet address format"
  addEmployee e companyId (e.addressFromString employeeWallet) commitment s

def removeEmployee (e : LedgerEnv) (companyId : Nat) (employee : Address) (s : Storage) :
    Result Storage := do
  requireNotPaused e s
  requireCompanyAdmin e s companyId
  return s.remove (.employee companyId employee)

def updateCommitment (e : LedgerEnv) (companyId : Nat) (employee : Address)
    (newCommitment : BytesN 32) (s : Storage) : Result Storage := do
  requireNotPaused e s
  requireCompanyAdmin e s companyId
  ensure (s.has (.employee companyId employee)) "Employee not found"
  return s.set (.employee companyId employee) newCommitment

def setEmployeeStatus (e : LedgerEnv) (companyId : Nat) (employee : Address)
    (status : EmployeeStatus) (s : Storage) : Result Storage := do
  requireNotPaused e s
  requireCompanyAdmin e s companyId
  ensure (s.has (.employee companyId employee)) "Employee not found"
  -- a status that is already set is not written again
  if getEmployeeStatus s companyId employee = status then return s
  return s.set (.empStatus companyId employee) status

-- ---------------------------------------------------------------------------
-- Rotations of admin and treasury
-- ---------------------------------------------------------------------------

def requireNamedAdmin (e : LedgerEnv) (s : Storage) (companyId : Nat) (currentAdmin : Address)
    (msg : Panic) : Result CompanyInfo := do
  let info ← getCompany s companyId
  ensure (currentAdmin = info.admin) msg
  requireAuth e.toEnv currentAdmin
  return info

def proposeAdminRotation (e : LedgerEnv) (companyId : Nat) (currentAdmin newAdmin : Address)
    (s : Storage) : Result Storage := do
  requireNotPaused e s
  let _ ← requireNamedAdmin e s companyId currentAdmin "Unauthorized: caller is not the company admin"
  ensure (s.has (.pendingAdminRotation companyId) = false)
    "A pending admin rotation already exists for this company"
  return s.set (.pendingAdminRotation companyId) ⟨newAdmin, currentAdmin, e.timestamp⟩

def acceptAdminRotation (e : LedgerEnv) (companyId : Nat) (newAdmin : Address) (s : Storage) :
    Result Storage := do
  requireNotPaused e s
  let proposal ← expect (s.get (.pendingAdminRotation companyId))
    "No pending admin rotation for this company"
  ensure (newAdmin = proposal.newHolder) "Unauthorized: caller is not the proposed admin"
  requireAuth e.toEnv newAdmin
  let info ← getCompany s companyId
  let s := s.set (.company companyId) { info with admin := newAdmin }
  let s := s.remove (.pendingAdminRotation companyId)
  let s := s.remove (.companyAdmin info.admin)
  return s.set (.companyAdmin newAdmin) companyId

def cancelAdminRotation (e : LedgerEnv) (companyId : Nat) (currentAdmin : Address) (s : Storage) :
    Result Storage := do
  requireNotPaused e s
  let _ ← requireNamedAdmin e s companyId currentAdmin "Unauthorized"
  ensure (s.has (.pendingAdminRotation companyId)) "No pending admin rotation to cancel"
  return s.remove (.pendingAdminRotation companyId)

def proposeTreasuryRotation (e : LedgerEnv) (companyId : Nat) (currentAdmin newTreasury : Address)
    (s : Storage) : Result Storage := do
  requireNotPaused e s
  let _ ← requireNamedAdmin e s companyId currentAdmin "Unauthorized: caller is not the company admin"
  ensure (s.has (.pendingTreasuryRotation companyId) = false)
    "A pending treasury rotation already exists for this company"
  return s.set (.pendingTreasuryRotation companyId) ⟨newTreasury, currentAdmin, e.timestamp⟩

def acceptTreasuryRotation (e : LedgerEnv) (companyId : Nat) (newTreasury : Address)
    (s : Storage) : Result Storage := do
  requireNotPaused e s
  let proposal ← expect (s.get (.pendingTreasuryRotation companyId))
    "No pending treasury rotation for this company"
  ensure (newTreasury = proposal.newHolder) "Unauthorized: caller is not the proposed treasury"
  requireAuth e.toEnv newTreasury
  let info ← getCompany s companyId
  let s := s.set (.company companyId) { info with treasury := newTreasury }
  return s.remove (.pendingTreasuryRotation companyId)

def cancelTreasuryRotation (e : LedgerEnv) (companyId : Nat) (currentAdmin : Address)
    (s : Storage) : Result Storage := do
  requireNotPaused e s
  let _ ← requireNamedAdmin e s companyId currentAdmin "Unauthorized"
  ensure (s.has (.pendingTreasuryRotation companyId)) "No pending treasury rotation to cancel"
  return s.remove (.pendingTreasuryRotation companyId)

-- ---------------------------------------------------------------------------
-- Approval thresholds
-- ---------------------------------------------------------------------------

/-- The authorisation is asked for before the company is looked up. -/
def requireThresholdAdmin (e : LedgerEnv) (s : Storage) (companyId : Nat) (admin : Address)
    (msg : Panic) : Result Unit := do
  requireAuth e.toEnv admin
  let company ← getCompany s companyId
  ensure (company.admin = admin) msg

def proposeThresholdRotation (e : LedgerEnv) (companyId : Nat) (admin : Address)
    (newThreshold gracePeriodSeconds : Nat) (s : Storage) : Result Storage := do
  requireNotPaused e s
  requireThresholdAdmin e s companyId admin "Only company admin can propose threshold rotation"
  ensure (newThreshold ≠ 0) "Threshold must be at least 1"
  let effectiveAfter ← addU64 e.timestamp gracePeriodSeconds
  return s.set (.pendingThresholdRotation companyId)
    ⟨companyId, newThreshold, e.timestamp, admin, effectiveAfter⟩

def activateThresholdRotation (e : LedgerEnv) (companyId : Nat) (admin : Address) (s : Storage) :
    Result Storage := do
  requireNotPaused e s
  requireThresholdAdmin e s companyId admin "Only company admin can activate threshold rotation"
  let pending ← expect (s.get (.pendingThresholdRotation companyId)) "No pending threshold rotation"
  ensure (¬ e.timestamp < pending.effectiveAfter) "Threshold rotation is still in grace period"
  let s := s.set (.approvalThreshold companyId)
    ⟨companyId, pending.newThreshold, e.timestamp, admin, true⟩
  return s.remove (.pendingThresholdRotation companyId)

def cancelThresholdRotation (e : LedgerEnv) (companyId : Nat) (admin : Address) (s : Storage) :
    Result Storage := do
  requireNotPaused e s
  requireThresholdAdmin e s companyId admin "Only company admin can cancel threshold rotation"
  let _ ← expect (s.get (.pendingThresholdRotation companyId)) "No pending threshold rotation"
  return s.remove (.pendingThresholdRotation companyId)

/-- The named caller is not compared with the company's admin, and the company
need not exist. -/
def setInitialApprovalThreshold (e : LedgerEnv) (companyId : Nat) (admin : Address)
    (requiredApprovals : Nat) (s : Storage) : Result Storage := do
  requireNotPaused e s
  requireAuth e.toEnv admin
  ensure (requiredApprovals ≠ 0) "Threshold must be at least 1"
  ensure (s.has (.approvalThreshold companyId) = false)
    "Approval threshold already configured for this company"
  return s.set (.approvalThreshold companyId)
    ⟨companyId, requiredApprovals, e.timestamp, admin, true⟩

-- ---------------------------------------------------------------------------
-- Calls
-- ---------------------------------------------------------------------------

inductive Call
  | setPauseManager (admin pauseManager : Address)
  | registerCompany (admin treasury : Address)
  | addEmployee (companyId : Nat) (employee : Address) (commitment : BytesN 32)
  | addEmployeeByWallet (companyId : Nat) (employeeWallet : List UInt8) (commitment : BytesN 32)
  | removeEmployee (companyId : Nat) (employee : Address)
  | updateCommitment (companyId : Nat) (employee : Address) (newCommitment : BytesN 32)
  | setEmployeeStatus (companyId : Nat) (employee : Address) (status : EmployeeStatus)
  | proposeAdminRotation (companyId : Nat) (currentAdmin newAdmin : Address)
  | acceptAdminRotation (companyId : Nat) (newAdmin : Address)
  | cancelAdminRotation (companyId : Nat) (currentAdmin : Address)
  | proposeTreasuryRotation (companyId : Nat) (currentAdmin newTreasury : Address)
  | acceptTreasuryRotation (companyId : Nat) (newTreasury : Address)
  | cancelTreasuryRotation (companyId : Nat) (currentAdmin : Address)
  | proposeThresholdRotation (companyId : Nat) (admin : Address)
      (newThreshold gracePeriodSeconds : Nat)
  | activateThresholdRotation (companyId : Nat) (admin : Address)
  | cancelThresholdRotation (companyId : Nat) (admin : Address)
  | setInitialApprovalThreshold (companyId : Nat) (admin : Address) (requiredApprovals : Nat)

/-- The read-only functions change nothing and have no constructor; the id
`register_company` returns is the sequence number before the call. -/
def exec (e : LedgerEnv) (s : Storage) : Call → Result Storage
  | .setPauseManager admin pauseManager => setPauseManager e admin pauseManager s
  | .registerCompany admin treasury => do
    let (_, s) ← registerCompany e admin treasury s
    return s
  | .addEmployee companyId employee commitment => addEmployee e companyId employee commitment s
  | .addEmployeeByWallet companyId employeeWallet commitment =>
    addEmployeeByWallet e companyId employeeWallet commitment s
  | .removeEmployee companyId employee => removeEmployee e companyId employee s
  | .updateCommitment companyId employee newCommitment =>
    updateCommitment e companyId employee newCommitment s
  | .setEmployeeStatus companyId employee status => setEmployeeStatus e companyId employee status s
  | .proposeAdminRotation companyId currentAdmin newAdmin =>
    proposeAdminRotation e companyId currentAdmin newAdmin s
  | .acceptAdminRotation companyId newAdmin => acceptAdminRotation e companyId newAdmin s
  | .cancelAdminRotation companyId currentAdmin => cancelAdminRotation e companyId currentAdmin s
  | .proposeTreasuryRotation companyId currentAdmin newTreasury =>
    proposeTreasuryRotation e companyId currentAdmin newTreasury s
  | .acceptTreasuryRotation companyId newTreasury =>
    acceptTreasuryRotation e companyId newTreasury s
  | .cancelTreasuryRotation companyId currentAdmin =>
    cancelTreasuryRotation e companyId currentAdmin s
  | .proposeThresholdRotation companyId admin newThreshold gracePeriodSeconds =>
    proposeThresholdRotation e companyId admin newThreshold gracePeriodSeconds s
  | .activateThresholdRotation companyId admin => activateThresholdRotation e companyId admin s
  | .cancelThresholdRotation companyId admin => cancelThresholdRotation e companyId admin s
  | .setInitialApprovalThreshold companyId admin requiredApprovals =>
    setInitialApprovalThreshold e companyId admin requiredApprovals s

theorem getCompany_ok {s : Storage} :
    getCompany s companyId = .ok info ↔ s.get (.company companyId) = some info := expect_ok

end ZkPayroll.PayrollRegistry
