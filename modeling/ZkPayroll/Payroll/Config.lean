import ZkPayroll.Payroll.Checks

/-!
# Configuration and roles

Initialisation, the storage version, the pause manager, the asset allowlist,
the company state, the reviewers, and the two parallel protocols that change
the admin: rotation and handover.
-/

namespace ZkPayroll.Payroll

open Host

-- ---------------------------------------------------------------------------
-- Initialisation and settings
-- ---------------------------------------------------------------------------

def readyState (e : Env) (version : Nat) : MigrationReadinessState :=
  ⟨true, version, minSupportedStorageVersion, maxSupportedStorageVersion, e.timestamp⟩

/-- Keeps a version that is already there. -/
def initializeStorageVersion (e : Env) (s : Storage) : Storage :=
  if s.has .storageVersion then s
  else
    let s := s.set .storageVersion ⟨currentStorageVersion, e.timestamp, true, "Initial version"⟩
    s.set .migrationReadiness (readyState e currentStorageVersion)

/-- The contract's `initialize`: anyone may call it, once. -/
def initializePayroll (e : Env) (addrs : ContractAddresses) (s : Storage) : Result Storage := do
  ensure (s.has .addresses = false) "Already initialized"
  let s := s.set .addresses addrs
  let s := s.set (.allowedAsset addrs.token) true
  let s := s.set .treasuryOwner addrs.treasuryOwner
  let s := s.set .runCounter 0
  return initializeStorageVersion e s

def setStorageVersion (e : Env) (admin : Address) (version : Nat) (description : String)
    (s : Storage) : Result Storage := do
  requireNotPaused e s
  let _ ← requireAdmin e s admin "Unauthorized"
  ensure (¬ (version < minSupportedStorageVersion ∨ maxSupportedStorageVersion < version))
    "Storage version out of supported range"
  let s := s.set .storageVersion ⟨version, e.timestamp, true, description⟩
  return s.set .migrationReadiness (readyState e version)

def setPauseManager (e : Env) (pauseManager : Address) (s : Storage) : Result Storage := do
  let addrs ← getAddresses s
  requireAuth e addrs.admin
  return s.set .pauseManager pauseManager

/-- The list of enabled assets; before the first change of the allowlist it
is derived from the flag of the contract's own token. -/
def supportedAssetsOrToken (s : Storage) (token : Address) : List Address :=
  match s.get .supportedAssets with
  | some stored => stored
  | none => if isAssetAllowed s token then [token] else []

def setAssetAllowed (e : Env) (asset : Address) (allowed : Bool) (s : Storage) : Result Storage := do
  let addrs ← getAddresses s
  requireAuth e addrs.admin
  requireNoActivePayrollRun s
  let s := s.set (.allowedAsset asset) allowed
  let assets := supportedAssetsOrToken s addrs.token
  let assets :=
    if allowed = true ∧ asset ∉ assets then assets ++ [asset]
    else if allowed = false then assets.erase asset
    else assets
  return s.set .supportedAssets assets

def setCompanyState (e : Env) (admin : Address) (state : CompanyState) (s : Storage) :
    Result Storage := do
  let _ ← requireAdmin e s admin "Unauthorized"
  requireNoActivePayrollRun s
  return s.set .companyState state

-- ---------------------------------------------------------------------------
-- Admin and treasury rotation
-- ---------------------------------------------------------------------------

def proposeAdminRotation (e : Env) (currentAdmin newAdmin : Address) (s : Storage) :
    Result Storage := do
  requireNotPaused e s
  let _ ← requireAdmin e s currentAdmin "Unauthorized: caller is not the current admin"
  ensure (s.has .pendingAdminRotation = false) "A pending admin rotation already exists"
  return s.set .pendingAdminRotation ⟨newAdmin, currentAdmin, e.timestamp⟩

def acceptAdminRotation (e : Env) (newAdmin : Address) (s : Storage) : Result Storage := do
  requireNotPaused e s
  let proposal ← expect (s.get .pendingAdminRotation) "No pending admin rotation"
  ensure (newAdmin = proposal.newHolder) "Unauthorized: caller is not the proposed admin"
  requireAuth e newAdmin
  requireNoActivePayrollRun s
  let addrs ← getAddresses s
  let s := s.set .addresses { addrs with admin := newAdmin }
  return s.remove .pendingAdminRotation

def cancelAdminRotation (e : Env) (currentAdmin : Address) (s : Storage) : Result Storage := do
  requireNotPaused e s
  let _ ← requireAdmin e s currentAdmin "Unauthorized"
  ensure (s.has .pendingAdminRotation) "No pending admin rotation to cancel"
  return s.remove .pendingAdminRotation

def getTreasuryOwner (s : Storage) : Result Address :=
  expect (s.get .treasuryOwner) "Treasury owner not set"

def proposeTreasuryRotation (e : Env) (currentOwner newOwner : Address) (s : Storage) :
    Result Storage := do
  requireNotPaused e s
  let storedOwner ← getTreasuryOwner s
  ensure (currentOwner = storedOwner) "Unauthorized: caller is not the current treasury owner"
  requireAuth e currentOwner
  ensure (s.has .pendingTreasuryRotation = false) "A pending treasury rotation already exists"
  return s.set .pendingTreasuryRotation ⟨newOwner, currentOwner, e.timestamp⟩

def acceptTreasuryRotation (e : Env) (newOwner : Address) (s : Storage) : Result Storage := do
  requireNotPaused e s
  let proposal ← expect (s.get .pendingTreasuryRotation) "No pending treasury rotation"
  ensure (newOwner = proposal.newHolder) "Unauthorized: caller is not the proposed treasury owner"
  requireAuth e newOwner
  requireNoActivePayrollRun s
  let _ ← getTreasuryOwner s
  let s := s.set .treasuryOwner newOwner
  let addrs ← getAddresses s
  let s := s.set .addresses { addrs with treasuryOwner := newOwner }
  return s.remove .pendingTreasuryRotation

def cancelTreasuryRotation (e : Env) (currentOwner : Address) (s : Storage) : Result Storage := do
  requireNotPaused e s
  let storedOwner ← getTreasuryOwner s
  ensure (currentOwner = storedOwner) "Unauthorized"
  requireAuth e currentOwner
  ensure (s.has .pendingTreasuryRotation) "No pending treasury rotation to cancel"
  return s.remove .pendingTreasuryRotation

-- ---------------------------------------------------------------------------
-- Admin handover
-- ---------------------------------------------------------------------------

def requestAdminHandover (e : Env) (currentAdmin pendingAdmin : Address) (s : Storage) :
    Result Storage := do
  requireNotPaused e s
  let _ ← requireAdmin e s currentAdmin "Unauthorized: caller is not current admin"
  ensure (s.has .pendingAdminHandover = false) "A pending admin handover already exists"
  return s.set .pendingAdminHandover ⟨currentAdmin, pendingAdmin, e.timestamp⟩

/-- Unlike `acceptAdminRotation` this does not ask for the configuration to
be unlocked. -/
def acceptAdminHandover (e : Env) (pendingAdmin : Address) (s : Storage) : Result Storage := do
  requireNotPaused e s
  let handover ← expect (s.get .pendingAdminHandover) "No pending admin handover"
  ensure (pendingAdmin = handover.pendingAdmin) "Unauthorized: caller is not the pending admin"
  requireAuth e pendingAdmin
  let addrs ← getAddresses s
  let s := s.set .addresses { addrs with admin := pendingAdmin }
  return s.remove .pendingAdminHandover

def cancelAdminHandover (e : Env) (currentAdmin : Address) (s : Storage) : Result Storage := do
  requireNotPaused e s
  let _ ← requireAdmin e s currentAdmin "Unauthorized: caller is not current admin"
  ensure (s.has .pendingAdminHandover) "No pending admin handover to cancel"
  return s.remove .pendingAdminHandover

-- ---------------------------------------------------------------------------
-- Reviewers
-- ---------------------------------------------------------------------------

def addReviewer (e : Env) (admin reviewer : Address) (s : Storage) : Result Storage := do
  requireNotPaused e s
  let _ ← requireAdmin e s admin "Unauthorized"
  return s.set (.authorizedReviewer reviewer) true

def removeReviewer (e : Env) (admin reviewer : Address) (s : Storage) : Result Storage := do
  requireNotPaused e s
  let _ ← requireAdmin e s admin "Unauthorized"
  return s.remove (.authorizedReviewer reviewer)

def isReviewer (s : Storage) (reviewer : Address) : Bool :=
  (s.get (.authorizedReviewer reviewer)).getD false

/-- The common body of the three review entry points. -/
def reviewPayrollRun (e : Env) (reviewer : Address) (runId : Nat) (decision : ReviewDecision)
    (reason : Symbol) (s : Storage) : Result Storage := do
  requireNotPaused e s
  ensure (isReviewer s reviewer = true) "Unauthorized: caller is not an authorized reviewer"
  requireAuth e reviewer
  return s.set (.runReview runId) ⟨runId, reviewer, decision, reason, e.timestamp⟩

def approvePayrollRun (e : Env) (reviewer : Address) (runId : Nat) : Storage → Result Storage :=
  reviewPayrollRun e reviewer runId .approved "approved"

def rejectPayrollRun (e : Env) (reviewer : Address) (runId : Nat) (reason : Symbol) :
    Storage → Result Storage :=
  reviewPayrollRun e reviewer runId .rejected reason

def requestChangesPayrollRun (e : Env) (reviewer : Address) (runId : Nat) (reason : Symbol) :
    Storage → Result Storage :=
  reviewPayrollRun e reviewer runId .changesRequested reason

end ZkPayroll.Payroll
