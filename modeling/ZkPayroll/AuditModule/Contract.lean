import ZkPayroll.Host.Failure
import ZkPayroll.Host.Runs
import ZkPayroll.Env

/-!
# The audit module

`contracts/audit_module`: the view keys of auditors, their delegation from one
auditor to another, the verifications an auditor makes with a key, and the log
of these.

A key record names its parent auditor, and each parent has the list of the
delegates it ever granted a key to. Revoking a key walks these lists. The walk
has no bound of its own: `budget` is the depth at which the host stops it, and
varies from one transaction to the next. A function that returns an error code
or panics leaves no write. Events are not part of the model.

The grantor of a key made by `generate_view_key` is the contract itself; as in
the tests of the source, that address may be among those that authorise a call.
-/

namespace ZkPayroll.AuditModule

open Host

inductive AuditError
  | keyNotFound
  | wrongAuditor
  | keyExpired
  | notKeyGranter
  | insufficientScope
  | commitmentMismatch
  | invalidViewKey
  | expirationNotExtended
  | delegationNotAllowed
  | delegationExceedsParentScope
  | delegationExceedsParentExpiry
  | delegationRevoked
  deriving DecidableEq

inductive AuditScope
  | fullCompany
  | timeRange
  | employeeList
  | aggregateOnly
  deriving DecidableEq

structure ViewKeyRecord where
  keyBytes : BytesN 32
  expirationLedger : Nat
  grantedBy : Address
  scope : AuditScope
  allowDelegation : Bool
  maxScope : AuditScope
  maxExpirationLedger : Nat
  parentAuditor : Option Address
  deriving DecidableEq

structure AuditLogEntry where
  auditor : Address
  companyId : Symbol
  scope : AuditScope
  timestamp : Nat
  matched : Bool
  deriving DecidableEq

structure AuditReport where
  companyId : Symbol
  totalEmployees : Nat
  totalPaid : Int
  periodStart : Nat
  periodEnd : Nat
  verified : Bool
  deriving DecidableEq

structure AuditMetadataSummary where
  companyId : Symbol
  periodStart : Nat
  periodEnd : Nat
  totalAuditEntries : Nat
  verificationPassCount : Nat
  verificationFailCount : Nat
  exportedAt : Nat
  exportedBy : Address
  deriving DecidableEq

inductive DataKey
  | auditorKey (auditor : Address)
  | delegatedAuditors (auditor : Address)
  | auditLogCounter (companyId : Symbol)
  | auditLog (companyId : Symbol) (index : Nat)
  | pauseManager
  deriving DecidableEq

abbrev DataKey.Val : DataKey → Type
  | .auditorKey _ => ViewKeyRecord
  | .delegatedAuditors _ => List Address
  | .auditLogCounter _ => Nat
  | .auditLog _ _ => AuditLogEntry
  | .pauseManager => Address

abbrev Storage := Store DataKey.Val

-- ---------------------------------------------------------------------------
-- Helpers
-- ---------------------------------------------------------------------------

def requireNotPaused (e : LedgerEnv) (s : Storage) : Result Unit :=
  match s.get .pauseManager with
  | some pm => ensure (e.isPaused pm = false) "Payroll is paused"
  | none => pure ()

/-- `to_le_bytes` of an unsigned integer of `n` bytes. -/
def toLeBytes : (n value : Nat) → List UInt8
  | 0, _ => []
  | n + 1, value => UInt8.ofNat (value % 256) :: toLeBytes n (value / 256)

def deriveKeyBytes (e : LedgerEnv) (auditor : Address) (expirationLedger : Nat) : BytesN 32 :=
  e.crypto.sha256
    (e.crypto.addressToXdr auditor ++ toLeBytes 4 expirationLedger ++ toLeBytes 4 e.sequence)

/-- The amount is an `i128`, in two's complement. -/
def computeCommitment (e : LedgerEnv) (amount : Int) (blinding : BytesN 32) : BytesN 32 :=
  e.crypto.sha256 (toLeBytes 16 (amount % 2 ^ 128).toNat ++ blinding.toList)

def computeKeyedCommitment (e : LedgerEnv) (viewKey commitment : BytesN 32) : BytesN 32 :=
  e.crypto.sha256 (viewKey.toList ++ commitment.toList)

def AuditScope.rank : AuditScope → Nat
  | .fullCompany => 4
  | .timeRange => 3
  | .employeeList => 2
  | .aggregateOnly => 1

def scopeIsWithin (parentScope childScope : AuditScope) : Bool :=
  decide (childScope.rank ≤ parentScope.rank)

def recordAuditLog (e : LedgerEnv) (auditor : Address) (scope : AuditScope) (matched : Bool)
    (s : Storage) : Result Storage := do
  let companyId : Symbol := "default"
  let counter := (s.get (.auditLogCounter companyId)).getD 0
  let s := s.set (.auditLog companyId counter) ⟨auditor, companyId, scope, e.timestamp, matched⟩
  let counter ← addU32 counter 1
  return s.set (.auditLogCounter companyId) counter

/-- Drops the keys of all delegates below the auditor, and the lists that led
to them. A list is dropped only after its delegates have been visited. -/
def revokeDescendants : (budget : Nat) → Address → Storage → Result Storage
  | 0, _, _ => throw "Error(Budget, ExceededLimit)"
  | budget + 1, auditor, s => do
    let delegates := (s.get (.delegatedAuditors auditor)).getD []
    let s ← delegates.foldlM
      (fun s delegate => revokeDescendants budget delegate (s.remove (.auditorKey delegate))) s
    return s.remove (.delegatedAuditors auditor)

-- ---------------------------------------------------------------------------
-- View keys
-- ---------------------------------------------------------------------------

def setPauseManager (e : LedgerEnv) (admin pauseManager : Address) (s : Storage) :
    Result Storage := do
  requireAuth e.toEnv admin
  return s.set .pauseManager pauseManager

def getPauseManager (s : Storage) : Option Address := s.get .pauseManager

/-- The record of a key that no auditor delegated. -/
def rootRecord (e : LedgerEnv) (auditor : Address) (expirationLedger : Nat) : ViewKeyRecord where
  keyBytes := deriveKeyBytes e auditor expirationLedger
  expirationLedger := expirationLedger
  grantedBy := e.contract
  scope := .fullCompany
  allowDelegation := false
  maxScope := .fullCompany
  maxExpirationLedger := expirationLedger
  parentAuditor := none

def generateViewKey (e : LedgerEnv) (auditor : Address) (expirationLedger : Nat) (s : Storage) :
    Result (BytesN 32 × Storage) := do
  requireNotPaused e s
  let record := rootRecord e auditor expirationLedger
  return (record.keyBytes, s.set (.auditorKey auditor) record)

def verifyAccess (e : LedgerEnv) (s : Storage) (auditor : Address) : Bool :=
  match s.get (.auditorKey auditor) with
  | none => false
  | some record =>
    if e.sequence > record.expirationLedger then false
    else match record.parentAuditor with
      | none => true
      | some parent =>
        match s.get (.auditorKey parent) with
        | none => false
        | some parentRecord =>
          if e.sequence > parentRecord.expirationLedger then false
          else if scopeIsWithin parentRecord.maxScope record.scope = false then false
          else if record.expirationLedger > parentRecord.maxExpirationLedger ∨
            record.expirationLedger > parentRecord.expirationLedger then false
          else true

def revokeViewKey (e : LedgerEnv) (budget : Nat) (admin auditor : Address) (s : Storage) :
    Outcome AuditError Storage := do
  orPanic (requireNotPaused e s)
  orPanic (requireAuth e.toEnv admin)
  let record ← okOr (s.get (.auditorKey auditor)) .keyNotFound
  check (record.grantedBy = admin) .notKeyGranter
  let s ← orPanic (revokeDescendants budget auditor s)
  return s.remove (.auditorKey auditor)

def getViewKey (s : Storage) (auditor : Address) : Outcome AuditError ViewKeyRecord :=
  okOr (s.get (.auditorKey auditor)) .keyNotFound

def getExpiration (s : Storage) (auditor : Address) : Outcome AuditError Nat := do
  let record ← okOr (s.get (.auditorKey auditor)) .keyNotFound
  return record.expirationLedger

def refreshViewKey (e : LedgerEnv) (admin auditor : Address) (newExpirationLedger : Nat)
    (s : Storage) : Outcome AuditError (BytesN 32 × Storage) := do
  orPanic (requireNotPaused e s)
  orPanic (requireAuth e.toEnv admin)
  let record ← okOr (s.get (.auditorKey auditor)) .keyNotFound
  check (record.grantedBy = admin) .notKeyGranter
  check (¬ newExpirationLedger ≤ record.expirationLedger) .expirationNotExtended
  let newKeyBytes := deriveKeyBytes e auditor newExpirationLedger
  return (newKeyBytes, s.set (.auditorKey auditor)
    { record with
      keyBytes := newKeyBytes
      expirationLedger := newExpirationLedger
      grantedBy := admin })

-- ---------------------------------------------------------------------------
-- Delegation
-- ---------------------------------------------------------------------------

def setDelegationPolicy (e : LedgerEnv) (admin auditor : Address) (allowDelegation : Bool)
    (maxScope : AuditScope) (maxExpirationLedger : Nat) (s : Storage) :
    Outcome AuditError Storage := do
  orPanic (requireNotPaused e s)
  orPanic (requireAuth e.toEnv admin)
  let record ← okOr (s.get (.auditorKey auditor)) .keyNotFound
  check (record.grantedBy = admin) .notKeyGranter
  return s.set (.auditorKey auditor)
    { record with
      allowDelegation := allowDelegation
      maxScope := maxScope
      maxExpirationLedger := maxExpirationLedger }

def approveDelegation := setDelegationPolicy

def authorizeAuditor (e : LedgerEnv) (auditor : Address) (s : Storage) :
    Outcome AuditError ViewKeyRecord := do
  orPanic (requireAuth e.toEnv auditor)
  let record ← okOr (s.get (.auditorKey auditor)) .keyNotFound
  check (¬ e.sequence > record.expirationLedger) .keyExpired
  match record.parentAuditor with
  | some parent => do
    let parentRecord ← okOr (s.get (.auditorKey parent)) .delegationRevoked
    check (¬ e.sequence > parentRecord.expirationLedger) .delegationRevoked
    check (scopeIsWithin parentRecord.maxScope record.scope) .delegationExceedsParentScope
    check (¬ (record.expirationLedger > parentRecord.maxExpirationLedger ∨
      record.expirationLedger > parentRecord.expirationLedger)) .delegationExceedsParentExpiry
    return record
  | none => return record

def delegatedRecord (e : LedgerEnv) (auditor delegate : Address) (parent : ViewKeyRecord)
    (scope : AuditScope) (expirationLedger : Nat) : ViewKeyRecord where
  keyBytes := deriveKeyBytes e delegate expirationLedger
  expirationLedger := expirationLedger
  grantedBy := auditor
  scope := scope
  allowDelegation := parent.allowDelegation
  maxScope := scope
  maxExpirationLedger := expirationLedger
  parentAuditor := some auditor

def delegateViewKey (e : LedgerEnv) (auditor delegate : Address) (scope : AuditScope)
    (expirationLedger : Nat) (s : Storage) : Outcome AuditError (BytesN 32 × Storage) := do
  let parent ← authorizeAuditor e auditor s
  check (parent.allowDelegation = true) .delegationNotAllowed
  check (scopeIsWithin parent.maxScope scope) .delegationExceedsParentScope
  check (¬ (expirationLedger > parent.maxExpirationLedger ∨
    expirationLedger > parent.expirationLedger)) .delegationExceedsParentExpiry
  let record := delegatedRecord e auditor delegate parent scope expirationLedger
  let s := s.set (.auditorKey delegate) record
  let delegates := (s.get (.delegatedAuditors auditor)).getD []
  return (record.keyBytes, s.set (.delegatedAuditors auditor) (delegates ++ [delegate]))

def grantDelegatedAccess := delegateViewKey

/-- The auditor named as the parent is not asked for its authorisation. -/
def extendDelegatedAccess (e : LedgerEnv) (auditor delegate : Address) (newExpirationLedger : Nat)
    (s : Storage) : Outcome AuditError (BytesN 32 × Storage) := do
  let record ← okOr (s.get (.auditorKey delegate)) .keyNotFound
  check (record.parentAuditor = some auditor) .notKeyGranter
  check (¬ e.sequence > record.expirationLedger) .keyExpired
  let parent ← okOr (s.get (.auditorKey auditor)) .delegationRevoked
  check (parent.allowDelegation = true) .delegationNotAllowed
  check (¬ newExpirationLedger ≤ record.expirationLedger) .expirationNotExtended
  check (¬ (newExpirationLedger > parent.maxExpirationLedger ∨
    newExpirationLedger > parent.expirationLedger)) .delegationExceedsParentExpiry
  check (scopeIsWithin parent.maxScope record.scope) .delegationExceedsParentScope
  let newKey := deriveKeyBytes e delegate newExpirationLedger
  return (newKey, s.set (.auditorKey delegate)
    { record with keyBytes := newKey, expirationLedger := newExpirationLedger })

-- ---------------------------------------------------------------------------
-- Verifications
-- ---------------------------------------------------------------------------

/-- Looks at the scope the caller asks for, not at the one of the key. -/
def verifyScopeForCommitment (scope : AuditScope) : Outcome AuditError Unit :=
  check (scope ≠ .aggregateOnly) .insufficientScope

def verifyCommitmentInner (e : LedgerEnv) (viewKey storedCommitment : BytesN 32)
    (claimedAmount : Int) (blindingFactor : BytesN 32) : Bool :=
  let computed := computeCommitment e claimedAmount blindingFactor
  let keyedStored := computeKeyedCommitment e viewKey storedCommitment
  let keyedComputed := computeKeyedCommitment e viewKey computed
  decide (keyedComputed = keyedStored)

def verifyCommitmentWithKey (e : LedgerEnv) (auditor : Address) (storedCommitment : BytesN 32)
    (claimedAmount : Int) (blindingFactor : BytesN 32) (scope : AuditScope) (s : Storage) :
    Outcome AuditError (Bool × Storage) := do
  let record ← authorizeAuditor e auditor s
  verifyScopeForCommitment scope
  let matched :=
    verifyCommitmentInner e record.keyBytes storedCommitment claimedAmount blindingFactor
  let s ← orPanic (recordAuditLog e auditor scope matched s)
  check (matched = true) .commitmentMismatch
  return (matched, s)

def verifyCommitmentWithViewKey (e : LedgerEnv) (auditor : Address)
    (suppliedKey storedCommitment : BytesN 32) (claimedAmount : Int) (blindingFactor : BytesN 32)
    (scope : AuditScope) (s : Storage) : Outcome AuditError (Bool × Storage) := do
  let record ← authorizeAuditor e auditor s
  verifyScopeForCommitment scope
  check (suppliedKey = record.keyBytes) .invalidViewKey
  let matched := verifyCommitmentInner e suppliedKey storedCommitment claimedAmount blindingFactor
  let s ← orPanic (recordAuditLog e auditor scope matched s)
  check (matched = true) .commitmentMismatch
  return (matched, s)

/-- A mismatch is an answer here, not an error. -/
def verifyPayrollMetadata (e : LedgerEnv) (auditor : Address) (storedHash expectedHash : BytesN 32)
    (scope : AuditScope) (s : Storage) : Outcome AuditError (Bool × Storage) := do
  orPanic (ensure (¬ (storedHash = BytesN.zero ∨ expectedHash = BytesN.zero))
    "Metadata hash cannot be all-zero digest")
  let _ ← authorizeAuditor e auditor s
  verifyScopeForCommitment scope
  let matched := decide (storedHash = expectedHash)
  let s ← orPanic (recordAuditLog e auditor scope matched s)
  return (matched, s)

-- ---------------------------------------------------------------------------
-- Reports and the log
-- ---------------------------------------------------------------------------

def generateAggregateReport (e : LedgerEnv) (auditor : Address) (companyId : Symbol)
    (periodStart periodEnd : Nat) (s : Storage) : Outcome AuditError (AuditReport × Storage) := do
  let _ ← authorizeAuditor e auditor s
  let report : AuditReport := ⟨companyId, 0, 0, periodStart, periodEnd, true⟩
  let s ← orPanic (recordAuditLog e auditor .aggregateOnly true s)
  return (report, s)

def getAuditLogCount (s : Storage) (companyId : Symbol) : Nat :=
  (s.get (.auditLogCounter companyId)).getD 0

def queryByCompany (s : Storage) (companyId : Symbol) : List AuditLogEntry :=
  (List.range (getAuditLogCount s companyId)).filterMap fun i => s.get (.auditLog companyId i)

def queryByEmployee (s : Storage) (companyId : Symbol) (employee : Address) : List AuditLogEntry :=
  (queryByCompany s companyId).filter (·.auditor = employee)

def queryByPeriod (s : Storage) (companyId : Symbol) (periodStart periodEnd : Nat) :
    List AuditLogEntry :=
  (queryByCompany s companyId).filter fun entry =>
    periodStart ≤ entry.timestamp ∧ entry.timestamp ≤ periodEnd

def exportAuditSummary (e : LedgerEnv) (auditor : Address) (companyId : Symbol)
    (periodStart periodEnd : Nat) (s : Storage) : Outcome AuditError AuditMetadataSummary := do
  let _ ← authorizeAuditor e auditor s
  let entries := queryByPeriod s companyId periodStart periodEnd
  return ⟨companyId, periodStart, periodEnd, entries.length, entries.countP (·.matched = true),
    entries.countP (·.matched = false), e.timestamp, auditor⟩

-- ---------------------------------------------------------------------------
-- The machine
-- ---------------------------------------------------------------------------

inductive Call
  | setPauseManager (admin pauseManager : Address)
  | generateViewKey (auditor : Address) (expirationLedger : Nat)
  | revokeViewKey (admin auditor : Address)
  | refreshViewKey (admin auditor : Address) (newExpirationLedger : Nat)
  | setDelegationPolicy (admin auditor : Address) (allowDelegation : Bool) (maxScope : AuditScope)
      (maxExpirationLedger : Nat)
  | approveDelegation (admin auditor : Address) (allowDelegation : Bool) (maxScope : AuditScope)
      (maxExpirationLedger : Nat)
  | delegateViewKey (auditor delegate : Address) (scope : AuditScope) (expirationLedger : Nat)
  | grantDelegatedAccess (auditor delegate : Address) (scope : AuditScope) (expirationLedger : Nat)
  | extendDelegatedAccess (auditor delegate : Address) (newExpirationLedger : Nat)
  | verifyCommitmentWithKey (auditor : Address) (storedCommitment : BytesN 32) (claimedAmount : Int)
      (blindingFactor : BytesN 32) (scope : AuditScope)
  | verifyCommitmentWithViewKey (auditor : Address) (suppliedKey storedCommitment : BytesN 32)
      (claimedAmount : Int) (blindingFactor : BytesN 32) (scope : AuditScope)
  | verifyPayrollMetadata (auditor : Address) (storedHash expectedHash : BytesN 32)
      (scope : AuditScope)
  | generateAggregateReport (auditor : Address) (companyId : Symbol) (periodStart periodEnd : Nat)
  | exportAuditSummary (auditor : Address) (companyId : Symbol) (periodStart periodEnd : Nat)

inductive Ret
  | unit
  | key (keyBytes : BytesN 32)
  | verified (matched : Bool)
  | report (report : AuditReport)
  | summary (summary : AuditMetadataSummary)
  deriving DecidableEq

def returning (ret : α → Ret) (f : Outcome AuditError (α × Storage)) :
    Outcome AuditError (Ret × Storage) := do
  let (a, s) ← f
  return (ret a, s)

def returningUnit (f : Outcome AuditError Storage) : Outcome AuditError (Ret × Storage) := do
  let s ← f
  return (.unit, s)

def exec (e : LedgerEnv) (budget : Nat) (s : Storage) : Call → Outcome AuditError (Ret × Storage)
  | .setPauseManager admin pauseManager =>
    returningUnit (orPanic (setPauseManager e admin pauseManager s))
  | .generateViewKey auditor expirationLedger =>
    returning .key (orPanic (generateViewKey e auditor expirationLedger s))
  | .revokeViewKey admin auditor => returningUnit (revokeViewKey e budget admin auditor s)
  | .refreshViewKey admin auditor newExpirationLedger =>
    returning .key (refreshViewKey e admin auditor newExpirationLedger s)
  | .setDelegationPolicy admin auditor allowDelegation maxScope maxExpirationLedger =>
    returningUnit
      (setDelegationPolicy e admin auditor allowDelegation maxScope maxExpirationLedger s)
  | .approveDelegation admin auditor allowDelegation maxScope maxExpirationLedger =>
    returningUnit
      (approveDelegation e admin auditor allowDelegation maxScope maxExpirationLedger s)
  | .delegateViewKey auditor delegate scope expirationLedger =>
    returning .key (delegateViewKey e auditor delegate scope expirationLedger s)
  | .grantDelegatedAccess auditor delegate scope expirationLedger =>
    returning .key (grantDelegatedAccess e auditor delegate scope expirationLedger s)
  | .extendDelegatedAccess auditor delegate newExpirationLedger =>
    returning .key (extendDelegatedAccess e auditor delegate newExpirationLedger s)
  | .verifyCommitmentWithKey auditor storedCommitment claimedAmount blindingFactor scope =>
    returning .verified
      (verifyCommitmentWithKey e auditor storedCommitment claimedAmount blindingFactor scope s)
  | .verifyCommitmentWithViewKey auditor suppliedKey storedCommitment claimedAmount blindingFactor
      scope =>
    returning .verified (verifyCommitmentWithViewKey e auditor suppliedKey storedCommitment
      claimedAmount blindingFactor scope s)
  | .verifyPayrollMetadata auditor storedHash expectedHash scope =>
    returning .verified (verifyPayrollMetadata e auditor storedHash expectedHash scope s)
  | .generateAggregateReport auditor companyId periodStart periodEnd =>
    returning .report (generateAggregateReport e auditor companyId periodStart periodEnd s)
  | .exportAuditSummary auditor companyId periodStart periodEnd => do
    let summary ← exportAuditSummary e auditor companyId periodStart periodEnd s
    return (.summary summary, s)

structure Input where
  env : LedgerEnv
  budget : Nat
  call : Call

def next (s : Storage) (i : Input) : Storage :=
  match exec i.env i.budget s i.call with
  | .ok (_, s') => s'
  | .error _ => s

abbrev Reached (s : Storage) : Prop := Reachable next Store.empty s

end ZkPayroll.AuditModule
