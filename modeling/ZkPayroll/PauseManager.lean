import ZkPayroll.Env
import ZkPayroll.Host.Handover

/-!
# The pause manager

`contracts/pause_manager`: four categories that one operator pauses and
unpauses, and the two-step rotation of that operator. `is_paused`, the
question the other contracts ask, does not tell the categories apart.

Initialisation takes the operator from whoever calls first.
-/

namespace ZkPayroll.PauseManager

open Host

inductive PauseCategory
  | payroll
  | treasury
  | audit
  | admin
  deriving DecidableEq

/-- The categories in the order the loops of the source visit them. -/
def PauseCategory.all : List PauseCategory := [.payroll, .treasury, .audit, .admin]

structure PauseStatus where
  payrollPaused : Bool
  treasuryPaused : Bool
  auditPaused : Bool
  adminPaused : Bool
  deriving DecidableEq

structure PendingOperatorRotation where
  newOperator : Address
  proposedBy : Address
  proposedAt : Nat
  deriving DecidableEq

inductive DataKey
  | paused (category : PauseCategory)
  | operator
  | pendingOperator
  deriving DecidableEq

abbrev DataKey.Val : DataKey → Type
  | .paused _ => Bool
  | .operator => Address
  | .pendingOperator => PendingOperatorRotation

abbrev Storage := Store DataKey.Val

-- ---------------------------------------------------------------------------
-- Pausing
-- ---------------------------------------------------------------------------

def setAll (paused : Bool) (s : Storage) : Storage :=
  PauseCategory.all.foldl (fun s category => s.set (.paused category) paused) s

def requireOperator (e : Env) (s : Storage) : Result Unit := do
  let operator ← expect (s.get .operator) "Not initialized"
  requireAuth e operator

/-- The contract's `initialize`. -/
def initializeManager (operator : Address) (s : Storage) : Result Storage := do
  ensure (s.has .operator = false) "Already initialized"
  return setAll false (s.set .operator operator)

def pause (e : Env) (s : Storage) : Result Storage := do
  requireOperator e s
  return setAll true s

def unpause (e : Env) (s : Storage) : Result Storage := do
  requireOperator e s
  return setAll false s

def pauseCategory (e : Env) (category : PauseCategory) (s : Storage) : Result Storage := do
  requireOperator e s
  return s.set (.paused category) true

def unpauseCategory (e : Env) (category : PauseCategory) (s : Storage) : Result Storage := do
  requireOperator e s
  return s.set (.paused category) false

def isCategoryPaused (s : Storage) (category : PauseCategory) : Bool :=
  (s.get (.paused category)).getD false

def isPaused (s : Storage) : Bool := PauseCategory.all.any (isCategoryPaused s)

def getPauseStatus (s : Storage) : PauseStatus :=
  ⟨isCategoryPaused s .payroll, isCategoryPaused s .treasury, isCategoryPaused s .audit,
    isCategoryPaused s .admin⟩

-- ---------------------------------------------------------------------------
-- Rotation of the operator
-- ---------------------------------------------------------------------------

def requireNamedOperator (e : Env) (s : Storage) (currentOperator : Address) (msg : Panic) :
    Result Unit := do
  let operator ← expect (s.get .operator) "Not initialized"
  ensure (currentOperator = operator) msg
  requireAuth e currentOperator

def proposeOperatorRotation (e : Env) (currentOperator newOperator : Address) (s : Storage) :
    Result Storage := do
  requireNamedOperator e s currentOperator "Unauthorized: caller is not the current operator"
  ensure (s.has .pendingOperator = false) "A pending operator rotation already exists"
  return s.set .pendingOperator ⟨newOperator, currentOperator, e.timestamp⟩

def acceptOperatorRotation (e : Env) (newOperator : Address) (s : Storage) : Result Storage := do
  let proposal ← expect (s.get .pendingOperator) "No pending operator rotation"
  ensure (newOperator = proposal.newOperator) "Unauthorized: caller is not the proposed operator"
  requireAuth e newOperator
  let s := s.set .operator newOperator
  return s.remove .pendingOperator

def cancelOperatorRotation (e : Env) (currentOperator : Address) (s : Storage) :
    Result Storage := do
  requireNamedOperator e s currentOperator "Unauthorized"
  ensure (s.has .pendingOperator) "No pending operator rotation to cancel"
  return s.remove .pendingOperator

-- ---------------------------------------------------------------------------
-- The machine
-- ---------------------------------------------------------------------------

inductive Call
  | initializeManager (operator : Address)
  | pause
  | unpause
  | pauseCategory (category : PauseCategory)
  | unpauseCategory (category : PauseCategory)
  | proposeOperatorRotation (currentOperator newOperator : Address)
  | acceptOperatorRotation (newOperator : Address)
  | cancelOperatorRotation (currentOperator : Address)

def exec (e : Env) (s : Storage) : Call → Result Storage
  | .initializeManager operator => initializeManager operator s
  | .pause => pause e s
  | .unpause => unpause e s
  | .pauseCategory category => pauseCategory e category s
  | .unpauseCategory category => unpauseCategory e category s
  | .proposeOperatorRotation currentOperator newOperator =>
    proposeOperatorRotation e currentOperator newOperator s
  | .acceptOperatorRotation newOperator => acceptOperatorRotation e newOperator s
  | .cancelOperatorRotation currentOperator => cancelOperatorRotation e currentOperator s

structure Input where
  env : Env
  call : Call

def next (s : Storage) (i : Input) : Storage :=
  match exec i.env s i.call with
  | .ok s' => s'
  | .error _ => s

end ZkPayroll.PauseManager
