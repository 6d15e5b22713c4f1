import ZkPayroll.PauseManager

/-!
# Rotation of the operator

The pause manager as a machine with a role: what its calls do to the operator
and the pending rotation, and which of them are for the operator only.
-/

namespace ZkPayroll.PauseManager

open Host

def role (s : Storage) : Role Address where
  holder := s.get .operator
  pending := (s.get .pendingOperator).map fun p => ⟨p.proposedBy, p.newOperator⟩

def Call.act : Call → Option (Act Address)
  | .initializeManager operator => some (.install operator)
  | .proposeOperatorRotation currentOperator newOperator =>
    some (.propose currentOperator newOperator)
  | .acceptOperatorRotation newOperator => some (.accept newOperator)
  | .cancelOperatorRotation currentOperator => some (.cancel currentOperator)
  | _ => none

def Call.isReserved : Call → Bool
  | .pause | .unpause | .pauseCategory _ | .unpauseCategory _ | .proposeOperatorRotation ..
  | .cancelOperatorRotation _ => true
  | .initializeManager _ | .acceptOperatorRotation _ => false

def act (s : Storage) (i : Input) : Option (Act Address) :=
  match exec i.env s i.call with
  | .ok _ => i.call.act
  | .error _ => none

section
variable {e : Env} {s s' : Storage}

theorem requireOperator_ok : requireOperator e s = .ok u ↔
    ∃ operator, s.get .operator = some operator ∧ operator ∈ e.auths := by
  simp only [requireOperator, bind_ok, expect_ok, requireAuth_ok]

theorem requireNamedOperator_ok : requireNamedOperator e s currentOperator msg = .ok u ↔
    s.get .operator = some currentOperator ∧ currentOperator ∈ e.auths := by
  simp only [requireNamedOperator, bind_ok, expect_ok, ensure_ok, requireAuth_ok, exists_const]
  constructor
  · rintro ⟨operator, hget, rfl, hsigned⟩
    exact ⟨hget, hsigned⟩
  · rintro ⟨hget, hsigned⟩
    exact ⟨currentOperator, hget, rfl, hsigned⟩

@[simp] theorem role_setAll : role (setAll paused s) = role s := by
  simp [role, setAll, PauseCategory.all]

@[simp] theorem role_set_paused : role (s.set (.paused category) paused) = role s := by
  simp [role]

theorem role_operator : role (s.set .operator operator) = { role s with holder := some operator } := by
  simp [role]

theorem paused_role {x : Result Unit} {t : Storage} (ht : role t = role s)
    (h : (do x; return t : Result Storage) = .ok s') : role s' = role s := by
  simp only [bind_ok, pure_ok] at h
  obtain ⟨_, -, rfl⟩ := h
  exact ht

theorem exec_moves (h : exec e s call = .ok s') :
    Moves e.auths call.act (role s) (role s') := by
  have hkept (hrole : role s' = role s) : Moves e.auths none (role s) (role s') := by
    rw [hrole]
    exact .none
  cases call with
  | initializeManager operator =>
    simp only [exec, initializeManager, bind_ok, ensure_ok, pure_ok, exists_const,
      Store.has_eq_false] at h
    obtain ⟨hfree, rfl⟩ := h
    rw [role_setAll, role_operator]
    exact .install hfree
  | pause => exact hkept (paused_role role_setAll h)
  | unpause => exact hkept (paused_role role_setAll h)
  | pauseCategory => exact hkept (paused_role role_set_paused h)
  | unpauseCategory => exact hkept (paused_role role_set_paused h)
  | proposeOperatorRotation currentOperator newOperator =>
    simp only [exec, proposeOperatorRotation, bind_ok, requireNamedOperator_ok, ensure_ok, pure_ok,
      exists_const, Store.has_eq_false] at h
    obtain ⟨⟨hget, hsigned⟩, hfree, rfl⟩ := h
    have hrole : role (s.set .pendingOperator ⟨newOperator, currentOperator, e.timestamp⟩) =
        { role s with pending := some ⟨currentOperator, newOperator⟩ } := by simp [role]
    rw [hrole]
    exact .propose hget hsigned (by simp [role, hfree])
  | acceptOperatorRotation newOperator =>
    simp only [exec, acceptOperatorRotation, bind_ok, expect_ok, ensure_ok, requireAuth_ok, pure_ok,
      exists_const] at h
    obtain ⟨proposal, hget, rfl, hsigned, rfl⟩ := h
    have hrole : role ((s.set .operator proposal.newOperator).remove .pendingOperator) =
        ⟨some proposal.newOperator, none⟩ := by simp [role]
    rw [hrole]
    exact .accept (a := proposal.proposedBy) (by simp [role, hget]) hsigned
  | cancelOperatorRotation =>
    simp only [exec, cancelOperatorRotation, bind_ok, requireNamedOperator_ok, ensure_ok, pure_ok,
      exists_const] at h
    obtain ⟨⟨hget, hsigned⟩, -, rfl⟩ := h
    have hrole : role (s.remove .pendingOperator) = { role s with pending := none } := by
      simp [role]
    rw [hrole]
    exact .cancel hget hsigned

theorem exec_reserved (hcall : call.isReserved = true) (h : exec e s call = .ok s') :
    ∃ operator, s.get .operator = some operator ∧ operator ∈ e.auths := by
  cases call with
  | pause | unpause | pauseCategory | unpauseCategory =>
    obtain ⟨_, hoperator, -⟩ := bind_ok.mp h
    exact requireOperator_ok.mp hoperator
  | proposeOperatorRotation | cancelOperatorRotation =>
    obtain ⟨_, hoperator, -⟩ := bind_ok.mp h
    exact ⟨_, requireNamedOperator_ok.mp hoperator⟩
  | initializeManager | acceptOperatorRotation => cases hcall

end

def roleMachine : RoleMachine Storage Input Address where
  next := next
  start := Store.empty
  role := role
  act := act
  signers i := i.env.auths
  Reserved i := i.call.isReserved = true
  Succeeds s i := ∃ s', exec i.env s i.call = .ok s'
  role_start := by simp [role]
  moves s i := by
    unfold act next
    cases h : exec i.env s i.call with
    | ok s' => exact exec_moves h
    | error msg => exact .none
  reserved s i hcall := by
    rintro ⟨s', h⟩
    exact exec_reserved hcall h

end ZkPayroll.PauseManager
