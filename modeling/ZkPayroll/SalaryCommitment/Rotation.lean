import ZkPayroll.SalaryCommitment.Values
import ZkPayroll.PauseManager.Rotation

/-!
# Rotation of the admin

The salary commitment contract as a machine with a role. It implements the
protocol of the pause manager a second time, so what `RoleMachine.twoStep` says
holds of both. Locking a commitment and recording a nullifier are left to the
payroll operator where there is one, and are not reserved to the admin.
-/

namespace ZkPayroll.SalaryCommitmentContract

open Host

def role (s : Storage) : Role Address where
  holder := s.get .admin
  pending := (s.get .pendingAdminRotation).map fun p => ⟨p.proposedBy, p.newHolder⟩

def Call.act : Call → Option (Act Address)
  | .initCommitmentAdmin admin => some (.install admin)
  | .proposeAdminRotation currentAdmin newAdmin => some (.propose currentAdmin newAdmin)
  | .acceptAdminRotation newAdmin => some (.accept newAdmin)
  | .cancelAdminRotation currentAdmin => some (.cancel currentAdmin)
  | _ => none

def Call.isReserved : Call → Bool
  | .setPayrollOperator _ | .removePayrollOperator | .proposeAdminRotation ..
  | .cancelAdminRotation _ | .setPauseManager _ | .unlockCommitmentUpdates _ | .storeCommitment ..
  | .updateCommitment .. | .rotateCommitment .. | .setEmployeeReferenceId .. => true
  | .initCommitmentAdmin _ | .acceptAdminRotation _ | .lockCommitmentUpdates _
  | .recordNullifier _ => false

def act (s : Storage) (i : Input) : Option (Act Address) :=
  match exec i.env s i.call with
  | .ok _ => i.call.act
  | .error _ => none

section
variable {e : Env} {s s' : Storage}

-- ---------------------------------------------------------------------------
-- What the calls do to the role
-- ---------------------------------------------------------------------------

abbrev OffRole (k : DataKey) : Prop := k ≠ .admin ∧ k ≠ .pendingAdminRotation

theorem exec_role (hcall : call.act = none) (h : exec e s call = .ok s') : role s' = role s := by
  have hkept : Store.Frame OffRole s s' := by
    refine (exec_frame h).mono fun k hk => ?_
    cases call with
    | initCommitmentAdmin | proposeAdminRotation | acceptAdminRotation | cancelAdminRotation =>
      cases hcall
    | _ => cases k <;> simp_all [Call.Writes, OffRole]
  rw [role, hkept .admin (by simp), hkept .pendingAdminRotation (by simp), role]

theorem proposeAdminRotation_ok (h : proposeAdminRotation e currentAdmin newAdmin s = .ok s') :
    s.get .admin = some currentAdmin ∧ currentAdmin ∈ e.auths ∧
      s.get .pendingAdminRotation = none ∧
      s' = s.set .pendingAdminRotation ⟨newAdmin, currentAdmin, e.timestamp⟩ := by
  simp only [proposeAdminRotation, bind_ok, requireNotPaused_ok, expect_ok, ensure_ok,
    requireAuth_ok, pure_ok, exists_const, Store.has_eq_false] at h
  obtain ⟨-, stored, hget, rfl, hsigned, hfree, rfl⟩ := h
  exact ⟨hget, hsigned, hfree, rfl⟩

theorem cancelAdminRotation_ok (h : cancelAdminRotation e currentAdmin s = .ok s') :
    s.get .admin = some currentAdmin ∧ currentAdmin ∈ e.auths ∧
      s' = s.remove .pendingAdminRotation := by
  simp only [cancelAdminRotation, bind_ok, requireNotPaused_ok, expect_ok, ensure_ok,
    requireAuth_ok, pure_ok, exists_const] at h
  obtain ⟨-, stored, hget, rfl, hsigned, -, rfl⟩ := h
  exact ⟨hget, hsigned, rfl⟩

theorem exec_moves (h : exec e s call = .ok s') :
    Moves e.auths call.act (role s) (role s') := by
  cases call with
  | initCommitmentAdmin admin =>
    simp only [exec, initCommitmentAdmin, bind_ok, ensure_ok, pure_ok, exists_const,
      Store.has_eq_false] at h
    obtain ⟨hfree, rfl⟩ := h
    have hrole : role (s.set .admin admin) = { role s with holder := some admin } := by simp [role]
    rw [hrole]
    exact .install hfree
  | proposeAdminRotation currentAdmin newAdmin =>
    obtain ⟨hget, hsigned, hfree, rfl⟩ := proposeAdminRotation_ok h
    have hrole : role (s.set .pendingAdminRotation ⟨newAdmin, currentAdmin, e.timestamp⟩) =
        { role s with pending := some ⟨currentAdmin, newAdmin⟩ } := by simp [role]
    rw [hrole]
    exact .propose hget hsigned (by simp [role, hfree])
  | acceptAdminRotation newAdmin =>
    simp only [exec, acceptAdminRotation, bind_ok, requireNotPaused_ok, expect_ok, ensure_ok,
      requireAuth_ok, pure_ok, exists_const] at h
    obtain ⟨-, proposal, hget, rfl, hsigned, rfl⟩ := h
    have hrole : role ((s.set .admin proposal.newHolder).remove .pendingAdminRotation) =
        ⟨some proposal.newHolder, none⟩ := by simp [role]
    rw [hrole]
    exact .accept (a := proposal.proposedBy) (by simp [role, hget]) hsigned
  | cancelAdminRotation =>
    obtain ⟨hget, hsigned, rfl⟩ := cancelAdminRotation_ok h
    have hrole : role (s.remove .pendingAdminRotation) = { role s with pending := none } := by
      simp [role]
    rw [hrole]
    exact .cancel hget hsigned
  | _ =>
    rw [exec_role rfl h]
    exact .none

theorem exec_reserved (hcall : call.isReserved = true) (h : exec e s call = .ok s') :
    ∃ admin, s.get .admin = some admin ∧ admin ∈ e.auths := by
  cases call with
  | setPayrollOperator | removePayrollOperator | unlockCommitmentUpdates | setEmployeeReferenceId =>
    obtain ⟨_, -, h⟩ := bind_ok.mp h
    obtain ⟨_, hadmin, -⟩ := bind_ok.mp h
    exact requireAdmin_ok.mp hadmin
  | setPauseManager =>
    obtain ⟨_, hadmin, -⟩ := bind_ok.mp h
    exact requireAdmin_ok.mp hadmin
  | storeCommitment =>
    obtain ⟨⟨-, hadmin, -⟩, -⟩ := storeCommitment_ok.mp h
    exact hadmin
  | updateCommitment =>
    obtain ⟨_, _, ⟨⟨-, hadmin, -⟩, -⟩, -⟩ := updateCommitment_ok.mp h
    exact hadmin
  | rotateCommitment =>
    obtain ⟨_, _, ⟨⟨-, hadmin, -⟩, -⟩, -⟩ := rotateCommitment_ok.mp h
    exact hadmin
  | proposeAdminRotation =>
    obtain ⟨hget, hsigned, -⟩ := proposeAdminRotation_ok h
    exact ⟨_, hget, hsigned⟩
  | cancelAdminRotation =>
    obtain ⟨hget, hsigned, -⟩ := cancelAdminRotation_ok h
    exact ⟨_, hget, hsigned⟩
  | initCommitmentAdmin | acceptAdminRotation | lockCommitmentUpdates | recordNullifier => cases hcall

end

def roleMachine : RoleMachine Storage Input Address where
  next := next
  start := Store.empty
  role := role
  act := act
  signers i := i.env.auths
  Reserved i := i.call.isReserved = true
  Succeeds s i := ∃ s', exec i.env s i.call = .ok s'
  role_start := by simp [role]
  moves s i := by
    unfold act next
    cases h : exec i.env s i.call with
    | ok s' => exact exec_moves h
    | error msg => exact .none
  reserved s i hcall := by
    rintro ⟨s', h⟩
    exact exec_reserved hcall h

end ZkPayroll.SalaryCommitmentContract

namespace ZkPayroll

open Host

/-- In both contracts the role changes hands in two steps: a pending rotation is
always one of the current holder; a change from `a` to `b` was proposed by `a`
while it held the role, was not cancelled since and is signed by `b`; and until
`a` accepts a rotation again, nothing reserved to the holder goes through on
its signature alone. -/
theorem roles_change_in_two_steps :
    PauseManager.roleMachine.TwoStep ∧ SalaryCommitmentContract.roleMachine.TwoStep :=
  ⟨PauseManager.roleMachine.twoStep, SalaryCommitmentContract.roleMachine.twoStep⟩

namespace PauseManager.Sample

def alice : Address := ⟨2⟩
def bob : Address := ⟨3⟩

def env (auths : List Address) : Env where
  crypto := ⟨fun _ => BytesN.zero, fun _ => [], fun _ => [], fun _ => []⟩
  contract := ⟨0⟩
  timestamp := 100
  auths := auths
  isPaused _ := false
  verifyPaymentProof _ _ _ := true

def proposed : List Input :=
  [⟨env [], .initializeManager alice⟩, ⟨env [alice], .proposeOperatorRotation alice bob⟩]

def accept : Input := ⟨env [bob], .acceptOperatorRotation bob⟩

def handedBack : List Input :=
  [⟨env [bob], .proposeOperatorRotation bob alice⟩, ⟨env [alice], .acceptOperatorRotation alice⟩]

end PauseManager.Sample

open PauseManager in
/-- The role goes from Alice to Bob and back: not for all time after the first
change is Alice without the power to pause. -/
theorem former_operator_pauses_again :
    let M := roleMachine
    (M.role (M.run Sample.proposed)).holder = some Sample.alice ∧
      (M.role (M.run (Sample.proposed ++ [Sample.accept]))).holder = some Sample.bob ∧
      M.Succeeds (M.run (Sample.proposed ++ Sample.accept :: Sample.handedBack))
        ⟨Sample.env [Sample.alice], .pause⟩ ∧
      ¬ ∀ later, M.Powerless (M.run (Sample.proposed ++ Sample.accept :: later)) Sample.alice := by
  intro M
  have hpauses : M.Succeeds (M.run (Sample.proposed ++ Sample.accept :: Sample.handedBack))
      ⟨Sample.env [Sample.alice], .pause⟩ := ⟨_, rfl⟩
  refine ⟨by decide +kernel, by decide +kernel, hpauses, fun h => ?_⟩
  have hsigners : ∀ x ∈ (Sample.env [Sample.alice]).auths, x = Sample.alice := by decide
  exact h Sample.handedBack ⟨Sample.env [Sample.alice], .pause⟩ rfl hsigners hpauses

end ZkPayroll
