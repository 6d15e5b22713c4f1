import ZkPayroll.PayrollRegistry

/-!
# What the registry's calls do to employees

Exactly when the functions that write employees succeed and what they leave,
and a frame for the calls that write none. Together they say what a
transaction makes of an employee's `Standing`, the entry and the status that
`is_eligible` looks at.
-/

namespace ZkPayroll.PayrollRegistry

open Host

section
variable {e : LedgerEnv} {s s' : Storage}

-- ---------------------------------------------------------------------------
-- Guards
-- ---------------------------------------------------------------------------

def Paused (e : LedgerEnv) (s : Storage) : Prop :=
  ∃ pm, s.get .pauseManager = some pm ∧ e.isPaused pm = true

theorem requireNotPaused_ok : requireNotPaused e s = .ok u ↔ ¬ Paused e s := by
  unfold requireNotPaused Paused
  cases s.get .pauseManager <;> simp [ensure_ok, pure_ok]

def AdminCalls (e : LedgerEnv) (s : Storage) (companyId : Nat) : Prop :=
  ¬ Paused e s ∧ ∃ info, s.get (.company companyId) = some info ∧ info.admin ∈ e.auths

theorem requireCompanyAdmin_ok : requireCompanyAdmin e s companyId = .ok u ↔
    ∃ info, s.get (.company companyId) = some info ∧ info.admin ∈ e.auths := by
  simp only [requireCompanyAdmin, bind_ok, getCompany_ok, requireAuth_ok]

-- ---------------------------------------------------------------------------
-- Employees
-- ---------------------------------------------------------------------------

theorem addEmployee_ok : addEmployee e companyId employee commitment s = .ok s' ↔
    AdminCalls e s companyId ∧
      s' = (s.set (.employee companyId employee) commitment).set
        (.empStatus companyId employee) .active := by
  simp only [addEmployee, AdminCalls, bind_ok, requireNotPaused_ok, requireCompanyAdmin_ok, pure_ok,
    exists_const, and_assoc]

theorem addEmployeeByWallet_ok : addEmployeeByWallet e companyId wallet commitment s = .ok s' ↔
    employeeWalletFormatIsValid wallet = true ∧
      addEmployee e companyId (e.addressFromString wallet) commitment s = .ok s' := by
  simp only [addEmployeeByWallet, bind_ok, ensure_ok, exists_const]

theorem removeEmployee_ok : removeEmployee e companyId employee s = .ok s' ↔
    AdminCalls e s companyId ∧ s' = s.remove (.employee companyId employee) := by
  simp only [removeEmployee, AdminCalls, bind_ok, requireNotPaused_ok, requireCompanyAdmin_ok, pure_ok,
    exists_const, and_assoc]

theorem updateCommitment_ok : updateCommitment e companyId employee newCommitment s = .ok s' ↔
    AdminCalls e s companyId ∧ s.has (.employee companyId employee) = true ∧
      s' = s.set (.employee companyId employee) newCommitment := by
  simp only [updateCommitment, AdminCalls, bind_ok, requireNotPaused_ok, requireCompanyAdmin_ok,
    ensure_ok, pure_ok, exists_const, and_assoc]

theorem setEmployeeStatus_ok : setEmployeeStatus e companyId employee status s = .ok s' ↔
    AdminCalls e s companyId ∧ s.has (.employee companyId employee) = true ∧
      s' = if getEmployeeStatus s companyId employee = status then s
        else s.set (.empStatus companyId employee) status := by
  simp only [setEmployeeStatus, AdminCalls, bind_ok, requireNotPaused_ok, requireCompanyAdmin_ok,
    ensure_ok, exists_const, and_assoc]
  split_ifs <;> simp [pure_ok]

-- ---------------------------------------------------------------------------
-- Everything else
-- ---------------------------------------------------------------------------

def DataKey.isEmployment : DataKey → Bool
  | .employee .. | .empStatus .. => true
  | _ => false

def Call.isEmployment : Call → Bool
  | .addEmployee .. | .addEmployeeByWallet .. | .removeEmployee .. | .updateCommitment ..
  | .setEmployeeStatus .. => true
  | _ => false

theorem exec_frame (hcall : call.isEmployment = false) (h : exec e s call = .ok s') :
    Store.Frame (fun k => k.isEmployment = false) s s' := by
  cases call with
  | addEmployee | addEmployeeByWallet | removeEmployee | updateCommitment | setEmployeeStatus =>
    cases hcall
  | setPauseManager =>
    simp only [exec, setPauseManager, bind_ok, pure_ok] at h
    obtain ⟨_, -, rfl⟩ := h
    simp [DataKey.isEmployment, Store.Frame.refl]
  | registerCompany =>
    simp only [exec, registerCompany, bind_ok, pure_ok] at h
    obtain ⟨_, ⟨_, -, _, -, _, -, _, -, rfl⟩, rfl⟩ := h
    simp [DataKey.isEmployment, Store.Frame.refl]
  | proposeAdminRotation =>
    simp only [exec, proposeAdminRotation, bind_ok, pure_ok] at h
    obtain ⟨_, -, _, -, _, -, rfl⟩ := h
    simp [DataKey.isEmployment, Store.Frame.refl]
  | acceptAdminRotation =>
    simp only [exec, acceptAdminRotation, bind_ok, pure_ok] at h
    obtain ⟨_, -, _, -, _, -, _, -, _, -, rfl⟩ := h
    simp [DataKey.isEmployment, Store.Frame.refl]
  | cancelAdminRotation =>
    simp only [exec, cancelAdminRotation, bind_ok, pure_ok] at h
    obtain ⟨_, -, _, -, _, -, rfl⟩ := h
    simp [DataKey.isEmployment, Store.Frame.refl]
  | proposeTreasuryRotation =>
    simp only [exec, proposeTreasuryRotation, bind_ok, pure_ok] at h
    obtain ⟨_, -, _, -, _, -, rfl⟩ := h
    simp [DataKey.isEmployment, Store.Frame.refl]
  | acceptTreasuryRotation =>
    simp only [exec, acceptTreasuryRotation, bind_ok, pure_ok] at h
    obtain ⟨_, -, _, -, _, -, _, -, _, -, rfl⟩ := h
    simp [DataKey.isEmployment, Store.Frame.refl]
  | cancelTreasuryRotation =>
    simp only [exec, cancelTreasuryRotation, bind_ok, pure_ok] at h
    obtain ⟨_, -, _, -, _, -, rfl⟩ := h
    simp [DataKey.isEmployment, Store.Frame.refl]
  | proposeThresholdRotation =>
    simp only [exec, proposeThresholdRotation, bind_ok, pure_ok] at h
    obtain ⟨_, -, _, -, _, -, _, -, rfl⟩ := h
    simp [DataKey.isEmployment, Store.Frame.refl]
  | activateThresholdRotation =>
    simp only [exec, activateThresholdRotation, bind_ok, pure_ok] at h
    obtain ⟨_, -, _, -, _, -, _, -, rfl⟩ := h
    simp [DataKey.isEmployment, Store.Frame.refl]
  | cancelThresholdRotation =>
    simp only [exec, cancelThresholdRotation, bind_ok, pure_ok] at h
    obtain ⟨_, -, _, -, _, -, rfl⟩ := h
    simp [DataKey.isEmployment, Store.Frame.refl]
  | setInitialApprovalThreshold =>
    simp only [exec, setInitialApprovalThreshold, bind_ok, pure_ok] at h
    obtain ⟨_, -, _, -, _, -, _, -, rfl⟩ := h
    simp [DataKey.isEmployment, Store.Frame.refl]

end

-- ---------------------------------------------------------------------------
-- Standing
-- ---------------------------------------------------------------------------

/-- Whether an employee is enrolled, and the status last given. -/
structure Standing where
  enrolled : Bool
  status : EmployeeStatus
  deriving DecidableEq

def Standing.unknown : Standing := ⟨false, .incomplete⟩

/-- The standing of the employee after a call that went through. A removal
keeps the status, and adding the employee again makes it active. -/
def Standing.after (e : LedgerEnv) (companyId : Nat) (employee : Address) (standing : Standing) :
    Call → Standing
  | .addEmployee c other _ =>
    if c = companyId ∧ other = employee then ⟨true, .active⟩ else standing
  | .addEmployeeByWallet c wallet _ =>
    if c = companyId ∧ e.addressFromString wallet = employee then ⟨true, .active⟩ else standing
  | .removeEmployee c other =>
    if c = companyId ∧ other = employee then { standing with enrolled := false } else standing
  | .setEmployeeStatus c other status =>
    if c = companyId ∧ other = employee then { standing with status := status } else standing
  | _ => standing

def getStanding (s : Storage) (companyId : Nat) (employee : Address) : Standing :=
  ⟨s.has (.employee companyId employee), getEmployeeStatus s companyId employee⟩

section
variable {e : LedgerEnv} {s s' : Storage}

theorem isEligible_iff : isEligible s companyId employee = true ↔
    getStanding s companyId employee = ⟨true, .active⟩ := by
  simp [isEligible, isEmployeeActive, getStanding]

theorem addEmployee_standing (h : addEmployee e c other commitment s = .ok s') :
    getStanding s' companyId employee =
      if c = companyId ∧ other = employee then ⟨true, .active⟩
      else getStanding s companyId employee := by
  obtain ⟨-, rfl⟩ := addEmployee_ok.mp h
  split_ifs with hsame
  · obtain ⟨rfl, rfl⟩ := hsame
    simp [getStanding, getEmployeeStatus, Store.has]
  · have hentry : DataKey.employee companyId employee ≠ .employee c other := by
      simpa [eq_comm] using hsame
    have hstatus : DataKey.empStatus companyId employee ≠ .empStatus c other := by
      simpa [eq_comm] using hsame
    simp [getStanding, getEmployeeStatus, Store.has, hentry, hstatus]

theorem removeEmployee_standing (h : removeEmployee e c other s = .ok s') :
    getStanding s' companyId employee =
      if c = companyId ∧ other = employee then
        { getStanding s companyId employee with enrolled := false }
      else getStanding s companyId employee := by
  obtain ⟨-, rfl⟩ := removeEmployee_ok.mp h
  split_ifs with hsame
  · obtain ⟨rfl, rfl⟩ := hsame
    simp [getStanding, getEmployeeStatus, Store.has]
  · have hentry : DataKey.employee companyId employee ≠ .employee c other := by
      simpa [eq_comm] using hsame
    simp [getStanding, getEmployeeStatus, Store.has, hentry]

theorem updateCommitment_standing (h : updateCommitment e c other newCommitment s = .ok s') :
    getStanding s' companyId employee = getStanding s companyId employee := by
  obtain ⟨-, hhas, rfl⟩ := updateCommitment_ok.mp h
  by_cases hsame : companyId = c ∧ employee = other
  · obtain ⟨rfl, rfl⟩ := hsame
    simpa [getStanding, getEmployeeStatus, Store.has] using hhas
  · have hentry : DataKey.employee companyId employee ≠ .employee c other := by simpa using hsame
    simp [getStanding, getEmployeeStatus, Store.has, hentry]

theorem setEmployeeStatus_standing (h : setEmployeeStatus e c other status s = .ok s') :
    getStanding s' companyId employee =
      if c = companyId ∧ other = employee then
        { getStanding s companyId employee with status := status }
      else getStanding s companyId employee := by
  obtain ⟨-, -, rfl⟩ := setEmployeeStatus_ok.mp h
  split_ifs with hstored hsame hsame
  · obtain ⟨rfl, rfl⟩ := hsame
    simp [getStanding, hstored]
  · rfl
  · obtain ⟨rfl, rfl⟩ := hsame
    simp [getStanding, getEmployeeStatus, Store.has]
  · have hstatus : DataKey.empStatus companyId employee ≠ .empStatus c other := by
      simpa [eq_comm] using hsame
    simp [getStanding, getEmployeeStatus, Store.has, hstatus]

/-- A call that goes through changes the standing as `Standing.after` says. -/
theorem exec_standing (h : exec e s call = .ok s') :
    getStanding s' companyId employee =
      (getStanding s companyId employee).after e companyId employee call := by
  by_cases hcall : call.isEmployment = false
  · have hframe := exec_frame hcall h
    have hentry := hframe (.employee companyId employee) (by simp [DataKey.isEmployment])
    have hstatus := hframe (.empStatus companyId employee) (by simp [DataKey.isEmployment])
    have hsame : getStanding s' companyId employee = getStanding s companyId employee := by
      simp [getStanding, getEmployeeStatus, Store.has, hentry, hstatus]
    cases call with
    | addEmployee | addEmployeeByWallet | removeEmployee | updateCommitment | setEmployeeStatus =>
      cases hcall
    | _ => exact hsame
  · cases call with
    | addEmployee => exact addEmployee_standing h
    | addEmployeeByWallet => exact addEmployee_standing (addEmployeeByWallet_ok.mp h).2
    | removeEmployee => exact removeEmployee_standing h
    | updateCommitment => exact updateCommitment_standing h
    | setEmployeeStatus => exact setEmployeeStatus_standing h
    | _ => exact absurd rfl hcall

end

end ZkPayroll.PayrollRegistry
