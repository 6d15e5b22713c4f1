import ZkPayroll.PayrollRegistryLaws
import ZkPayroll.Host.Runs

/-!
# The registry as a machine

Readers for the functions that write companies and thresholds, then
`exec_effect`: everything a successful call does. Every call but
`set_pause_manager` looks at the pause first.
-/

namespace ZkPayroll.PayrollRegistry

open Host

structure Input where
  env : LedgerEnv
  call : Call

def next (s : Storage) (i : Input) : Storage :=
  match exec i.env s i.call with
  | .ok s' => s'
  | .error _ => s

abbrev Reached (s : Storage) : Prop := Reachable next Store.empty s

/-- The company is stored with this admin. -/
def AdminOf (s : Storage) (companyId : Nat) (admin : Address) : Prop :=
  ∃ info, s.get (.company companyId) = some info ∧ info.admin = admin

def DataKey.isRotation : DataKey → Bool
  | .pendingAdminRotation _ | .pendingTreasuryRotation _ => true
  | _ => false

def Call.isRotation : Call → Bool
  | .proposeAdminRotation .. | .cancelAdminRotation .. | .proposeTreasuryRotation ..
  | .cancelTreasuryRotation .. => true
  | _ => false

-- ---------------------------------------------------------------------------
-- Guards
-- ---------------------------------------------------------------------------

/-- The guards of `register_company`. -/
structure CanRegister (e : LedgerEnv) (admin : Address) (s : Storage) : Prop where
  unpaused : ¬ Paused e s
  signed : admin ∈ e.auths
  free : s.get (.companyAdmin admin) = none
  room : getCompanySequence s + 1 ≤ u64Max

/-- The guards of `accept_admin_rotation`; `info` is the company. -/
structure CanAcceptAdmin (e : LedgerEnv) (companyId : Nat) (newAdmin : Address)
    (info : CompanyInfo) (s : Storage) : Prop where
  unpaused : ¬ Paused e s
  proposed : ∃ proposal, s.get (.pendingAdminRotation companyId) = some proposal ∧
    newAdmin = proposal.newHolder
  signed : newAdmin ∈ e.auths
  stored : s.get (.company companyId) = some info

/-- What the functions for a pending threshold ask of their caller. -/
structure ThresholdAdminCalls (e : LedgerEnv) (companyId : Nat) (admin : Address) (s : Storage) :
    Prop where
  unpaused : ¬ Paused e s
  signed : admin ∈ e.auths
  current : AdminOf s companyId admin

/-- The guards of `set_initial_approval_threshold`: the caller is any address
that signs. -/
structure CanSetInitial (e : LedgerEnv) (companyId : Nat) (admin : Address)
    (requiredApprovals : Nat) (s : Storage) : Prop where
  unpaused : ¬ Paused e s
  signed : admin ∈ e.auths
  positive : requiredApprovals ≠ 0
  unset : s.get (.approvalThreshold companyId) = none

-- ---------------------------------------------------------------------------
-- Readers
-- ---------------------------------------------------------------------------

def registered (admin treasury : Address) (s : Storage) : Storage :=
  ((s.set .companySequence (getCompanySequence s + 1)).set (.company (getCompanySequence s))
    ⟨admin, treasury⟩).set (.companyAdmin admin) (getCompanySequence s)

def adminRotated (companyId : Nat) (newAdmin : Address) (info : CompanyInfo) (s : Storage) :
    Storage :=
  (((s.set (.company companyId) { info with admin := newAdmin }).remove
    (.pendingAdminRotation companyId)).remove (.companyAdmin info.admin)).set
      (.companyAdmin newAdmin) companyId

section
variable {e : LedgerEnv} {s s' : Storage}

theorem registerCompany_ok : registerCompany e admin treasury s = .ok (companyId, s') ↔
    CanRegister e admin s ∧ companyId = getCompanySequence s ∧ s' = registered admin treasury s := by
  simp only [registerCompany, bind_ok, requireNotPaused_ok, requireAuth_ok, ensure_ok, addUpTo_ok,
    pure_ok, exists_const, Store.has_eq_false, Prod.mk.injEq]
  constructor
  · rintro ⟨hunpaused, hsigned, hfree, _, ⟨hroom, rfl⟩, rfl, rfl⟩
    exact ⟨⟨hunpaused, hsigned, hfree, hroom⟩, rfl, rfl⟩
  · rintro ⟨⟨hunpaused, hsigned, hfree, hroom⟩, rfl, rfl⟩
    exact ⟨hunpaused, hsigned, hfree, _, ⟨hroom, rfl⟩, rfl, rfl⟩

theorem acceptAdminRotation_ok : acceptAdminRotation e companyId newAdmin s = .ok s' ↔
    ∃ info, CanAcceptAdmin e companyId newAdmin info s ∧
      s' = adminRotated companyId newAdmin info s := by
  simp only [acceptAdminRotation, bind_ok, requireNotPaused_ok, requireAuth_ok, ensure_ok,
    expect_ok, getCompany_ok, pure_ok, exists_const]
  constructor
  · rintro ⟨hunpaused, proposal, hproposal, hholder, hsigned, info, hinfo, rfl⟩
    exact ⟨info, ⟨hunpaused, ⟨proposal, hproposal, hholder⟩, hsigned, hinfo⟩, rfl⟩
  · rintro ⟨info, ⟨hunpaused, ⟨proposal, hproposal, hholder⟩, hsigned, hinfo⟩, rfl⟩
    exact ⟨hunpaused, proposal, hproposal, hholder, hsigned, info, hinfo, rfl⟩

theorem acceptTreasuryRotation_ok (h : acceptTreasuryRotation e companyId newTreasury s = .ok s') :
    ¬ Paused e s ∧ ∃ info, s.get (.company companyId) = some info ∧
      s' = (s.set (.company companyId) { info with treasury := newTreasury }).remove
        (.pendingTreasuryRotation companyId) := by
  simp only [acceptTreasuryRotation, bind_ok, requireNotPaused_ok, getCompany_ok, pure_ok,
    exists_const] at h
  obtain ⟨hunpaused, _, -, _, -, _, -, info, hinfo, rfl⟩ := h
  exact ⟨hunpaused, info, hinfo, rfl⟩

theorem requireThresholdAdmin_ok : requireThresholdAdmin e s companyId admin msg = .ok u ↔
    admin ∈ e.auths ∧ AdminOf s companyId admin := by
  simp only [requireThresholdAdmin, AdminOf, bind_ok, requireAuth_ok, getCompany_ok, ensure_ok,
    exists_const]

theorem proposeThresholdRotation_ok :
    proposeThresholdRotation e companyId admin newThreshold gracePeriodSeconds s = .ok s' ↔
    ThresholdAdminCalls e companyId admin s ∧ newThreshold ≠ 0 ∧
      e.timestamp + gracePeriodSeconds ≤ u64Max ∧
      s' = s.set (.pendingThresholdRotation companyId)
        ⟨companyId, newThreshold, e.timestamp, admin, e.timestamp + gracePeriodSeconds⟩ := by
  simp only [proposeThresholdRotation, bind_ok, requireNotPaused_ok, requireThresholdAdmin_ok,
    ensure_ok, addUpTo_ok, pure_ok, exists_const]
  constructor
  · rintro ⟨hunpaused, ⟨hsigned, hadmin⟩, hpositive, _, ⟨hroom, rfl⟩, rfl⟩
    exact ⟨⟨hunpaused, hsigned, hadmin⟩, hpositive, hroom, rfl⟩
  · rintro ⟨⟨hunpaused, hsigned, hadmin⟩, hpositive, hroom, rfl⟩
    exact ⟨hunpaused, ⟨hsigned, hadmin⟩, hpositive, _, ⟨hroom, rfl⟩, rfl⟩

theorem activateThresholdRotation_ok : activateThresholdRotation e companyId admin s = .ok s' ↔
    ∃ pending, ThresholdAdminCalls e companyId admin s ∧
      s.get (.pendingThresholdRotation companyId) = some pending ∧
      pending.effectiveAfter ≤ e.timestamp ∧
      s' = (s.set (.approvalThreshold companyId)
        ⟨companyId, pending.newThreshold, e.timestamp, admin, true⟩).remove
          (.pendingThresholdRotation companyId) := by
  simp only [activateThresholdRotation, bind_ok, requireNotPaused_ok, requireThresholdAdmin_ok,
    expect_ok, ensure_ok, pure_ok, exists_const, Nat.not_lt]
  constructor
  · rintro ⟨hunpaused, ⟨hsigned, hadmin⟩, pending, hpending, hdue, rfl⟩
    exact ⟨pending, ⟨hunpaused, hsigned, hadmin⟩, hpending, hdue, rfl⟩
  · rintro ⟨pending, ⟨hunpaused, hsigned, hadmin⟩, hpending, hdue, rfl⟩
    exact ⟨hunpaused, ⟨hsigned, hadmin⟩, pending, hpending, hdue, rfl⟩

theorem cancelThresholdRotation_ok : cancelThresholdRotation e companyId admin s = .ok s' ↔
    ThresholdAdminCalls e companyId admin s ∧
      (∃ pending, s.get (.pendingThresholdRotation companyId) = some pending) ∧
      s' = s.remove (.pendingThresholdRotation companyId) := by
  simp only [cancelThresholdRotation, bind_ok, requireNotPaused_ok, requireThresholdAdmin_ok,
    expect_ok, pure_ok, exists_const]
  constructor
  · rintro ⟨hunpaused, ⟨hsigned, hadmin⟩, pending, hpending, rfl⟩
    exact ⟨⟨hunpaused, hsigned, hadmin⟩, ⟨pending, hpending⟩, rfl⟩
  · rintro ⟨⟨hunpaused, hsigned, hadmin⟩, ⟨pending, hpending⟩, rfl⟩
    exact ⟨hunpaused, ⟨hsigned, hadmin⟩, pending, hpending, rfl⟩

theorem setInitialApprovalThreshold_ok :
    setInitialApprovalThreshold e companyId admin requiredApprovals s = .ok s' ↔
    CanSetInitial e companyId admin requiredApprovals s ∧
      s' = s.set (.approvalThreshold companyId)
        ⟨companyId, requiredApprovals, e.timestamp, admin, true⟩ := by
  simp only [setInitialApprovalThreshold, bind_ok, requireNotPaused_ok, requireAuth_ok, ensure_ok,
    pure_ok, exists_const, Store.has_eq_false]
  constructor
  · rintro ⟨hunpaused, hsigned, hpositive, hunset, rfl⟩
    exact ⟨⟨hunpaused, hsigned, hpositive, hunset⟩, rfl⟩
  · rintro ⟨⟨hunpaused, hsigned, hpositive, hunset⟩, rfl⟩
    exact ⟨hunpaused, hsigned, hpositive, hunset, rfl⟩

-- ---------------------------------------------------------------------------
-- What a call does
-- ---------------------------------------------------------------------------

/-- What a successful call does. The calls on employees write no other record,
and proposing or cancelling a rotation writes only pending rotations. -/
inductive Effect (e : LedgerEnv) (s s' : Storage) : Call → Prop
  | employment (hcall : Call.isEmployment call = true) (hunpaused : ¬ Paused e s)
      (hkept : Store.Frame (fun k => k.isEmployment = true) s s') : Effect e s s' call
  | rotation (hcall : Call.isRotation call = true) (hunpaused : ¬ Paused e s)
      (hkept : Store.Frame (fun k => k.isRotation = true) s s') : Effect e s s' call
  | pauseManager (hsigned : admin ∈ e.auths) (hafter : s' = s.set .pauseManager pauseManager) :
      Effect e s s' (.setPauseManager admin pauseManager)
  | register (hcan : CanRegister e admin s) (hafter : s' = registered admin treasury s) :
      Effect e s s' (.registerCompany admin treasury)
  | acceptAdmin (hcan : CanAcceptAdmin e companyId newAdmin info s)
      (hafter : s' = adminRotated companyId newAdmin info s) :
      Effect e s s' (.acceptAdminRotation companyId newAdmin)
  | acceptTreasury (hunpaused : ¬ Paused e s) (hstored : s.get (.company companyId) = some info)
      (hafter : s' = (s.set (.company companyId) { info with treasury := newTreasury }).remove
        (.pendingTreasuryRotation companyId)) :
      Effect e s s' (.acceptTreasuryRotation companyId newTreasury)
  | proposeThreshold (hcalls : ThresholdAdminCalls e companyId admin s)
      (hpositive : newThreshold ≠ 0)
      (hafter : s' = s.set (.pendingThresholdRotation companyId)
        ⟨companyId, newThreshold, e.timestamp, admin, e.timestamp + gracePeriodSeconds⟩) :
      Effect e s s' (.proposeThresholdRotation companyId admin newThreshold gracePeriodSeconds)
  | activateThreshold (hcalls : ThresholdAdminCalls e companyId admin s)
      (hpending : s.get (.pendingThresholdRotation companyId) = some pending)
      (hdue : pending.effectiveAfter ≤ e.timestamp)
      (hafter : s' = (s.set (.approvalThreshold companyId)
        ⟨companyId, pending.newThreshold, e.timestamp, admin, true⟩).remove
          (.pendingThresholdRotation companyId)) :
      Effect e s s' (.activateThresholdRotation companyId admin)
  | cancelThreshold (hcalls : ThresholdAdminCalls e companyId admin s)
      (hafter : s' = s.remove (.pendingThresholdRotation companyId)) :
      Effect e s s' (.cancelThresholdRotation companyId admin)
  | setInitial (hcan : CanSetInitial e companyId admin requiredApprovals s)
      (hafter : s' = s.set (.approvalThreshold companyId)
        ⟨companyId, requiredApprovals, e.timestamp, admin, true⟩) :
      Effect e s s' (.setInitialApprovalThreshold companyId admin requiredApprovals)

theorem addEmployee_kept (h : addEmployee e companyId employee commitment s = .ok s') :
    ¬ Paused e s ∧ Store.Frame (fun k => k.isEmployment = true) s s' := by
  obtain ⟨⟨hunpaused, -⟩, rfl⟩ := addEmployee_ok.mp h
  exact ⟨hunpaused, by simp [DataKey.isEmployment, Store.Frame.refl]⟩

theorem employment_kept (hcall : call.isEmployment = true) (h : exec e s call = .ok s') :
    ¬ Paused e s ∧ Store.Frame (fun k => k.isEmployment = true) s s' := by
  cases call with
  | addEmployee => exact addEmployee_kept h
  | addEmployeeByWallet => exact addEmployee_kept (addEmployeeByWallet_ok.mp h).2
  | removeEmployee =>
    obtain ⟨⟨hunpaused, -⟩, rfl⟩ := removeEmployee_ok.mp h
    exact ⟨hunpaused, by simp [DataKey.isEmployment, Store.Frame.refl]⟩
  | updateCommitment =>
    obtain ⟨⟨hunpaused, -⟩, -, rfl⟩ := updateCommitment_ok.mp h
    exact ⟨hunpaused, by simp [DataKey.isEmployment, Store.Frame.refl]⟩
  | setEmployeeStatus =>
    obtain ⟨⟨hunpaused, -⟩, -, rfl⟩ := setEmployeeStatus_ok.mp h
    refine ⟨hunpaused, ?_⟩
    split <;> simp [DataKey.isEmployment, Store.Frame.refl]
  | _ => cases hcall

theorem rotation_kept (hcall : call.isRotation = true) (h : exec e s call = .ok s') :
    ¬ Paused e s ∧ Store.Frame (fun k => k.isRotation = true) s s' := by
  cases call with
  | proposeAdminRotation | cancelAdminRotation | proposeTreasuryRotation | cancelTreasuryRotation =>
    -- the guards differ, the shape does not: unpaused, two checks, one write
    simp only [exec, proposeAdminRotation, cancelAdminRotation, proposeTreasuryRotation,
      cancelTreasuryRotation, bind_ok, requireNotPaused_ok, pure_ok] at h
    obtain ⟨_, hunpaused, _, -, _, -, rfl⟩ := h
    exact ⟨hunpaused, by simp [DataKey.isRotation, Store.Frame.refl]⟩
  | _ => cases hcall

/-- Everything a call can do. -/
theorem exec_effect (h : exec e s call = .ok s') : Effect e s s' call := by
  cases call with
  | addEmployee | addEmployeeByWallet | removeEmployee | updateCommitment | setEmployeeStatus =>
    obtain ⟨hunpaused, hkept⟩ := employment_kept rfl h
    exact .employment rfl hunpaused hkept
  | proposeAdminRotation | cancelAdminRotation | proposeTreasuryRotation | cancelTreasuryRotation =>
    obtain ⟨hunpaused, hkept⟩ := rotation_kept rfl h
    exact .rotation rfl hunpaused hkept
  | setPauseManager =>
    simp only [exec, setPauseManager, bind_ok, requireAuth_ok, pure_ok, exists_const] at h
    exact .pauseManager h.1 h.2
  | registerCompany =>
    simp only [exec, bind_ok, pure_ok, Prod.exists] at h
    obtain ⟨_, _, h, rfl⟩ := h
    obtain ⟨hcan, -, hafter⟩ := registerCompany_ok.mp h
    exact .register hcan hafter
  | acceptAdminRotation =>
    obtain ⟨info, hcan, hafter⟩ := acceptAdminRotation_ok.mp h
    exact .acceptAdmin hcan hafter
  | acceptTreasuryRotation =>
    obtain ⟨hunpaused, info, hinfo, hafter⟩ := acceptTreasuryRotation_ok h
    exact .acceptTreasury hunpaused hinfo hafter
  | proposeThresholdRotation =>
    obtain ⟨hcalls, hpositive, -, hafter⟩ := proposeThresholdRotation_ok.mp h
    exact .proposeThreshold hcalls hpositive hafter
  | activateThresholdRotation =>
    obtain ⟨pending, hcalls, hpending, hdue, hafter⟩ := activateThresholdRotation_ok.mp h
    exact .activateThreshold hcalls hpending hdue hafter
  | cancelThresholdRotation =>
    obtain ⟨hcalls, -, hafter⟩ := cancelThresholdRotation_ok.mp h
    exact .cancelThreshold hcalls hafter
  | setInitialApprovalThreshold =>
    obtain ⟨hcan, hafter⟩ := setInitialApprovalThreshold_ok.mp h
    exact .setInitial hcan hafter

theorem next_ok (h : exec i.env s i.call = .ok s') : next s i = s' := by
  rw [next, h]

theorem next_cases (s : Storage) (i : Input) :
    next s i = s ∨ exec i.env s i.call = .ok (next s i) := by
  unfold next
  cases h : exec i.env s i.call with
  | error err => exact .inl rfl
  | ok s' => exact .inr rfl

end

end ZkPayroll.PayrollRegistry
