import ZkPayroll.Payroll.Config
import ZkPayroll.Payroll.CheckLaws

/-!
# What the configuration entry points do

For each entry point, exactly when it succeeds and the storage it leaves.
-/

namespace ZkPayroll.Payroll

open Host

section
variable {e : Env} {s s' : Storage}

-- ---------------------------------------------------------------------------
-- Initialisation and settings
-- ---------------------------------------------------------------------------

theorem initializePayroll_ok : initializePayroll e addrs s = .ok s' ↔
    s.get .addresses = none ∧
      s' = initializeStorageVersion e ((((s.set .addresses addrs).set (.allowedAsset addrs.token)
        true).set .treasuryOwner addrs.treasuryOwner).set .runCounter 0) := by
  simp only [initializePayroll, bind_ok, ensure_ok, Store.has_eq_false, pure_ok, exists_const]

theorem setStorageVersion_ok : setStorageVersion e admin version description s = .ok s' ↔
    ¬ Paused e s ∧ AdminCalls e s admin ∧
      minSupportedStorageVersion ≤ version ∧ version ≤ maxSupportedStorageVersion ∧
      s' = (s.set .storageVersion ⟨version, e.timestamp, true, description⟩).set
        .migrationReadiness (readyState e version) := by
  simp only [setStorageVersion, bind_ok, requireNotPaused_ok, exists_requireAdmin, ensure_ok,
    pure_ok, exists_const, exists_and_right, not_or, not_lt, and_assoc]

theorem setPauseManager_ok : setPauseManager e pm s = .ok s' ↔
    (∃ addrs, s.get .addresses = some addrs ∧ addrs.admin ∈ e.auths) ∧
      s' = s.set .pauseManager pm := by
  simp only [setPauseManager, bind_ok, getAddresses_ok, requireAuth_ok, pure_ok, exists_const,
    ← and_assoc, exists_and_right]

def changedAssets (assets : List Address) (asset : Address) (allowed : Bool) : List Address :=
  if allowed = true ∧ asset ∉ assets then assets ++ [asset]
  else if allowed = false then assets.erase asset
  else assets

theorem setAssetAllowed_ok : setAssetAllowed e asset allowed s = .ok s' ↔
    ∃ addrs, s.get .addresses = some addrs ∧ addrs.admin ∈ e.auths ∧
      pendingPayrollRunCount s = 0 ∧
      s' = (s.set (.allowedAsset asset) allowed).set .supportedAssets
        (changedAssets (supportedAssetsOrToken (s.set (.allowedAsset asset) allowed) addrs.token)
          asset allowed) := by
  simp only [setAssetAllowed, bind_ok, getAddresses_ok, requireAuth_ok,
    requireNoActivePayrollRun_ok, pure_ok, exists_const, changedAssets]

theorem setCompanyState_ok : setCompanyState e admin state s = .ok s' ↔
    AdminCalls e s admin ∧ pendingPayrollRunCount s = 0 ∧ s' = s.set .companyState state := by
  simp only [setCompanyState, bind_ok, exists_requireAdmin, requireNoActivePayrollRun_ok, pure_ok,
    exists_const, exists_and_right]

-- ---------------------------------------------------------------------------
-- Admin and treasury rotation
-- ---------------------------------------------------------------------------

theorem proposeAdminRotation_ok : proposeAdminRotation e currentAdmin newAdmin s = .ok s' ↔
    ¬ Paused e s ∧ AdminCalls e s currentAdmin ∧ s.get .pendingAdminRotation = none ∧
      s' = s.set .pendingAdminRotation ⟨newAdmin, currentAdmin, e.timestamp⟩ := by
  simp only [proposeAdminRotation, bind_ok, requireNotPaused_ok, exists_requireAdmin, ensure_ok,
    Store.has_eq_false, pure_ok, exists_const, exists_and_right]

theorem acceptAdminRotation_ok : acceptAdminRotation e newAdmin s = .ok s' ↔
    ¬ Paused e s ∧ ∃ proposal, s.get .pendingAdminRotation = some proposal ∧
      newAdmin = proposal.newHolder ∧ newAdmin ∈ e.auths ∧ pendingPayrollRunCount s = 0 ∧
      ∃ addrs, s.get .addresses = some addrs ∧
        s' = (s.set .addresses { addrs with admin := newAdmin }).remove .pendingAdminRotation := by
  simp only [acceptAdminRotation, bind_ok, requireNotPaused_ok, expect_ok, ensure_ok,
    requireAuth_ok, requireNoActivePayrollRun_ok, getAddresses_ok, pure_ok, exists_const]

theorem cancelAdminRotation_ok : cancelAdminRotation e currentAdmin s = .ok s' ↔
    ¬ Paused e s ∧ AdminCalls e s currentAdmin ∧ (∃ p, s.get .pendingAdminRotation = some p) ∧
      s' = s.remove .pendingAdminRotation := by
  simp only [cancelAdminRotation, bind_ok, requireNotPaused_ok, exists_requireAdmin, ensure_ok,
    Store.has_eq_true, pure_ok, exists_const, exists_and_right]

theorem getTreasuryOwner_ok : getTreasuryOwner s = .ok owner ↔ s.get .treasuryOwner = some owner :=
  expect_ok

theorem proposeTreasuryRotation_ok : proposeTreasuryRotation e currentOwner newOwner s = .ok s' ↔
    ¬ Paused e s ∧ s.get .treasuryOwner = some currentOwner ∧ currentOwner ∈ e.auths ∧
      s.get .pendingTreasuryRotation = none ∧
      s' = s.set .pendingTreasuryRotation ⟨newOwner, currentOwner, e.timestamp⟩ := by
  simp only [proposeTreasuryRotation, bind_ok, requireNotPaused_ok, getTreasuryOwner_ok, ensure_ok,
    requireAuth_ok, Store.has_eq_false, pure_ok, exists_const,
    ← and_assoc, exists_and_right, exists_eq_right']

theorem acceptTreasuryRotation_ok : acceptTreasuryRotation e newOwner s = .ok s' ↔
    ¬ Paused e s ∧ ∃ proposal, s.get .pendingTreasuryRotation = some proposal ∧
      newOwner = proposal.newHolder ∧ newOwner ∈ e.auths ∧ pendingPayrollRunCount s = 0 ∧
      (∃ owner, s.get .treasuryOwner = some owner) ∧ ∃ addrs, s.get .addresses = some addrs ∧
        s' = ((s.set .treasuryOwner newOwner).set .addresses
          { addrs with treasuryOwner := newOwner }).remove .pendingTreasuryRotation := by
  simp only [acceptTreasuryRotation, bind_ok, requireNotPaused_ok, expect_ok, ensure_ok,
    requireAuth_ok, requireNoActivePayrollRun_ok, getTreasuryOwner_ok, getAddresses_ok, pure_ok,
    exists_const, exists_and_right, ne_eq, reduceCtorEq, not_false_eq_true, Store.get_set_ne]

theorem cancelTreasuryRotation_ok : cancelTreasuryRotation e currentOwner s = .ok s' ↔
    ¬ Paused e s ∧ s.get .treasuryOwner = some currentOwner ∧ currentOwner ∈ e.auths ∧
      (∃ p, s.get .pendingTreasuryRotation = some p) ∧ s' = s.remove .pendingTreasuryRotation := by
  simp only [cancelTreasuryRotation, bind_ok, requireNotPaused_ok, getTreasuryOwner_ok, ensure_ok,
    requireAuth_ok, Store.has_eq_true, pure_ok, exists_const, ← and_assoc, exists_and_right,
    exists_eq_right']

-- ---------------------------------------------------------------------------
-- Admin handover
-- ---------------------------------------------------------------------------

theorem requestAdminHandover_ok : requestAdminHandover e currentAdmin pendingAdmin s = .ok s' ↔
    ¬ Paused e s ∧ AdminCalls e s currentAdmin ∧ s.get .pendingAdminHandover = none ∧
      s' = s.set .pendingAdminHandover ⟨currentAdmin, pendingAdmin, e.timestamp⟩ := by
  simp only [requestAdminHandover, bind_ok, requireNotPaused_ok, exists_requireAdmin, ensure_ok,
    Store.has_eq_false, pure_ok, exists_const, exists_and_right]

theorem acceptAdminHandover_ok : acceptAdminHandover e pendingAdmin s = .ok s' ↔
    ¬ Paused e s ∧ ∃ handover, s.get .pendingAdminHandover = some handover ∧
      pendingAdmin = handover.pendingAdmin ∧ pendingAdmin ∈ e.auths ∧
      ∃ addrs, s.get .addresses = some addrs ∧
        s' = (s.set .addresses { addrs with admin := pendingAdmin }).remove
          .pendingAdminHandover := by
  simp only [acceptAdminHandover, bind_ok, requireNotPaused_ok, expect_ok, ensure_ok,
    requireAuth_ok, getAddresses_ok, pure_ok, exists_const]

theorem cancelAdminHandover_ok : cancelAdminHandover e currentAdmin s = .ok s' ↔
    ¬ Paused e s ∧ AdminCalls e s currentAdmin ∧ (∃ p, s.get .pendingAdminHandover = some p) ∧
      s' = s.remove .pendingAdminHandover := by
  simp only [cancelAdminHandover, bind_ok, requireNotPaused_ok, exists_requireAdmin, ensure_ok,
    Store.has_eq_true, pure_ok, exists_const, exists_and_right]

-- ---------------------------------------------------------------------------
-- Reviewers
-- ---------------------------------------------------------------------------

theorem addReviewer_ok : addReviewer e admin reviewer s = .ok s' ↔
    ¬ Paused e s ∧ AdminCalls e s admin ∧ s' = s.set (.authorizedReviewer reviewer) true := by
  simp only [addReviewer, bind_ok, requireNotPaused_ok, exists_requireAdmin, pure_ok, exists_const,
    exists_and_right]

theorem removeReviewer_ok : removeReviewer e admin reviewer s = .ok s' ↔
    ¬ Paused e s ∧ AdminCalls e s admin ∧ s' = s.remove (.authorizedReviewer reviewer) := by
  simp only [removeReviewer, bind_ok, requireNotPaused_ok, exists_requireAdmin, pure_ok,
    exists_const, exists_and_right]

theorem reviewPayrollRun_ok : reviewPayrollRun e reviewer runId decision reason s = .ok s' ↔
    ¬ Paused e s ∧ isReviewer s reviewer = true ∧ reviewer ∈ e.auths ∧
      s' = s.set (.runReview runId) ⟨runId, reviewer, decision, reason, e.timestamp⟩ := by
  simp only [reviewPayrollRun, bind_ok, requireNotPaused_ok, ensure_ok, requireAuth_ok, pure_ok,
    exists_const]

end

end ZkPayroll.Payroll
