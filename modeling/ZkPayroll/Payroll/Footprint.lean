import ZkPayroll.Payroll.Contract
import ZkPayroll.Payroll.ConfigLaws
import ZkPayroll.Payroll.RecordLaws
import ZkPayroll.Payroll.TreasuryLaws

/-!
# What each call may write

`Call.footprint` lists the kinds of keys a call writes or removes, and
`exec_frame` says that every other entry of the payroll storage survives it.
`Call.reachesOut` names the three calls that touch another contract.

An invariant is then checked for the calls whose footprint it meets and for
no others.
-/

namespace ZkPayroll.Payroll

open Host

/-- The kind of a storage key: the key without its arguments. -/
inductive Kind
  | addresses
  | pauseManager
  | payrollRun
  | pendingRun
  | treasuryOwner
  | runCounter
  | runDraft
  | runDraftCounter
  | pendingAdminRotation
  | pendingTreasuryRotation
  | runNonce
  | depositNonce
  | draftCommitment
  | emergencyRequest
  | companyBalance
  | archivedRun
  | challengedRun
  | activeDraftForPeriod
  | companyState
  | payrollState
  | allowedAsset
  | supportedAssets
  | pendingRunCount
  | batchCheckpoint
  | authorizedReviewer
  | runReview
  | pendingAdminHandover
  | lockedPayrollFunds
  | consumedQuorum
  | complianceHold
  | complianceHoldCounter
  | reservationExpiry
  | archiveMarker
  | employerNonceSequence
  | evidencePointer
  | evidencePointerIndex
  | storageVersion
  | migrationReadiness
  | cancelledBatchRecord
  | batchSplitRecord
  deriving DecidableEq

abbrev DataKey.kind : DataKey → Kind
  | .addresses => .addresses
  | .pauseManager => .pauseManager
  | .payrollRun _ => .payrollRun
  | .pendingRun _ => .pendingRun
  | .treasuryOwner => .treasuryOwner
  | .runCounter => .runCounter
  | .runDraft _ => .runDraft
  | .runDraftCounter => .runDraftCounter
  | .pendingAdminRotation => .pendingAdminRotation
  | .pendingTreasuryRotation => .pendingTreasuryRotation
  | .runNonce _ => .runNonce
  | .depositNonce _ => .depositNonce
  | .draftCommitment _ => .draftCommitment
  | .emergencyRequest => .emergencyRequest
  | .companyBalance _ => .companyBalance
  | .archivedRun _ => .archivedRun
  | .challengedRun _ => .challengedRun
  | .activeDraftForPeriod _ => .activeDraftForPeriod
  | .companyState => .companyState
  | .payrollState _ => .payrollState
  | .allowedAsset _ => .allowedAsset
  | .supportedAssets => .supportedAssets
  | .pendingRunCount => .pendingRunCount
  | .batchCheckpoint .. => .batchCheckpoint
  | .authorizedReviewer _ => .authorizedReviewer
  | .runReview _ => .runReview
  | .pendingAdminHandover => .pendingAdminHandover
  | .lockedPayrollFunds _ => .lockedPayrollFunds
  | .consumedQuorum _ => .consumedQuorum
  | .complianceHold _ => .complianceHold
  | .complianceHoldCounter => .complianceHoldCounter
  | .reservationExpiry _ => .reservationExpiry
  | .archiveMarker _ => .archiveMarker
  | .employerNonceSequence _ => .employerNonceSequence
  | .evidencePointer _ => .evidencePointer
  | .evidencePointerIndex _ => .evidencePointerIndex
  | .storageVersion => .storageVersion
  | .migrationReadiness => .migrationReadiness
  | .cancelledBatchRecord _ => .cancelledBatchRecord
  | .batchSplitRecord .. => .batchSplitRecord

-- ---------------------------------------------------------------------------
-- Footprints
-- ---------------------------------------------------------------------------

def Call.footprint : Call → List Kind
  | .initializePayroll .. =>
    [.addresses, .allowedAsset, .treasuryOwner, .runCounter, .storageVersion, .migrationReadiness]
  | .setStorageVersion .. => [.storageVersion, .migrationReadiness]
  | .setPauseManager .. => [.pauseManager]
  | .setAssetAllowed .. => [.allowedAsset, .supportedAssets]
  | .setCompanyState .. => [.companyState]
  | .proposeAdminRotation .. => [.pendingAdminRotation]
  | .acceptAdminRotation .. => [.addresses, .pendingAdminRotation]
  | .cancelAdminRotation .. => [.pendingAdminRotation]
  | .proposeTreasuryRotation .. => [.pendingTreasuryRotation]
  | .acceptTreasuryRotation .. => [.treasuryOwner, .addresses, .pendingTreasuryRotation]
  | .cancelTreasuryRotation .. => [.pendingTreasuryRotation]
  | .requestAdminHandover .. => [.pendingAdminHandover]
  | .acceptAdminHandover .. => [.addresses, .pendingAdminHandover]
  | .cancelAdminHandover .. => [.pendingAdminHandover]
  | .addReviewer .. | .removeReviewer .. => [.authorizedReviewer]
  | .approvePayrollRun .. | .rejectPayrollRun .. | .requestChangesPayrollRun .. => [.runReview]
  | .transitionPayrollRunState .. => [.payrollState]
  | .updateReconciliationStatus .. => [.payrollRun, .payrollState]
  | .commitDraft .. | .commitMetadataHash .. => [.draftCommitment]
  | .setRunMetadata .. => [.draftCommitment, .payrollRun]
  | .preparePayrollRun .. =>
    [.runCounter, .runNonce, .employerNonceSequence, .pendingRun, .payrollState, .pendingRunCount,
      .lockedPayrollFunds]
  | .finalizePayrollRun .. =>
    [.lockedPayrollFunds, .pendingRun, .payrollState, .pendingRunCount, .payrollRun]
  | .cancelPayrollRunWithReason .. | .cancelPayrollRun .. =>
    [.lockedPayrollFunds, .cancelledBatchRecord, .pendingRun, .payrollState, .pendingRunCount]
  | .batchProcessPayroll .. =>
    [.draftCommitment, .runCounter, .runNonce, .employerNonceSequence, .payrollRun, .payrollState]
  | .deposit .. => [.depositNonce, .companyBalance]
  | .requestEmergencyWithdrawal .. | .approveEmergencyWithdrawal ..
  | .cancelEmergencyWithdrawal .. => [.emergencyRequest]
  | .addLockedFunds .. | .subtractLockedFunds .. => [.lockedPayrollFunds]
  | .createRunDraft .. => [.runDraftCounter, .runDraft, .activeDraftForPeriod]
  | .amendRunDraft .. | .finalizeRunDraft .. | .submitRunDraft .. | .cancelRunDraft ..
  | .expireRunDraft .. => [.runDraft]
  | .beginBatchExecutionCheckpoint .. | .recordBatchCheckpointProgress ..
  | .resumeBatchExecution .. => [.batchCheckpoint]
  | .createEvidencePointer .. => [.evidencePointer, .evidencePointerIndex]
  | .verifyAndConsumeQuorum .. => [.consumedQuorum]
  | .archivePayrollRun .. => [.archivedRun]
  | .flagRunChallenged .. | .clearRunChallenge .. => [.challengedRun]
  | .archivePayrollRunWithReason .. => [.archiveMarker]
  | .recordBatchSplit .. => [.batchSplitRecord]
  | .placeComplianceHold .. => [.complianceHold, .complianceHoldCounter]
  | .releaseComplianceHold .. => [.complianceHold]
  | .setReservationExpiryPolicy .. | .releaseExpiredReservation .. => [.reservationExpiry]
  | .query .. => []

/-- The calls that move tokens or write to a commitment contract. -/
def Call.reachesOut : Call → Bool
  | .batchProcessPayroll .. | .deposit .. | .approveEmergencyWithdrawal .. => true
  | _ => false

-- ---------------------------------------------------------------------------
-- Reading the wrappers
-- ---------------------------------------------------------------------------

section
variable {e : Env} {w w' : World}

theorem onStorage_ok : onStorage f w = .ok (ret, w') ↔
    ∃ s, f w.payroll = .ok s ∧ ret = .unit ∧ w' = { w with payroll := s } := by
  simp only [onStorage, bind_ok, pure_ok, Prod.mk.injEq]

theorem onStorageRet_ok {f : Storage → Result (α × Storage)} :
    onStorageRet toRet f w = .ok (ret, w') ↔
      ∃ a s, f w.payroll = .ok (a, s) ∧ ret = toRet a ∧ w' = { w with payroll := s } := by
  simp only [onStorageRet, bind_ok, pure_ok, Prod.mk.injEq, Prod.exists]

theorem onWorld_ok : onWorld f w = .ok (ret, w') ↔ f w = .ok w' ∧ ret = .unit := by
  simp only [onWorld, bind_ok, pure_ok, Prod.mk.injEq]
  constructor
  · rintro ⟨_, h, rfl, rfl⟩
    exact ⟨h, rfl⟩
  · rintro ⟨h, rfl⟩
    exact ⟨w', h, rfl, rfl⟩

theorem exec_batchProcessPayroll_ok : exec e (.batchProcessPayroll b) w = .ok (ret, w') ↔
    ∃ runId, batchProcessPayroll e b w = .ok (runId, w') ∧ ret = .id runId := by
  simp only [exec, bind_ok, pure_ok, Prod.mk.injEq, Prod.exists]
  constructor
  · rintro ⟨runId, _, h, rfl, rfl⟩
    exact ⟨runId, h, rfl⟩
  · rintro ⟨runId, h, rfl⟩
    exact ⟨runId, w', h, rfl, rfl⟩

theorem exec_resumeBatchExecution_ok :
    exec e (.resumeBatchExecution admin c checkpointIndex) w = .ok (ret, w') ↔
      ∃ s, resumeBatchExecution e admin c checkpointIndex w.payroll = .ok s ∧ ret = .flag true ∧
        w' = { w with payroll := s } := by
  simp only [exec, onStorageRet_ok, bind_ok, pure_ok, Prod.mk.injEq]
  constructor
  · rintro ⟨_, _, ⟨_, h, rfl, rfl⟩, rfl, rfl⟩
    exact ⟨_, h, rfl, rfl⟩
  · rintro ⟨s, h, rfl, rfl⟩
    exact ⟨true, s, ⟨s, h, rfl, rfl⟩, rfl, rfl⟩

theorem exec_query_ok (h : exec e (.query q) w = .ok (ret, w')) : w' = w := by
  simp only [exec, bind_ok, pure_ok, Prod.mk.injEq] at h
  obtain ⟨_, -, -, rfl⟩ := h
  rfl

theorem exec_inside (h : exec e call w = .ok (ret, w')) (hout : call.reachesOut = false) :
    w' = { w with payroll := w'.payroll } := by
  cases call with
  | batchProcessPayroll | deposit | approveEmergencyWithdrawal => simp [Call.reachesOut] at hout
  | requestEmergencyWithdrawal =>
    obtain ⟨-, -, -, -, -, -, rfl⟩ := requestEmergencyWithdrawal_ok.mp (onWorld_ok.mp h).1
    rfl
  | resumeBatchExecution =>
    obtain ⟨_, -, -, rfl⟩ := exec_resumeBatchExecution_ok.mp h
    rfl
  | query => rw [exec_query_ok h]
  | preparePayrollRun | createRunDraft | createEvidencePointer | verifyAndConsumeQuorum
  | placeComplianceHold =>
    obtain ⟨_, _, -, -, rfl⟩ := onStorageRet_ok.mp h
    rfl
  | _ =>
    obtain ⟨_, -, -, rfl⟩ := onStorage_ok.mp h
    rfl

-- ---------------------------------------------------------------------------
-- Frames
-- ---------------------------------------------------------------------------

def Agree (kinds : List Kind) (s s' : Storage) : Prop := Store.Frame (fun k => k.kind ∈ kinds) s s'

@[simp] theorem Agree.refl (kinds : List Kind) (s : Storage) : Agree kinds s s := Store.Frame.refl _ s

@[simp] theorem agree_set {v : k.Val} (hk : k.kind ∈ kinds) :
    Agree kinds s (s'.set k v) ↔ Agree kinds s s' := Store.frame_set hk

@[simp] theorem agree_remove (hk : k.kind ∈ kinds) :
    Agree kinds s (s'.remove k) ↔ Agree kinds s s' := Store.frame_remove hk

theorem Agree.trans (h : Agree kinds s t) (h' : Agree more t u) (hsub : more ⊆ kinds) :
    Agree kinds s u := Store.Frame.trans h (Store.Frame.mono h' fun _ hk => hsub hk)

theorem initializeStorageVersion_agree (s : Storage) :
    Agree [.storageVersion, .migrationReadiness] s (initializeStorageVersion e s) := by
  unfold initializeStorageVersion
  split <;> simp

theorem dropDraft_agree (s : Storage) : Agree [.draftCommitment] s (dropDraft draftHash s) := by
  unfold dropDraft
  cases draftHash <;> simp

/-- A call writes nothing outside its footprint. -/
theorem exec_frame (h : exec e call w = .ok (ret, w')) :
    Agree call.footprint w.payroll w'.payroll := by
  cases call with
  | initializePayroll =>
    obtain ⟨_, hf, -, rfl⟩ := onStorage_ok.mp h
    obtain ⟨-, rfl⟩ := initializePayroll_ok.mp hf
    refine Agree.trans ?_ (initializeStorageVersion_agree _) ?_ <;> simp [Call.footprint]
  | setStorageVersion =>
    obtain ⟨_, hf, -, rfl⟩ := onStorage_ok.mp h
    obtain ⟨-, -, -, -, rfl⟩ := setStorageVersion_ok.mp hf
    simp [Call.footprint]
  | setPauseManager =>
    obtain ⟨_, hf, -, rfl⟩ := onStorage_ok.mp h
    obtain ⟨-, rfl⟩ := setPauseManager_ok.mp hf
    simp [Call.footprint]
  | setAssetAllowed =>
    obtain ⟨_, hf, -, rfl⟩ := onStorage_ok.mp h
    obtain ⟨_, -, -, -, rfl⟩ := setAssetAllowed_ok.mp hf
    simp [Call.footprint]
  | setCompanyState =>
    obtain ⟨_, hf, -, rfl⟩ := onStorage_ok.mp h
    obtain ⟨-, -, rfl⟩ := setCompanyState_ok.mp hf
    simp [Call.footprint]
  | proposeAdminRotation =>
    obtain ⟨_, hf, -, rfl⟩ := onStorage_ok.mp h
    obtain ⟨-, -, -, rfl⟩ := proposeAdminRotation_ok.mp hf
    simp [Call.footprint]
  | acceptAdminRotation =>
    obtain ⟨_, hf, -, rfl⟩ := onStorage_ok.mp h
    obtain ⟨-, _, -, -, -, -, _, -, rfl⟩ := acceptAdminRotation_ok.mp hf
    simp [Call.footprint]
  | cancelAdminRotation =>
    obtain ⟨_, hf, -, rfl⟩ := onStorage_ok.mp h
    obtain ⟨-, -, -, rfl⟩ := cancelAdminRotation_ok.mp hf
    simp [Call.footprint]
  | proposeTreasuryRotation =>
    obtain ⟨_, hf, -, rfl⟩ := onStorage_ok.mp h
    obtain ⟨-, -, -, -, rfl⟩ := proposeTreasuryRotation_ok.mp hf
    simp [Call.footprint]
  | acceptTreasuryRotation =>
    obtain ⟨_, hf, -, rfl⟩ := onStorage_ok.mp h
    obtain ⟨-, _, -, -, -, -, -, _, -, rfl⟩ := acceptTreasuryRotation_ok.mp hf
    simp [Call.footprint]
  | cancelTreasuryRotation =>
    obtain ⟨_, hf, -, rfl⟩ := onStorage_ok.mp h
    obtain ⟨-, -, -, -, rfl⟩ := cancelTreasuryRotation_ok.mp hf
    simp [Call.footprint]
  | requestAdminHandover =>
    obtain ⟨_, hf, -, rfl⟩ := onStorage_ok.mp h
    obtain ⟨-, -, -, rfl⟩ := requestAdminHandover_ok.mp hf
    simp [Call.footprint]
  | acceptAdminHandover =>
    obtain ⟨_, hf, -, rfl⟩ := onStorage_ok.mp h
    obtain ⟨-, _, -, -, -, _, -, rfl⟩ := acceptAdminHandover_ok.mp hf
    simp [Call.footprint]
  | cancelAdminHandover =>
    obtain ⟨_, hf, -, rfl⟩ := onStorage_ok.mp h
    obtain ⟨-, -, -, rfl⟩ := cancelAdminHandover_ok.mp hf
    simp [Call.footprint]
  | addReviewer =>
    obtain ⟨_, hf, -, rfl⟩ := onStorage_ok.mp h
    obtain ⟨-, -, rfl⟩ := addReviewer_ok.mp hf
    simp [Call.footprint]
  | removeReviewer =>
    obtain ⟨_, hf, -, rfl⟩ := onStorage_ok.mp h
    obtain ⟨-, -, rfl⟩ := removeReviewer_ok.mp hf
    simp [Call.footprint]
  | approvePayrollRun | rejectPayrollRun | requestChangesPayrollRun =>
    obtain ⟨_, hf, -, rfl⟩ := onStorage_ok.mp h
    obtain ⟨-, -, -, rfl⟩ := reviewPayrollRun_ok.mp hf
    simp [Call.footprint]
  | transitionPayrollRunState =>
    obtain ⟨_, hf, -, rfl⟩ := onStorage_ok.mp h
    obtain ⟨-, -, _, -, -, rfl⟩ := transitionPayrollRunState_ok.mp hf
    simp [Call.footprint]
  | updateReconciliationStatus =>
    obtain ⟨_, hf, -, rfl⟩ := onStorage_ok.mp h
    obtain ⟨-, -, _, -, _, -, -, -, rfl⟩ := updateReconciliationStatus_ok.mp hf
    simp [Call.footprint]
  | commitDraft | commitMetadataHash =>
    obtain ⟨_, hf, -, rfl⟩ := onStorage_ok.mp h
    obtain ⟨-, -, -, -, rfl⟩ := commitHash_ok.mp hf
    simp [Call.footprint]
  | setRunMetadata =>
    obtain ⟨_, hf, -, rfl⟩ := onStorage_ok.mp h
    obtain ⟨-, -, -, -, -, _, -, rfl⟩ := setRunMetadata_ok.mp hf
    simp [Call.footprint]
  | preparePayrollRun =>
    obtain ⟨_, _, hf, -, rfl⟩ := onStorageRet_ok.mp h
    obtain ⟨-, -, -, -, -, -, _, -, -, -, -, -, -, -, -, rfl⟩ := preparePayrollRun_ok.mp hf
    simp [Call.footprint, prepared, claimRunId]
  | finalizePayrollRun =>
    obtain ⟨_, hf, -, rfl⟩ := onStorage_ok.mp h
    obtain ⟨-, -, _, -, -, -, _, -, -, -, -, rfl⟩ := finalizePayrollRun_ok.mp hf
    simp [Call.footprint, finalized]
  | cancelPayrollRunWithReason | cancelPayrollRun =>
    obtain ⟨_, hf, -, rfl⟩ := onStorage_ok.mp h
    obtain ⟨-, -, _, -, -, -, -, _, -, -, rfl⟩ := cancelPayrollRunWithReason_ok.mp hf
    simp [Call.footprint, cancelled]
  | batchProcessPayroll b =>
    obtain ⟨_, hf, -⟩ := exec_batchProcessPayroll_ok.mp h
    obtain ⟨-, _, -, -, -, -, -, -, -, _, -, _, -, -, rfl⟩ := batchProcessPayroll_ok.mp hf
    have hdraft : Agree (Call.batchProcessPayroll b).footprint w.payroll
        (dropDraft b.draftHash w.payroll) :=
      (Agree.refl _ _).trans (dropDraft_agree _) (by simp [Call.footprint])
    simpa [Call.footprint, executed, claimRunId] using hdraft
  | deposit =>
    obtain ⟨hf, -⟩ := onWorld_ok.mp h
    obtain ⟨-, -, -, -, _, -, _, -, -, -, _, -, -, rfl⟩ := deposit_ok.mp hf
    simp [Call.footprint]
  | requestEmergencyWithdrawal =>
    obtain ⟨hf, -⟩ := onWorld_ok.mp h
    obtain ⟨-, -, -, -, -, -, rfl⟩ := requestEmergencyWithdrawal_ok.mp hf
    simp [Call.footprint]
  | approveEmergencyWithdrawal =>
    obtain ⟨hf, -⟩ := onWorld_ok.mp h
    obtain ⟨-, _, -, -, -, _, -, -, _, -, rfl⟩ := approveEmergencyWithdrawal_ok.mp hf
    simp [Call.footprint]
  | cancelEmergencyWithdrawal =>
    obtain ⟨_, hf, -, rfl⟩ := onStorage_ok.mp h
    obtain ⟨-, -, -, -, rfl⟩ := cancelEmergencyWithdrawal_ok.mp hf
    simp [Call.footprint]
  | addLockedFunds =>
    obtain ⟨_, hf, -, rfl⟩ := onStorage_ok.mp h
    obtain ⟨-, rfl⟩ := addLockedFunds_ok.mp hf
    simp [Call.footprint]
  | subtractLockedFunds =>
    obtain ⟨_, hf, -, rfl⟩ := onStorage_ok.mp h
    obtain ⟨-, rfl⟩ := subtractLockedFunds_ok.mp hf
    simp [Call.footprint]
  | createRunDraft =>
    obtain ⟨_, _, hf, -, rfl⟩ := onStorageRet_ok.mp h
    obtain ⟨-, -, -, -, -, -, -, rfl⟩ := createRunDraft_ok.mp hf
    simp [Call.footprint]
  | amendRunDraft =>
    obtain ⟨_, hf, -, rfl⟩ := onStorage_ok.mp h
    obtain ⟨-, -, -, _, -, -, -, -, rfl⟩ := amendRunDraft_ok.mp hf
    simp [Call.footprint]
  | finalizeRunDraft =>
    obtain ⟨_, hf, -, rfl⟩ := onStorage_ok.mp h
    obtain ⟨-, -, _, -, -, rfl⟩ := finalizeRunDraft_ok.mp hf
    simp [Call.footprint]
  | submitRunDraft | cancelRunDraft | expireRunDraft =>
    obtain ⟨_, hf, -, rfl⟩ := onStorage_ok.mp h
    obtain ⟨-, -, _, -, -, rfl⟩ := closeRunDraft_ok.mp hf
    simp [Call.footprint]
  | beginBatchExecutionCheckpoint =>
    obtain ⟨_, hf, -, rfl⟩ := onStorage_ok.mp h
    obtain ⟨-, -, -, -, rfl⟩ := beginBatchExecutionCheckpoint_ok.mp hf
    simp [Call.footprint]
  | recordBatchCheckpointProgress =>
    obtain ⟨_, hf, -, rfl⟩ := onStorage_ok.mp h
    obtain ⟨-, _, -, -, -, -, rfl⟩ := recordBatchCheckpointProgress_ok.mp hf
    simp [Call.footprint]
  | resumeBatchExecution =>
    obtain ⟨_, hf, -, rfl⟩ := exec_resumeBatchExecution_ok.mp h
    obtain ⟨-, -, -, _, -, -, rfl⟩ := resumeBatchExecution_ok.mp hf
    simp [Call.footprint]
  | createEvidencePointer =>
    obtain ⟨_, _, hf, -, rfl⟩ := onStorageRet_ok.mp h
    obtain ⟨-, -, -, -, -, -, rfl⟩ := createEvidencePointer_ok.mp hf
    simp [Call.footprint]
  | verifyAndConsumeQuorum =>
    obtain ⟨_, _, hf, -, rfl⟩ := onStorageRet_ok.mp h
    obtain ⟨-, -, -, -, -, -, rfl⟩ := verifyAndConsumeQuorum_ok.mp hf
    simp [Call.footprint]
  | archivePayrollRun =>
    obtain ⟨_, hf, -, rfl⟩ := onStorage_ok.mp h
    obtain ⟨-, -, -, -, -, rfl⟩ := archivePayrollRun_ok.mp hf
    simp [Call.footprint]
  | flagRunChallenged =>
    obtain ⟨_, hf, -, rfl⟩ := onStorage_ok.mp h
    obtain ⟨-, rfl⟩ := flagRunChallenged_ok.mp hf
    simp [Call.footprint]
  | clearRunChallenge =>
    obtain ⟨_, hf, -, rfl⟩ := onStorage_ok.mp h
    obtain ⟨-, rfl⟩ := clearRunChallenge_ok.mp hf
    simp [Call.footprint]
  | archivePayrollRunWithReason =>
    obtain ⟨_, hf, -, rfl⟩ := onStorage_ok.mp h
    obtain ⟨-, -, -, rfl⟩ := archivePayrollRunWithReason_ok.mp hf
    simp [Call.footprint]
  | recordBatchSplit =>
    obtain ⟨_, hf, -, rfl⟩ := onStorage_ok.mp h
    obtain ⟨-, -, rfl⟩ := recordBatchSplit_ok.mp hf
    simp [Call.footprint]
  | placeComplianceHold =>
    obtain ⟨_, _, hf, -, rfl⟩ := onStorageRet_ok.mp h
    obtain ⟨-, -, -, rfl⟩ := placeComplianceHold_ok.mp hf
    simp [Call.footprint]
  | releaseComplianceHold =>
    obtain ⟨_, hf, -, rfl⟩ := onStorage_ok.mp h
    obtain ⟨-, _, -, -, rfl⟩ := releaseComplianceHold_ok.mp hf
    simp [Call.footprint]
  | setReservationExpiryPolicy =>
    obtain ⟨_, hf, -, rfl⟩ := onStorage_ok.mp h
    obtain ⟨-, -, rfl⟩ := setReservationExpiryPolicy_ok.mp hf
    simp [Call.footprint]
  | releaseExpiredReservation =>
    obtain ⟨_, hf, -, rfl⟩ := onStorage_ok.mp h
    obtain ⟨-, rfl⟩ := releaseExpiredReservation_ok.mp hf
    simp [Call.footprint]
  | query =>
    rw [exec_query_ok h]
    exact Agree.refl _ _

theorem exec_get (h : exec e call w = .ok (ret, w')) (hk : k.kind ∉ call.footprint) :
    w'.payroll.get k = w.payroll.get k := exec_frame h k hk

theorem exec_keeps (h : exec e call w = .ok (ret, w'))
    (hk : decide (k.kind ∈ call.footprint) = false) : w'.payroll.get k = w.payroll.get k :=
  exec_get h (of_decide_eq_false hk)

theorem exec_keeps_kinds {kinds : List Kind} (h : exec e call w = .ok (ret, w'))
    (hkinds : decide (∀ kind ∈ kinds, kind ∉ call.footprint) = true) (hk : k.kind ∈ kinds) :
    w'.payroll.get k = w.payroll.get k :=
  exec_get h (of_decide_eq_true hkinds k.kind hk)

end

end ZkPayroll.Payroll
