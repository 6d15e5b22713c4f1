import ZkPayroll.Payroll.Views
import ZkPayroll.Host.Runs

/-!
# The payroll contract as a machine

`Call` has one constructor for every public function of the contract's
implementation block, the read-only ones under `query`. `addLockedFunds` and
`subtractLockedFunds` are among them: the source declares both `pub`.

A message goes to the payroll contract, to a token or to a commitment
contract. A call that aborts leaves the world as it was.
-/

namespace ZkPayroll.Payroll

open Host

inductive Call
  | initializePayroll (addrs : ContractAddresses)
  | setStorageVersion (admin : Address) (version : Nat) (description : String)
  | setPauseManager (pauseManager : Address)
  | setAssetAllowed (asset : Address) (allowed : Bool)
  | setCompanyState (admin : Address) (state : CompanyState)
  | proposeAdminRotation (currentAdmin newAdmin : Address)
  | acceptAdminRotation (newAdmin : Address)
  | cancelAdminRotation (currentAdmin : Address)
  | proposeTreasuryRotation (currentOwner newOwner : Address)
  | acceptTreasuryRotation (newOwner : Address)
  | cancelTreasuryRotation (currentOwner : Address)
  | requestAdminHandover (currentAdmin pendingAdmin : Address)
  | acceptAdminHandover (pendingAdmin : Address)
  | cancelAdminHandover (currentAdmin : Address)
  | addReviewer (admin reviewer : Address)
  | removeReviewer (admin reviewer : Address)
  | approvePayrollRun (reviewer : Address) (runId : Nat)
  | rejectPayrollRun (reviewer : Address) (runId : Nat) (reason : Symbol)
  | requestChangesPayrollRun (reviewer : Address) (runId : Nat) (reason : Symbol)
  | transitionPayrollRunState (admin : Address) (runId : Nat) (nextState : PayrollRunState)
  | updateReconciliationStatus (admin : Address) (runId : Nat) (status : ReconciliationStatus)
  | commitDraft (admin : Address) (draftHash : BytesN 32)
  | commitMetadataHash (admin : Address) (metadataHash : BytesN 32)
  | setRunMetadata (admin : Address) (runId : Nat) (metadataHash : BytesN 32)
  | preparePayrollRun (b : Batch)
  | finalizePayrollRun (admin : Address) (runId : Nat)
  | cancelPayrollRunWithReason (admin : Address) (runId : Nat) (reason : Symbol)
  | cancelPayrollRun (admin : Address) (runId : Nat) (reason : Symbol)
  | batchProcessPayroll (b : Batch)
  | deposit (depositor : Address) (amount : Int) (depositId : BytesN 32)
  | requestEmergencyWithdrawal (treasuryOwner : Address) (amount : Int) (recipient : Address)
  | approveEmergencyWithdrawal (admin : Address)
  | cancelEmergencyWithdrawal (caller : Address)
  | addLockedFunds (asset : Address) (amount : Int)
  | subtractLockedFunds (asset : Address) (amount : Int)
  | createRunDraft (admin : Address) (totalAmount : Int) (employeeCount : Nat) (periodLabel : Symbol)
  | amendRunDraft (admin : Address) (draftId : Nat) (newTotalAmount : Int) (newEmployeeCount : Nat)
  | finalizeRunDraft (admin : Address) (draftId : Nat)
  | submitRunDraft (admin : Address) (draftId : Nat)
  | cancelRunDraft (admin : Address) (draftId : Nat)
  | expireRunDraft (admin : Address) (draftId : Nat)
  | beginBatchExecutionCheckpoint (admin : Address) (c : CheckpointId) (checkpointIndex : Nat)
  | recordBatchCheckpointProgress (admin : Address) (c : CheckpointId) (checkpointIndex : Nat)
      (state : BatchCheckpointState)
  | resumeBatchExecution (admin : Address) (c : CheckpointId) (checkpointIndex : Nat)
  | createEvidencePointer (admin : Address) (contentHash : BytesN 32) (scope : EvidencePointerScope)
      (target : Address) (metadataHash : Option (BytesN 32))
  | verifyAndConsumeQuorum (payload : QuorumApprovalPayload) (signers : List Address)
      (requiredQuorum : Nat)
  | archivePayrollRun (admin : Address) (runId : Nat)
  | flagRunChallenged (admin : Address) (runId : Nat)
  | clearRunChallenge (admin : Address) (runId : Nat)
  | archivePayrollRunWithReason (admin : Address) (runId : Nat) (archiveReason : Symbol)
  | recordBatchSplit (admin : Address) (b : BatchSplit)
  | placeComplianceHold (admin : Address) (scope : ComplianceHoldScope) (target : Address)
      (reasonCode : Symbol)
  | releaseComplianceHold (admin : Address) (holdId : Nat)
  | setReservationExpiryPolicy (admin asset : Address) (reservedAmount : Int)
      (expiryLedgerOffset : Nat)
  | releaseExpiredReservation (asset : Address)
  | query (q : Query)

inductive Ret
  | unit
  | id (n : Nat)
  | hash (h : BytesN 32)
  | flag (b : Bool)
  deriving DecidableEq

def onStorage (f : Storage → Result Storage) (w : World) : Result (Ret × World) := do
  let s ← f w.payroll
  return (.unit, { w with payroll := s })

def onStorageRet (ret : α → Ret) (f : Storage → Result (α × Storage)) (w : World) :
    Result (Ret × World) := do
  let (a, s) ← f w.payroll
  return (ret a, { w with payroll := s })

def onWorld (f : World → Result World) (w : World) : Result (Ret × World) := do
  let w ← f w
  return (.unit, w)

def exec (e : Env) : Call → World → Result (Ret × World)
  | .initializePayroll addrs => onStorage (initializePayroll e addrs)
  | .setStorageVersion admin version description =>
    onStorage (setStorageVersion e admin version description)
  | .setPauseManager pauseManager => onStorage (setPauseManager e pauseManager)
  | .setAssetAllowed asset allowed => onStorage (setAssetAllowed e asset allowed)
  | .setCompanyState admin state => onStorage (setCompanyState e admin state)
  | .proposeAdminRotation currentAdmin newAdmin =>
    onStorage (proposeAdminRotation e currentAdmin newAdmin)
  | .acceptAdminRotation newAdmin => onStorage (acceptAdminRotation e newAdmin)
  | .cancelAdminRotation currentAdmin => onStorage (cancelAdminRotation e currentAdmin)
  | .proposeTreasuryRotation currentOwner newOwner =>
    onStorage (proposeTreasuryRotation e currentOwner newOwner)
  | .acceptTreasuryRotation newOwner => onStorage (acceptTreasuryRotation e newOwner)
  | .cancelTreasuryRotation currentOwner => onStorage (cancelTreasuryRotation e currentOwner)
  | .requestAdminHandover currentAdmin pendingAdmin =>
    onStorage (requestAdminHandover e currentAdmin pendingAdmin)
  | .acceptAdminHandover pendingAdmin => onStorage (acceptAdminHandover e pendingAdmin)
  | .cancelAdminHandover currentAdmin => onStorage (cancelAdminHandover e currentAdmin)
  | .addReviewer admin reviewer => onStorage (addReviewer e admin reviewer)
  | .removeReviewer admin reviewer => onStorage (removeReviewer e admin reviewer)
  | .approvePayrollRun reviewer runId => onStorage (approvePayrollRun e reviewer runId)
  | .rejectPayrollRun reviewer runId reason => onStorage (rejectPayrollRun e reviewer runId reason)
  | .requestChangesPayrollRun reviewer runId reason =>
    onStorage (requestChangesPayrollRun e reviewer runId reason)
  | .transitionPayrollRunState admin runId nextState =>
    onStorage (transitionPayrollRunState e admin runId nextState)
  | .updateReconciliationStatus admin runId status =>
    onStorage (updateReconciliationStatus e admin runId status)
  | .commitDraft admin draftHash => onStorage (commitDraft e admin draftHash)
  | .commitMetadataHash admin metadataHash => onStorage (commitMetadataHash e admin metadataHash)
  | .setRunMetadata admin runId metadataHash =>
    onStorage (setRunMetadata e admin runId metadataHash)
  | .preparePayrollRun b => onStorageRet .id (preparePayrollRun e b)
  | .finalizePayrollRun admin runId => onStorage (finalizePayrollRun e admin runId)
  | .cancelPayrollRunWithReason admin runId reason =>
    onStorage (cancelPayrollRunWithReason e admin runId reason)
  | .cancelPayrollRun admin runId reason => onStorage (cancelPayrollRun e admin runId reason)
  | .batchProcessPayroll b => fun w => do
    let (runId, w) ← batchProcessPayroll e b w
    return (.id runId, w)
  | .deposit depositor amount depositId => onWorld (deposit e depositor amount depositId)
  | .requestEmergencyWithdrawal treasuryOwner amount recipient =>
    onWorld (requestEmergencyWithdrawal e treasuryOwner amount recipient)
  | .approveEmergencyWithdrawal admin => onWorld (approveEmergencyWithdrawal e admin)
  | .cancelEmergencyWithdrawal caller => onStorage (cancelEmergencyWithdrawal e caller)
  | .addLockedFunds asset amount => onStorage (addLockedFunds asset amount)
  | .subtractLockedFunds asset amount => onStorage (subtractLockedFunds asset amount)
  | .createRunDraft admin totalAmount employeeCount periodLabel =>
    onStorageRet .id (createRunDraft e admin totalAmount employeeCount periodLabel)
  | .amendRunDraft admin draftId newTotalAmount newEmployeeCount =>
    onStorage (amendRunDraft e admin draftId newTotalAmount newEmployeeCount)
  | .finalizeRunDraft admin draftId => onStorage (finalizeRunDraft e admin draftId)
  | .submitRunDraft admin draftId => onStorage (submitRunDraft e admin draftId)
  | .cancelRunDraft admin draftId => onStorage (cancelRunDraft e admin draftId)
  | .expireRunDraft admin draftId => onStorage (expireRunDraft e admin draftId)
  | .beginBatchExecutionCheckpoint admin c checkpointIndex =>
    onStorage (beginBatchExecutionCheckpoint e admin c checkpointIndex)
  | .recordBatchCheckpointProgress admin c checkpointIndex state =>
    onStorage (recordBatchCheckpointProgress e admin c checkpointIndex state)
  | .resumeBatchExecution admin c checkpointIndex =>
    onStorageRet .flag fun s => do
      let s ← resumeBatchExecution e admin c checkpointIndex s
      return (true, s)
  | .createEvidencePointer admin contentHash scope target metadataHash =>
    onStorageRet .hash (createEvidencePointer e admin contentHash scope target metadataHash)
  | .verifyAndConsumeQuorum payload signers requiredQuorum =>
    onStorageRet .hash (verifyAndConsumeQuorum e payload signers requiredQuorum)
  | .archivePayrollRun admin runId => onStorage (archivePayrollRun e admin runId)
  | .flagRunChallenged admin runId => onStorage (flagRunChallenged e admin runId)
  | .clearRunChallenge admin runId => onStorage (clearRunChallenge e admin runId)
  | .archivePayrollRunWithReason admin runId archiveReason =>
    onStorage (archivePayrollRunWithReason e admin runId archiveReason)
  | .recordBatchSplit admin b => onStorage (recordBatchSplit e admin b)
  | .placeComplianceHold admin scope target reasonCode =>
    onStorageRet .id (placeComplianceHold e admin scope target reasonCode)
  | .releaseComplianceHold admin holdId => onStorage (releaseComplianceHold e admin holdId)
  | .setReservationExpiryPolicy admin asset reservedAmount expiryLedgerOffset =>
    onStorage (setReservationExpiryPolicy e admin asset reservedAmount expiryLedgerOffset)
  | .releaseExpiredReservation asset => onStorage (releaseExpiredReservation e asset)
  | .query q => fun w => do
    let _ ← answer e w q
    return (.unit, w)

-- ---------------------------------------------------------------------------
-- The system
-- ---------------------------------------------------------------------------

inductive Message
  | payroll (call : Call)
  | token (asset : Address) (call : Token.Call)
  | commitment (id : Address) (call : SalaryCommitmentContract.Call)

structure Input where
  env : Env
  message : Message

def deliver (e : Env) : Message → World → Result (Ret × World)
  | .payroll call, w => exec e call w
  | .token asset call, w => do
    let balances ← Token.exec (w.tokens asset) call
    return (.unit, { w with tokens := Function.update w.tokens asset balances })
  | .commitment id call, w => do
    let c ← SalaryCommitmentContract.exec e (w.commitments id) call
    return (.unit, { w with commitments := Function.update w.commitments id c })

def next (w : World) (i : Input) : World :=
  match deliver i.env i.message w with
  | .ok (_, w') => w'
  | .error _ => w

end ZkPayroll.Payroll
