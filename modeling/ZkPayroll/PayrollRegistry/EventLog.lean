import ZkPayroll.Events
import ZkPayroll.Host.EventLog
import ZkPayroll.PayrollRegistry.Steps

/-!
# The log of the registry

The events tell the companies with admin and treasury, their rosters with
commitments and statuses, the index of admins, the number of companies and the
pending rotations. Of an approval threshold they tell the number and the time,
but not who configured it. The proposal of a threshold does not name its
proposer either; that is the company's admin, whom a reader knows.

A status that is already set is published no more than it is written.
-/

namespace ZkPayroll.PayrollRegistry

open Host Events

def EmployeeStatus.code : EmployeeStatus → Nat
  | .active => 0
  | .inactive => 1
  | .incomplete => 2

def EmployeeStatus.eventName : EmployeeStatus → Symbol
  | .active => "EmployeeReactivated"
  | .inactive => "EmployeeDeactivated"
  | .incomplete => "EmployeeStatusUpdated"

def statusChanged (e : LedgerEnv) (companyId : Nat) (employee : Address)
    (previousStatus status : EmployeeStatus) : Event :=
  e.publish [.symbol status.eventName, .u64 companyId, .address employee]
    (.tuple [.u32 previousStatus.code, .u32 status.code, .u32 e.sequence, .u64 e.timestamp])

def thresholdEvent (e : LedgerEnv) (name : Symbol) (companyId threshold : Nat) : Event :=
  e.publish [.symbol name, .u64 companyId] (.tuple [.u32 threshold, .u64 e.timestamp])

def Call.events (e : LedgerEnv) (s : Storage) : Call → List Event
  | .setPauseManager _ pauseManager => [emitRegistryPauseManagerSet e.toEnv pauseManager]
  | .registerCompany admin treasury =>
    [emitCompanyRegistered e.toEnv (getCompanySequence s) admin treasury]
  | .addEmployee companyId employee commitment =>
    [emitEmployeeAdded e.toEnv companyId employee commitment]
  | .addEmployeeByWallet companyId employeeWallet commitment =>
    [emitEmployeeAdded e.toEnv companyId (e.addressFromString employeeWallet) commitment]
  | .removeEmployee companyId employee => [emitEmployeeRemoved e.toEnv companyId employee]
  | .updateCommitment companyId employee newCommitment =>
    [emitRegistryCommitmentUpdated e.toEnv companyId employee newCommitment]
  | .setEmployeeStatus companyId employee status =>
    let previousStatus := getEmployeeStatus s companyId employee
    if previousStatus = status then [] else [statusChanged e companyId employee previousStatus status]
  | .proposeAdminRotation companyId currentAdmin newAdmin =>
    [emitCompanyAdminProposed e.toEnv companyId currentAdmin newAdmin]
  | .acceptAdminRotation companyId newAdmin =>
    ((s.get (.company companyId)).map fun info =>
      emitCompanyAdminRotated e.toEnv companyId info.admin newAdmin).toList
  | .cancelAdminRotation companyId currentAdmin =>
    [emitCompanyAdminRotationCancelled e.toEnv companyId currentAdmin]
  | .proposeTreasuryRotation companyId currentAdmin newTreasury =>
    [e.publish [.symbol "TreasuryRotationProposed", .u64 companyId]
      (.tuple [.address currentAdmin, .address newTreasury, .u64 e.timestamp])]
  | .acceptTreasuryRotation companyId newTreasury =>
    ((s.get (.company companyId)).map fun info =>
      e.publish [.symbol "TreasuryRotated", .u64 companyId]
        (.tuple [.address info.treasury, .address newTreasury])).toList
  | .cancelTreasuryRotation companyId currentAdmin =>
    [e.publish [.symbol "TreasuryRotationCancelled", .u64 companyId]
      (.tuple [.address currentAdmin])]
  | .proposeThresholdRotation companyId _ newThreshold gracePeriodSeconds =>
    [e.publish [.symbol "ThresholdRotationProposed", .u64 companyId]
      (.tuple [.u32 newThreshold, .u64 (e.timestamp + gracePeriodSeconds)])]
  | .activateThresholdRotation companyId _ =>
    ((s.get (.pendingThresholdRotation companyId)).map fun pending =>
      thresholdEvent e "ThresholdRotationActivated" companyId pending.newThreshold).toList
  | .cancelThresholdRotation companyId _ =>
    ((s.get (.pendingThresholdRotation companyId)).map fun pending =>
      thresholdEvent e "ThresholdRotationCancelled" companyId pending.newThreshold).toList
  | .setInitialApprovalThreshold companyId _ requiredApprovals =>
    [thresholdEvent e "InitialThresholdConfigured" companyId requiredApprovals]

def published (s : Storage) (i : Input) : List Event :=
  match exec i.env s i.call with
  | .ok _ => i.call.events i.env s
  | .error _ => []

-- ---------------------------------------------------------------------------
-- The reader
-- ---------------------------------------------------------------------------

/-- What the events tell of an entry: of a threshold its number and its time. -/
abbrev DataKey.Told : DataKey → Type
  | .company _ => CompanyInfo
  | .employee .. => BytesN 32
  | .companySequence => Nat
  | .empStatus .. => EmployeeStatus
  | .pendingAdminRotation _ => PendingCompanyRotation
  | .pendingTreasuryRotation _ => PendingCompanyRotation
  | .companyAdmin _ => Nat
  | .pauseManager => Address
  | .approvalThreshold _ => Nat × Nat
  | .pendingThresholdRotation _ => PendingThresholdRotation

def DataKey.told : (k : DataKey) → k.Val → Option k.Told
  | .company _, v => some v
  | .employee .., v => some v
  | .companySequence, v => some v
  | .empStatus .., v => some v
  | .pendingAdminRotation _, v => some v
  | .pendingTreasuryRotation _, v => some v
  | .companyAdmin _, v => some v
  | .pauseManager, v => some v
  | .approvalThreshold _, v => some (v.requiredApprovals, v.configuredAt)
  | .pendingThresholdRotation _, v => some v

abbrev Mirrored := Mirror DataKey.Told

def statusOf : Nat → Option EmployeeStatus
  | 0 => some .active
  | 1 => some .inactive
  | 2 => some .incomplete
  | _ => none

def putStatus (companyId : Nat) (employee : Address) (code : Nat) (m : Mirrored) : Mirrored :=
  match statusOf code with
  | some status => m.put (.empStatus companyId employee) status
  | none => m

def rotateAdmin (companyId : Nat) (oldAdmin newAdmin : Address) (m : Mirrored) : Mirrored :=
  match m (.company companyId) with
  | some info =>
    (((m.put (.company companyId) { info with admin := newAdmin }).drop
      (.pendingAdminRotation companyId)).drop (.companyAdmin oldAdmin)).put (.companyAdmin newAdmin)
        companyId
  | none => m

def rotateTreasury (companyId : Nat) (newTreasury : Address) (m : Mirrored) : Mirrored :=
  match m (.company companyId) with
  | some info =>
    (m.put (.company companyId) { info with treasury := newTreasury }).drop
      (.pendingTreasuryRotation companyId)
  | none => m

def proposeThreshold (companyId newThreshold effectiveAfter closedAt : Nat) (m : Mirrored) :
    Mirrored :=
  match m (.company companyId) with
  | some info =>
    m.put (.pendingThresholdRotation companyId)
      ⟨companyId, newThreshold, closedAt, info.admin, effectiveAfter⟩
  | none => m

def readEvent (m : Mirrored) (event : Event) : Mirrored :=
  match event.topics, event.data with
  | [.symbol "RegistryPauseMgrSet"], .tuple [.address pauseManager] =>
    m.put .pauseManager pauseManager
  | [.symbol "CompanyRegistered", .u64 companyId], .tuple [.address admin, .address treasury] =>
    ((m.put .companySequence (companyId + 1)).put (.company companyId) ⟨admin, treasury⟩).put
      (.companyAdmin admin) companyId
  | [.symbol "EmployeeAdded", .u64 companyId, .address employee], .tuple [.bytes commitment] =>
    (m.put (.employee companyId employee) commitment).put (.empStatus companyId employee) .active
  | [.symbol "EmployeeRemoved", .u64 companyId, .address employee], .void =>
    m.drop (.employee companyId employee)
  | [.symbol "CommitmentUpdated", .u64 companyId, .address employee], .tuple [.bytes commitment] =>
    m.put (.employee companyId employee) commitment
  | [.symbol "EmployeeReactivated", .u64 companyId, .address employee],
      .tuple [.u32 _, .u32 code, .u32 _, .u64 _] => putStatus companyId employee code m
  | [.symbol "EmployeeDeactivated", .u64 companyId, .address employee],
      .tuple [.u32 _, .u32 code, .u32 _, .u64 _] => putStatus companyId employee code m
  | [.symbol "EmployeeStatusUpdated", .u64 companyId, .address employee],
      .tuple [.u32 _, .u32 code, .u32 _, .u64 _] => putStatus companyId employee code m
  | [.symbol "CompanyAdminProposed", .u64 companyId, .address currentAdmin],
      .tuple [.address newAdmin] =>
    m.put (.pendingAdminRotation companyId) ⟨newAdmin, currentAdmin, event.closedAt⟩
  | [.symbol "CompanyAdminRotated", .u64 companyId, .address oldAdmin],
      .tuple [.address newAdmin] => rotateAdmin companyId oldAdmin newAdmin m
  | [.symbol "CompanyAdminRotCancelled", .u64 companyId, .address _], .void =>
    m.drop (.pendingAdminRotation companyId)
  | [.symbol "TreasuryRotationProposed", .u64 companyId],
      .tuple [.address currentAdmin, .address newTreasury, .u64 proposedAt] =>
    m.put (.pendingTreasuryRotation companyId) ⟨newTreasury, currentAdmin, proposedAt⟩
  | [.symbol "TreasuryRotated", .u64 companyId], .tuple [.address _, .address newTreasury] =>
    rotateTreasury companyId newTreasury m
  | [.symbol "TreasuryRotationCancelled", .u64 companyId], .tuple [.address _] =>
    m.drop (.pendingTreasuryRotation companyId)
  | [.symbol "ThresholdRotationProposed", .u64 companyId],
      .tuple [.u32 newThreshold, .u64 effectiveAfter] =>
    proposeThreshold companyId newThreshold effectiveAfter event.closedAt m
  | [.symbol "ThresholdRotationActivated", .u64 companyId],
      .tuple [.u32 newThreshold, .u64 configuredAt] =>
    (m.put (.approvalThreshold companyId) (newThreshold, configuredAt)).drop
      (.pendingThresholdRotation companyId)
  | [.symbol "ThresholdRotationCancelled", .u64 companyId], .tuple [.u32 _, .u64 _] =>
    m.drop (.pendingThresholdRotation companyId)
  | [.symbol "InitialThresholdConfigured", .u64 companyId],
      .tuple [.u32 requiredApprovals, .u64 configuredAt] =>
    m.put (.approvalThreshold companyId) (requiredApprovals, configuredAt)
  | _, _ => m

def mirror (s : Storage) : Mirrored := s.mirror DataKey.told

section
variable {e : LedgerEnv} {s s' : Storage}

theorem mirror_remove (s : Storage) (k : DataKey) :
    mirror (s.remove k) = (mirror s).drop k := mirror_drop s k

theorem mirror_company (h : s.get (.company companyId) = some info) :
    mirror s (.company companyId) = some info := mirror_some h

theorem read_status (e : LedgerEnv) (companyId : Nat) (employee : Address)
    (previousStatus status : EmployeeStatus) (m : Mirrored) :
    readEvent m (statusChanged e companyId employee previousStatus status) =
      m.put (.empStatus companyId employee) status := by
  cases status <;> rfl

theorem read_adminRotated (h : s.get (.company companyId) = some info) :
    readEvent (mirror s) (emitCompanyAdminRotated e.toEnv companyId info.admin newAdmin) =
      mirror (adminRotated companyId newAdmin info s) := by
  have hread : readEvent (mirror s) (emitCompanyAdminRotated e.toEnv companyId info.admin newAdmin) =
      rotateAdmin companyId info.admin newAdmin (mirror s) := rfl
  have hcompany : mirror (s.set (.company companyId) { info with admin := newAdmin }) =
      (mirror s).put (.company companyId) { info with admin := newAdmin } := mirror_put rfl
  rw [hread, rotateAdmin, mirror_company h]
  simp only [← hcompany, ← mirror_remove]
  exact (mirror_put rfl).symm

theorem read_treasuryRotated (h : s.get (.company companyId) = some info) :
    rotateTreasury companyId newTreasury (mirror s) =
      mirror ((s.set (.company companyId) { info with treasury := newTreasury }).remove
        (.pendingTreasuryRotation companyId)) := by
  have hcompany : mirror (s.set (.company companyId) { info with treasury := newTreasury }) =
      (mirror s).put (.company companyId) { info with treasury := newTreasury } := mirror_put rfl
  rw [rotateTreasury, mirror_company h, mirror_remove, hcompany]

theorem read_thresholdProposed (h : AdminOf s companyId admin) :
    proposeThreshold companyId newThreshold effectiveAfter closedAt (mirror s) =
      mirror (s.set (.pendingThresholdRotation companyId)
        ⟨companyId, newThreshold, closedAt, admin, effectiveAfter⟩) := by
  obtain ⟨info, hinfo, rfl⟩ := h
  rw [proposeThreshold, mirror_company hinfo]
  exact (mirror_put rfl).symm

theorem read_added (h : addEmployee e companyId employee commitment s = .ok s') :
    readEvent (mirror s) (emitEmployeeAdded e.toEnv companyId employee commitment) = mirror s' := by
  obtain ⟨-, rfl⟩ := addEmployee_ok.mp h
  have hemployee : mirror (s.set (.employee companyId employee) commitment) =
      (mirror s).put (.employee companyId employee) commitment := mirror_put rfl
  have hread : readEvent (mirror s) (emitEmployeeAdded e.toEnv companyId employee commitment) =
      ((mirror s).put (.employee companyId employee) commitment).put
        (.empStatus companyId employee) .active := rfl
  rw [hread, ← hemployee]
  exact (mirror_put rfl).symm

theorem read_registered (e : LedgerEnv) (admin treasury : Address) (s : Storage) :
    readEvent (mirror s) (emitCompanyRegistered e.toEnv (getCompanySequence s) admin treasury) =
      mirror (registered admin treasury s) := by
  have hsequence : mirror (s.set .companySequence (getCompanySequence s + 1)) =
      (mirror s).put .companySequence (getCompanySequence s + 1) := mirror_put rfl
  have hcompany : mirror ((s.set .companySequence (getCompanySequence s + 1)).set
      (.company (getCompanySequence s)) ⟨admin, treasury⟩) =
      ((mirror s).put .companySequence (getCompanySequence s + 1)).put
        (.company (getCompanySequence s)) ⟨admin, treasury⟩ := by
    rw [← hsequence]
    exact mirror_put rfl
  have hread : readEvent (mirror s)
      (emitCompanyRegistered e.toEnv (getCompanySequence s) admin treasury) =
      (((mirror s).put .companySequence (getCompanySequence s + 1)).put
        (.company (getCompanySequence s)) ⟨admin, treasury⟩).put (.companyAdmin admin)
          (getCompanySequence s) := rfl
  rw [hread, ← hcompany]
  exact (mirror_put rfl).symm

theorem read_exec (h : exec e s call = .ok s') :
    (call.events e s).foldl readEvent (mirror s) = mirror s' := by
  cases call with
  | setPauseManager admin pauseManager =>
    simp only [exec, setPauseManager, bind_ok, pure_ok] at h
    obtain ⟨_, -, rfl⟩ := h
    exact (mirror_put rfl).symm
  | registerCompany admin treasury =>
    simp only [exec, bind_ok, pure_ok, Prod.exists] at h
    obtain ⟨_, _, h, rfl⟩ := h
    obtain ⟨-, -, rfl⟩ := registerCompany_ok.mp h
    exact read_registered e admin treasury s
  | addEmployee companyId employee commitment => exact read_added h
  | addEmployeeByWallet companyId employeeWallet commitment =>
    exact read_added (addEmployeeByWallet_ok.mp h).2
  | removeEmployee companyId employee =>
    obtain ⟨-, rfl⟩ := removeEmployee_ok.mp h
    exact (mirror_remove s _).symm
  | updateCommitment companyId employee newCommitment =>
    obtain ⟨-, -, rfl⟩ := updateCommitment_ok.mp h
    exact (mirror_put rfl).symm
  | setEmployeeStatus companyId employee status =>
    obtain ⟨-, -, rfl⟩ := setEmployeeStatus_ok.mp h
    by_cases hsame : getEmployeeStatus s companyId employee = status
    · simp [Call.events, hsame]
    · simp only [Call.events, if_neg hsame, List.foldl_cons, List.foldl_nil, read_status]
      exact (mirror_put rfl).symm
  | proposeAdminRotation companyId currentAdmin newAdmin =>
    simp only [exec, proposeAdminRotation, bind_ok, pure_ok] at h
    obtain ⟨_, -, _, -, _, -, rfl⟩ := h
    exact (mirror_put rfl).symm
  | acceptAdminRotation companyId newAdmin =>
    obtain ⟨info, hcan, rfl⟩ := acceptAdminRotation_ok.mp h
    simp only [Call.events, hcan.stored, Option.map_some, Option.toList_some, List.foldl_cons,
      List.foldl_nil]
    exact read_adminRotated hcan.stored
  | cancelAdminRotation companyId currentAdmin =>
    simp only [exec, cancelAdminRotation, bind_ok, pure_ok] at h
    obtain ⟨_, -, _, -, _, -, rfl⟩ := h
    exact (mirror_remove s _).symm
  | proposeTreasuryRotation companyId currentAdmin newTreasury =>
    simp only [exec, proposeTreasuryRotation, bind_ok, pure_ok] at h
    obtain ⟨_, -, _, -, _, -, rfl⟩ := h
    exact (mirror_put rfl).symm
  | acceptTreasuryRotation companyId newTreasury =>
    obtain ⟨-, info, hinfo, rfl⟩ := acceptTreasuryRotation_ok h
    simp only [Call.events, hinfo, Option.map_some, Option.toList_some, List.foldl_cons,
      List.foldl_nil]
    exact read_treasuryRotated hinfo
  | cancelTreasuryRotation companyId currentAdmin =>
    simp only [exec, cancelTreasuryRotation, bind_ok, pure_ok] at h
    obtain ⟨_, -, _, -, _, -, rfl⟩ := h
    exact (mirror_remove s _).symm
  | proposeThresholdRotation companyId admin newThreshold gracePeriodSeconds =>
    obtain ⟨hcalls, -, -, rfl⟩ := proposeThresholdRotation_ok.mp h
    exact read_thresholdProposed hcalls.current
  | activateThresholdRotation companyId admin =>
    obtain ⟨pending, -, hpending, -, rfl⟩ := activateThresholdRotation_ok.mp h
    have hthreshold : mirror (s.set (.approvalThreshold companyId)
        ⟨companyId, pending.newThreshold, e.timestamp, admin, true⟩) =
        (mirror s).put (.approvalThreshold companyId) (pending.newThreshold, e.timestamp) :=
      mirror_put rfl
    rw [mirror_remove, hthreshold]
    simp only [Call.events, hpending, Option.map_some, Option.toList_some]
    rfl
  | cancelThresholdRotation companyId admin =>
    obtain ⟨-, ⟨pending, hpending⟩, rfl⟩ := cancelThresholdRotation_ok.mp h
    rw [mirror_remove]
    simp only [Call.events, hpending, Option.map_some, Option.toList_some]
    rfl
  | setInitialApprovalThreshold companyId admin requiredApprovals =>
    obtain ⟨-, rfl⟩ := setInitialApprovalThreshold_ok.mp h
    exact (mirror_put rfl).symm

end

theorem read_published (s : Storage) (i : Input) :
    (published s i).foldl readEvent (mirror s) = mirror (next s i) := by
  unfold published next
  cases h : exec i.env s i.call with
  | ok s' => exact read_exec h
  | error msg => rfl

/-- A reader's answer to `is_eligible`. -/
def eligibleIn (m : Mirrored) (companyId : Nat) (employee : Address) : Bool :=
  (m (.employee companyId employee)).isSome &&
    decide ((m (.empStatus companyId employee)).getD .incomplete = .active)

theorem eligibleIn_mirror (s : Storage) (companyId : Nat) (employee : Address) :
    eligibleIn (mirror s) companyId employee = isEligible s companyId employee := by
  unfold eligibleIn isEligible isEmployeeActive getEmployeeStatus Store.has
  have hemployee : mirror s (.employee companyId employee) =
      (s.get (.employee companyId employee)).map id := mirror_map (fun _ => rfl) s
  have hstatus : mirror s (.empStatus companyId employee) =
      (s.get (.empStatus companyId employee)).map id := mirror_map (fun _ => rfl) s
  rw [hemployee, hstatus, Option.map_id, Option.map_id]
  rfl

end ZkPayroll.PayrollRegistry
