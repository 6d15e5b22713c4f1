import ZkPayroll.Events
import ZkPayroll.Host.EventLog
import ZkPayroll.SalaryCommitment.ReferenceIds
import ZkPayroll.SalaryCommitment.Rotation

/-!
# The log of the commitment contract

The events tell which commitment every employee has and since when, every
value that was ever bound, the locks, the spent nullifiers, the reference ids
in both directions, the operator, the pause manager and the pending rotation.

They do not tell the archive: storing a commitment over another one and
updating it publish the same event, and only the second archives the old one.
So no reader knows the archive or the version numbers, or the time a commitment
was created, which storing resets and updating keeps. The events do not say
whether a commitment is revoked, and nothing is read of the admin.
-/

namespace ZkPayroll.SalaryCommitmentContract

open Host Events

def Call.events (e : Env) (s : Storage) : Call → List Event
  | .initCommitmentAdmin _ => []
  | .setPayrollOperator operator => [emitPayrollOperatorSet e operator]
  | .removePayrollOperator => ((s.get .payrollOperator).map (emitPayrollOperatorRemoved e)).toList
  | .proposeAdminRotation currentAdmin newAdmin =>
    [emitCommitmentAdminProposed e currentAdmin newAdmin]
  | .acceptAdminRotation newAdmin => [emitCommitmentAdminAccepted e newAdmin]
  | .cancelAdminRotation currentAdmin => [emitCommitmentAdminCancelled e currentAdmin]
  | .setPauseManager pauseManager => [emitCommitmentPauseManagerSet e pauseManager]
  | .lockCommitmentUpdates employee => [emitCommitmentLocked e employee]
  | .unlockCommitmentUpdates employee => [emitCommitmentUnlocked e employee]
  | .recordNullifier nullifier => [emitNullifierRecorded e nullifier]
  | .storeCommitment employee commitment => [emitCommitmentStored e employee commitment]
  | .updateCommitment employee newCommitment => [emitCommitmentStored e employee newCommitment]
  -- the replacement is stored, and then the rotation is published
  | .rotateCommitment employee newCommitment =>
    emitCommitmentStored e employee newCommitment ::
      ((s.get (.commitment employee)).map fun existing =>
        emitCommitmentRotated e employee existing.commitment newCommitment).toList
  | .setEmployeeReferenceId employee referenceId => [emitReferenceIdSet e employee referenceId]

def published (s : Storage) (i : Input) : List Event :=
  match exec i.env s i.call with
  | .ok _ => i.call.events i.env s
  | .error _ => []

-- ---------------------------------------------------------------------------
-- The reader
-- ---------------------------------------------------------------------------

/-- What the events tell of an entry: of a commitment its value and the time of
its last change, of the admin and the archive nothing. -/
abbrev DataKey.Told : DataKey → Type
  | .commitment _ => BytesN 32 × Nat
  | .nullifier _ => PaymentNullifier
  | .commitmentHistory _ _ => Empty
  | .admin => Empty
  | .payrollOperator => Address
  | .employeeReferenceId _ => String
  | .referenceIdIndex _ => Address
  | .commitmentLock _ => Bool
  | .commitmentIndex _ => Bool
  | .pauseManager => Address
  | .pendingAdminRotation => PendingRotation

def DataKey.told : (k : DataKey) → k.Val → Option k.Told
  | .commitment _, stored => some (stored.commitment, stored.updatedAt)
  | .nullifier _, v => some v
  | .commitmentHistory _ _, _ => none
  | .admin, _ => none
  | .payrollOperator, v => some v
  | .employeeReferenceId _, v => some v
  | .referenceIdIndex _, v => some v
  | .commitmentLock _, v => some v
  | .commitmentIndex _, v => some v
  | .pauseManager, v => some v
  | .pendingAdminRotation, v => some v

abbrev Mirrored := Mirror DataKey.Told

def dropReplaced (employee : Address) (referenceId : String) (m : Mirrored) : Mirrored :=
  match m (.employeeReferenceId employee) with
  | some old => if old ≠ referenceId then m.drop (.referenceIdIndex old) else m
  | none => m

def readEvent (m : Mirrored) (event : Event) : Mirrored :=
  match event.topics, event.data with
  | [.symbol "PayrollOperatorSet"], .tuple [.address operator] => m.put .payrollOperator operator
  | [.symbol "PayrollOperatorRemoved"], .tuple [.address _] => m.drop .payrollOperator
  | [.symbol "AdminRotationProposed", .address currentAdmin], .tuple [.address newAdmin] =>
    m.put .pendingAdminRotation ⟨newAdmin, currentAdmin, event.closedAt⟩
  | [.symbol "AdminRotationAccepted", .address _], .void => m.drop .pendingAdminRotation
  | [.symbol "AdminRotationCancelled", .address _], .void => m.drop .pendingAdminRotation
  | [.symbol "CommitPauseMgrSet"], .tuple [.address pauseManager] =>
    m.put .pauseManager pauseManager
  | [.symbol "CommitmentLocked", .address employee], .void => m.put (.commitmentLock employee) true
  | [.symbol "CommitmentUnlocked", .address employee], .void => m.drop (.commitmentLock employee)
  | [.symbol "NullifierRecorded"], .tuple [.bytes nullifier] =>
    m.put (.nullifier nullifier) ⟨nullifier, event.closedAt⟩
  | [.symbol "CommitmentUpdated", .address employee], .tuple [.bytes commitment] =>
    (m.put (.commitmentIndex commitment) true).put (.commitment employee)
      (commitment, event.closedAt)
  | [.symbol "CommitmentRotated", .address employee],
      .tuple [.bytes _, .bytes newCommitment] =>
    m.put (.commitment employee) (newCommitment, event.closedAt)
  | [.symbol "ReferenceIdSet", .address employee], .tuple [.string referenceId] =>
    ((dropReplaced employee referenceId m).put (.employeeReferenceId employee) referenceId).put
      (.referenceIdIndex referenceId) employee
  | _, _ => m

def mirror (s : Storage) : Mirrored := s.mirror DataKey.told

def bound (employee : Address) (commitment : BytesN 32) (closedAt : Nat) (m : Mirrored) : Mirrored :=
  (m.put (.commitmentIndex commitment) true).put (.commitment employee) (commitment, closedAt)

section
variable {e : Env} {s s' : Storage}

theorem mirror_remove (s : Storage) (k : DataKey) :
    mirror (s.remove k) = (mirror s).drop k := mirror_drop s k

theorem mirror_history (s : Storage) (employee : Address) (index : Nat)
    (snapshot : CommitmentSnapshot) :
    mirror (s.set (.commitmentHistory employee index) snapshot) = mirror s :=
  mirror_hidden (W := DataKey.Told) (k := .commitmentHistory employee index) s snapshot

theorem bound_again (employee : Address) (commitment : BytesN 32) (closedAt : Nat) (m : Mirrored) :
    (bound employee commitment closedAt m).put (.commitment employee) (commitment, closedAt) =
      bound employee commitment closedAt m := by
  simp [bound, Mirror.put]

theorem bound_over (employee : Address) (commitment : BytesN 32) (closedAt : Nat)
    (old : BytesN 32 × Nat) (m : Mirrored) :
    bound employee commitment closedAt (m.put (.commitment employee) old) =
      bound employee commitment closedAt m := by
  funext k
  by_cases hk : k = .commitment employee
  · subst hk
    simp [bound]
  · by_cases hindex : k = .commitmentIndex commitment
    · subst hindex
      simp [bound]
    · simp [bound, hk, hindex]

theorem mirror_dropOldReferenceId (employee : Address) (referenceId : String) (s : Storage) :
    mirror (dropOldReferenceId employee referenceId s) =
      dropReplaced employee referenceId (mirror s) := by
  unfold dropOldReferenceId dropReplaced
  have hget : mirror s (.employeeReferenceId employee) = s.get (.employeeReferenceId employee) := by
    have hmap : mirror s (.employeeReferenceId employee) =
        (s.get (.employeeReferenceId employee)).map id := mirror_map (fun _ => rfl) s
    rwa [Option.map_id] at hmap
  rw [hget]
  cases s.get (.employeeReferenceId employee) with
  | none => rfl
  | some old =>
    by_cases hsame : old ≠ referenceId
    · simp only [if_pos hsame]
      exact mirror_remove s _
    · simp only [if_neg hsame]

theorem read_stored (e : Env) (employee : Address) (commitment : BytesN 32) (m : Mirrored) :
    readEvent m (emitCommitmentStored e employee commitment) =
      bound employee commitment e.timestamp m := rfl

theorem read_rotated (e : Env) (employee : Address) (old commitment : BytesN 32) (m : Mirrored) :
    readEvent m (emitCommitmentRotated e employee old commitment) =
      m.put (.commitment employee) (commitment, e.timestamp) := rfl

theorem mirror_bound (employee : Address) (stored : SalaryCommitment) (s : Storage) :
    mirror ((s.set (.commitmentIndex stored.commitment) true).set (.commitment employee) stored) =
      bound employee stored.commitment stored.updatedAt (mirror s) := by
  have hindex : mirror (s.set (.commitmentIndex stored.commitment) true) =
      (mirror s).put (.commitmentIndex stored.commitment) true := mirror_put rfl
  rw [bound, ← hindex]
  exact mirror_put rfl

theorem read_exec (h : exec e s call = .ok s') :
    (call.events e s).foldl readEvent (mirror s) = mirror s' := by
  cases call with
  | initCommitmentAdmin admin =>
    simp only [exec, initCommitmentAdmin, bind_ok, pure_ok] at h
    obtain ⟨_, -, rfl⟩ := h
    exact (mirror_hidden (W := DataKey.Told) (k := .admin) s admin).symm
  | setPayrollOperator operator =>
    simp only [exec, setPayrollOperator, bind_ok, pure_ok] at h
    obtain ⟨_, -, _, -, rfl⟩ := h
    exact (mirror_put rfl).symm
  | removePayrollOperator =>
    simp only [exec, removePayrollOperator, bind_ok, ensure_ok, pure_ok, Store.has_eq_true,
      exists_const] at h
    obtain ⟨_, -, _, -, ⟨operator, hoperator⟩, rfl⟩ := h
    simp only [Call.events, hoperator, Option.map_some, Option.toList_some]
    exact (mirror_remove s .payrollOperator).symm
  | proposeAdminRotation currentAdmin newAdmin =>
    obtain ⟨-, -, -, rfl⟩ := proposeAdminRotation_ok h
    exact (mirror_put rfl).symm
  | acceptAdminRotation newAdmin =>
    simp only [exec, acceptAdminRotation, bind_ok, pure_ok] at h
    obtain ⟨_, -, _, -, _, -, _, -, rfl⟩ := h
    have hadmin : mirror (s.set .admin newAdmin) = mirror s :=
      mirror_hidden (W := DataKey.Told) (k := .admin) s newAdmin
    rw [mirror_remove, hadmin]
    rfl
  | cancelAdminRotation currentAdmin =>
    obtain ⟨-, -, rfl⟩ := cancelAdminRotation_ok h
    exact (mirror_remove s .pendingAdminRotation).symm
  | setPauseManager pauseManager =>
    simp only [exec, setPauseManager, bind_ok, pure_ok] at h
    obtain ⟨_, -, rfl⟩ := h
    exact (mirror_put rfl).symm
  | lockCommitmentUpdates employee =>
    obtain ⟨-, -, -, rfl⟩ := lockCommitmentUpdates_ok.mp h
    exact (mirror_put rfl).symm
  | unlockCommitmentUpdates employee =>
    simp only [exec, unlockCommitmentUpdates, bind_ok, pure_ok] at h
    obtain ⟨_, -, _, -, _, -, rfl⟩ := h
    exact (mirror_remove s (.commitmentLock employee)).symm
  | recordNullifier nullifier =>
    obtain ⟨-, -, -, rfl⟩ := recordNullifier_ok.mp h
    exact (mirror_put rfl).symm
  | storeCommitment employee commitment =>
    obtain ⟨-, rfl⟩ := storeCommitment_ok.mp h
    exact (mirror_bound employee ⟨commitment, e.timestamp, e.timestamp, 1, false⟩ s).symm
  | updateCommitment employee commitment =>
    obtain ⟨old, index, -, -, rfl⟩ := updateCommitment_ok.mp h
    have hcomm : (s.set (.commitmentIndex commitment) true).set (.commitmentHistory employee index)
        ⟨old.commitment, old.version, e.timestamp⟩ =
        (s.set (.commitmentHistory employee index)
          ⟨old.commitment, old.version, e.timestamp⟩).set (.commitmentIndex commitment) true := by
      refine Store.ext_get fun k => ?_
      by_cases hk : k = .commitmentIndex commitment
      · subst hk
        simp
      · by_cases hslot : k = .commitmentHistory employee index
        · subst hslot
          simp
        · simp [hk, hslot]
    rw [hcomm, mirror_bound employee ⟨commitment, old.createdAt, e.timestamp, old.version + 1, false⟩,
      mirror_history]
    rfl
  | rotateCommitment employee commitment =>
    obtain ⟨old, index, ⟨-, -, hold, -, -⟩, rfl⟩ := rotateCommitment_ok.mp h
    have hrevoked : mirror (s.set (.commitment employee) { old with revoked := true }) =
        (mirror s).put (.commitment employee) (old.commitment, old.updatedAt) := mirror_put rfl
    rw [mirror_bound employee ⟨commitment, e.timestamp, e.timestamp, 1, false⟩, mirror_history,
      hrevoked, bound_over]
    simp only [Call.events, hold, Option.map_some, Option.toList_some, List.foldl_cons,
      List.foldl_nil, read_stored, read_rotated]
    exact bound_again employee commitment e.timestamp (mirror s)
  | setEmployeeReferenceId employee referenceId =>
    obtain ⟨-, -, -, -, rfl⟩ := setEmployeeReferenceId_ok.mp h
    have hforward : mirror ((dropOldReferenceId employee referenceId s).set
        (.employeeReferenceId employee) referenceId) =
        (dropReplaced employee referenceId (mirror s)).put (.employeeReferenceId employee)
          referenceId := by
      rw [← mirror_dropOldReferenceId]
      exact mirror_put rfl
    have hback : mirror (withReferenceId employee referenceId s) =
        ((dropReplaced employee referenceId (mirror s)).put (.employeeReferenceId employee)
          referenceId).put (.referenceIdIndex referenceId) employee := by
      rw [← hforward]
      exact mirror_put rfl
    exact hback.symm

end

theorem read_published (s : Storage) (i : Input) :
    (published s i).foldl readEvent (mirror s) = mirror (next s i) := by
  unfold published next
  cases h : exec i.env s i.call with
  | ok s' => exact read_exec h
  | error msg => rfl

/-- The log of a run gives back what the events tell of the storage. -/
theorem log_gives_mirror (inputs : List Input) :
    (log next published Store.empty inputs).foldl readEvent Mirror.blank =
      mirror (runFrom next Store.empty inputs) := by
  have hreplay : (log next published Store.empty inputs).foldl readEvent (mirror Store.empty) =
      mirror (runFrom next Store.empty inputs) :=
    replay_log (fun s i _ => read_published s i) inputs
  rwa [mirror, mirror_empty] at hreplay

-- ---------------------------------------------------------------------------
-- What is not told
-- ---------------------------------------------------------------------------

def archive (s : Storage) (employee : Address) (index : Nat) : Option CommitmentSnapshot :=
  s.get (.commitmentHistory employee index)

section
variable {e : Env} {s s' : Storage}

/-- Where a commitment can be updated it can also be stored over, with the same
events and without an archive entry. -/
theorem update_looks_stored (h : exec e s (.updateCommitment employee commitment) = .ok s') :
    published s ⟨e, .updateCommitment employee commitment⟩ =
        published s ⟨e, .storeCommitment employee commitment⟩ ∧
      archive (next s ⟨e, .updateCommitment employee commitment⟩) ≠
        archive (next s ⟨e, .storeCommitment employee commitment⟩) := by
  obtain ⟨old, index, ⟨hcan, -, -, ⟨hfree, -⟩, -⟩, -, hafter⟩ := updateCommitment_ok.mp h
  have hstore : exec e s (.storeCommitment employee commitment) = .ok _ :=
    storeCommitment_ok.mpr ⟨hcan, rfl⟩
  refine ⟨by simp [published, h, hstore, Call.events], fun hsame => ?_⟩
  have hslot := congrFun (congrFun hsame employee) index
  simp [archive, next, h, hstore, hafter, hfree] at hslot

/-- Whatever a reader makes of the log, it is wrong about the archive after an
update or after the store that looks like it. -/
theorem archive_not_told (reader : List Event → Address → Nat → Option CommitmentSnapshot)
    (h : exec e (runFrom next Store.empty inputs) (.updateCommitment employee commitment) = .ok s') :
    ∃ call, (call = .updateCommitment employee commitment ∨
        call = .storeCommitment employee commitment) ∧
      reader (log next published Store.empty (inputs ++ [⟨e, call⟩])) ≠
        archive (runFrom next Store.empty (inputs ++ [⟨e, call⟩])) := by
  obtain ⟨hevents, harchive⟩ := update_looks_stored h
  by_contra hright
  push Not at hright
  have hupdate := hright _ (.inl rfl)
  have hstore := hright _ (.inr rfl)
  rw [log_snoc, runFrom_snoc] at hupdate hstore
  rw [← hupdate, ← hstore, hevents] at harchive
  exact harchive rfl

end

section
set_option maxRecDepth 2000

theorem archive_not_told_of_alice :
    ∃ call, (call = .updateCommitment Sample.alice (Sample.digest 2) ∨
        call = .storeCommitment Sample.alice (Sample.digest 2)) ∧
      (fun _ _ => none) ≠ archive (runFrom next Store.empty (Sample.hired ++ [⟨Sample.env, call⟩])) :=
  archive_not_told (fun _ _ _ => none)
    (rfl : exec Sample.env (runFrom next Store.empty Sample.hired)
      (.updateCommitment Sample.alice (Sample.digest 2)) = .ok _)

end

end ZkPayroll.SalaryCommitmentContract
