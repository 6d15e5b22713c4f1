import ZkPayroll.SalaryCommitment

/-!
# What the salary commitment contract does

Readers for its guards and for the two calls payroll makes, and what no call
ever undoes: a spent nullifier stays spent, the contract keeps an admin, and
an operator is set only under an admin.
-/

namespace ZkPayroll.SalaryCommitmentContract

open Host

section
variable {e : Env} {s s' : Storage}

-- ---------------------------------------------------------------------------
-- Guards
-- ---------------------------------------------------------------------------

def Paused (e : Env) (s : Storage) : Prop :=
  ∃ pm, s.get .pauseManager = some pm ∧ e.isPaused pm = true

theorem requireNotPaused_ok : requireNotPaused e s = .ok u ↔ ¬ Paused e s := by
  unfold requireNotPaused Paused
  cases s.get .pauseManager <;> simp [ensure_ok, pure_ok]

theorem requireAdmin_ok : requireAdmin e s = .ok u ↔
    ∃ admin, s.get .admin = some admin ∧ admin ∈ e.auths := by
  simp only [requireAdmin, bind_ok, expect_ok, requireAuth_ok]

/-- The operator authorises the call, or the admin where there is no
operator. -/
def OperatorCalls (e : Env) (s : Storage) : Prop :=
  ∃ admin, s.get .admin = some admin ∧ (s.get .payrollOperator).getD admin ∈ e.auths

theorem requireAdminOrOperator_ok : requireAdminOrOperator e s = .ok u ↔ OperatorCalls e s := by
  simp only [requireAdminOrOperator, OperatorCalls, bind_ok, expect_ok]
  cases s.get .payrollOperator <;> simp [requireAuth_ok]

theorem recordNullifier_ok : recordNullifier e nullifier s = .ok s' ↔
    ¬ Paused e s ∧ OperatorCalls e s ∧ s.get (.nullifier nullifier) = none ∧
      s' = s.set (.nullifier nullifier) ⟨nullifier, e.timestamp⟩ := by
  simp only [recordNullifier, bind_ok, requireNotPaused_ok, requireAdminOrOperator_ok, ensure_ok,
    Store.has_eq_false, pure_ok, exists_const]

theorem lockCommitmentUpdates_ok : lockCommitmentUpdates e employee s = .ok s' ↔
    ¬ Paused e s ∧ OperatorCalls e s ∧ s.get (.commitmentLock employee) = none ∧
      s' = s.set (.commitmentLock employee) true := by
  simp only [lockCommitmentUpdates, bind_ok, requireNotPaused_ok, requireAdminOrOperator_ok,
    ensure_ok, Store.has_eq_false, pure_ok, exists_const]

theorem getCommitment_ok :
    getCommitment s employee = .ok stored ↔ s.get (.commitment employee) = some stored := expect_ok

-- ---------------------------------------------------------------------------
-- Commitments
-- ---------------------------------------------------------------------------

theorem registerCommitmentUniqueness_ok : registerCommitmentUniqueness commitment s = .ok s' ↔
    s.get (.commitmentIndex commitment) = none ∧ s' = s.set (.commitmentIndex commitment) true := by
  simp only [registerCommitmentUniqueness, bind_ok, ensure_ok, Store.has_eq_false, pure_ok,
    exists_const]

def FirstFree (s : Storage) (employee : Address) (index : Nat) : Prop :=
  s.get (.commitmentHistory employee index) = none ∧
    ∀ j < index, s.get (.commitmentHistory employee j) ≠ none

theorem freeHistorySlot_ok : freeHistorySlot s employee fuel start = .ok index →
    start ≤ index ∧ index < start + fuel ∧ s.get (.commitmentHistory employee index) = none ∧
      ∀ j, start ≤ j → j < index → s.get (.commitmentHistory employee j) ≠ none := by
  induction fuel generalizing start with
  | zero => simp [freeHistorySlot]
  | succ fuel ih =>
    intro h
    unfold freeHistorySlot at h
    split at h
    · rename_i htaken
      obtain ⟨hstart, hlt, hfree, hbelow⟩ := ih h
      refine ⟨by omega, by omega, hfree, fun j hj hlt => ?_⟩
      by_cases hfirst : j = start
      · subst hfirst
        simpa [Store.has, Option.isSome_iff_ne_none] using htaken
      · exact hbelow j (by omega) hlt
    · rename_i hfree
      obtain rfl := pure_ok.mp h
      refine ⟨le_refl _, by omega, ?_, fun j hj hlt => by omega⟩
      exact Store.has_eq_false.mp (Bool.not_eq_true _ ▸ hfree)

/-- The scan finds the first free slot, wherever it is. -/
theorem freeHistorySlot_finds (hfree : s.get (.commitmentHistory employee index) = none)
    (hbelow : ∀ j, start ≤ j → j < index → s.get (.commitmentHistory employee j) ≠ none)
    (hstart : start ≤ index) (hfuel : index < start + fuel) :
    freeHistorySlot s employee fuel start = .ok index := by
  induction fuel generalizing start with
  | zero => omega
  | succ fuel ih =>
    unfold freeHistorySlot
    by_cases hfirst : start = index
    · subst hfirst
      simp [Store.has, hfree, pure, Except.pure]
    · have htaken : s.has (.commitmentHistory employee start) = true := by
        simpa [Store.has, Option.isSome_iff_ne_none] using hbelow start (le_refl _) (by omega)
      rw [if_pos htaken]
      exact ih (fun j hj hlt => hbelow j (by omega) hlt) (by omega) (by omega)

theorem archiveCommitment_ok : archiveCommitment e employee commitment version s = .ok s' ↔
    ∃ index, FirstFree s employee index ∧ index ≤ u32Max ∧
      s' = s.set (.commitmentHistory employee index) ⟨commitment, version, e.timestamp⟩ := by
  simp only [archiveCommitment, bind_ok, pure_ok]
  refine exists_congr fun index => ?_
  constructor
  · rintro ⟨h, rfl⟩
    obtain ⟨-, hlt, hfree, hbelow⟩ := freeHistorySlot_ok h
    exact ⟨⟨hfree, fun j hj => hbelow j (Nat.zero_le j) hj⟩, by omega, rfl⟩
  · rintro ⟨⟨hfree, hbelow⟩, hle, rfl⟩
    exact ⟨freeHistorySlot_finds hfree (fun j _ hj => hbelow j hj) (Nat.zero_le _) (by omega), rfl⟩

/-- The guards of `store_commitment`. -/
def CanStore (e : Env) (commitment : BytesN 32) (s : Storage) : Prop :=
  ¬ Paused e s ∧ (∃ admin, s.get .admin = some admin ∧ admin ∈ e.auths) ∧
    s.get (.commitmentIndex commitment) = none

theorem storeCommitment_ok : storeCommitment e employee commitment s = .ok s' ↔
    CanStore e commitment s ∧
      s' = (s.set (.commitmentIndex commitment) true).set (.commitment employee)
        ⟨commitment, e.timestamp, e.timestamp, 1, false⟩ := by
  simp only [storeCommitment, CanStore, bind_ok, requireNotPaused_ok, requireAdmin_ok,
    registerCommitmentUniqueness_ok, pure_ok, exists_const, and_assoc, exists_and_left,
    exists_eq_left]

/-- What `update_commitment` and `rotate_commitment` ask of the stored state
before they replace the employee's commitment `old`. -/
def CanReplace (e : Env) (employee : Address) (commitment : BytesN 32) (old : SalaryCommitment)
    (index : Nat) (s : Storage) : Prop :=
  CanStore e commitment s ∧ s.get (.commitmentLock employee) = none ∧
    s.get (.commitment employee) = some old ∧ FirstFree s employee index ∧ index ≤ u32Max

theorem updateCommitment_ok : updateCommitment e employee commitment s = .ok s' ↔
    ∃ old index, CanReplace e employee commitment old index s ∧ old.version + 1 ≤ u32Max ∧
      s' = ((s.set (.commitmentIndex commitment) true).set (.commitmentHistory employee index)
        ⟨old.commitment, old.version, e.timestamp⟩).set (.commitment employee)
          ⟨commitment, old.createdAt, e.timestamp, old.version + 1, false⟩ := by
  simp only [updateCommitment, CanReplace, isCommitmentLocked, bind_ok, requireNotPaused_ok,
    requireAdmin_ok, ensure_ok, Store.has_eq_false, expect_ok, registerCommitmentUniqueness_ok,
    archiveCommitment_ok, addUpTo_ok, pure_ok, exists_const, FirstFree]
  constructor
  · rintro ⟨hunpaused, hadmin, hlock, old, hold, _, ⟨hfresh, rfl⟩, _,
      ⟨index, ⟨hfree, hbelow⟩, hle, rfl⟩, _, ⟨hroom, rfl⟩, rfl⟩
    refine ⟨old, index, ⟨⟨hunpaused, hadmin, hfresh⟩, hlock, hold, ?_, hle⟩, hroom, rfl⟩
    exact ⟨by simpa using hfree, fun j hj => by simpa using hbelow j hj⟩
  · rintro ⟨old, index, ⟨⟨hunpaused, hadmin, hfresh⟩, hlock, hold, ⟨hfree, hbelow⟩, hle⟩, hroom,
      rfl⟩
    refine ⟨hunpaused, hadmin, hlock, old, hold, _, ⟨hfresh, rfl⟩, _, ⟨index, ⟨?_, fun j hj => ?_⟩,
      hle, rfl⟩, _, ⟨hroom, rfl⟩, rfl⟩
    · simpa using hfree
    · simpa using hbelow j hj

theorem rotateCommitment_ok : rotateCommitment e employee commitment s = .ok s' ↔
    ∃ old index, CanReplace e employee commitment old index s ∧
      s' = ((((s.set (.commitment employee) { old with revoked := true }).set
        (.commitmentHistory employee index) ⟨old.commitment, old.version, e.timestamp⟩).set
          (.commitmentIndex commitment) true).set (.commitment employee)
            ⟨commitment, e.timestamp, e.timestamp, 1, false⟩) := by
  simp only [rotateCommitment, CanReplace, isCommitmentLocked, bind_ok, requireNotPaused_ok,
    requireAdmin_ok, ensure_ok, Store.has_eq_false, expect_ok, archiveCommitment_ok,
    storeCommitment_ok, exists_const, FirstFree]
  constructor
  · rintro ⟨hunpaused, hadmin, hlock, old, hold, _, ⟨index, ⟨hfree, hbelow⟩, hle, rfl⟩,
      ⟨-, -, hfresh⟩, rfl⟩
    refine ⟨old, index, ⟨⟨hunpaused, hadmin, by simpa using hfresh⟩, hlock, hold, ?_, hle⟩, rfl⟩
    exact ⟨by simpa using hfree, fun j hj => by simpa using hbelow j hj⟩
  · rintro ⟨old, index, ⟨⟨hunpaused, hadmin, hfresh⟩, hlock, hold, ⟨hfree, hbelow⟩, hle⟩, rfl⟩
    refine ⟨hunpaused, hadmin, hlock, old, hold, _, ⟨index, ⟨by simpa using hfree, fun j hj => ?_⟩,
      hle, rfl⟩, ⟨?_, ?_, by simpa using hfresh⟩, rfl⟩
    · simpa using hbelow j hj
    · simpa [Paused] using hunpaused
    · simpa using hadmin

-- ---------------------------------------------------------------------------
-- What a call writes
-- ---------------------------------------------------------------------------

def Call.Writes : Call → DataKey → Prop
  | .initCommitmentAdmin _, k => k = .admin
  | .setPayrollOperator _, k | .removePayrollOperator, k => k = .payrollOperator
  | .proposeAdminRotation .., k | .cancelAdminRotation _, k => k = .pendingAdminRotation
  | .acceptAdminRotation _, k => k = .admin ∨ k = .pendingAdminRotation
  | .setPauseManager _, k => k = .pauseManager
  | .lockCommitmentUpdates employee, k | .unlockCommitmentUpdates employee, k =>
    k = .commitmentLock employee
  | .recordNullifier nullifier, k => k = .nullifier nullifier
  | .storeCommitment employee commitment, k =>
    k = .commitmentIndex commitment ∨ k = .commitment employee
  | .updateCommitment employee commitment, k | .rotateCommitment employee commitment, k =>
    k = .commitmentIndex commitment ∨ k = .commitment employee ∨
      ∃ index, k = .commitmentHistory employee index
  | .setEmployeeReferenceId employee _, k =>
    k = .employeeReferenceId employee ∨ ∃ other, k = .referenceIdIndex other

theorem dropOldReferenceId_frame (s : Storage) (employee : Address) (referenceId : String) :
    Store.Frame (Call.Writes (.setEmployeeReferenceId employee referenceId)) s
      (dropOldReferenceId employee referenceId s) := by
  unfold dropOldReferenceId
  split
  · split
    · exact (Store.Frame.refl _ s).remove (.inr ⟨_, rfl⟩)
    · exact .refl _ s
  · exact .refl _ s

theorem exec_frame (h : exec e s call = .ok s') : Store.Frame call.Writes s s' := by
  have hstart := Store.Frame.refl call.Writes s
  cases call with
  | initCommitmentAdmin admin =>
    simp only [exec, initCommitmentAdmin, bind_ok, pure_ok] at h
    obtain ⟨_, -, rfl⟩ := h
    exact hstart.set rfl _
  | setPayrollOperator operator =>
    simp only [exec, setPayrollOperator, bind_ok, pure_ok] at h
    obtain ⟨_, -, _, -, rfl⟩ := h
    exact hstart.set rfl _
  | removePayrollOperator =>
    simp only [exec, removePayrollOperator, bind_ok, pure_ok] at h
    obtain ⟨_, -, _, -, _, -, rfl⟩ := h
    exact hstart.remove rfl
  | proposeAdminRotation =>
    simp only [exec, proposeAdminRotation, bind_ok, pure_ok] at h
    obtain ⟨_, -, _, -, _, -, _, -, _, -, rfl⟩ := h
    exact hstart.set rfl _
  | acceptAdminRotation newAdmin =>
    simp only [exec, acceptAdminRotation, bind_ok, pure_ok] at h
    obtain ⟨_, -, _, -, _, -, _, -, rfl⟩ := h
    exact (hstart.set (.inl rfl) _).remove (.inr rfl)
  | cancelAdminRotation =>
    simp only [exec, cancelAdminRotation, bind_ok, pure_ok] at h
    obtain ⟨_, -, _, -, _, -, _, -, _, -, rfl⟩ := h
    exact hstart.remove rfl
  | setPauseManager =>
    simp only [exec, setPauseManager, bind_ok, pure_ok] at h
    obtain ⟨_, -, rfl⟩ := h
    exact hstart.set rfl _
  | lockCommitmentUpdates =>
    obtain ⟨-, -, -, rfl⟩ := lockCommitmentUpdates_ok.mp h
    exact hstart.set rfl _
  | unlockCommitmentUpdates =>
    simp only [exec, unlockCommitmentUpdates, bind_ok, pure_ok] at h
    obtain ⟨_, -, _, -, _, -, rfl⟩ := h
    exact hstart.remove rfl
  | recordNullifier =>
    obtain ⟨-, -, -, rfl⟩ := recordNullifier_ok.mp h
    exact hstart.set rfl _
  | storeCommitment =>
    obtain ⟨-, rfl⟩ := storeCommitment_ok.mp h
    exact (hstart.set (.inl rfl) _).set (.inr rfl) _
  | updateCommitment =>
    obtain ⟨_, _, -, -, rfl⟩ := updateCommitment_ok.mp h
    refine .set (.set (.set hstart ?_ _) ?_ _) ?_ _
    · exact .inl rfl
    · exact .inr (.inr ⟨_, rfl⟩)
    · exact .inr (.inl rfl)
  | rotateCommitment =>
    obtain ⟨_, _, -, rfl⟩ := rotateCommitment_ok.mp h
    refine .set (.set (.set (.set hstart ?_ _) ?_ _) ?_ _) ?_ _
    · exact .inr (.inl rfl)
    · exact .inr (.inr ⟨_, rfl⟩)
    · exact .inl rfl
    · exact .inr (.inl rfl)
  | setEmployeeReferenceId employee referenceId =>
    simp only [exec, setEmployeeReferenceId, bind_ok, pure_ok] at h
    obtain ⟨_, -, _, -, _, -, _, -, rfl⟩ := h
    have hdropped := dropOldReferenceId_frame s employee referenceId
    exact (hdropped.set (.inl rfl) _).set (.inr ⟨_, rfl⟩) _

-- ---------------------------------------------------------------------------
-- What a call can do to nullifiers and roles
-- ---------------------------------------------------------------------------

abbrev Minor (k : DataKey) : Prop :=
  (∀ nullifier, k ≠ .nullifier nullifier) ∧ k ≠ .admin ∧ k ≠ .payrollOperator

def Alike (s s' : Storage) : Prop := Store.Frame Minor s s'

theorem exec_cases (h : exec e s call = .ok s') :
    Alike s s' ∨
    (∃ nullifier, s.get (.nullifier nullifier) = none ∧
      s' = s.set (.nullifier nullifier) ⟨nullifier, e.timestamp⟩) ∨
    (∃ admin, Alike (s.set .admin admin) s') ∨
    (∃ admin operator, s.get .admin = some admin ∧ s' = s.set .payrollOperator operator) ∨
    s' = s.remove .payrollOperator := by
  cases call with
  | initCommitmentAdmin admin =>
    simp only [exec, initCommitmentAdmin, bind_ok, pure_ok] at h
    obtain ⟨_, -, rfl⟩ := h
    exact .inr (.inr (.inl ⟨admin, Store.Frame.refl _ _⟩))
  | setPayrollOperator operator =>
    simp only [exec, setPayrollOperator, bind_ok, requireAdmin_ok, pure_ok] at h
    obtain ⟨_, -, _, ⟨admin, hadmin, -⟩, rfl⟩ := h
    exact .inr (.inr (.inr (.inl ⟨admin, operator, hadmin, rfl⟩)))
  | removePayrollOperator =>
    simp only [exec, removePayrollOperator, bind_ok, pure_ok] at h
    obtain ⟨_, -, _, -, _, -, rfl⟩ := h
    exact .inr (.inr (.inr (.inr rfl)))
  | acceptAdminRotation newAdmin =>
    simp only [exec, acceptAdminRotation, bind_ok, pure_ok] at h
    obtain ⟨_, -, _, -, _, -, _, -, rfl⟩ := h
    exact .inr (.inr (.inl ⟨newAdmin, by simp [Alike, Minor, Store.Frame.refl]⟩))
  | recordNullifier nullifier =>
    obtain ⟨-, -, hfree, rfl⟩ := recordNullifier_ok.mp h
    exact .inr (.inl ⟨nullifier, hfree, rfl⟩)
  | _ =>
    refine .inl ((exec_frame h).mono fun k hk => ?_)
    cases k <;> simp_all [Call.Writes, Minor]

theorem exec_spent (h : exec e s call = .ok s') (hspent : s.get (.nullifier n) = some v) :
    s'.get (.nullifier n) = some v := by
  rcases exec_cases h with halike | ⟨nullifier, hfree, rfl⟩ | ⟨admin, halike⟩ | ⟨_, _, -, rfl⟩ | rfl
  · rw [halike _ (by simp [Minor]), hspent]
  · have hne : n ≠ nullifier := by
      rintro rfl
      simp [hspent] at hfree
    simpa [hne] using hspent
  · rw [halike _ (by simp [Minor])]
    simpa using hspent
  · simpa using hspent
  · simpa using hspent

def Administered (s : Storage) : Prop :=
  ∀ operator, s.get .payrollOperator = some operator → ∃ admin, s.get .admin = some admin

theorem exec_administered (h : exec e s call = .ok s') (hs : Administered s) : Administered s' := by
  intro operator hop
  rcases exec_cases h with halike | ⟨_, -, rfl⟩ | ⟨admin, halike⟩ | ⟨admin, _, hadmin, rfl⟩ | rfl
  · rw [halike _ (by simp [Minor])] at hop
    obtain ⟨admin, hadmin⟩ := hs operator hop
    exact ⟨admin, by rw [halike _ (by simp [Minor]), hadmin]⟩
  · simpa using hs operator (by simpa using hop)
  · exact ⟨admin, by rw [halike _ (by simp [Minor]), Store.get_set_self]⟩
  · exact ⟨admin, by simpa using hadmin⟩
  · simp at hop

end

end ZkPayroll.SalaryCommitmentContract
