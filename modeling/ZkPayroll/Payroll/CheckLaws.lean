import ZkPayroll.Payroll.Checks
import Mathlib.Algebra.BigOperators.Group.List.Basic

/-!
# What the shared checks say

One reader for each helper: when it succeeds, as a statement about the
storage and the arguments, and what it writes. The entry points' own laws are
built from these, so no later proof unfolds a check.
-/

namespace ZkPayroll.Payroll

open Host

section
variable {e : Env} {s s' : Storage}

-- ---------------------------------------------------------------------------
-- Configuration checks
-- ---------------------------------------------------------------------------

def Paused (e : Env) (s : Storage) : Prop :=
  ∃ pm, s.get .pauseManager = some pm ∧ e.isPaused pm = true

theorem requireNotPaused_ok : requireNotPaused e s = .ok u ↔ ¬ Paused e s := by
  unfold requireNotPaused Paused
  cases s.get .pauseManager <;> simp [ensure_ok, pure_ok]

theorem getAddresses_ok : getAddresses s = .ok addrs ↔ s.get .addresses = some addrs := expect_ok

theorem requireAdmin_ok : requireAdmin e s admin msg = .ok addrs ↔
    s.get .addresses = some addrs ∧ admin = addrs.admin ∧ admin ∈ e.auths := by
  simp only [requireAdmin, bind_ok, getAddresses_ok, ensure_ok, requireAuth_ok, pure_ok, exists_const]
  constructor
  · rintro ⟨addrs, h, hadmin, hauth, rfl⟩
    exact ⟨h, hadmin, hauth⟩
  · rintro ⟨h, hadmin, hauth⟩
    exact ⟨addrs, h, hadmin, hauth, rfl⟩

def AdminCalls (e : Env) (s : Storage) (admin : Address) : Prop :=
  ∃ addrs, s.get .addresses = some addrs ∧ admin = addrs.admin ∧ admin ∈ e.auths

theorem exists_requireAdmin : (∃ addrs, requireAdmin e s admin msg = .ok addrs) ↔
    AdminCalls e s admin := by
  simp only [requireAdmin_ok, AdminCalls]

def CompanyActive (s : Storage) : Prop :=
  s.get .companyState = none ∨ s.get .companyState = some .active

theorem requireCompanyActive_ok : requireCompanyActive s = .ok u ↔ CompanyActive s := by
  unfold requireCompanyActive CompanyActive
  split <;> simp_all [pure_ok]

theorem requireNoActivePayrollRun_ok :
    requireNoActivePayrollRun s = .ok u ↔ pendingPayrollRunCount s = 0 := by
  simp only [requireNoActivePayrollRun, ensure_ok]
  omega

/-- An absent version counts as supported. -/
def VersionSupported (s : Storage) : Prop :=
  ∀ state, s.get .storageVersion = some state →
    minSupportedStorageVersion ≤ state.version ∧ state.version ≤ maxSupportedStorageVersion ∧
      state.migrationComplete = true

theorem validateStorageVersionForOperation_ok :
    validateStorageVersionForOperation s op = .ok u ↔ VersionSupported s := by
  unfold validateStorageVersionForOperation VersionSupported
  split
  · rename_i state h
    simp only [bind_ok, ensure_ok, exists_const, not_or, not_lt, h, Option.some.injEq,
      forall_eq', and_assoc]
  · rename_i h
    simp [h, pure_ok]

-- ---------------------------------------------------------------------------
-- Argument checks
-- ---------------------------------------------------------------------------

theorem validateRunId_ok : validateRunId runId = .ok u ↔ runId ≠ u64Max := ensure_ok

theorem validateDraftId_ok : validateDraftId draftId = .ok u ↔ draftId ≠ 0 := ensure_ok

theorem validateNonZeroDigest_ok : validateNonZeroDigest digest = .ok u ↔ digest ≠ BytesN.zero :=
  ensure_ok

theorem validateSymbolNotEmpty_ok : validateSymbolNotEmpty symbol = .ok u ↔ symbol ≠ "" := ensure_ok

theorem validateNoDuplicateEmployees_ok :
    validateNoDuplicateEmployees employees = .ok u ↔ employees.Nodup := by
  induction employees with
  | nil => simp [validateNoDuplicateEmployees, pure_ok]
  | cons current rest ih =>
    simp only [validateNoDuplicateEmployees, bind_ok, ensure_ok, exists_const, ih, List.nodup_cons]

/-- The loop succeeds when the amounts are positive and the sum fits: partial
sums of positive amounts stay below the whole one. -/
theorem sumAmounts_ok (hnonneg : 0 ≤ total) (hmax : total ≤ i128Max) :
    sumAmounts total amounts = .ok sum ↔
      (∀ amount ∈ amounts, 0 < amount) ∧ total + amounts.sum ≤ i128Max ∧
        sum = total + amounts.sum := by
  have hmin : i128Min ≤ 0 := by decide
  induction amounts generalizing total with
  | nil => simp [sumAmounts, pure_ok, hmax]
  | cons amount rest ih =>
    simp only [sumAmounts, bind_ok, ensure_ok, addI128_ok, exists_const, List.forall_mem_cons,
      List.sum_cons, and_assoc, exists_and_left, exists_eq_left]
    have hsum : (∀ x ∈ rest, 0 < x) → 0 ≤ rest.sum :=
      fun h => List.sum_nonneg fun x hx => (h x hx).le
    constructor
    · rintro ⟨hpos, hfit, h⟩
      obtain ⟨hrest, hle, rfl⟩ := (ih (by omega) hfit.2).mp h
      exact ⟨hpos, hrest, by omega, by omega⟩
    · rintro ⟨hpos, hrest, hle, rfl⟩
      have := hsum hrest
      exact ⟨hpos, ⟨by omega, by omega⟩,
        (ih (by omega) (by omega)).mpr ⟨hrest, by omega, by omega⟩⟩

theorem validateExpectedSpend_ok :
    validateExpectedSpend total expected = .ok u ↔ total = expected := ensure_ok

-- ---------------------------------------------------------------------------
-- Nonces
-- ---------------------------------------------------------------------------

def NonceAccepted (s : Storage) (employer : Address) (nonce : BytesN 32) : Prop :=
  ∀ sequenceState, s.get (.employerNonceSequence employer) = some sequenceState →
    nonce ≠ sequenceState.lastNonce ∧ nonceToU256 sequenceState.lastNonce < nonceToU256 nonce

theorem validateNonceMonotonicity_ok :
    validateNonceMonotonicity s employer nonce = .ok u ↔ NonceAccepted s employer nonce := by
  unfold validateNonceMonotonicity NonceAccepted
  split
  · rename_i state h
    simp only [bind_ok, ensure_ok, exists_const, not_le, h, Option.some.injEq, forall_eq']
  · rename_i h
    simp [h, pure_ok]

def nonceSequenceLength (s : Storage) (employer : Address) : Nat :=
  (s.get (.employerNonceSequence employer)).elim 0 (·.currentSequence)

theorem updateNonceSequence_ok : updateNonceSequence e employer nonce s = .ok s' ↔
    nonceSequenceLength s employer + 1 ≤ u64Max ∧
      s' = s.set (.employerNonceSequence employer)
        ⟨nonceSequenceLength s employer + 1, e.timestamp, nonce⟩ := by
  unfold updateNonceSequence nonceSequenceLength
  cases h : s.get (.employerNonceSequence employer) with
  | none =>
    have : 1 ≤ u64Max := by decide
    simp [pure_ok, this]
  | some existing =>
    simp only [bind_ok, addUpTo_ok, pure_ok, Option.elim_some, and_assoc, exists_and_left,
      exists_eq_left]

def runCount (s : Storage) : Nat := (s.get .runCounter).getD 0

theorem deriveRunId_ok : deriveRunId s = .ok claimed ↔
    runCount s + 1 ≤ u64Max ∧ claimed = (runCount s + 1, s.set .runCounter (runCount s + 1)) := by
  simp only [deriveRunId, bind_ok, addUpTo_ok, pure_ok, and_assoc, exists_and_left, exists_eq_left,
    runCount]

-- ---------------------------------------------------------------------------
-- Reserved funds
-- ---------------------------------------------------------------------------

theorem getLockedFunds_stored (h : s.get (.lockedPayrollFunds asset) ≠ none) :
    s.get (.lockedPayrollFunds asset) = some (getLockedFunds s asset) := by
  obtain ⟨locked, hlocked⟩ := Option.ne_none_iff_exists'.mp h
  simp [getLockedFunds, hlocked]

theorem addLockedFunds_ok : addLockedFunds asset amount s = .ok s' ↔
    InI128 (getLockedFunds s asset + amount) ∧
      s' = s.set (.lockedPayrollFunds asset) (getLockedFunds s asset + amount) := by
  simp only [addLockedFunds, bind_ok, expect_ok, checkedAdd_some, pure_ok, and_assoc,
    exists_and_left, exists_eq_left]

theorem subtractLockedFunds_ok : subtractLockedFunds asset amount s = .ok s' ↔
    InI128 (getLockedFunds s asset - amount) ∧
      s' = s.set (.lockedPayrollFunds asset) (getLockedFunds s asset - amount) := by
  simp only [subtractLockedFunds, bind_ok, expect_ok, checkedSub_some, pure_ok, and_assoc,
    exists_and_left, exists_eq_left]

end

end ZkPayroll.Payroll
