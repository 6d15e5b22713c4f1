import ZkPayroll.AuditModule.Contract
import ZkPayroll.Host.Walk

/-!
# What the audit module does

Readers for its guards and its functions, then `exec_effect`: everything a
successful call does to the keys and to the delegate lists.
-/

namespace ZkPayroll.AuditModule

open Host

-- ---------------------------------------------------------------------------
-- Guards
-- ---------------------------------------------------------------------------

/-- A pause manager is configured and says so. -/
def Paused (e : LedgerEnv) (s : Storage) : Prop :=
  ∃ pm, s.get .pauseManager = some pm ∧ e.isPaused pm = true

/-- The auditor has the key `record`, unexpired at the ledger sequence and
within the policy of its parent, which is unexpired too. -/
structure Accepted (sequence : Nat) (s : Storage) (auditor : Address) (record : ViewKeyRecord) :
    Prop where
  stored : s.get (.auditorKey auditor) = some record
  unexpired : sequence ≤ record.expirationLedger
  parent : ∀ parent, record.parentAuditor = some parent →
    ∃ parentRecord, s.get (.auditorKey parent) = some parentRecord ∧
      sequence ≤ parentRecord.expirationLedger ∧
      scopeIsWithin parentRecord.maxScope record.scope = true ∧
      record.expirationLedger ≤ parentRecord.maxExpirationLedger ∧
      record.expirationLedger ≤ parentRecord.expirationLedger

/-- What the functions for the grantor of a key ask. -/
structure GrantorCalls (e : LedgerEnv) (admin auditor : Address) (record : ViewKeyRecord)
    (s : Storage) : Prop where
  unpaused : ¬ Paused e s
  signed : admin ∈ e.auths
  stored : s.get (.auditorKey auditor) = some record
  grantor : record.grantedBy = admin

/-- The guards of `delegate_view_key`; `parent` is the key of the auditor. -/
structure CanDelegate (e : LedgerEnv) (auditor : Address) (scope : AuditScope)
    (expirationLedger : Nat) (parent : ViewKeyRecord) (s : Storage) : Prop where
  signed : auditor ∈ e.auths
  accepted : Accepted e.sequence s auditor parent
  allowed : parent.allowDelegation = true
  scope : scopeIsWithin parent.maxScope scope = true
  expiry : expirationLedger ≤ parent.maxExpirationLedger ∧
    expirationLedger ≤ parent.expirationLedger

/-- The guards of `extend_delegated_access`; `record` is the key of the
delegate. -/
structure CanExtend (e : LedgerEnv) (auditor delegate : Address) (newExpirationLedger : Nat)
    (record : ViewKeyRecord) (s : Storage) : Prop where
  stored : s.get (.auditorKey delegate) = some record
  parent : record.parentAuditor = some auditor
  unexpired : e.sequence ≤ record.expirationLedger
  later : record.expirationLedger < newExpirationLedger
  policy : ∃ parentRecord, s.get (.auditorKey auditor) = some parentRecord ∧
    parentRecord.allowDelegation = true ∧
    newExpirationLedger ≤ parentRecord.maxExpirationLedger ∧
    newExpirationLedger ≤ parentRecord.expirationLedger ∧
    scopeIsWithin parentRecord.maxScope record.scope = true

section
variable {e : LedgerEnv} {s s' : Storage}

theorem requireNotPaused_ok : requireNotPaused e s = .ok u ↔ ¬ Paused e s := by
  unfold requireNotPaused Paused
  cases s.get .pauseManager <;> simp [ensure_ok, pure_ok]

theorem authorizeAuditor_ok : authorizeAuditor e auditor s = .ok record ↔
    auditor ∈ e.auths ∧ Accepted e.sequence s auditor record := by
  simp only [authorizeAuditor, bind_ok, orPanic_ok, requireAuth_ok, okOr_ok, check_ok, exists_const,
    gt_iff_lt, Nat.not_lt]
  refine and_congr_right fun _ => ?_
  constructor
  · rintro ⟨found, hget, hexp, h⟩
    cases hparent : found.parentAuditor with
    | none =>
      rw [hparent] at h
      obtain rfl := pure_ok.mp h
      exact ⟨hget, hexp, by simp [hparent]⟩
    | some parent =>
      simp only [hparent, bind_ok, okOr_ok, check_ok, exists_const, pure_ok, not_or,
        Nat.not_lt] at h
      obtain ⟨parentRecord, hstored, hpexp, hscope, hlimits, rfl⟩ := h
      refine ⟨hget, hexp, fun p hp => ?_⟩
      obtain rfl := Option.some.inj (hparent.symm.trans hp)
      exact ⟨parentRecord, hstored, hpexp, hscope, hlimits⟩
  · rintro ⟨hget, hexp, hparents⟩
    refine ⟨record, hget, hexp, ?_⟩
    cases hparent : record.parentAuditor with
    | none => rfl
    | some parent =>
      simp only [bind_ok, okOr_ok, check_ok, exists_const, pure_ok, not_or, Nat.not_lt]
      obtain ⟨parentRecord, hstored, hpexp, hscope, hlimits⟩ := hparents parent hparent
      exact ⟨parentRecord, hstored, hpexp, hscope, hlimits, trivial⟩

theorem verifyAccess_iff : verifyAccess e s auditor = true ↔
    ∃ record, Accepted e.sequence s auditor record := by
  unfold verifyAccess
  constructor
  · intro h
    split at h
    · cases h
    · rename_i record hget
      refine ⟨record, hget, ?_, fun parent hparent => ?_⟩
      · by_contra hexp
        rw [if_pos (by omega)] at h
        cases h
      · split at h
        · cases h
        · simp only [hparent] at h
          split at h
          · cases h
          · rename_i parentRecord hstored
            simp only [Bool.if_false_left, Bool.and_true, Bool.and_eq_true, Bool.not_eq_true',
              decide_eq_false_iff_not, not_or, gt_iff_lt, Nat.not_lt, Bool.not_eq_false] at h
            exact ⟨parentRecord, hstored, h⟩
  · rintro ⟨record, hget, hexp, hparents⟩
    rw [hget]
    simp only [gt_iff_lt, Nat.not_lt.mpr hexp, if_false]
    cases hparent : record.parentAuditor with
    | none => rfl
    | some parent =>
      obtain ⟨parentRecord, hstored, hpexp, hscope, hmax, hlimit⟩ := hparents parent hparent
      simp [hstored, hscope, Nat.not_lt.mpr hpexp, Nat.not_lt.mpr hmax, Nat.not_lt.mpr hlimit]

theorem generateViewKey_ok : generateViewKey e auditor expirationLedger s = .ok (key, s') ↔
    ¬ Paused e s ∧ key = deriveKeyBytes e auditor expirationLedger ∧
      s' = s.set (.auditorKey auditor) (rootRecord e auditor expirationLedger) := by
  simp only [generateViewKey, bind_ok, requireNotPaused_ok, pure_ok, exists_const, Prod.mk.injEq]
  rfl

theorem revokeViewKey_ok : revokeViewKey e budget admin auditor s = .ok s' ↔
    ∃ record t, GrantorCalls e admin auditor record s ∧
      revokeDescendants budget auditor s = .ok t ∧ s' = t.remove (.auditorKey auditor) := by
  simp only [revokeViewKey, bind_ok, orPanic_ok, requireNotPaused_ok, requireAuth_ok, okOr_ok,
    check_ok, exists_const, pure_ok]
  constructor
  · rintro ⟨hunpaused, hsigned, record, hget, hgrantor, t, ht, rfl⟩
    exact ⟨record, t, ⟨hunpaused, hsigned, hget, hgrantor⟩, ht, rfl⟩
  · rintro ⟨record, t, ⟨hunpaused, hsigned, hget, hgrantor⟩, ht, rfl⟩
    exact ⟨hunpaused, hsigned, record, hget, hgrantor, t, ht, rfl⟩

theorem refreshViewKey_ok : refreshViewKey e admin auditor newExpirationLedger s = .ok (key, s') ↔
    ∃ record, GrantorCalls e admin auditor record s ∧
      record.expirationLedger < newExpirationLedger ∧
      key = deriveKeyBytes e auditor newExpirationLedger ∧
      s' = s.set (.auditorKey auditor) { record with
        keyBytes := deriveKeyBytes e auditor newExpirationLedger
        expirationLedger := newExpirationLedger
        grantedBy := admin } := by
  simp only [refreshViewKey, bind_ok, orPanic_ok, requireNotPaused_ok, requireAuth_ok, okOr_ok,
    check_ok, exists_const, pure_ok, Nat.not_le, Prod.mk.injEq]
  constructor
  · rintro ⟨hunpaused, hsigned, record, hget, hgrantor, hlater, hkey, rfl⟩
    exact ⟨record, ⟨hunpaused, hsigned, hget, hgrantor⟩, hlater, hkey, rfl⟩
  · rintro ⟨record, ⟨hunpaused, hsigned, hget, hgrantor⟩, hlater, hkey, rfl⟩
    exact ⟨hunpaused, hsigned, record, hget, hgrantor, hlater, hkey, rfl⟩

theorem setDelegationPolicy_ok :
    setDelegationPolicy e admin auditor allowDelegation maxScope maxExpirationLedger s = .ok s' ↔
    ∃ record, GrantorCalls e admin auditor record s ∧
      s' = s.set (.auditorKey auditor) { record with
        allowDelegation := allowDelegation
        maxScope := maxScope
        maxExpirationLedger := maxExpirationLedger } := by
  simp only [setDelegationPolicy, bind_ok, orPanic_ok, requireNotPaused_ok, requireAuth_ok, okOr_ok,
    check_ok, exists_const, pure_ok]
  constructor
  · rintro ⟨hunpaused, hsigned, record, hget, hgrantor, rfl⟩
    exact ⟨record, ⟨hunpaused, hsigned, hget, hgrantor⟩, rfl⟩
  · rintro ⟨record, ⟨hunpaused, hsigned, hget, hgrantor⟩, rfl⟩
    exact ⟨hunpaused, hsigned, record, hget, hgrantor, rfl⟩

/-- The delegates a parent ever granted a key to. -/
def delegates (s : Storage) (auditor : Address) : List Address :=
  (s.get (.delegatedAuditors auditor)).getD []

def delegated (e : LedgerEnv) (auditor delegate : Address) (parent : ViewKeyRecord)
    (scope : AuditScope) (expirationLedger : Nat) (s : Storage) : Storage :=
  (s.set (.auditorKey delegate) (delegatedRecord e auditor delegate parent scope
    expirationLedger)).set (.delegatedAuditors auditor) (delegates s auditor ++ [delegate])

theorem delegateViewKey_ok :
    delegateViewKey e auditor delegate scope expirationLedger s = .ok (key, s') ↔
    ∃ parent, CanDelegate e auditor scope expirationLedger parent s ∧
      key = deriveKeyBytes e delegate expirationLedger ∧
      s' = delegated e auditor delegate parent scope expirationLedger s := by
  have hlists (r : ViewKeyRecord) : ((s.set (.auditorKey delegate) r).get
      (.delegatedAuditors auditor)).getD [] = delegates s auditor := by
    simp [delegates]
  simp only [delegateViewKey, bind_ok, authorizeAuditor_ok, check_ok, exists_const, pure_ok, not_or,
    gt_iff_lt, Nat.not_lt, Prod.mk.injEq, hlists]
  constructor
  · rintro ⟨parent, ⟨hsigned, haccepted⟩, hallowed, hscope, hexpiry, hkey, rfl⟩
    exact ⟨parent, ⟨hsigned, haccepted, hallowed, hscope, hexpiry⟩, hkey, rfl⟩
  · rintro ⟨parent, ⟨hsigned, haccepted, hallowed, hscope, hexpiry⟩, hkey, rfl⟩
    exact ⟨parent, ⟨hsigned, haccepted⟩, hallowed, hscope, hexpiry, hkey, rfl⟩

theorem key_set (record : ViewKeyRecord) (x : Address) :
    (s.set (.auditorKey auditor) record).get (.auditorKey x) =
      if x = auditor then some record else s.get (.auditorKey x) := by
  by_cases hx : x = auditor
  · subst hx
    simp
  · simp [hx]

theorem key_delegated (x : Address) :
    (delegated e auditor delegate parent scope expirationLedger s).get (.auditorKey x) =
      if x = delegate then some (delegatedRecord e auditor delegate parent scope expirationLedger)
      else s.get (.auditorKey x) := by
  simp [delegated, key_set]

theorem extendDelegatedAccess_ok :
    extendDelegatedAccess e auditor delegate newExpirationLedger s = .ok (key, s') ↔
    ∃ record, CanExtend e auditor delegate newExpirationLedger record s ∧
      key = deriveKeyBytes e delegate newExpirationLedger ∧
      s' = s.set (.auditorKey delegate) { record with
        keyBytes := deriveKeyBytes e delegate newExpirationLedger
        expirationLedger := newExpirationLedger } := by
  simp only [extendDelegatedAccess, bind_ok, okOr_ok, check_ok, exists_const, pure_ok, not_or,
    gt_iff_lt, Nat.not_lt, Nat.not_le, Prod.mk.injEq]
  constructor
  · rintro ⟨record, hget, hparent, hexp, parentRecord, hstored, hallowed, hlater, ⟨hmax, hpexp⟩,
      hscope, hkey, rfl⟩
    exact ⟨record, ⟨hget, hparent, hexp, hlater, parentRecord, hstored, hallowed, hmax, hpexp,
      hscope⟩, hkey, rfl⟩
  · rintro ⟨record, ⟨hget, hparent, hexp, hlater, parentRecord, hstored, hallowed, hmax, hpexp,
      hscope⟩, hkey, rfl⟩
    exact ⟨record, hget, hparent, hexp, parentRecord, hstored, hallowed, hlater, ⟨hmax, hpexp⟩,
      hscope, hkey, rfl⟩

-- ---------------------------------------------------------------------------
-- Verifications and the log
-- ---------------------------------------------------------------------------

def LogHasRoom (s : Storage) : Prop := getAuditLogCount s "default" + 1 ≤ u32Max

/-- The storage with another entry in the log. -/
def logged (e : LedgerEnv) (auditor : Address) (scope : AuditScope) (matched : Bool) (s : Storage) :
    Storage :=
  let counter := getAuditLogCount s "default"
  (s.set (.auditLog "default" counter) ⟨auditor, "default", scope, e.timestamp, matched⟩).set
    (.auditLogCounter "default") (counter + 1)

theorem recordAuditLog_ok : recordAuditLog e auditor scope matched s = .ok s' ↔
    LogHasRoom s ∧ s' = logged e auditor scope matched s := by
  simp only [recordAuditLog, bind_ok, addUpTo_ok, pure_ok]
  constructor
  · rintro ⟨_, ⟨hroom, rfl⟩, rfl⟩
    exact ⟨hroom, rfl⟩
  · rintro ⟨hroom, rfl⟩
    exact ⟨_, ⟨hroom, rfl⟩, rfl⟩

theorem verifyScopeForCommitment_ok :
    verifyScopeForCommitment scope = .ok u ↔ scope ≠ .aggregateOnly := check_ok

theorem verifyCommitmentWithKey_ok :
    verifyCommitmentWithKey e auditor storedCommitment claimedAmount blindingFactor scope s =
      .ok (matched, s') ↔
    ∃ record, (auditor ∈ e.auths ∧ Accepted e.sequence s auditor record) ∧
      scope ≠ .aggregateOnly ∧ LogHasRoom s ∧
      verifyCommitmentInner e record.keyBytes storedCommitment claimedAmount blindingFactor = true ∧
      matched = true ∧ s' = logged e auditor scope true s := by
  simp only [verifyCommitmentWithKey, bind_ok, authorizeAuditor_ok, verifyScopeForCommitment_ok,
    orPanic_ok, recordAuditLog_ok, check_ok, exists_const, pure_ok, Prod.mk.injEq]
  constructor
  · rintro ⟨record, hcan, hscope, _, ⟨hroom, rfl⟩, hmatched, hret, rfl⟩
    exact ⟨record, hcan, hscope, hroom, hmatched, hret.trans hmatched, by rw [hmatched]⟩
  · rintro ⟨record, hcan, hscope, hroom, hmatched, hret, rfl⟩
    exact ⟨record, hcan, hscope, _, ⟨hroom, rfl⟩, hmatched, hret.trans hmatched.symm,
      by rw [hmatched]⟩

theorem verifyCommitmentWithViewKey_ok :
    verifyCommitmentWithViewKey e auditor suppliedKey storedCommitment claimedAmount blindingFactor
      scope s = .ok (matched, s') ↔
    ∃ record, (auditor ∈ e.auths ∧ Accepted e.sequence s auditor record) ∧
      scope ≠ .aggregateOnly ∧ suppliedKey = record.keyBytes ∧ LogHasRoom s ∧
      verifyCommitmentInner e suppliedKey storedCommitment claimedAmount blindingFactor = true ∧
      matched = true ∧ s' = logged e auditor scope true s := by
  simp only [verifyCommitmentWithViewKey, bind_ok, authorizeAuditor_ok, verifyScopeForCommitment_ok,
    orPanic_ok, recordAuditLog_ok, check_ok, exists_const, pure_ok, Prod.mk.injEq]
  constructor
  · rintro ⟨record, hcan, hscope, hkey, _, ⟨hroom, rfl⟩, hmatched, hret, rfl⟩
    exact ⟨record, hcan, hscope, hkey, hroom, hmatched, hret.trans hmatched, by rw [hmatched]⟩
  · rintro ⟨record, hcan, hscope, hkey, hroom, hmatched, hret, rfl⟩
    exact ⟨record, hcan, hscope, hkey, _, ⟨hroom, rfl⟩, hmatched, hret.trans hmatched.symm,
      by rw [hmatched]⟩

theorem verifyPayrollMetadata_ok :
    verifyPayrollMetadata e auditor storedHash expectedHash scope s = .ok (matched, s') ↔
    (storedHash ≠ BytesN.zero ∧ expectedHash ≠ BytesN.zero) ∧
      (∃ record, auditor ∈ e.auths ∧ Accepted e.sequence s auditor record) ∧
      scope ≠ .aggregateOnly ∧ LogHasRoom s ∧ matched = decide (storedHash = expectedHash) ∧
      s' = logged e auditor scope matched s := by
  simp only [verifyPayrollMetadata, bind_ok, orPanic_ok, ensure_ok, authorizeAuditor_ok,
    verifyScopeForCommitment_ok, recordAuditLog_ok, exists_const, pure_ok, Prod.mk.injEq, not_or]
  constructor
  · rintro ⟨hzero, record, hcan, hscope, _, ⟨hroom, rfl⟩, rfl, rfl⟩
    exact ⟨hzero, ⟨record, hcan⟩, hscope, hroom, rfl, rfl⟩
  · rintro ⟨hzero, ⟨record, hcan⟩, hscope, hroom, rfl, rfl⟩
    exact ⟨hzero, record, hcan, hscope, _, ⟨hroom, rfl⟩, rfl, rfl⟩

-- ---------------------------------------------------------------------------
-- What a call does to the keys
-- ---------------------------------------------------------------------------

/-- The keys of the log and of the pause manager. -/
abbrev Apart (k : DataKey) : Prop :=
  (∀ auditor, k ≠ .auditorKey auditor) ∧ ∀ auditor, k ≠ .delegatedAuditors auditor

/-- The two storages agree on the view keys and the delegate lists. -/
def KeysKept (s s' : Storage) : Prop := Store.Frame Apart s s'

@[simp] theorem keysKept_refl (s : Storage) : KeysKept s s := Store.Frame.refl _ s

@[simp] theorem keysKept_set {v : k.Val} (hk : Apart k) : KeysKept s (s'.set k v) ↔ KeysKept s s' :=
  Store.frame_set hk

theorem KeysKept.key (h : KeysKept s s') (auditor : Address) :
    s'.get (.auditorKey auditor) = s.get (.auditorKey auditor) := h _ (by simp [Apart])

theorem KeysKept.delegates (h : KeysKept s s') (auditor : Address) :
    delegates s' auditor = delegates s auditor := by
  rw [AuditModule.delegates, h _ (by simp [Apart]), AuditModule.delegates]

theorem keysKept_logged (s : Storage) : KeysKept s (logged e auditor scope matched s) := by
  simp [logged, Apart]

/-- The call under the first of its names: `approve_delegation` and
`grant_delegated_access` are second names. -/
def Call.canonical : Call → Call
  | .approveDelegation admin auditor allowDelegation maxScope maxExpirationLedger =>
    .setDelegationPolicy admin auditor allowDelegation maxScope maxExpirationLedger
  | .grantDelegatedAccess auditor delegate scope expirationLedger =>
    .delegateViewKey auditor delegate scope expirationLedger
  | call => call

theorem exec_canonical (call : Call) : exec e budget s call.canonical = exec e budget s call := by
  cases call <;> rfl

/-- What a successful call does to the keys, by its first name. -/
inductive Effect (e : LedgerEnv) (budget : Nat) (s s' : Storage) : Call → Prop
  | none (hkept : KeysKept s s') : Effect e budget s s' call
  | generate (hunpaused : ¬ Paused e s)
      (hafter : s' = s.set (.auditorKey auditor) (rootRecord e auditor expirationLedger)) :
      Effect e budget s s' (.generateViewKey auditor expirationLedger)
  | revoke (hcalls : GrantorCalls e admin auditor record s)
      (hcascade : revokeDescendants budget auditor s = .ok t)
      (hafter : s' = t.remove (.auditorKey auditor)) :
      Effect e budget s s' (.revokeViewKey admin auditor)
  | refresh (hcalls : GrantorCalls e admin auditor record s)
      (hlater : record.expirationLedger < newExpirationLedger)
      (hafter : s' = s.set (.auditorKey auditor) { record with
        keyBytes := deriveKeyBytes e auditor newExpirationLedger
        expirationLedger := newExpirationLedger
        grantedBy := admin }) :
      Effect e budget s s' (.refreshViewKey admin auditor newExpirationLedger)
  | policy (hcalls : GrantorCalls e admin auditor record s)
      (hafter : s' = s.set (.auditorKey auditor) { record with
        allowDelegation := allowDelegation
        maxScope := maxScope
        maxExpirationLedger := maxExpirationLedger }) :
      Effect e budget s s'
        (.setDelegationPolicy admin auditor allowDelegation maxScope maxExpirationLedger)
  | delegate (hcan : CanDelegate e auditor scope expirationLedger parent s)
      (hafter : s' = delegated e auditor delegate parent scope expirationLedger s) :
      Effect e budget s s' (.delegateViewKey auditor delegate scope expirationLedger)
  | extend (hcan : CanExtend e auditor delegate newExpirationLedger record s)
      (hafter : s' = s.set (.auditorKey delegate) { record with
        keyBytes := deriveKeyBytes e delegate newExpirationLedger
        expirationLedger := newExpirationLedger }) :
      Effect e budget s s' (.extendDelegatedAccess auditor delegate newExpirationLedger)

theorem returning_ok {f : Outcome AuditError (α × Storage)} {ret : α → Ret} :
    returning ret f = .ok (r, s') ↔ ∃ a, f = .ok (a, s') ∧ r = ret a := by
  simp only [returning, bind_ok, pure_ok, Prod.exists, Prod.mk.injEq]
  constructor
  · rintro ⟨a, _, hf, rfl, rfl⟩
    exact ⟨a, hf, rfl⟩
  · rintro ⟨a, hf, rfl⟩
    exact ⟨a, s', hf, rfl, rfl⟩

theorem returningUnit_ok {f : Outcome AuditError Storage} :
    returningUnit f = .ok (r, s') ↔ f = .ok s' ∧ r = .unit := by
  simp only [returningUnit, bind_ok, pure_ok, Prod.mk.injEq]
  constructor
  · rintro ⟨_, hf, rfl, rfl⟩
    exact ⟨hf, rfl⟩
  · rintro ⟨hf, rfl⟩
    exact ⟨s', hf, rfl, rfl⟩

theorem policy_effect
    (h : setDelegationPolicy e admin auditor allowDelegation maxScope maxExpirationLedger s = .ok s') :
    Effect e budget s s'
      (.setDelegationPolicy admin auditor allowDelegation maxScope maxExpirationLedger) := by
  obtain ⟨record, hcalls, hafter⟩ := setDelegationPolicy_ok.mp h
  exact .policy hcalls hafter

theorem delegate_effect
    (h : delegateViewKey e auditor delegate scope expirationLedger s = .ok (key, s')) :
    Effect e budget s s' (.delegateViewKey auditor delegate scope expirationLedger) := by
  obtain ⟨parent, hcan, -, hafter⟩ := delegateViewKey_ok.mp h
  exact .delegate hcan hafter

/-- Everything a call can do to the keys. -/
theorem exec_effect (h : exec e budget s call = .ok (r, s')) :
    Effect e budget s s' call.canonical := by
  cases call with
  | setPauseManager =>
    simp only [exec, returningUnit_ok, orPanic_ok, setPauseManager, bind_ok, pure_ok] at h
    obtain ⟨⟨_, -, rfl⟩, -⟩ := h
    exact .none (by simp [Apart])
  | generateViewKey =>
    simp only [exec, returning_ok, orPanic_ok, generateViewKey_ok] at h
    obtain ⟨_, ⟨hunpaused, -, hafter⟩, -⟩ := h
    exact .generate hunpaused hafter
  | revokeViewKey =>
    obtain ⟨h, -⟩ := returningUnit_ok.mp h
    obtain ⟨record, t, hcalls, hcascade, hafter⟩ := revokeViewKey_ok.mp h
    exact .revoke hcalls hcascade hafter
  | refreshViewKey =>
    obtain ⟨_, h, -⟩ := returning_ok.mp h
    obtain ⟨record, hcalls, hlater, -, hafter⟩ := refreshViewKey_ok.mp h
    exact .refresh hcalls hlater hafter
  | setDelegationPolicy => exact policy_effect (returningUnit_ok.mp h).1
  | approveDelegation => exact policy_effect (returningUnit_ok.mp h).1
  | delegateViewKey =>
    obtain ⟨_, h, -⟩ := returning_ok.mp h
    exact delegate_effect h
  | grantDelegatedAccess =>
    obtain ⟨_, h, -⟩ := returning_ok.mp h
    exact delegate_effect h
  | extendDelegatedAccess =>
    obtain ⟨_, h, -⟩ := returning_ok.mp h
    obtain ⟨record, hcan, -, hafter⟩ := extendDelegatedAccess_ok.mp h
    exact .extend hcan hafter
  | verifyCommitmentWithKey =>
    simp only [exec, returning_ok, verifyCommitmentWithKey_ok] at h
    obtain ⟨_, ⟨record, -, -, -, -, -, rfl⟩, -⟩ := h
    exact .none (keysKept_logged s)
  | verifyCommitmentWithViewKey =>
    simp only [exec, returning_ok, verifyCommitmentWithViewKey_ok] at h
    obtain ⟨_, ⟨record, -, -, -, -, -, -, rfl⟩, -⟩ := h
    exact .none (keysKept_logged s)
  | verifyPayrollMetadata =>
    simp only [exec, returning_ok, verifyPayrollMetadata_ok] at h
    obtain ⟨_, ⟨-, -, -, -, -, rfl⟩, -⟩ := h
    exact .none (keysKept_logged s)
  | generateAggregateReport =>
    simp only [exec, returning_ok, generateAggregateReport, bind_ok, orPanic_ok, recordAuditLog_ok,
      pure_ok, Prod.mk.injEq] at h
    obtain ⟨_, ⟨_, -, _, ⟨-, rfl⟩, -, rfl⟩, -⟩ := h
    exact .none (keysKept_logged s)
  | exportAuditSummary =>
    simp only [exec, bind_ok, pure_ok, Prod.mk.injEq] at h
    obtain ⟨_, -, -, rfl⟩ := h
    exact .none (keysKept_refl _)

theorem exec_delegate
    (hname : Call.canonical call = .delegateViewKey auditor delegate scope expirationLedger)
    (hcan : CanDelegate e auditor scope expirationLedger parent s) :
    exec e budget s call = .ok (.key (deriveKeyBytes e delegate expirationLedger),
      delegated e auditor delegate parent scope expirationLedger s) := by
  rw [← exec_canonical, hname]
  exact returning_ok.mpr ⟨_, delegateViewKey_ok.mpr ⟨parent, hcan, rfl, rfl⟩, rfl⟩

theorem exec_generate (hunpaused : ¬ Paused e s) :
    exec e budget s (.generateViewKey auditor expirationLedger) =
      .ok (.key (deriveKeyBytes e auditor expirationLedger),
        s.set (.auditorKey auditor) (rootRecord e auditor expirationLedger)) :=
  returning_ok.mpr ⟨_, orPanic_ok.mpr (generateViewKey_ok.mpr ⟨hunpaused, rfl, rfl⟩), rfl⟩

theorem exec_extend (hcan : CanExtend e auditor delegate newExpirationLedger record s) :
    exec e budget s (.extendDelegatedAccess auditor delegate newExpirationLedger) =
      .ok (.key (deriveKeyBytes e delegate newExpirationLedger),
        s.set (.auditorKey delegate) { record with
          keyBytes := deriveKeyBytes e delegate newExpirationLedger
          expirationLedger := newExpirationLedger }) :=
  returning_ok.mpr ⟨_, extendDelegatedAccess_ok.mpr ⟨record, hcan, rfl, rfl⟩, rfl⟩

theorem exec_revoke (hcalls : GrantorCalls e admin auditor record s)
    (hcascade : revokeDescendants budget auditor s = .ok t) :
    exec e budget s (.revokeViewKey admin auditor) =
      .ok (.unit, t.remove (.auditorKey auditor)) :=
  returningUnit_ok.mpr ⟨revokeViewKey_ok.mpr ⟨record, t, hcalls, hcascade, rfl⟩, rfl⟩

theorem next_ok (h : exec i.env i.budget s i.call = .ok (r, s')) : next s i = s' := by
  rw [next, h]

theorem next_cases (s : Storage) (i : Input) :
    ((∃ err, exec i.env i.budget s i.call = .error err) ∧ next s i = s) ∨
      ∃ r, exec i.env i.budget s i.call = .ok (r, next s i) := by
  unfold next
  cases h : exec i.env i.budget s i.call with
  | error err => exact .inl ⟨⟨err, rfl⟩, rfl⟩
  | ok out => exact .inr ⟨out.1, rfl⟩

theorem next_effect (s : Storage) (i : Input) :
    Effect i.env i.budget s (next s i) i.call.canonical := by
  rcases next_cases s i with ⟨-, hsame⟩ | ⟨r, hok⟩
  · rw [hsame]
    exact .none (keysKept_refl s)
  · exact exec_effect hok

end

end ZkPayroll.AuditModule
