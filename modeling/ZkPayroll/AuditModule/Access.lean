import ZkPayroll.AuditModule.Cascade

/-!
# The access preview

`verify_access` tells a client whether a key is good; `authorize_auditor` makes
the same decision again inside every call that needs one, with a code for each
way to fail. The two agree, and a call that needs a key is turned down for it
exactly when the preview says so.
-/

namespace ZkPayroll.AuditModule

open Host

/-- The auditor on whose key a call relies. -/
def Call.keyHolder? : Call → Option Address
  | .delegateViewKey auditor _ _ _ => some auditor
  | .grantDelegatedAccess auditor _ _ _ => some auditor
  | .verifyCommitmentWithKey auditor _ _ _ _ => some auditor
  | .verifyCommitmentWithViewKey auditor _ _ _ _ _ => some auditor
  | .verifyPayrollMetadata auditor _ _ _ => some auditor
  | .generateAggregateReport auditor _ _ _ => some auditor
  | .exportAuditSummary auditor _ _ _ => some auditor
  | _ => none

/-- The failure of a call whose key is refused with `code`. Only
`verify_payroll_metadata` looks at anything first: it turns down an all-zero
digest before it asks for the key. -/
def Call.refusal (code : AuditError) : Call → Failure AuditError
  | .verifyPayrollMetadata _ storedHash expectedHash _ =>
    if storedHash = BytesN.zero ∨ expectedHash = BytesN.zero then
      .panic "Metadata hash cannot be all-zero digest"
    else .code code
  | _ => .code code

/-- The codes a call can return for other reasons than the key of its caller. -/
def Call.ownCodes : Call → List AuditError
  | .delegateViewKey _ _ _ _ | .grantDelegatedAccess _ _ _ _ =>
    [.delegationNotAllowed, .delegationExceedsParentScope, .delegationExceedsParentExpiry]
  | .verifyCommitmentWithKey _ _ _ _ _ => [.insufficientScope, .commitmentMismatch]
  | .verifyCommitmentWithViewKey _ _ _ _ _ _ =>
    [.insufficientScope, .invalidViewKey, .commitmentMismatch]
  | .verifyPayrollMetadata _ _ _ _ => [.insufficientScope]
  | _ => []

def RefusedForKey (e : LedgerEnv) (budget : Nat) (s : Storage) (auditor : Address) (call : Call) :
    Prop :=
  ∃ code, authorizeAuditor e auditor s = .error (.code code) ∧
    exec e budget s call = .error (call.refusal code)

section
variable {e : LedgerEnv} {s : Storage} {auditor : Address} {call : Call}

theorem verifyAccess_iff_authorized (hsigned : auditor ∈ e.auths) :
    verifyAccess e s auditor = true ↔ ∃ record, authorizeAuditor e auditor s = .ok record := by
  rw [verifyAccess_iff]
  refine exists_congr fun record => ?_
  rw [authorizeAuditor_ok]
  exact (and_iff_right hsigned).symm

theorem authorizeAuditor_code (hsigned : auditor ∈ e.auths)
    (h : authorizeAuditor e auditor s = .error err) : ∃ code, err = .code code := by
  have hauth : (orPanic (requireAuth e.toEnv auditor) : Outcome AuditError Unit) ≠ .error err := by
    rw [requireAuth, ensure, if_pos hsigned]
    simp [orPanic, pure, Except.pure, Except.mapError]
  simp only [authorizeAuditor, bind_error, hauth, false_or, okOr_error, check_error] at h
  obtain ⟨_, -, ⟨-, rfl⟩ | ⟨record, -, ⟨-, rfl⟩ | ⟨_, -, h⟩⟩⟩ := h
  · exact ⟨_, rfl⟩
  · exact ⟨_, rfl⟩
  · cases hparent : record.parentAuditor with
    | none => simp [hparent, pure, Except.pure] at h
    | some parent =>
      simp only [hparent, bind_error, okOr_error, check_error, pure, Except.pure, reduceCtorEq,
        and_false, exists_false, or_false] at h
      rcases h with ⟨-, rfl⟩ | ⟨_, -, ⟨-, rfl⟩ | ⟨_, -, ⟨-, rfl⟩ | ⟨_, -, -, rfl⟩⟩⟩
      · exact ⟨_, rfl⟩
      · exact ⟨_, rfl⟩
      · exact ⟨_, rfl⟩
      · exact ⟨_, rfl⟩

theorem exec_refused (hcall : call.keyHolder? = some auditor)
    (h : authorizeAuditor e auditor s = .error (.code code)) :
    exec e budget s call = .error (call.refusal code) := by
  cases call with
  | delegateViewKey caller _ _ _ | grantDelegatedAccess caller _ _ _ =>
    obtain rfl := Option.some.inj hcall
    simp [exec, returning, grantDelegatedAccess, delegateViewKey, h, bind, Except.bind,
      Call.refusal]
  | verifyCommitmentWithKey caller _ _ _ _ =>
    obtain rfl := Option.some.inj hcall
    simp [exec, returning, verifyCommitmentWithKey, h, bind, Except.bind, Call.refusal]
  | verifyCommitmentWithViewKey caller _ _ _ _ _ =>
    obtain rfl := Option.some.inj hcall
    simp [exec, returning, verifyCommitmentWithViewKey, h, bind, Except.bind, Call.refusal]
  | generateAggregateReport caller _ _ _ =>
    obtain rfl := Option.some.inj hcall
    simp [exec, returning, generateAggregateReport, h, bind, Except.bind, Call.refusal]
  | exportAuditSummary caller _ _ _ =>
    obtain rfl := Option.some.inj hcall
    simp [exec, exportAuditSummary, h, bind, Except.bind, Call.refusal]
  | verifyPayrollMetadata caller storedHash expectedHash _ =>
    obtain rfl := Option.some.inj hcall
    by_cases hzero : storedHash = BytesN.zero ∨ expectedHash = BytesN.zero
    · simp [exec, returning, verifyPayrollMetadata, ensure, hzero, bind, Except.bind, Call.refusal,
        orPanic, throw, throwThe, MonadExceptOf.throw, Except.mapError]
    · simp [exec, returning, verifyPayrollMetadata, ensure, hzero, h, bind, Except.bind,
        Call.refusal, orPanic, pure, Except.pure, Except.mapError]
  | _ => cases hcall

theorem returning_code {f : Outcome AuditError (α × Storage)} {ret : α → Ret} :
    returning ret f = .error (.code code) ↔ f = .error (.code code) := by
  simp only [returning, bind_code, pure_code, and_false, exists_false, or_false]

theorem exec_accepted (hcall : call.keyHolder? = some auditor)
    (h : authorizeAuditor e auditor s = .ok record)
    (hcode : exec e budget s call = .error (.code code)) : code ∈ call.ownCodes := by
  have hkey : ∀ code', authorizeAuditor e auditor s ≠ .error (.code code') := by
    rw [h]
    exact fun _ => nofun
  cases call with
  | delegateViewKey caller _ _ _ | grantDelegatedAccess caller _ _ _ =>
    obtain rfl := Option.some.inj hcall
    simp only [exec, returning_code, grantDelegatedAccess, delegateViewKey, bind_code, hkey,
      check_code, pure_code, false_or, and_false, exists_false, or_false] at hcode
    obtain ⟨_, -, ⟨-, rfl⟩ | ⟨_, -, ⟨-, rfl⟩ | ⟨_, -, -, rfl⟩⟩⟩ := hcode
    · simp [Call.ownCodes]
    · simp [Call.ownCodes]
    · simp [Call.ownCodes]
  | verifyCommitmentWithKey caller _ _ _ _ =>
    obtain rfl := Option.some.inj hcall
    simp only [exec, returning_code, verifyCommitmentWithKey, verifyScopeForCommitment, bind_code,
      hkey, check_code, orPanic_code, pure_code, false_or, and_false, exists_false,
      or_false] at hcode
    obtain ⟨_, -, ⟨-, rfl⟩ | ⟨_, -, _, -, -, rfl⟩⟩ := hcode
    · simp [Call.ownCodes]
    · simp [Call.ownCodes]
  | verifyCommitmentWithViewKey caller _ _ _ _ _ =>
    obtain rfl := Option.some.inj hcall
    simp only [exec, returning_code, verifyCommitmentWithViewKey, verifyScopeForCommitment,
      bind_code, hkey, check_code, orPanic_code, pure_code, false_or, and_false, exists_false,
      or_false] at hcode
    obtain ⟨_, -, ⟨-, rfl⟩ | ⟨_, -, ⟨-, rfl⟩ | ⟨_, -, _, -, -, rfl⟩⟩⟩ := hcode
    · simp [Call.ownCodes]
    · simp [Call.ownCodes]
    · simp [Call.ownCodes]
  | verifyPayrollMetadata caller _ _ _ =>
    obtain rfl := Option.some.inj hcall
    simp only [exec, returning_code, verifyPayrollMetadata, verifyScopeForCommitment, bind_code,
      hkey, check_code, orPanic_code, pure_code, false_or, and_false, exists_false,
      or_false] at hcode
    obtain ⟨_, -, _, -, -, rfl⟩ := hcode
    simp [Call.ownCodes]
  | generateAggregateReport caller _ _ _ =>
    obtain rfl := Option.some.inj hcall
    simp only [exec, returning_code, generateAggregateReport, bind_code, hkey, orPanic_code,
      pure_code, and_false, exists_false, or_false] at hcode
  | exportAuditSummary caller _ _ _ =>
    obtain rfl := Option.some.inj hcall
    simp only [exec, exportAuditSummary, bind_code, hkey, pure_code, and_false,
      exists_false, or_false] at hcode
  | _ => cases hcall

/-- In every state and for every auditor whose authorisation is given, the
preview says yes exactly when `authorize_auditor` does. A call that needs the
key is turned down for it exactly when the preview says no, and with a key the
preview accepts it never returns a code of `authorize_auditor`. -/
theorem access_preview_exact (e : LedgerEnv) (s : Storage) (auditor : Address)
    (hsigned : auditor ∈ e.auths) :
    (verifyAccess e s auditor = true ↔ ∃ record, authorizeAuditor e auditor s = .ok record) ∧
      ∀ budget call, call.keyHolder? = some auditor →
        (verifyAccess e s auditor = false ↔ RefusedForKey e budget s auditor call) ∧
        (verifyAccess e s auditor = true → ∀ code, exec e budget s call = .error (.code code) →
          code ∈ call.ownCodes) := by
  have hiff := verifyAccess_iff_authorized (s := s) hsigned
  refine ⟨hiff, fun budget call hcall => ⟨?_, ?_⟩⟩
  · constructor
    · intro hno
      cases hauth : authorizeAuditor e auditor s with
      | ok record =>
        rw [hiff.mpr ⟨record, hauth⟩] at hno
        cases hno
      | error err =>
        obtain ⟨code, rfl⟩ := authorizeAuditor_code hsigned hauth
        exact ⟨code, hauth, exec_refused hcall hauth⟩
    · rintro ⟨code, hauth, -⟩
      refine Bool.eq_false_iff.mpr fun hyes => ?_
      obtain ⟨record, hok⟩ := hiff.mp hyes
      rw [hauth] at hok
      cases hok
  · intro hyes code hcode
    obtain ⟨record, hok⟩ := hiff.mp hyes
    exact exec_accepted hcall hok hcode

end

theorem access_preview_exact_sample :
    let s := runFrom next Store.empty Sample.delegatedToBob
    verifyAccess (Sample.env [Sample.bob]) s Sample.bob = true ∧
      (∃ record, authorizeAuditor (Sample.env [Sample.bob]) Sample.bob s = .ok record) ∧
      verifyAccess (Sample.env [Sample.carol]) s Sample.carol = false ∧
      RefusedForKey (Sample.env [Sample.carol]) 10 s Sample.carol
        (.generateAggregateReport Sample.carol "acme" 0 100) := by
  intro s
  have hbob : verifyAccess (Sample.env [Sample.bob]) s Sample.bob = true := by decide +kernel
  have hcarol : verifyAccess (Sample.env [Sample.carol]) s Sample.carol = false := by
    decide +kernel
  have hpreview := access_preview_exact (Sample.env [Sample.carol]) s Sample.carol (by decide)
  exact ⟨hbob, (access_preview_exact _ s Sample.bob (by decide)).1.mp hbob, hcarol,
    (hpreview.2 10 _ rfl).1.mp hcarol⟩

end ZkPayroll.AuditModule
