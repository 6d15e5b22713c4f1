import ZkPayroll.AuditModule.Cascade

/-!
# The scope of a verification

The three verifying functions take the scope as an argument and refuse only
`AggregateOnly`; the scope stored with the key is not looked at. So a
verification stays within the scope of the key exactly when the caller asks for
no more, or is refused for another reason.
-/

namespace ZkPayroll.AuditModule

open Host

def Call.verification : Call → Option (Address × AuditScope)
  | .verifyCommitmentWithKey auditor _ _ _ scope => some (auditor, scope)
  | .verifyCommitmentWithViewKey auditor _ _ _ _ scope => some (auditor, scope)
  | .verifyPayrollMetadata auditor _ _ scope => some (auditor, scope)
  | _ => none

/-- A verification that returns a result has a scope within the one of the key,
and the key is for more than aggregates. -/
def ScopeEnforced (st : Step Storage Input) : Prop :=
  ∀ auditor scope, st.input.call.verification = some (auditor, scope) →
    (∃ out, exec st.input.env st.input.budget st.pre st.input.call = .ok out) →
      ∃ record, st.pre.get (.auditorKey auditor) = some record ∧
        scopeIsWithin record.scope scope = true ∧ record.scope ≠ .aggregateOnly

def Verifies (e : LedgerEnv) (record : ViewKeyRecord) : Call → Prop
  | .verifyCommitmentWithKey _ storedCommitment claimedAmount blindingFactor scope =>
    scope ≠ .aggregateOnly ∧
      verifyCommitmentInner e record.keyBytes storedCommitment claimedAmount blindingFactor = true
  | .verifyCommitmentWithViewKey _ suppliedKey storedCommitment claimedAmount blindingFactor scope =>
    scope ≠ .aggregateOnly ∧ suppliedKey = record.keyBytes ∧
      verifyCommitmentInner e suppliedKey storedCommitment claimedAmount blindingFactor = true
  | .verifyPayrollMetadata _ storedHash expectedHash scope =>
    scope ≠ .aggregateOnly ∧ storedHash ≠ BytesN.zero ∧ expectedHash ≠ BytesN.zero
  | _ => False

/-- The step verifies in a scope wider than the one of the key, with all the
guards of the function met. -/
def OutOfScope (st : Step Storage Input) : Prop :=
  ∃ auditor scope record, st.input.call.verification = some (auditor, scope) ∧
    auditor ∈ st.input.env.auths ∧ Accepted st.input.env.sequence st.pre auditor record ∧
    LogHasRoom st.pre ∧ Verifies st.input.env record st.input.call ∧
    scopeIsWithin record.scope scope = false

section
variable {e : LedgerEnv} {s : Storage}

theorem exec_verification_ok (hcall : Call.verification call = some (auditor, scope)) :
    (∃ out, exec e budget s call = .ok out) ↔
      ∃ record, auditor ∈ e.auths ∧ Accepted e.sequence s auditor record ∧ LogHasRoom s ∧
        Verifies e record call := by
  cases call with
  | verifyCommitmentWithKey =>
    cases hcall
    simp only [exec, Prod.exists, returning_ok, verifyCommitmentWithKey_ok, Verifies]
    constructor
    · rintro ⟨_, _, _, ⟨record, ⟨hsigned, haccepted⟩, hscope, hroom, hmatched, -, -⟩, -⟩
      exact ⟨record, hsigned, haccepted, hroom, hscope, hmatched⟩
    · rintro ⟨record, hsigned, haccepted, hroom, hscope, hmatched⟩
      exact ⟨_, _, _, ⟨record, ⟨hsigned, haccepted⟩, hscope, hroom, hmatched, rfl, rfl⟩, rfl⟩
  | verifyCommitmentWithViewKey =>
    cases hcall
    simp only [exec, Prod.exists, returning_ok, verifyCommitmentWithViewKey_ok, Verifies]
    constructor
    · rintro ⟨_, _, _, ⟨record, ⟨hsigned, haccepted⟩, hscope, hkey, hroom, hmatched, -, -⟩, -⟩
      exact ⟨record, hsigned, haccepted, hroom, hscope, hkey, hmatched⟩
    · rintro ⟨record, hsigned, haccepted, hroom, hscope, hkey, hmatched⟩
      exact ⟨_, _, _, ⟨record, ⟨hsigned, haccepted⟩, hscope, hkey, hroom, hmatched, rfl, rfl⟩, rfl⟩
  | verifyPayrollMetadata =>
    cases hcall
    simp only [exec, Prod.exists, returning_ok, verifyPayrollMetadata_ok, Verifies]
    constructor
    · rintro ⟨_, _, _, ⟨hzero, ⟨record, hsigned, haccepted⟩, hscope, hroom, -, -⟩, -⟩
      exact ⟨record, hsigned, haccepted, hroom, hscope, hzero⟩
    · rintro ⟨record, hsigned, haccepted, hroom, hscope, hzero⟩
      exact ⟨_, _, _, ⟨hzero, ⟨record, hsigned, haccepted⟩, hscope, hroom, rfl, rfl⟩, rfl⟩
  | _ => cases hcall

theorem Verifies.scope_ne (h : Verifies e record call)
    (hcall : Call.verification call = some (auditor, scope)) : scope ≠ .aggregateOnly := by
  cases call with
  | verifyCommitmentWithKey => cases hcall; exact h.1
  | verifyCommitmentWithViewKey => cases hcall; exact h.1
  | verifyPayrollMetadata => cases hcall; exact h.1
  | _ => cases hcall

theorem scopeIsWithin_aggregateOnly (h : scopeIsWithin .aggregateOnly scope = true) :
    scope = .aggregateOnly := by
  cases scope <;> first | rfl | cases h

theorem scopeEnforced_iff (st : Step Storage Input) : ScopeEnforced st ↔ ¬ OutOfScope st := by
  constructor
  · rintro h ⟨auditor, scope, record, hcall, hsigned, haccepted, hroom, hverifies, hwide⟩
    obtain ⟨found, hget, hwithin, -⟩ := h auditor scope hcall
      ((exec_verification_ok hcall).mpr ⟨record, hsigned, haccepted, hroom, hverifies⟩)
    obtain rfl := Store.get_inj haccepted.stored hget
    simp [hwide] at hwithin
  · intro h auditor scope hcall hok
    obtain ⟨record, hsigned, haccepted, hroom, hverifies⟩ := (exec_verification_ok hcall).mp hok
    have hwithin : scopeIsWithin record.scope scope = true := by
      by_contra hwide
      exact h ⟨auditor, scope, record, hcall, hsigned, haccepted, hroom, hverifies,
        Bool.eq_false_iff.mpr hwide⟩
    refine ⟨record, haccepted.stored, hwithin, fun haggregate => ?_⟩
    rw [haggregate] at hwithin
    exact hverifies.scope_ne hcall (scopeIsWithin_aggregateOnly hwithin)

/-- The scope of keys is enforced in a run exactly when no step of it verifies
out of scope. -/
theorem scope_enforced_iff_in_scope (inputs : List Input) :
    (∀ st ∈ steps next Store.empty inputs, ScopeEnforced st) ↔
      ∀ st ∈ steps next Store.empty inputs, ¬ OutOfScope st :=
  forall₂_congr fun st _ => scopeEnforced_iff st

end

/-- Bob has a delegated key for aggregates only, and verifies the metadata of a
payroll for the full company. -/
theorem aggregate_key_verifies_individually :
    let hash : BytesN 32 := List.Vector.replicate 32 7
    let before := Sample.enabled ++
      [Sample.call [Sample.alice] (.delegateViewKey Sample.alice Sample.bob .aggregateOnly 100)]
    let verify := Sample.call [Sample.bob] (.verifyPayrollMetadata Sample.bob hash hash .fullCompany)
    let s := runFrom next Store.empty before
    (s.get (.auditorKey Sample.bob)).map (·.scope) = some .aggregateOnly ∧
      exec verify.env verify.budget s verify.call = .ok (.verified true, next s verify) ∧
      ¬ ∀ st ∈ steps next Store.empty (before ++ [verify]), ScopeEnforced st := by
  intro hash before verify s
  have hkey : (s.get (.auditorKey Sample.bob)).map (·.scope) = some .aggregateOnly := by
    decide +kernel
  have hok : exec verify.env verify.budget s verify.call = .ok (.verified true, next s verify) := rfl
  refine ⟨hkey, hok, fun h => ?_⟩
  obtain ⟨record, hget, -, hscope⟩ :=
    h _ (last_mem_steps verify) Sample.bob .fullCompany rfl ⟨_, hok⟩
  have hget : s.get (.auditorKey Sample.bob) = some record := hget
  rw [hget] at hkey
  exact hscope (Option.some.inj hkey)

end ZkPayroll.AuditModule
