import ZkPayroll.ProofVerifier.References

/-!
# Who controls the references

The admin of the verifier is stored, and `initialize_verifier` asks for its
authorisation. Registration and revocation ask for that of the address they
are called with. The admin controls the references in exactly those runs in
which nobody else uses these two.
-/

namespace ZkPayroll.ProofVerifier

open Host

def AdminSigns (e : LedgerEnv) (s : Storage) : Prop :=
  ∃ admin, s.get .admin = some admin ∧ admin ∈ e.auths

def Controlled (st : Step Storage Input) : Prop :=
  ∀ r, st.post.get (.proofReference r) ≠ st.pre.get (.proofReference r) →
    AdminSigns st.input.env st.pre

/-- The step registers a reference or revokes a live one, and the admin does not
authorise it. -/
def Uncontrolled (st : Step Storage Input) : Prop :=
  ¬ AdminSigns st.input.env st.pre ∧
    ((∃ admin refId proof expiresAtLedger,
      st.input.call = .registerProofReference admin refId proof expiresAtLedger ∧
      CanRegister st.input.env admin refId expiresAtLedger st.pre) ∨
    ∃ admin refId reference, st.input.call = .revokeProofReference admin refId ∧
      admin ∈ st.input.env.auths ∧ st.pre.get (.proofReference refId) = some reference ∧
      reference.revoked = false)

/-- The admin controls the references of a run: it authorises every change, so
whatever is honoured at the end it registered, and whatever was revoked it
revoked. -/
structure AdminControls (inputs : List Input) : Prop where
  changes : ∀ st ∈ steps next Store.empty inputs, Controlled st
  honoured : ∀ q r p publicInputs,
    verifyWithReference q (runFrom next Store.empty inputs) r p publicInputs = .ok true →
    ∃ st ∈ steps next Store.empty inputs, (∃ p', Registers r p' st) ∧
      AdminSigns st.input.env st.pre
  revoked : ∀ st ∈ steps next Store.empty inputs, ∀ r reference,
    st.pre.get (.proofReference r) = some reference → reference.revoked = false → Revokes r st →
      AdminSigns st.input.env st.pre

section
variable {e : LedgerEnv} {s s' : Storage}

theorem exec_register (proof : BytesN 256) (hcan : CanRegister e admin refId expiresAtLedger s) :
    exec e s (.registerProofReference admin refId proof expiresAtLedger) =
      .ok (s.set (.proofReference refId)
        ⟨proofDigest e proof, e.sequence, expiresAtLedger, false⟩) := by
  have hok : registerProofReference e admin refId proof expiresAtLedger s = .ok _ :=
    registerProofReference_ok.mpr ⟨hcan, rfl, rfl⟩
  rw [exec, hok]
  rfl

theorem step_effect {st : Step Storage Input} (hpost : st.post = next st.pre st.input)
    (hcall : st.input.call = call) (h : Succeeds st) : Effect st.input.env st.pre st.post call := by
  obtain ⟨s', hok⟩ := h
  rw [hpost, next_ok hok, ← hcall]
  exact exec_effect hok

theorem Registers.changes {st : Step Storage Input} (h : Registers r p st)
    (hpost : st.post = next st.pre st.input) :
    st.post.get (.proofReference r) ≠ st.pre.get (.proofReference r) := by
  obtain ⟨⟨admin, expiresAtLedger, hcall⟩, hsucceeds⟩ := h
  cases step_effect hpost hcall hsucceeds with
  | register hcan hafter =>
    rw [hafter, Store.get_set_self, hcan.free]
    simp

theorem Revokes.changes {st : Step Storage Input} (h : Revokes r st)
    (hpost : st.post = next st.pre st.input)
    (hget : st.pre.get (.proofReference r) = some reference) (hlive : reference.revoked = false) :
    st.post.get (.proofReference r) ≠ st.pre.get (.proofReference r) := by
  obtain ⟨⟨admin, hcall⟩, hsucceeds⟩ := h
  cases step_effect hpost hcall hsucceeds with
  | revoke _ hstored hafter =>
    obtain rfl := Store.get_inj hstored hget
    rw [hafter, Store.get_set_self, hstored, Ne, Option.some.injEq]
    intro hsame
    have hrevoked := congrArg ProofReference.revoked hsame
    rw [hlive] at hrevoked
    cases hrevoked

theorem controlled_iff {st : Step Storage Input} (hpost : st.post = next st.pre st.input) :
    Controlled st ↔ ¬ Uncontrolled st := by
  constructor
  · rintro h ⟨hother, hcall⟩
    rcases hcall with ⟨admin, refId, proof, expiresAtLedger, hcall, hcan⟩ |
      ⟨admin, refId, reference, hcall, hsigned, hget, hlive⟩
    · have hregisters : Registers refId proof st :=
        ⟨⟨admin, expiresAtLedger, hcall⟩, _, by rw [hcall]; exact exec_register proof hcan⟩
      exact hother (h refId (hregisters.changes hpost))
    · have hok := revokeProofReference_ok.mpr ⟨reference, hsigned, hget, rfl⟩
      have hrevokes : Revokes refId st := ⟨⟨admin, hcall⟩, _, by rw [hcall]; exact hok⟩
      exact hother (h refId (hrevokes.changes hpost hget hlive))
  · intro h r hchange
    by_contra hother
    rw [hpost] at hchange
    rcases next_cases st.pre st.input with ⟨-, hsame⟩ | hok
    · exact hchange (by rw [hsame])
    have heffect := exec_effect hok
    generalize next st.pre st.input = s' at hchange heffect
    generalize hcall : st.input.call = call at heffect
    cases heffect with
    | initAdmin _ hafter | initKey _ _ hafter => simp [hafter] at hchange
    | register hcan => exact h ⟨hother, .inl ⟨_, _, _, _, hcall, hcan⟩⟩
    | @revoke admin refId reference hsigned hstored hafter =>
      refine h ⟨hother, .inr ⟨admin, refId, reference, hcall, hsigned, hstored, ?_⟩⟩
      -- revoking a revoked reference writes what is there
      by_contra hlive
      have hrevoked : reference.revoked = true := by simpa using hlive
      have hsame : ({ reference with revoked := true } : ProofReference) = reference := by
        rw [← hrevoked]
      rw [hafter, hsame] at hchange
      exact hchange (Store.get_set_stored hstored _)

/-- The admin controls the references in exactly those runs in which no step
registers or revokes one without it. -/
theorem admin_controls_iff (inputs : List Input) :
    AdminControls inputs ↔ ∀ st ∈ steps next Store.empty inputs, ¬ Uncontrolled st := by
  constructor
  · intro h st hst
    exact (controlled_iff (steps_post hst)).mp (h.changes st hst)
  · intro h
    have hchanges : ∀ st ∈ steps next Store.empty inputs, Controlled st :=
      fun st hst => (controlled_iff (steps_post hst)).mpr (h st hst)
    refine ⟨hchanges, fun q r p publicInputs hverified => ?_, fun st hst r reference hget hlive => ?_⟩
    · obtain ⟨reference, hget, -, -⟩ := verifyWithReference_true hverified
      obtain ⟨st, hst, ⟨p', hregisters⟩, -⟩ := ((run_traced inputs).stored r reference hget).registered
      exact ⟨st, hst, ⟨p', hregisters⟩, hchanges st hst r (hregisters.changes (steps_post hst))⟩
    · intro hrevokes
      exact hchanges st hst r (hrevokes.changes (steps_post hst) hget hlive)

end

/-- Mallory registers a reference of her own, which is honoured, and revokes the
one of the admin. -/
theorem references_by_stranger :
    let mine : BytesN 32 := List.Vector.replicate 32 2
    let register : Input := ⟨Sample.env 110 [Sample.mallory],
      .registerProofReference Sample.mallory mine Sample.otherProof 200⟩
    let revoke : Input := ⟨Sample.env 120 [Sample.mallory],
      .revokeProofReference Sample.mallory Sample.refId⟩
    let inputs := Sample.registered ++ [register, revoke]
    let s := runFrom next Store.empty inputs
    s.get .admin = some Sample.admin ∧
      verifyWithReference (Sample.env 150 []) s mine Sample.otherProof [] = .ok true ∧
      verifyWithReference (Sample.env 150 []) s Sample.refId Sample.proof [] = .ok false ∧
      ¬ AdminControls inputs := by
  intro mine register revoke inputs s
  refine ⟨by decide +kernel, by decide +kernel, by decide +kernel, fun h => ?_⟩
  have hregister : ⟨runFrom next Store.empty Sample.registered, register,
      next (runFrom next Store.empty Sample.registered) register⟩ ∈
        steps next Store.empty inputs := by
    have hmem := mem_steps_append (@last_mem_steps _ _ next Store.empty Sample.registered register)
      [revoke]
    simpa [inputs] using hmem
  obtain ⟨admin, hadmin, hsigned⟩ := h.changes _ hregister mine (by decide +kernel)
  have hstored : (runFrom next Store.empty Sample.registered).get .admin = some Sample.admin := by
    decide +kernel
  obtain rfl := Store.get_inj hstored hadmin
  revert hsigned
  decide

end ZkPayroll.ProofVerifier
