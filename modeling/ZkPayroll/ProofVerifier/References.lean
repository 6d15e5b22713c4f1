import ZkPayroll.Host.Sha256
import ZkPayroll.ProofVerifier.Contract

/-!
# References expire and die

What the calls do to references, then what a reference can be along a run: it
is registered once, ages only by being revoked, and is usable from its ledger
to its expiry, for the proof it was registered with.
-/

namespace ZkPayroll.ProofVerifier

open Host

section
variable {e : LedgerEnv} {s s' : Storage}

-- ---------------------------------------------------------------------------
-- What a call does
-- ---------------------------------------------------------------------------

/-- The guards of `register_proof_reference`. -/
structure CanRegister (e : LedgerEnv) (admin : Address) (refId : BytesN 32)
    (expiresAtLedger : Nat) (s : Storage) : Prop where
  signed : admin ∈ e.auths
  free : s.get (.proofReference refId) = none
  later : e.sequence < expiresAtLedger
  cap : expiresAtLedger ≤ e.sequence + maxReferenceTtlLedgers

theorem registerProofReference_ok :
    registerProofReference e admin refId proof expiresAtLedger s = .ok (reference, s') ↔
    CanRegister e admin refId expiresAtLedger s ∧
      reference = ⟨proofDigest e proof, e.sequence, expiresAtLedger, false⟩ ∧
      s' = s.set (.proofReference refId) reference := by
  simp only [registerProofReference, bind_ok, orPanic_ok, requireAuth_ok, check_ok, pure_ok,
    exists_const, Store.has_eq_false, Prod.mk.injEq, Nat.not_le, gt_iff_lt, Nat.not_lt]
  constructor
  · rintro ⟨hsigned, hfree, hlater, hcap, rfl, rfl⟩
    exact ⟨⟨hsigned, hfree, hlater, by omega⟩, rfl, rfl⟩
  · rintro ⟨⟨hsigned, hfree, hlater, hcap⟩, rfl, rfl⟩
    exact ⟨hsigned, hfree, hlater, by omega, rfl, rfl⟩

theorem revokeProofReference_ok : revokeProofReference e admin refId s = .ok s' ↔
    ∃ reference, admin ∈ e.auths ∧ s.get (.proofReference refId) = some reference ∧
      s' = s.set (.proofReference refId) { reference with revoked := true } := by
  simp only [revokeProofReference, bind_ok, orPanic_ok, requireAuth_ok, okOr_ok, pure_ok,
    exists_const, exists_and_left]

inductive Effect (e : LedgerEnv) (s s' : Storage) : Call → Prop
  | initAdmin (hfree : s.get .admin = none) (hafter : s' = s.set .admin admin) :
      Effect e s s' (.initVerifierAdmin admin)
  | initKey (hadmin : ∃ admin, s.get .admin = some admin ∧ admin ∈ e.auths)
      (hfree : s.get .verificationKey = none) (hafter : s' = s.set .verificationKey vk) :
      Effect e s s' (.initializeVerifier vk)
  | register (hcan : CanRegister e admin refId expiresAtLedger s)
      (hafter : s' = s.set (.proofReference refId)
        ⟨proofDigest e proof, e.sequence, expiresAtLedger, false⟩) :
      Effect e s s' (.registerProofReference admin refId proof expiresAtLedger)
  | revoke (hsigned : admin ∈ e.auths) (hstored : s.get (.proofReference refId) = some reference)
      (hafter : s' = s.set (.proofReference refId) { reference with revoked := true }) :
      Effect e s s' (.revokeProofReference admin refId)

theorem exec_effect (h : exec e s call = .ok s') : Effect e s s' call := by
  cases call with
  | initVerifierAdmin =>
    simp only [exec, orPanic_ok, initVerifierAdmin, bind_ok, ensure_ok, pure_ok, exists_const,
      Store.has_eq_false] at h
    exact .initAdmin h.1 h.2
  | initializeVerifier =>
    simp only [exec, orPanic_ok, initializeVerifier, requireAdmin, bind_ok, expect_ok,
      requireAuth_ok, ensure_ok, pure_ok, exists_const, Store.has_eq_false] at h
    exact .initKey h.1 h.2.1 h.2.2
  | registerProofReference =>
    simp only [exec, bind_ok, pure_ok, Prod.exists] at h
    obtain ⟨_, _, h, rfl⟩ := h
    obtain ⟨hcan, rfl, hafter⟩ := registerProofReference_ok.mp h
    exact .register hcan hafter
  | revokeProofReference =>
    obtain ⟨reference, hsigned, hstored, hafter⟩ := revokeProofReference_ok.mp h
    exact .revoke hsigned hstored hafter

theorem next_ok (h : exec i.env s i.call = .ok s') : next s i = s' := by
  rw [next, h]

theorem next_cases (s : Storage) (i : Input) :
    ((∃ err, exec i.env s i.call = .error err) ∧ next s i = s) ∨
      exec i.env s i.call = .ok (next s i) := by
  unfold next
  cases h : exec i.env s i.call with
  | error err => exact .inl ⟨⟨err, rfl⟩, rfl⟩
  | ok s' => exact .inr rfl

theorem reference_set (reference : ProofReference) (r : BytesN 32) :
    (s.set (.proofReference refId) reference).get (.proofReference r) =
      if r = refId then some reference else s.get (.proofReference r) := by
  by_cases hr : r = refId
  · subst hr
    simp
  · simp [hr]

-- ---------------------------------------------------------------------------
-- Views
-- ---------------------------------------------------------------------------

def ProofReference.Current (reference : ProofReference) (sequence : Nat) : Prop :=
  reference.revoked = false ∧ sequence ≤ reference.expiresAtLedger

theorem referenceIsCurrent_isOk {reference : ProofReference} :
    (referenceIsCurrent e reference).isOk = true ↔ reference.Current e.sequence := by
  have hok : (referenceIsCurrent e reference).isOk = true ↔
      ∃ u, referenceIsCurrent e reference = .ok u := by
    cases referenceIsCurrent e reference <;> simp [Except.isOk, Except.toBool]
  rw [hok, ProofReference.Current]
  simp only [referenceIsCurrent, bind_ok, check_ok, exists_const, gt_iff_lt, Nat.not_lt]

theorem isProofReferenceValid_iff : isProofReferenceValid e s r = true ↔
    ∃ reference, s.get (.proofReference r) = some reference ∧ reference.Current e.sequence := by
  unfold isProofReferenceValid
  cases s.get (.proofReference r) <;> simp [referenceIsCurrent_isOk]

/-- What verification through a reference looks at before it verifies. -/
def Honours (e : LedgerEnv) (s : Storage) (r : BytesN 32) (p : BytesN 256) : Prop :=
  ∃ reference, s.get (.proofReference r) = some reference ∧ reference.Current e.sequence ∧
    reference.proofHash = proofDigest e p

theorem verifyWithReference_honours (h : Honours e s r p) :
    verifyWithReference e s r p publicInputs = verifyPaymentProof s p publicInputs := by
  obtain ⟨reference, hget, hcurrent, hdigest⟩ := h
  simp [verifyWithReference, hget, referenceIsCurrent_isOk.mpr hcurrent, hdigest]

theorem verifyWithReference_refuses (h : ¬ Honours e s r p) :
    verifyWithReference e s r p publicInputs = .ok false := by
  unfold verifyWithReference
  cases hget : s.get (.proofReference r) with
  | none => rfl
  | some reference =>
    dsimp only
    split_ifs with hcurrent hdigest
    · rfl
    · rfl
    · exact absurd ⟨reference, hget, referenceIsCurrent_isOk.mp (Bool.not_eq_false _ ▸ hcurrent),
        not_not.mp hdigest⟩ h

theorem verifyWithReference_true (h : verifyWithReference e s r p publicInputs = .ok true) :
    Honours e s r p := by
  by_contra hrefuses
  rw [verifyWithReference_refuses hrefuses] at h
  cases h

-- ---------------------------------------------------------------------------
-- Where a reference comes from
-- ---------------------------------------------------------------------------

def Succeeds (st : Step Storage Input) : Prop :=
  ∃ s', exec st.input.env st.pre st.input.call = .ok s'

def Registers (r : BytesN 32) (p : BytesN 256) (st : Step Storage Input) : Prop :=
  (∃ admin expiresAtLedger, st.input.call = .registerProofReference admin r p expiresAtLedger) ∧
    Succeeds st

def Revokes (r : BytesN 32) (st : Step Storage Input) : Prop :=
  (∃ admin, st.input.call = .revokeProofReference admin r) ∧ Succeeds st

def PassesOver (r : BytesN 32) (st : Step Storage Input) : Prop :=
  (∀ p, ¬ Registers r p st) ∧ ¬ Revokes r st

/-- What the steps so far say of a stored reference. -/
structure Recorded (r : BytesN 32) (hist : List (Step Storage Input)) (reference : ProofReference) :
    Prop where
  lifetime : reference.expiresAtLedger ≤ reference.registeredAtLedger + maxReferenceTtlLedgers
  registered : ∃ st ∈ hist, (∃ p, Registers r p st) ∧
    st.input.env.sequence = reference.registeredAtLedger
  digest : ∀ st ∈ hist, ∀ p, Registers r p st → reference.proofHash = proofDigest st.input.env p
  revoked : ∀ st ∈ hist, Revokes r st → reference.revoked = true

/-- The stored references are those the steps account for. -/
structure Traced (hist : List (Step Storage Input)) (s : Storage) : Prop where
  stored : ∀ r reference, s.get (.proofReference r) = some reference → Recorded r hist reference
  absent : ∀ r, s.get (.proofReference r) = none → ∀ st ∈ hist, PassesOver r st

theorem Recorded.extend (h : Recorded r hist reference) (hlast : PassesOver r last) :
    Recorded r (hist ++ [last]) reference := by
  obtain ⟨st, hst, hregistered⟩ := h.registered
  refine ⟨h.lifetime, ⟨st, by simp [hst], hregistered⟩, fun st' hst' p hp => ?_,
    fun st' hst' hrevokes => ?_⟩
  · rcases List.mem_append.mp hst' with hst' | hst'
    · exact h.digest st' hst' p hp
    · obtain rfl := List.mem_singleton.mp hst'
      exact absurd hp (hlast.1 p)
  · rcases List.mem_append.mp hst' with hst' | hst'
    · exact h.revoked st' hst' hrevokes
    · obtain rfl := List.mem_singleton.mp hst'
      exact absurd hrevokes hlast.2

theorem Traced.extend (h : Traced hist s)
    (hkept : ∀ r, PassesOver r last → s'.get (.proofReference r) = s.get (.proofReference r))
    (hother : ∀ r, ¬ PassesOver r last → ∃ reference,
      s'.get (.proofReference r) = some reference ∧ Recorded r (hist ++ [last]) reference) :
    Traced (hist ++ [last]) s' := by
  refine ⟨fun r reference hget => ?_, fun r hget st hst => ?_⟩
  · by_cases hpasses : PassesOver r last
    · rw [hkept r hpasses] at hget
      exact (h.stored r reference hget).extend hpasses
    · obtain ⟨found, hfound, hrecorded⟩ := hother r hpasses
      obtain rfl := Store.get_inj hget hfound
      exact hrecorded
  · by_cases hpasses : PassesOver r last
    · rw [hkept r hpasses] at hget
      rcases List.mem_append.mp hst with hst | hst
      · exact h.absent r hget st hst
      · obtain rfl := List.mem_singleton.mp hst
        exact hpasses
    · obtain ⟨found, hfound, -⟩ := hother r hpasses
      rw [hget] at hfound
      cases hfound

theorem passesOver_of_call (hcall : ∀ admin, (∀ p expiresAtLedger,
      st.input.call ≠ .registerProofReference admin r p expiresAtLedger) ∧
      st.input.call ≠ .revokeProofReference admin r) : PassesOver r st := by
  constructor
  · rintro p ⟨⟨admin, expiresAtLedger, hregister⟩, -⟩
    exact (hcall admin).1 p expiresAtLedger hregister
  · rintro ⟨⟨admin, hrevoke⟩, -⟩
    exact (hcall admin).2 hrevoke

theorem traced_register {hist : List (Step Storage Input)} {i : Input} (h : Traced hist s)
    (hcall : i.call = .registerProofReference admin refId proof expiresAtLedger)
    (hcan : CanRegister i.env admin refId expiresAtLedger s)
    (hok : exec i.env s i.call = .ok s') :
    Recorded refId (hist ++ [⟨s, i, s'⟩])
      ⟨proofDigest i.env proof, i.env.sequence, expiresAtLedger, false⟩ := by
  have hpast := h.absent refId hcan.free
  refine ⟨hcan.cap, ⟨⟨s, i, s'⟩, by simp, ⟨proof, ⟨admin, expiresAtLedger, hcall⟩, _, hok⟩, rfl⟩,
    fun st hst p hp => ?_, fun st hst hrevokes => ?_⟩
  · rcases List.mem_append.mp hst with hst | hst
    · exact absurd hp ((hpast st hst).1 p)
    · obtain rfl := List.mem_singleton.mp hst
      obtain ⟨⟨_, _, hp⟩, -⟩ := hp
      have hp := hcall.symm.trans hp
      cases hp
      rfl
  · rcases List.mem_append.mp hst with hst | hst
    · exact absurd hrevokes (hpast st hst).2
    · obtain rfl := List.mem_singleton.mp hst
      obtain ⟨⟨_, hrevokes⟩, -⟩ := hrevokes
      cases hcall.symm.trans hrevokes

theorem traced_revoke {hist : List (Step Storage Input)} {i : Input} (h : Traced hist s)
    (hcall : i.call = .revokeProofReference admin refId)
    (hstored : s.get (.proofReference refId) = some reference) :
    Recorded refId (hist ++ [⟨s, i, s'⟩]) { reference with revoked := true } := by
  have hpast := h.stored refId reference hstored
  obtain ⟨st, hst, hregistered⟩ := hpast.registered
  refine ⟨hpast.lifetime, ⟨st, by simp [hst], hregistered⟩, fun st' hst' p hp => ?_, fun _ _ _ => rfl⟩
  rcases List.mem_append.mp hst' with hst' | hst'
  · exact hpast.digest st' hst' p hp
  · obtain rfl := List.mem_singleton.mp hst'
    obtain ⟨⟨_, _, hp⟩, -⟩ := hp
    cases hcall.symm.trans hp

theorem next_traced (i : Input) (h : Traced hist s) :
    Traced (hist ++ [⟨s, i, next s i⟩]) (next s i) := by
  rcases next_cases s i with ⟨⟨err, hfails⟩, hsame⟩ | hok
  · have hpasses : ∀ r, PassesOver r ⟨s, i, next s i⟩ := by
      have hnot : ¬ Succeeds ⟨s, i, next s i⟩ := by simp [Succeeds, hfails]
      exact fun r => ⟨fun p hp => hnot hp.2, fun hrevokes => hnot hrevokes.2⟩
    exact h.extend (fun r _ => by rw [hsame]) fun r hr => absurd (hpasses r) hr
  have heffect := exec_effect hok
  generalize hnext : next s i = s' at hok heffect ⊢
  generalize hcall : i.call = call at heffect
  cases heffect with
  | initAdmin _ hafter | initKey _ _ hafter =>
    refine h.extend (fun r _ => by simp [hafter]) fun r hr => absurd (passesOver_of_call ?_) hr
    simp [hcall]
  | @register admin refId expiresAtLedger proof hcan hafter =>
    refine h.extend (fun r hr => ?_) fun r hr => ?_
    · have hne : r ≠ refId := by
        rintro rfl
        exact hr.1 proof ⟨⟨admin, expiresAtLedger, hcall⟩, _, hok⟩
      rw [hafter, reference_set, if_neg hne]
    · have heq : r = refId := by
        by_contra hne
        exact hr (passesOver_of_call fun admin => by simp [hcall, Ne.symm hne])
      subst heq
      exact ⟨_, by rw [hafter, Store.get_set_self], traced_register h hcall hcan hok⟩
  | @revoke admin refId reference _ hstored hafter =>
    refine h.extend (fun r hr => ?_) fun r hr => ?_
    · have hne : r ≠ refId := by
        rintro rfl
        exact hr.2 ⟨⟨admin, hcall⟩, _, hok⟩
      rw [hafter, reference_set, if_neg hne]
    · have heq : r = refId := by
        by_contra hne
        exact hr (passesOver_of_call fun admin => by simp [hcall, Ne.symm hne])
      subst heq
      exact ⟨_, by rw [hafter, Store.get_set_self], traced_revoke h hcall hstored⟩

theorem run_traced (inputs : List Input) :
    Traced (steps next Store.empty inputs) (runFrom next Store.empty inputs) :=
  history_invariant (I := Traced) ⟨by simp, by simp⟩ (fun _ _ i h => next_traced i h) inputs

-- ---------------------------------------------------------------------------
-- How a reference ages
-- ---------------------------------------------------------------------------

/-- What no call takes back: a reference keeps its proof and its expiry, a
revoked one stays revoked, and the verification key stays. -/
structure Ages (s t : Storage) : Prop where
  references : ∀ r old, s.get (.proofReference r) = some old → ∃ new,
    t.get (.proofReference r) = some new ∧ new.proofHash = old.proofHash ∧
      new.expiresAtLedger = old.expiresAtLedger ∧ (old.revoked = true → new.revoked = true)
  key : ∀ vk, s.get .verificationKey = some vk → t.get .verificationKey = some vk

theorem Ages.refl (s : Storage) : Ages s s :=
  ⟨fun _ old h => ⟨old, h, rfl, rfl, fun h => h⟩, fun _ h => h⟩

theorem Ages.trans {t : Storage} (h : Ages s s') (h' : Ages s' t) : Ages s t := by
  refine ⟨fun r old hold => ?_, fun vk hvk => h'.key vk (h.key vk hvk)⟩
  obtain ⟨mid, hmid, hhash, hexpiry, hrevoked⟩ := h.references r old hold
  obtain ⟨new, hnew, hhash', hexpiry', hrevoked'⟩ := h'.references r mid hmid
  exact ⟨new, hnew, hhash'.trans hhash, hexpiry'.trans hexpiry, fun h => hrevoked' (hrevoked h)⟩

theorem next_ages (s : Storage) (i : Input) : Ages s (next s i) := by
  rcases next_cases s i with ⟨-, hsame⟩ | hok
  · rw [hsame]
    exact .refl s
  have heffect := exec_effect hok
  generalize next s i = s' at heffect ⊢
  generalize i.call = call at heffect
  cases heffect with
  | initAdmin _ hafter =>
    subst hafter
    exact ⟨fun r old hold => ⟨old, by simpa using hold, rfl, rfl, id⟩, by simp⟩
  | initKey _ hfree hafter =>
    subst hafter
    refine ⟨fun r old hold => ⟨old, by simpa using hold, rfl, rfl, id⟩, fun vk hvk => ?_⟩
    rw [hfree] at hvk
    cases hvk
  | @register _ refId _ _ hcan hafter =>
    subst hafter
    refine ⟨fun r old hold => ⟨old, ?_, rfl, rfl, id⟩, by simp⟩
    have hne : r ≠ refId := by
      rintro rfl
      rw [hcan.free] at hold
      cases hold
    rw [reference_set, if_neg hne, hold]
  | @revoke _ refId reference _ hstored hafter =>
    subst hafter
    refine ⟨fun r old hold => ?_, by simp⟩
    rw [reference_set]
    split_ifs with hr
    · subst hr
      obtain rfl := Store.get_inj hstored hold
      exact ⟨_, rfl, rfl, rfl, fun _ => rfl⟩
    · exact ⟨old, hold, rfl, rfl, id⟩

theorem run_ages (s : Storage) (later : List Input) : Ages s (runFrom next s later) :=
  run_invariant (I := Ages s) (.refl s) (fun t i h => h.trans (next_ages t i)) reachable_runFrom

theorem Ages.current {t : Storage} {sequence later : Nat} (h : Ages s t) (hle : sequence ≤ later)
    (hold : s.get (.proofReference r) = some old) (hnew : t.get (.proofReference r) = some new)
    (hcurrent : new.Current later) : old.Current sequence ∧ new.proofHash = old.proofHash := by
  obtain ⟨hunrevoked, hunexpired⟩ := hcurrent
  obtain ⟨new', hnew', hhash, hexpiry, hrevoked⟩ := h.references r old hold
  obtain rfl := Store.get_inj hnew hnew'
  refine ⟨⟨?_, by omega⟩, hhash⟩
  by_contra hdead
  rw [hrevoked (Bool.not_eq_false _ ▸ hdead)] at hunrevoked
  cases hunrevoked

theorem Ages.stays_invalid {q q' : LedgerEnv} {t : Storage} (h : Ages s t)
    (hle : q.sequence ≤ q'.sequence) (hstored : s.get (.proofReference r) = some old)
    (hinvalid : isProofReferenceValid q s r = false) : isProofReferenceValid q' t r = false := by
  rw [Bool.eq_false_iff, Ne, isProofReferenceValid_iff] at hinvalid ⊢
  rintro ⟨new, hnew, hcurrent⟩
  exact hinvalid ⟨old, hstored, (h.current hle hstored hnew hcurrent).1⟩

theorem refuses_of_invalid (h : isProofReferenceValid e s r = false) :
    verifyWithReference e s r p publicInputs = .ok false := by
  refine verifyWithReference_refuses ?_
  rintro ⟨reference, hget, hcurrent, -⟩
  rw [isProofReferenceValid_iff.mpr ⟨reference, hget, hcurrent⟩] at h
  cases h

theorem verifyPaymentProof_false : verifyPaymentProof s p publicInputs = .ok false ↔
    ∃ vk, s.get .verificationKey = some vk ∧ publicInputs.length + 1 ≤ u32Max ∧
      publicInputs.length + 1 ≠ vk.ic.length := by
  simp only [verifyPaymentProof, getVerificationKey, simulatedVerifyGroth16, bind_ok, expect_ok,
    addUpTo_ok]
  refine exists_congr fun vk => and_congr_right fun _ => ?_
  constructor
  · rintro ⟨count, ⟨hroom, rfl⟩, h⟩
    split_ifs at h with hcount
    · exact ⟨hroom, hcount⟩
    · cases h
  · rintro ⟨hroom, hcount⟩
    exact ⟨_, ⟨hroom, rfl⟩, by rw [if_pos hcount]; rfl⟩

/-- The same answer again: a refusal through a registered reference is final. -/
theorem Ages.stays_refused {q q' : LedgerEnv} {t : Storage} (h : Ages s t)
    (hle : q.sequence ≤ q'.sequence) (hhash : q'.crypto.sha256 = q.crypto.sha256)
    (hstored : s.get (.proofReference r) = some old)
    (hrefused : verifyWithReference q s r p publicInputs = .ok false) :
    verifyWithReference q' t r p publicInputs = .ok false := by
  by_cases hhonours : Honours q' t r p
  · -- current and for this proof now, so also then: what was refused are the inputs
    obtain ⟨new, hnew, hcurrent, hdigest⟩ := id hhonours
    obtain ⟨hcurrent, hsame⟩ := h.current hle hstored hnew hcurrent
    have hthen : Honours q s r p := by
      refine ⟨old, hstored, hcurrent, ?_⟩
      rw [← hsame, hdigest, proofDigest, proofDigest, hhash]
    rw [verifyWithReference_honours hthen] at hrefused
    rw [verifyWithReference_honours hhonours]
    obtain ⟨vk, hvk, hcount⟩ := verifyPaymentProof_false.mp hrefused
    exact verifyPaymentProof_false.mpr ⟨vk, h.key vk hvk, hcount⟩
  · exact verifyWithReference_refuses hhonours

-- ---------------------------------------------------------------------------
-- Runs
-- ---------------------------------------------------------------------------

def clock (inputs : List Input) : List Nat := inputs.map (·.env.sequence)

/-- At the query the reference is within its lifetime, and no step so far has
revoked it. -/
def WithinLifetime (q : LedgerEnv) (inputs : List Input) (r : BytesN 32) : Prop :=
  ∃ reference, (runFrom next Store.empty inputs).get (.proofReference r) = some reference ∧
    reference.registeredAtLedger ≤ q.sequence ∧ q.sequence ≤ reference.expiresAtLedger ∧
    reference.expiresAtLedger ≤ reference.registeredAtLedger + maxReferenceTtlLedgers ∧
    ∀ st ∈ steps next Store.empty inputs, ¬ Revokes r st

theorem within_of_current (hclock : (clock inputs ++ [q.sequence]).Pairwise (· ≤ ·))
    (hget : (runFrom next Store.empty inputs).get (.proofReference r) = some reference)
    (hcurrent : reference.Current q.sequence) : WithinLifetime q inputs r := by
  have hrecorded := (run_traced inputs).stored r reference hget
  obtain ⟨hunrevoked, hunexpired⟩ := hcurrent
  refine ⟨reference, hget, ?_, hunexpired, hrecorded.lifetime, fun st hst hrevokes => ?_⟩
  · obtain ⟨st, hst, -, hat⟩ := hrecorded.registered
    obtain ⟨before, after, hinputs, -⟩ := mem_steps hst
    rw [← hat]
    refine (List.pairwise_append.mp hclock).2.2 _ ?_ _ (by simp)
    exact List.mem_map.mpr ⟨st.input, by simp [hinputs], rfl⟩
  · rw [hrecorded.revoked st hst hrevokes] at hunrevoked
    cases hunrevoked

/-- In every run with a ledger sequence that does not go back: a reference is
usable only within its lifetime and unrevoked; the only proof it is good for is
the one it was registered with; and once it fails it fails for good. Of the
hash it is only asked that the two proofs at hand do not collide. -/
theorem references_expire_for_good (inputs : List Input) (q : LedgerEnv) (r : BytesN 32)
    (hclock : (clock inputs ++ [q.sequence]).Pairwise (· ≤ ·))
    (hhash : ∀ i ∈ inputs, i.env.crypto.sha256 = q.crypto.sha256) :
    (isProofReferenceValid q (runFrom next Store.empty inputs) r = true →
      WithinLifetime q inputs r) ∧
    (∀ p publicInputs,
      verifyWithReference q (runFrom next Store.empty inputs) r p publicInputs = .ok true →
      WithinLifetime q inputs r ∧
        (∃ st ∈ steps next Store.empty inputs, ∃ p', Registers r p' st) ∧
        ∀ st ∈ steps next Store.empty inputs, ∀ p', Registers r p' st →
          ¬ Collision q.crypto.sha256 p.toList p'.toList → p = p') ∧
    ∀ before later q', inputs = before ++ later →
      (clock before ++ q'.sequence :: (clock later ++ [q.sequence])).Pairwise (· ≤ ·) →
      q.crypto.sha256 = q'.crypto.sha256 →
      (∃ reference, (runFrom next Store.empty before).get (.proofReference r) = some reference) →
      (isProofReferenceValid q' (runFrom next Store.empty before) r = false →
        isProofReferenceValid q (runFrom next Store.empty inputs) r = false ∧
        ∀ p publicInputs,
          verifyWithReference q (runFrom next Store.empty inputs) r p publicInputs = .ok false) ∧
      ∀ p publicInputs,
        verifyWithReference q' (runFrom next Store.empty before) r p publicInputs = .ok false →
        verifyWithReference q (runFrom next Store.empty inputs) r p publicInputs = .ok false := by
  refine ⟨fun hvalid => ?_, fun p publicInputs hverified => ?_, ?_⟩
  · obtain ⟨reference, hget, hcurrent⟩ := isProofReferenceValid_iff.mp hvalid
    exact within_of_current hclock hget hcurrent
  · obtain ⟨reference, hget, hcurrent, hdigest⟩ := verifyWithReference_true hverified
    have hrecorded := (run_traced inputs).stored r reference hget
    obtain ⟨st, hst, hregistered, -⟩ := hrecorded.registered
    refine ⟨within_of_current hclock hget hcurrent, ⟨st, hst, hregistered⟩,
      fun st' hst' p' hp' hpair => ?_⟩
    have hsame := hrecorded.digest st' hst' p' hp'
    obtain ⟨before, after, hinputs, -⟩ := mem_steps hst'
    have hcrypto := hhash st'.input (by simp [hinputs])
    rw [hdigest, proofDigest, proofDigest, hcrypto] at hsame
    exact List.Vector.toList_injective (eq_of_not_collision hpair hsame)
  · rintro before later q' rfl hordered hhash' ⟨reference, hstored⟩
    have hages := run_ages (runFrom next Store.empty before) later
    rw [← runFrom_append] at hages
    have hle : q'.sequence ≤ q.sequence :=
      (List.pairwise_cons.mp (List.pairwise_append.mp hordered).2.1).1 _ (by simp)
    refine ⟨fun hinvalid => ?_, fun p publicInputs hrefused => ?_⟩
    · have hstays := hages.stays_invalid hle hstored hinvalid
      exact ⟨hstays, fun p publicInputs => refuses_of_invalid hstays⟩
    · exact hages.stays_refused hle hhash' hstored hrefused

end

-- ---------------------------------------------------------------------------
-- A sample run
-- ---------------------------------------------------------------------------

namespace Sample

def admin : Address := ⟨2⟩
def mallory : Address := ⟨3⟩

def env (sequence : Nat) (auths : List Address) : LedgerEnv where
  crypto := ⟨sha256, fun _ => [], fun _ => [], fun _ => []⟩
  contract := ⟨1⟩
  timestamp := 0
  auths := auths
  isPaused _ := false
  verifyPaymentProof _ _ _ := true
  sequence := sequence
  addressFromString _ := admin

def refId : BytesN 32 := List.Vector.replicate 32 1
def proof : BytesN 256 := List.Vector.replicate 256 7
def otherProof : BytesN 256 := List.Vector.replicate 256 8

def vk : VerificationKey := ⟨BytesN.zero, BytesN.zero, BytesN.zero, BytesN.zero, [BytesN.zero]⟩

def keyed : List Input :=
  [⟨env 90 [], .initVerifierAdmin admin⟩, ⟨env 95 [admin], .initializeVerifier vk⟩]

def registered : List Input :=
  keyed ++ [⟨env 100 [admin], .registerProofReference admin refId proof 200⟩]

theorem registered_hash : ∀ i ∈ registered, i.env.crypto.sha256 = sha256 := by
  intro i hi
  simp only [registered, keyed, List.cons_append, List.nil_append, List.mem_cons, List.not_mem_nil,
    or_false] at hi
  rcases hi with rfl | rfl | rfl <;> rfl

end Sample

theorem reference_good_until_expiry :
    let s := runFrom next Store.empty Sample.registered
    let last := Sample.env 200 []
    verifyWithReference last s Sample.refId Sample.proof [] = .ok true ∧
      WithinLifetime last Sample.registered Sample.refId ∧
      verifyWithReference last s Sample.refId Sample.otherProof [] ≠ .ok true ∧
      ∀ p publicInputs,
        verifyWithReference (Sample.env 300 []) s Sample.refId p publicInputs = .ok false := by
  intro s last
  have hverified : verifyWithReference last s Sample.refId Sample.proof [] = .ok true := by
    decide +kernel
  have hlast := references_expire_for_good Sample.registered last Sample.refId (by decide)
    Sample.registered_hash
  have hlater := references_expire_for_good Sample.registered (Sample.env 300 []) Sample.refId
    (by decide) Sample.registered_hash
  refine ⟨hverified, (hlast.2.1 _ _ hverified).1, fun hother => ?_, ?_⟩
  · obtain ⟨-, ⟨st, hst, p', hregisters⟩, hbound⟩ := hlast.2.1 _ _ hother
    have hproof : p' = Sample.proof := by
      obtain ⟨⟨admin, expires, hcall⟩, -⟩ := hregisters
      simp only [Sample.registered, Sample.keyed, List.cons_append, List.nil_append, steps,
        List.mem_cons, List.not_mem_nil, or_false] at hst
      rcases hst with rfl | rfl | rfl <;> cases hcall
      rfl
    subst hproof
    have hpair : ¬ Collision sha256 Sample.otherProof.toList Sample.proof.toList := by
      unfold Collision
      decide +kernel
    exact absurd (hbound st hst _ hregisters hpair) (by decide)
  · have hexpired : isProofReferenceValid (Sample.env 201 []) s Sample.refId = false := by
      decide +kernel
    have hstored : ∃ reference, s.get (.proofReference Sample.refId) = some reference := ⟨_, rfl⟩
    exact ((hlater.2.2 Sample.registered [] (Sample.env 201 []) rfl (by decide) rfl hstored).1
      hexpired).2

end ZkPayroll.ProofVerifier
