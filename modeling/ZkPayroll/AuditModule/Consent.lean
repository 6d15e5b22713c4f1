import ZkPayroll.AuditModule.Revocation

/-!
# Who consents to a change of a key

The six functions that write keys authenticate in six ways. `refresh_view_key`
and `set_delegation_policy` change a key only with its grantor. The others do
not look at the grantor of what they overwrite or drop: `generate_view_key`
authenticates nobody, `extend_delegated_access` does not ask the auditor it is
called for, `delegate_view_key` asks the new parent only, and
`revoke_view_key` drops whatever the lists lead to.
-/

namespace ZkPayroll.AuditModule

open Host Relation

/-- One of the grantors of the auditor's key and of the keys above it has
authorised the call. -/
def GrantorSigns (e : LedgerEnv) (s : Storage) (auditor : Address) : Prop :=
  ∃ above record, ReflTransGen (parentLink s) auditor above ∧
    s.get (.auditorKey above) = some record ∧ record.grantedBy ∈ e.auths

/-- Somebody has authorised the call, and if the auditor has a key, one of its
grantors has. -/
def Consent (e : LedgerEnv) (s : Storage) (auditor : Address) : Prop :=
  e.auths ≠ [] ∧ (s.has (.auditorKey auditor) = true → GrantorSigns e s auditor)

/-- The step changes keys only with consent. -/
def Consented (st : Step Storage Input) : Prop :=
  ∀ auditor, st.post.get (.auditorKey auditor) ≠ st.pre.get (.auditorKey auditor) →
    Consent st.input.env st.pre auditor

/-- The calls that meet their guards and change a key without consent. -/
def Unconsented (e : LedgerEnv) (budget : Nat) (s : Storage) : Call → Prop
  | .generateViewKey auditor expirationLedger =>
    ¬ Paused e s ∧ s.get (.auditorKey auditor) ≠ some (rootRecord e auditor expirationLedger) ∧
      (e.auths = [] ∨ s.has (.auditorKey auditor) = true ∧ ¬ GrantorSigns e s auditor)
  | .delegateViewKey auditor delegate scope expirationLedger =>
    ∃ parent, CanDelegate e auditor scope expirationLedger parent s ∧
      s.get (.auditorKey delegate) ≠
        some (delegatedRecord e auditor delegate parent scope expirationLedger) ∧
      s.has (.auditorKey delegate) = true ∧ ¬ GrantorSigns e s delegate
  | .extendDelegatedAccess auditor delegate newExpirationLedger =>
    ∃ record, CanExtend e auditor delegate newExpirationLedger record s ∧
      ¬ GrantorSigns e s delegate
  | .revokeViewKey admin auditor =>
    ∃ record, GrantorCalls e admin auditor record s ∧
      (∃ t, revokeDescendants budget auditor s = .ok t) ∧
      ∃ x, s.has (.auditorKey x) = true ∧ TransGen (child s) auditor x ∧ ¬ GrantorSigns e s x
  | _ => False

section
variable {e : LedgerEnv} {s s' t : Storage} {auditor x : Address}

theorem GrantorSigns.signed (h : GrantorSigns e s x) : e.auths ≠ [] := by
  obtain ⟨_, record, -, -, hsigned⟩ := h
  exact List.ne_nil_of_mem hsigned

theorem GrantorCalls.grantorSigns (h : GrantorCalls e admin auditor record s) :
    GrantorSigns e s auditor :=
  ⟨auditor, record, .refl, h.stored, h.grantor ▸ h.signed⟩

theorem GrantorCalls.consent (h : GrantorCalls e admin auditor record s) : Consent e s auditor :=
  ⟨h.grantorSigns.signed, fun _ => h.grantorSigns⟩

theorem eq_of_key_changed
    (h : (s.set (.auditorKey auditor) record).get (.auditorKey x) ≠ s.get (.auditorKey x)) :
    x = auditor ∧ s.get (.auditorKey auditor) ≠ some record := by
  rw [key_set] at h
  split at h
  · rename_i hx
    subst hx
    exact ⟨rfl, Ne.symm h⟩
  · exact absurd rfl h

theorem Erased.eq_or_below (h : Erased auditor s t)
    (hchanged : (t.remove (.auditorKey auditor)).get (.auditorKey x) ≠ s.get (.auditorKey x)) :
    x = auditor ∨ s.has (.auditorKey x) = true ∧ TransGen (child s) auditor x := by
  by_cases hx : x = auditor
  · exact .inl hx
  · rw [ne_eq, h.key_changed hx, not_not] at hchanged
    exact .inr hchanged

theorem Effect.consented (h : Effect e budget s s' call) (hcall : ¬ Unconsented e budget s call)
    (hchanged : s'.get (.auditorKey x) ≠ s.get (.auditorKey x)) : Consent e s x := by
  cases h with
  | none hkept => exact absurd (hkept.key x) hchanged
  | generate hunpaused hafter =>
    rw [hafter] at hchanged
    obtain ⟨rfl, hnew⟩ := eq_of_key_changed hchanged
    by_contra hconsent
    refine hcall ⟨hunpaused, hnew, ?_⟩
    by_cases hsigned : e.auths = []
    · exact .inl hsigned
    · refine .inr (by_contra fun hstored => hconsent ⟨hsigned, fun hhas => ?_⟩)
      exact by_contra fun hsigns => hstored ⟨hhas, hsigns⟩
  | revoke hcalls hcascade hafter =>
    rw [hafter] at hchanged
    rcases (revokeDescendants_ok hcascade).2.eq_or_below hchanged with rfl | ⟨hhas, hbelow⟩
    · exact hcalls.consent
    · refine ⟨hcalls.grantorSigns.signed, fun _ => by_contra fun hsigns => ?_⟩
      exact hcall ⟨_, hcalls, ⟨_, hcascade⟩, x, hhas, hbelow, hsigns⟩
  | refresh hcalls _ hafter =>
    rw [hafter] at hchanged
    obtain ⟨rfl, -⟩ := eq_of_key_changed hchanged
    exact hcalls.consent
  | policy hcalls hafter =>
    rw [hafter] at hchanged
    obtain ⟨rfl, -⟩ := eq_of_key_changed hchanged
    exact hcalls.consent
  | delegate hcan hafter =>
    rw [hafter, key_delegated, ← key_set] at hchanged
    obtain ⟨rfl, hnew⟩ := eq_of_key_changed hchanged
    refine ⟨List.ne_nil_of_mem hcan.signed, fun hhas => by_contra fun hsigns => ?_⟩
    exact hcall ⟨_, hcan, hnew, hhas, hsigns⟩
  | extend hcan hafter =>
    rw [hafter] at hchanged
    obtain ⟨rfl, -⟩ := eq_of_key_changed hchanged
    have hsigns : GrantorSigns e s x := by_contra fun hsigns => hcall ⟨_, hcan, hsigns⟩
    exact ⟨hsigns.signed, fun _ => hsigns⟩

theorem Unconsented.changes (h : Unconsented i.env i.budget s i.call.canonical) :
    ∃ x, (next s i).get (.auditorKey x) ≠ s.get (.auditorKey x) ∧ ¬ Consent i.env s x := by
  generalize hname : i.call.canonical = call at h
  have hexec : exec i.env i.budget s call = exec i.env i.budget s i.call := by
    rw [← hname, exec_canonical]
  cases call with
  | generateViewKey auditor expirationLedger =>
    obtain ⟨hunpaused, hnew, hconsent⟩ := h
    rw [exec_generate hunpaused] at hexec
    refine ⟨auditor, ?_, ?_⟩
    · rw [next_ok hexec.symm, key_set, if_pos rfl]
      exact Ne.symm hnew
    · rintro ⟨hsigned, hgrantor⟩
      rcases hconsent with hnobody | ⟨hhas, hsigns⟩
      · exact hsigned hnobody
      · exact hsigns (hgrantor hhas)
  | delegateViewKey auditor delegate scope expirationLedger =>
    obtain ⟨parent, hcan, hnew, hhas, hsigns⟩ := h
    refine ⟨delegate, ?_, fun hconsent => hsigns (hconsent.2 hhas)⟩
    rw [next_ok (exec_delegate hname hcan), key_delegated, if_pos rfl]
    exact Ne.symm hnew
  | extendDelegatedAccess auditor delegate newExpirationLedger =>
    obtain ⟨record, hcan, hsigns⟩ := h
    rw [exec_extend hcan] at hexec
    refine ⟨delegate, ?_, fun hconsent => hsigns (hconsent.2 ?_)⟩
    · rw [next_ok hexec.symm, key_set, if_pos rfl, hcan.stored]
      -- the expiration moved
      intro hsame
      have hexp := congrArg ViewKeyRecord.expirationLedger (Option.some.inj hsame)
      exact absurd hexp (Nat.ne_of_gt hcan.later)
    · exact Store.has_eq_true.mpr ⟨record, hcan.stored⟩
  | revokeViewKey admin auditor =>
    obtain ⟨record, hcalls, ⟨t, hcascade⟩, x, hhas, hbelow, hsigns⟩ := h
    rw [exec_revoke hcalls hcascade] at hexec
    refine ⟨x, ?_, fun hconsent => hsigns (hconsent.2 hhas)⟩
    have hx : x ≠ auditor := by
      rintro rfl
      exact hsigns hcalls.grantorSigns
    rw [next_ok hexec.symm, ne_eq, (revokeDescendants_ok hcascade).2.key_changed hx, not_not]
    exact ⟨hhas, hbelow⟩
  | _ => exact h.elim

theorem consented_iff (s : Storage) (i : Input) :
    Consented ⟨s, i, next s i⟩ ↔ ¬ Unconsented i.env i.budget s i.call.canonical := by
  constructor
  · intro h hcall
    obtain ⟨x, hchanged, hconsent⟩ := hcall.changes
    exact hconsent (h x hchanged)
  · intro h x hchanged
    exact (next_effect s i).consented h hchanged

/-- The keys change only with consent in a run exactly when no step of it is
one of the unconsented calls. -/
theorem keys_consented_iff (inputs : List Input) :
    (∀ st ∈ steps next Store.empty inputs, Consented st) ↔
      ∀ st ∈ steps next Store.empty inputs,
        ¬ Unconsented st.input.env st.input.budget st.pre st.input.call.canonical := by
  refine forall₂_congr fun st hst => ?_
  rw [steps_eq hst]
  exact consented_iff st.pre st.input

end

/-- Nobody authorises the call, and Bob's delegated key runs on. -/
theorem extended_without_consent :
    let before := Sample.enabled ++
      [Sample.call [Sample.alice] (.delegateViewKey Sample.alice Sample.bob .fullCompany 50)]
    let extend := Sample.call [] (.extendDelegatedAccess Sample.alice Sample.bob 100)
    let s := runFrom next Store.empty before
    extend.env.auths = [] ∧
      (s.get (.auditorKey Sample.bob)).map (·.expirationLedger) = some 50 ∧
      ((next s extend).get (.auditorKey Sample.bob)).map (·.expirationLedger) = some 100 ∧
      ¬ ∀ st ∈ steps next Store.empty (before ++ [extend]), Consented st := by
  intro before extend s
  have hbefore : (s.get (.auditorKey Sample.bob)).map (·.expirationLedger) = some 50 := by
    decide +kernel
  have hafter : ((next s extend).get (.auditorKey Sample.bob)).map (·.expirationLedger) =
      some 100 := by
    decide +kernel
  refine ⟨rfl, hbefore, hafter, fun h => ?_⟩
  have hchanged : (next s extend).get (.auditorKey Sample.bob) ≠
      s.get (.auditorKey Sample.bob) := by
    intro hsame
    rw [hsame, hbefore] at hafter
    cases hafter
  exact (h _ (last_mem_steps extend) Sample.bob hchanged).1 rfl

end ZkPayroll.AuditModule
