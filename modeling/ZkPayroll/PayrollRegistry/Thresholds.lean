import ZkPayroll.PayrollRegistry.AdminIndex

/-!
# Approval thresholds

A threshold is set once and from then on changes through a proposal that waits
out its grace period. The functions on a proposal compare their caller with
the admin of the company; the one that sets the first threshold does not, so
anyone can set it, also for a company that is not registered yet.
-/

namespace ZkPayroll.PayrollRegistry

open Host

structure ThresholdsKept (s s' : Storage) : Prop where
  threshold : ∀ c, s'.get (.approvalThreshold c) = s.get (.approvalThreshold c)
  pending : ∀ c, s'.get (.pendingThresholdRotation c) = s.get (.pendingThresholdRotation c)

section
variable {e : LedgerEnv} {s s' : Storage}

-- ---------------------------------------------------------------------------
-- What the calls do to thresholds
-- ---------------------------------------------------------------------------

def Call.settles (companyId : Nat) : Call → Prop
  | .proposeThresholdRotation c _ _ _ | .activateThresholdRotation c _
  | .cancelThresholdRotation c _ => c = companyId
  | _ => False

inductive ThresholdEffect (e : LedgerEnv) (s s' : Storage) : Call → Prop
  | kept (hcall : ∀ c, ¬ Call.settles c call) (hkept : ThresholdsKept s s') :
      ThresholdEffect e s s' call
  | propose (hcalls : ThresholdAdminCalls e companyId admin s) (hpositive : newThreshold ≠ 0)
      (hafter : s' = s.set (.pendingThresholdRotation companyId)
        ⟨companyId, newThreshold, e.timestamp, admin, e.timestamp + gracePeriodSeconds⟩) :
      ThresholdEffect e s s'
        (.proposeThresholdRotation companyId admin newThreshold gracePeriodSeconds)
  | activate (hcalls : ThresholdAdminCalls e companyId admin s)
      (hpending : s.get (.pendingThresholdRotation companyId) = some pending)
      (hdue : pending.effectiveAfter ≤ e.timestamp)
      (hafter : s' = (s.set (.approvalThreshold companyId)
        ⟨companyId, pending.newThreshold, e.timestamp, admin, true⟩).remove
          (.pendingThresholdRotation companyId)) :
      ThresholdEffect e s s' (.activateThresholdRotation companyId admin)
  | cancel (hcalls : ThresholdAdminCalls e companyId admin s)
      (hafter : s' = s.remove (.pendingThresholdRotation companyId)) :
      ThresholdEffect e s s' (.cancelThresholdRotation companyId admin)
  | setInitial (hcan : CanSetInitial e companyId admin requiredApprovals s)
      (hafter : s' = s.set (.approvalThreshold companyId)
        ⟨companyId, requiredApprovals, e.timestamp, admin, true⟩) :
      ThresholdEffect e s s' (.setInitialApprovalThreshold companyId admin requiredApprovals)

theorem not_settles {call : Call} (h : call.isEmployment = true ∨ call.isRotation = true)
    (c : Nat) : ¬ call.settles c := by
  cases call <;> simp [Call.isEmployment, Call.isRotation, Call.settles] at h ⊢

theorem Effect.thresholdEffect (h : Effect e s s' call) : ThresholdEffect e s s' call := by
  cases h with
  | employment hcall _ hkept =>
    exact .kept (not_settles (.inl hcall)) ⟨fun c => hkept _ (by simp [DataKey.isEmployment]),
      fun c => hkept _ (by simp [DataKey.isEmployment])⟩
  | rotation hcall _ hkept =>
    exact .kept (not_settles (.inr hcall)) ⟨fun c => hkept _ (by simp [DataKey.isRotation]),
      fun c => hkept _ (by simp [DataKey.isRotation])⟩
  | pauseManager _ hafter | acceptTreasury _ _ hafter =>
    subst hafter
    exact .kept (fun _ hcall => hcall) ⟨by simp, by simp⟩
  | register _ hafter =>
    subst hafter
    exact .kept (fun _ hcall => hcall) ⟨by simp [registered], by simp [registered]⟩
  | acceptAdmin _ hafter =>
    subst hafter
    exact .kept (fun _ hcall => hcall) ⟨by simp [adminRotated], by simp [adminRotated]⟩
  | proposeThreshold hcalls hpositive hafter => exact .propose hcalls hpositive hafter
  | activateThreshold hcalls hpending hdue hafter => exact .activate hcalls hpending hdue hafter
  | cancelThreshold hcalls hafter => exact .cancel hcalls hafter
  | setInitial hcan hafter => exact .setInitial hcan hafter

-- ---------------------------------------------------------------------------
-- Whose thresholds they are
-- ---------------------------------------------------------------------------

def AdminSigns (e : LedgerEnv) (s : Storage) (companyId : Nat) : Prop :=
  ∃ admin, AdminOf s companyId admin ∧ admin ∈ e.auths

/-- A step that changes the threshold of a company, or the pending rotation of
one, is signed by the admin of that company. -/
def Owned (st : Step Storage Input) : Prop :=
  ∀ c, (st.post.get (.approvalThreshold c) ≠ st.pre.get (.approvalThreshold c) ∨
      st.post.get (.pendingThresholdRotation c) ≠ st.pre.get (.pendingThresholdRotation c)) →
    AdminSigns st.input.env st.pre c

/-- The step sets the first threshold of a company without a signature of the
company's admin. -/
def SetByOther (st : Step Storage Input) : Prop :=
  ∃ companyId admin requiredApprovals,
    st.input.call = .setInitialApprovalThreshold companyId admin requiredApprovals ∧
    CanSetInitial st.input.env companyId admin requiredApprovals st.pre ∧
    ¬ AdminSigns st.input.env st.pre companyId

theorem ThresholdAdminCalls.adminSigns (h : ThresholdAdminCalls e companyId admin s) :
    AdminSigns e s companyId := ⟨admin, h.current, h.signed⟩

theorem ThresholdEffect.changed (h : ThresholdEffect e s s' call)
    (hchange : s'.get (.approvalThreshold c) ≠ s.get (.approvalThreshold c) ∨
      s'.get (.pendingThresholdRotation c) ≠ s.get (.pendingThresholdRotation c)) :
    AdminSigns e s c ∨ ∃ admin requiredApprovals,
      call = .setInitialApprovalThreshold c admin requiredApprovals ∧
        CanSetInitial e c admin requiredApprovals s := by
  cases h with
  | kept _ hkept => simp [hkept.threshold, hkept.pending] at hchange
  | @propose companyId _ _ _ hcalls _ hafter | @activate companyId _ _ hcalls _ _ hafter
  | @cancel companyId _ hcalls hafter =>
    by_cases hc : c = companyId
    · subst hc
      exact .inl hcalls.adminSigns
    · subst hafter
      simp [hc] at hchange
  | @setInitial companyId admin requiredApprovals hcan hafter =>
    by_cases hc : c = companyId
    · subst hc
      exact .inr ⟨admin, requiredApprovals, rfl, hcan⟩
    · subst hafter
      simp [hc] at hchange

theorem owned_iff (s : Storage) (i : Input) :
    Owned ⟨s, i, next s i⟩ ↔ ¬ SetByOther ⟨s, i, next s i⟩ := by
  constructor
  · rintro h ⟨companyId, admin, requiredApprovals, hcall, hcan, hother⟩
    have hok := setInitialApprovalThreshold_ok.mpr ⟨hcan, rfl⟩
    have hnext : next s i = s.set (.approvalThreshold companyId)
        ⟨companyId, requiredApprovals, i.env.timestamp, admin, true⟩ := by
      apply next_ok
      rw [show i.call = _ from hcall]
      exact hok
    refine hother (h companyId (.inl ?_))
    have hunset : s.get (.approvalThreshold companyId) = none := hcan.unset
    simp [hnext, hunset]
  · intro h c hchange
    rcases next_cases s i with hsame | hok
    · simp [hsame] at hchange
    rcases (exec_effect hok).thresholdEffect.changed hchange with
      hsigns | ⟨admin, required, hcall, hcan⟩
    · exact hsigns
    · by_contra hother
      exact h ⟨c, admin, required, hcall, hcan, hother⟩

/-- Thresholds are written only with the signature of the company's admin in
exactly those runs in which no first threshold is set without it. -/
theorem thresholds_owned_iff (inputs : List Input) :
    (∀ st ∈ steps next Store.empty inputs, Owned st) ↔
      ∀ st ∈ steps next Store.empty inputs, ¬ SetByOther st := by
  refine forall₂_congr fun st hst => ?_
  rw [steps_eq hst]
  exact owned_iff st.pre st.input

/-- Mallory sets the threshold of company 0 before it is registered, and its
admin cannot set it after that. -/
theorem first_threshold_by_stranger :
    let seize := Sample.call [Sample.mallory] (.setInitialApprovalThreshold 0 Sample.mallory 1000)
    let s := runFrom next Store.empty (seize :: Sample.companies)
    (next Store.empty seize).get (.approvalThreshold 0) =
        some ⟨0, 1000, 100, Sample.mallory, true⟩ ∧
      (s.get (.company 0)).map (·.admin) = some Sample.alice ∧
      setInitialApprovalThreshold (Sample.env 100 [Sample.alice]) 0 Sample.alice 2 s =
        .error "Approval threshold already configured for this company" ∧
      ¬ ∀ st ∈ steps next Store.empty (seize :: Sample.companies), Owned st := by
  intro seize s
  have hset : (next Store.empty seize).get (.approvalThreshold 0) =
      some ⟨0, 1000, 100, Sample.mallory, true⟩ := by decide +kernel
  refine ⟨hset, by decide +kernel, rfl, fun h => ?_⟩
  have hchange : (next Store.empty seize).get (.approvalThreshold 0) ≠
      (Store.empty : Storage).get (.approvalThreshold 0) := by
    rw [hset]
    simp
  obtain ⟨admin, ⟨info, hinfo, -⟩, -⟩ := h _ List.mem_cons_self 0 (.inl hchange)
  have hinfo : (Store.empty : Storage).get (.company 0) = some info := hinfo
  simp at hinfo

-- ---------------------------------------------------------------------------
-- The grace period
-- ---------------------------------------------------------------------------

def Settles (companyId : Nat) (s : Storage) (i : Input) : Prop :=
  i.call.settles companyId ∧ exec i.env s i.call = .ok (next s i)

/-- Among the inputs is a proposal of `newThreshold` for the company that its
admin at that point made, that has waited out its grace period at `timestamp`,
and that no proposal, activation or cancellation for the company followed. -/
def ProposedInTime (before : List Input) (timestamp companyId newThreshold : Nat) : Prop :=
  ∃ first proposal between admin gracePeriodSeconds,
    before = first ++ proposal :: between ∧
    proposal.call = .proposeThresholdRotation companyId admin newThreshold gracePeriodSeconds ∧
    Settles companyId (runFrom next Store.empty first) proposal ∧
    AdminOf (runFrom next Store.empty first) companyId admin ∧ admin ∈ proposal.env.auths ∧
    proposal.env.timestamp + gracePeriodSeconds ≤ timestamp ∧
    ∀ st ∈ steps next (next (runFrom next Store.empty first) proposal) between,
      ¬ Settles companyId st.pre st.input

structure Positive (s : Storage) : Prop where
  threshold : ∀ c t, s.get (.approvalThreshold c) = some t → 1 ≤ t.requiredApprovals
  pending : ∀ c p, s.get (.pendingThresholdRotation c) = some p → 1 ≤ p.newThreshold

theorem pending_kept (i : Input) (h : ¬ Settles companyId s i) :
    (next s i).get (.pendingThresholdRotation companyId) =
      s.get (.pendingThresholdRotation companyId) := by
  rcases next_cases s i with hsame | hok
  · rw [hsame]
  have hcall : ¬ i.call.settles companyId := fun hcall => h ⟨hcall, hok⟩
  have heffect := (exec_effect hok).thresholdEffect
  generalize i.call = call at hcall heffect
  cases heffect with
  | kept _ hkept => exact hkept.pending companyId
  | @propose c _ _ _ _ _ hafter | @activate c _ _ _ _ _ hafter | @cancel c _ _ hafter =>
    have hc : companyId ≠ c := fun hc => hcall hc.symm
    simp [hafter, hc]
  | setInitial _ hafter => simp [hafter]

/-- A pending rotation is the work of the last call that could touch it, which
was a proposal. -/
theorem pending_proposed
    (h : (runFrom next Store.empty before).get (.pendingThresholdRotation companyId) =
      some pending) (hdue : pending.effectiveAfter ≤ timestamp) :
    ProposedInTime before timestamp companyId pending.newThreshold := by
  obtain ⟨first, proposal, between, rfl, hsettles, hvalue, hbetween⟩ :=
    last_writer (fun s : Storage => s.get (.pendingThresholdRotation companyId))
      (Settles companyId) (by simp) (fun s i => pending_kept i) h
  refine ⟨first, proposal, between, ?_⟩
  have hcall := hsettles.1
  have heffect := (exec_effect hsettles.2).thresholdEffect
  generalize proposal.call = call at hcall heffect ⊢
  cases heffect with
  | kept hother => exact absurd hcall (hother companyId)
  | propose hcalls _ hafter =>
    obtain rfl : _ = companyId := hcall
    simp only [hafter, Store.get_set_self, Option.some.injEq] at hvalue
    subst hvalue
    exact ⟨_, _, rfl, rfl, hsettles, hcalls.current, hcalls.signed, hdue, hbetween⟩
  | activate _ _ _ hafter | cancel _ hafter =>
    obtain rfl : _ = companyId := hcall
    simp [hafter] at hvalue
  | setInitial => cases hcall

theorem threshold_activated (hstored : s.get (.approvalThreshold companyId) = some old)
    (hchange : (next s i).get (.approvalThreshold companyId) ≠ some old) :
    ∃ admin pending, s.get (.pendingThresholdRotation companyId) = some pending ∧
      pending.effectiveAfter ≤ i.env.timestamp ∧
      (next s i).get (.approvalThreshold companyId) =
        some ⟨companyId, pending.newThreshold, i.env.timestamp, admin, true⟩ := by
  rcases next_cases s i with hsame | hok
  · rw [hsame] at hchange
    exact absurd hstored hchange
  have heffect := (exec_effect hok).thresholdEffect
  generalize next s i = s' at hchange heffect ⊢
  generalize i.call = call at heffect
  cases heffect with
  | kept _ hkept => exact absurd ((hkept.threshold companyId).trans hstored) hchange
  | propose _ _ hafter | cancel _ hafter => simp [hafter, hstored] at hchange
  | @activate c admin pending _ hpending hdue hafter =>
    by_cases hc : companyId = c
    · subst hc
      exact ⟨admin, pending, hpending, hdue, by simp [hafter]⟩
    · simp [hafter, hc, hstored] at hchange
  | @setInitial c _ _ hcan hafter =>
    by_cases hc : companyId = c
    · subst hc
      rw [hcan.unset] at hstored
      cases hstored
    · simp [hafter, hc, hstored] at hchange

theorem Positive.set_threshold (h : Positive s) (ht : 1 ≤ t.requiredApprovals) :
    Positive (s.set (.approvalThreshold companyId) t) := by
  refine ⟨fun c t' hget => ?_, fun c p hget => h.pending c p (by simpa using hget)⟩
  by_cases hc : c = companyId
  · subst hc
    simp only [Store.get_set_self, Option.some.injEq] at hget
    exact hget ▸ ht
  · exact h.threshold c t' (by simpa [hc] using hget)

theorem Positive.set_pending (h : Positive s) (hp : 1 ≤ p.newThreshold) :
    Positive (s.set (.pendingThresholdRotation companyId) p) := by
  refine ⟨fun c t hget => h.threshold c t (by simpa using hget), fun c p' hget => ?_⟩
  by_cases hc : c = companyId
  · subst hc
    simp only [Store.get_set_self, Option.some.injEq] at hget
    exact hget ▸ hp
  · exact h.pending c p' (by simpa [hc] using hget)

theorem Positive.remove_pending (h : Positive s) :
    Positive (s.remove (.pendingThresholdRotation companyId)) := by
  refine ⟨fun c t hget => h.threshold c t (by simpa using hget), fun c p hget => ?_⟩
  by_cases hc : c = companyId
  · subst hc
    simp at hget
  · exact h.pending c p (by simpa [hc] using hget)

theorem next_positive (i : Input) (h : Positive s) : Positive (next s i) := by
  rcases next_cases s i with hsame | hok
  · rwa [hsame]
  have heffect := (exec_effect hok).thresholdEffect
  generalize next s i = s' at heffect ⊢
  generalize i.call = call at heffect
  cases heffect with
  | kept _ hkept =>
    exact ⟨fun c t hget => h.threshold c t (by rwa [← hkept.threshold]),
      fun c p hget => h.pending c p (by rwa [← hkept.pending])⟩
  | propose _ hpositive hafter =>
    rw [hafter]
    exact h.set_pending (Nat.one_le_iff_ne_zero.mpr hpositive)
  | activate _ hpending _ hafter =>
    rw [hafter]
    exact (h.set_threshold (h.pending _ _ hpending)).remove_pending
  | cancel _ hafter =>
    rw [hafter]
    exact h.remove_pending
  | setInitial hcan hafter =>
    rw [hafter]
    exact h.set_threshold (Nat.one_le_iff_ne_zero.mpr hcan.positive)

theorem reached_positive (h : Reached s) : Positive s :=
  run_invariant (I := Positive) ⟨by simp, by simp⟩ (fun _ i hs => next_positive i hs) h

/-- In every run, a threshold that is there changes only to what a proposal of
the company's admin named, after the grace period of that proposal and before
anything else happened to it; and every threshold asks for an approval. -/
theorem threshold_change_waits (inputs : List Input) :
    (∀ before i after companyId old, inputs = before ++ i :: after →
      (runFrom next Store.empty before).get (.approvalThreshold companyId) = some old →
      (runFrom next Store.empty (before ++ [i])).get (.approvalThreshold companyId) ≠ some old →
      ∃ new, (runFrom next Store.empty (before ++ [i])).get (.approvalThreshold companyId) =
          some new ∧
        ProposedInTime before i.env.timestamp companyId new.requiredApprovals) ∧
      ∀ st ∈ steps next Store.empty inputs, ∀ companyId threshold,
        st.post.get (.approvalThreshold companyId) = some threshold →
          1 ≤ threshold.requiredApprovals := by
  constructor
  · intro before i after companyId old _ hstored hchange
    rw [runFrom_snoc] at hchange ⊢
    obtain ⟨admin, pending, hpending, hdue, hafter⟩ := threshold_activated hstored hchange
    exact ⟨_, hafter, pending_proposed hpending hdue⟩
  · intro st hst companyId threshold hget
    have hreached : Reached st.post := by
      rw [steps_post hst]
      exact reachable_next (steps_reachable hst) st.input
    exact (reached_positive hreached).threshold companyId threshold hget

end

def Sample.proposed : List Input :=
  Sample.companies ++
    [Sample.call [Sample.alice] (.setInitialApprovalThreshold 0 Sample.alice 2),
      Sample.call [Sample.alice] (.proposeThresholdRotation 0 Sample.alice 3 3600)]

theorem activation_after_grace :
    let early : Input := ⟨Sample.env 3699 [Sample.alice], .activateThresholdRotation 0 Sample.alice⟩
    let due : Input := ⟨Sample.env 3700 [Sample.alice], .activateThresholdRotation 0 Sample.alice⟩
    let before := Sample.proposed ++ [early]
    ((runFrom next Store.empty before).get (.approvalThreshold 0)).map (·.requiredApprovals) =
        some 2 ∧
      ((runFrom next Store.empty (before ++ [due])).get (.approvalThreshold 0)).map
        (·.requiredApprovals) = some 3 ∧
      ProposedInTime before 3700 0 3 := by
  intro early due before
  have hold : (runFrom next Store.empty before).get (.approvalThreshold 0) =
      some ⟨0, 2, 100, Sample.alice, true⟩ := by decide +kernel
  have hnew : (runFrom next Store.empty (before ++ [due])).get (.approvalThreshold 0) =
      some ⟨0, 3, 3700, Sample.alice, true⟩ := by decide +kernel
  obtain ⟨new, hget, hproposed⟩ := (threshold_change_waits (before ++ [due])).1 before due [] 0 _ rfl
    hold (by rw [hnew]; decide)
  rw [hnew] at hget
  obtain rfl := Option.some.inj hget
  exact ⟨by rw [hold]; rfl, by rw [hnew]; rfl, hproposed⟩

end ZkPayroll.PayrollRegistry
