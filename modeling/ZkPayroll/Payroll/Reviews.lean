import ZkPayroll.Payroll.Steps

/-!
# Reviews and finalization

A stored review is meant to decide whether a pending run may be finalized.
`finalize_payroll_run` asks `is_payroll_approval_expired`, which is about
approvals only: it turns a stale approval down and lets every other decision
pass.
-/

namespace ZkPayroll.Payroll

open Host

/-- The guards of `finalize_payroll_run` without the one that reads the
review. -/
def FinalizeReady (e : Env) (admin : Address) (runId : Nat) (s : Storage) : Prop :=
  ¬ Paused e s ∧ runId ≠ u64Max ∧
    ∃ addrs, s.get .addresses = some addrs ∧ admin = addrs.admin ∧ admin ∈ e.auths ∧
    ∃ p, s.get (.pendingRun runId) = some p ∧ s.get (.payrollRun runId) = none ∧
      InI128 (getLockedFunds s addrs.token - p.totalAmount)

/-- The review clears the run for finalization at this time. -/
def RunReview.Clears (review : RunReview) (timestamp : Nat) : Prop :=
  review.decision = .approved ∧
    timestamp ≤ review.reviewedAt + defaultApprovalExpirySeconds

section
variable {e : Env} {s : Storage} {w : World}

theorem canFinalize_split : CanFinalize e admin runId s ↔
    FinalizeReady e admin runId s ∧
      isPayrollApprovalExpired e s runId defaultApprovalExpirySeconds = false := by
  unfold CanFinalize FinalizeReady
  constructor
  · rintro ⟨hpaused, hid, addrs, haddrs, hadmin, hauth, p, hp, hlive, hfree, hfits⟩
    exact ⟨⟨hpaused, hid, addrs, haddrs, hadmin, hauth, p, hp, hfree, hfits⟩, hlive⟩
  · rintro ⟨⟨hpaused, hid, addrs, haddrs, hadmin, hauth, p, hp, hfree, hfits⟩, hlive⟩
    exact ⟨hpaused, hid, addrs, haddrs, hadmin, hauth, p, hp, hlive, hfree, hfits⟩

theorem approval_unexpired (hreview : s.get (.runReview runId) = some review)
    (happroved : review.decision = .approved)
    (h : isPayrollApprovalExpired e s runId maxAge = false) :
    e.timestamp ≤ review.reviewedAt + maxAge := by
  simp only [isPayrollApprovalExpired, hreview, happroved, ↓reduceIte, decide_eq_false_iff_not,
    not_lt] at h
  omega

theorem unapproved_unexpired (hreview : s.get (.runReview runId) = some review)
    (hother : review.decision ≠ .approved) :
    isPayrollApprovalExpired e s runId maxAge = false := by
  simp [isPayrollApprovalExpired, hreview, hother]

theorem finalize_accepted_iff :
    ¬ Rejected e (.finalizePayrollRun admin runId) w ↔ CanFinalize e admin runId w.payroll := by
  rw [canFinalize_iff]
  constructor
  · intro haccepted
    by_contra hnone
    refine haccepted fun ret w' hok => ?_
    obtain ⟨s', hf, -, -⟩ := onStorage_ok.mp hok
    exact hnone ⟨s', hf⟩
  · rintro ⟨s', hf⟩ hrejected
    exact hrejected _ _ (onStorage_ok.mpr ⟨s', hf, rfl, rfl⟩)

/-- In every world, reachable or not, and for every reviewed run, finalization
needs a fresh approval exactly when the stored decision is an approval or the
other guards turn the call down anyway. -/
theorem finalization_needs_approval_iff
    (hreview : w.payroll.get (.runReview runId) = some review) (e : Env) (admin : Address) :
    (¬ Rejected e (.finalizePayrollRun admin runId) w → review.Clears e.timestamp) ↔
      (review.decision = .approved ∨ ¬ FinalizeReady e admin runId w.payroll) := by
  rw [finalize_accepted_iff, canFinalize_split]
  constructor
  · intro hclears
    by_contra hcon
    obtain ⟨hother, hready⟩ := not_or.mp hcon
    exact hother (hclears ⟨not_not.mp hready, unapproved_unexpired hreview hother⟩).1
  · rintro (happroved | hnot) ⟨hready, hlive⟩
    · exact ⟨happroved, approval_unexpired hreview happroved hlive⟩
    · exact absurd hready hnot

end

-- ---------------------------------------------------------------------------
-- A rejected run is finalized
-- ---------------------------------------------------------------------------

def Sample.reviewed (review : Call) : List Input :=
  Sample.onePending ++
    [Sample.call [Sample.admin] (.addReviewer Sample.admin Sample.bob),
      Sample.call [Sample.bob] review]

theorem approved_run_cleared :
    let w := runFrom next World.genesis (Sample.reviewed (.approvePayrollRun Sample.bob 1))
    let review : RunReview := ⟨1, Sample.bob, .approved, "approved", 100⟩
    w.payroll.get (.runReview 1) = some review ∧
      (¬ Rejected (Sample.env [Sample.admin]) (.finalizePayrollRun Sample.admin 1) w →
        review.Clears 100) := by
  intro w review
  have hreview : w.payroll.get (.runReview 1) = some review := rfl
  exact ⟨hreview, (finalization_needs_approval_iff hreview
    (Sample.env [Sample.admin]) Sample.admin).mpr (.inl rfl)⟩

/-- The latest review of the run is a rejection, and the run is finalized. -/
theorem rejected_run_finalized :
    let w := runFrom next World.genesis (Sample.reviewed (.rejectPayrollRun Sample.bob 1 "policy"))
    let review : RunReview := ⟨1, Sample.bob, .rejected, "policy", 100⟩
    let call : Call := .finalizePayrollRun Sample.admin 1
    Reached w ∧ w.payroll.get (.runReview 1) = some review ∧
      ¬ Rejected (Sample.env [Sample.admin]) call w ∧
      ((next w (Sample.call [Sample.admin] call)).payroll.get (.payrollRun 1)).isSome = true ∧
      ¬ review.Clears 100 := by
  intro w review call
  refine ⟨reachable_runFrom, rfl, fun h => h .unit _ rfl, by decide +kernel, ?_⟩
  rintro ⟨⟨⟩, -⟩

end ZkPayroll.Payroll
