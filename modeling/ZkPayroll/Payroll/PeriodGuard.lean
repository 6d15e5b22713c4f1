import ZkPayroll.Payroll.Steps

/-!
# One pending draft for each period

`create_run_draft` turns a period down while `ActiveDraftForPeriod` has an
entry for it. The entry is written with the draft and nothing removes it, so
a period has at most one draft ever, and the entry stands for a pending draft
exactly as long as that draft is still pending.
-/

namespace ZkPayroll.Payroll

open Host

def PendingDraft (s : Storage) (periodLabel : Symbol) : Prop :=
  ∃ draftId draft, s.get (.runDraft draftId) = some draft ∧ draft.periodLabel = periodLabel ∧
    draft.state = .pending

/-- The index has an entry for exactly the periods with a pending draft. -/
def PeriodIndexExact (s : Storage) : Prop :=
  ∀ periodLabel, s.get (.activeDraftForPeriod periodLabel) ≠ none ↔ PendingDraft s periodLabel

def DraftsPending (s : Storage) : Prop :=
  ∀ draftId draft, s.get (.runDraft draftId) = some draft → draft.state = .pending

def draftClosers (admin : Address) (draftId : Nat) : List Call :=
  [.finalizeRunDraft admin draftId, .submitRunDraft admin draftId, .cancelRunDraft admin draftId,
    .expireRunDraft admin draftId]

def ClosesDraft (i : Input) (s : Storage) : Prop :=
  ∃ admin draftId, (∃ call ∈ draftClosers admin draftId, i.message = .payroll call) ∧
    ¬ Paused i.env s ∧ AdminCalls i.env s admin ∧
    ∃ draft, s.get (.runDraft draftId) = some draft ∧ draft.state = .pending

/-- Each draft has the entry of its period, each entry its draft, and drafts
are numbered up to the counter. -/
structure DraftsIndexed (s : Storage) : Prop where
  indexed : ∀ draftId draft, s.get (.runDraft draftId) = some draft →
    s.get (.activeDraftForPeriod draft.periodLabel) = some draftId
  entry : ∀ periodLabel draftId, s.get (.activeDraftForPeriod periodLabel) = some draftId →
    ∃ draft, s.get (.runDraft draftId) = some draft ∧ draft.periodLabel = periodLabel
  numbered : ∀ draftId, draftCount s < draftId → s.get (.runDraft draftId) = none

section
variable {e : Env} {s s' : Storage} {w w' : World} {i : Input}

-- ---------------------------------------------------------------------------
-- The index in reachable states
-- ---------------------------------------------------------------------------

theorem DraftsIndexed.replace (h : DraftsIndexed s) (hstored : s.get (.runDraft draftId) = some draft)
    (hperiod : new.periodLabel = draft.periodLabel) :
    DraftsIndexed (s.set (.runDraft draftId) new) where
  indexed other draft' hget := by
    by_cases hsame : other = draftId
    · subst hsame
      obtain rfl : new = draft' := by simpa using hget
      have hentry := h.indexed other draft hstored
      rw [← hperiod] at hentry
      simpa using hentry
    · simpa using h.indexed other draft' (by simpa [hsame] using hget)
  entry periodLabel other hget := by
    obtain ⟨draft', hdraft', hlabel⟩ := h.entry periodLabel other (by simpa using hget)
    by_cases hsame : other = draftId
    · subst hsame
      obtain rfl : draft = draft' := by simpa [hstored] using hdraft'
      exact ⟨new, by simp, hperiod.trans hlabel⟩
    · exact ⟨draft', by simpa [hsame] using hdraft', hlabel⟩
  numbered other hlt := by
    have hnone := h.numbered other (by simpa [draftCount] using hlt)
    have hne : other ≠ draftId := by
      rintro rfl
      simp [hstored] at hnone
    simpa [hne] using hnone

theorem DraftsIndexed.add (h : DraftsIndexed s)
    (hfree : s.get (.activeDraftForPeriod periodLabel) = none)
    (hperiod : new.periodLabel = periodLabel) :
    DraftsIndexed (((s.set .runDraftCounter (draftCount s + 1)).set (.runDraft (draftCount s + 1))
      new).set (.activeDraftForPeriod periodLabel) (draftCount s + 1)) where
  indexed draftId draft hget := by
    by_cases hsame : draftId = draftCount s + 1
    · subst hsame
      obtain rfl : new = draft := by simpa using hget
      subst hperiod
      simp
    · have hentry := h.indexed draftId draft (by simpa [hsame] using hget)
      have hne : draft.periodLabel ≠ periodLabel := by
        intro hlabel
        rw [hlabel, hfree] at hentry
        cases hentry
      simpa [hne] using hentry
  entry label draftId hget := by
    by_cases hsame : label = periodLabel
    · subst hsame
      obtain rfl : draftCount s + 1 = draftId := by simpa using hget
      exact ⟨new, by simp, hperiod⟩
    · obtain ⟨draft, hdraft, hlabel⟩ := h.entry label draftId (by simpa [hsame] using hget)
      have hne : draftId ≠ draftCount s + 1 := by
        rintro rfl
        have hnone := h.numbered _ (Nat.lt_succ_self (draftCount s))
        simp [hdraft] at hnone
      exact ⟨draft, by simpa [hne] using hdraft, hlabel⟩
  numbered draftId hlt := by
    have hlt : draftCount s + 1 < draftId := by simpa [draftCount] using hlt
    have hne : draftId ≠ draftCount s + 1 := by omega
    simpa [hne] using h.numbered draftId (by omega)

theorem DraftsIndexed.of_get (h : DraftsIndexed s)
    (hdrafts : ∀ draftId, s'.get (.runDraft draftId) = s.get (.runDraft draftId))
    (hentries : ∀ periodLabel, s'.get (.activeDraftForPeriod periodLabel) =
      s.get (.activeDraftForPeriod periodLabel))
    (hcount : s'.get .runDraftCounter = s.get .runDraftCounter) : DraftsIndexed s' where
  indexed draftId draft hget := by
    rw [hentries]
    exact h.indexed draftId draft (by rw [← hdrafts]; exact hget)
  entry periodLabel draftId hget := by
    rw [hdrafts]
    exact h.entry periodLabel draftId (by rw [← hentries]; exact hget)
  numbered draftId hlt := by
    rw [hdrafts]
    exact h.numbered draftId (by rwa [draftCount, hcount] at hlt)

theorem exec_draftsIndexed (hok : exec e call w = .ok (ret, w')) (h : DraftsIndexed w.payroll) :
    DraftsIndexed w'.payroll := by
  cases call with
  | createRunDraft =>
    obtain ⟨_, _, hf, -, rfl⟩ := onStorageRet_ok.mp hok
    obtain ⟨-, -, -, -, hfree, -, -, rfl⟩ := createRunDraft_ok.mp hf
    exact h.add hfree rfl
  | amendRunDraft =>
    obtain ⟨_, hf, -, rfl⟩ := onStorage_ok.mp hok
    obtain ⟨-, -, -, draft, hstored, -, -, -, rfl⟩ := amendRunDraft_ok.mp hf
    exact h.replace hstored rfl
  | finalizeRunDraft =>
    obtain ⟨_, hf, -, rfl⟩ := onStorage_ok.mp hok
    obtain ⟨-, -, draft, hstored, -, rfl⟩ := finalizeRunDraft_ok.mp hf
    exact h.replace hstored rfl
  | submitRunDraft | cancelRunDraft | expireRunDraft =>
    obtain ⟨_, hf, -, rfl⟩ := onStorage_ok.mp hok
    obtain ⟨-, -, draft, hstored, -, rfl⟩ := closeRunDraft_ok.mp hf
    exact h.replace hstored rfl
  | _ =>
    exact h.of_get (fun _ => exec_keeps hok rfl)
      (fun _ => exec_keeps hok rfl) (exec_keeps hok rfl)

theorem Reached.draftsIndexed (hw : Reached w) : DraftsIndexed w.payroll :=
  payroll_invariant ⟨by simp, by simp, by simp⟩ (fun _ => exec_draftsIndexed) hw

theorem DraftsIndexed.exact_iff (h : DraftsIndexed s) :
    PeriodIndexExact s ↔ DraftsPending s := by
  constructor
  · intro hexact draftId draft hstored
    have hentry := h.indexed draftId draft hstored
    obtain ⟨other, draft', hstored', hlabel, hpending⟩ :=
      (hexact draft.periodLabel).mp (by simp [hentry])
    have hentry' := h.indexed other draft' hstored'
    rw [hlabel, hentry] at hentry'
    obtain rfl : draftId = other := Option.some.inj hentry'
    obtain rfl : draft = draft' := by simpa [hstored] using hstored'
    exact hpending
  · intro hall periodLabel
    constructor
    · intro hentry
      obtain ⟨draftId, hentry⟩ := Option.ne_none_iff_exists'.mp hentry
      obtain ⟨draft, hstored, hlabel⟩ := h.entry periodLabel draftId hentry
      exact ⟨draftId, draft, hstored, hlabel, hall draftId draft hstored⟩
    · rintro ⟨draftId, draft, hstored, rfl, -⟩
      simp [h.indexed draftId draft hstored]

-- ---------------------------------------------------------------------------
-- Steps
-- ---------------------------------------------------------------------------

theorem next_closes (h : ClosesDraft i w.payroll) :
    ∃ draftId draft, (next w i).payroll.get (.runDraft draftId) = some draft ∧
      draft.state ≠ .pending := by
  obtain ⟨admin, draftId, ⟨call, hcloser, hm⟩, hunpaused, hadmin, draft, hstored, hpending⟩ := h
  have hclose : ∀ target : RunDraftState, target ≠ .pending → closeRunDraft i.env admin draftId target
      w.payroll = .ok (w.payroll.set (.runDraft draftId) { draft with state := target }) := by
    intro target htarget
    refine closeRunDraft_ok.mpr ⟨hunpaused, hadmin, draft, hstored, ?_, rfl⟩
    rw [hpending]
    cases target with
    | pending => exact absurd rfl htarget
    | _ => rfl
  simp only [draftClosers, List.mem_cons, List.not_mem_nil, or_false] at hcloser
  rcases hcloser with rfl | rfl | rfl | rfl
  · have hf := finalizeRunDraft_ok.mpr ⟨hunpaused, hadmin, draft, hstored, hpending, rfl⟩
    refine ⟨draftId, { draft with state := .finalized }, ?_, by simp⟩
    rw [next_stores hm rfl hf]
    exact Store.get_set_self _ _ _
  · refine ⟨draftId, { draft with state := .submitted }, ?_, by simp⟩
    rw [next_stores hm rfl (hclose .submitted (by simp))]
    exact Store.get_set_self _ _ _
  · refine ⟨draftId, { draft with state := .cancelled }, ?_, by simp⟩
    rw [next_stores hm rfl (hclose .cancelled (by simp))]
    exact Store.get_set_self _ _ _
  · refine ⟨draftId, { draft with state := .expired }, ?_, by simp⟩
    rw [next_stores hm rfl (hclose .expired (by simp))]
    exact Store.get_set_self _ _ _

theorem exec_draftsPending (hx : Executes i w call ret w') (hnot : ¬ ClosesDraft i w.payroll)
    (h : DraftsPending w.payroll) : DraftsPending w'.payroll := by
  obtain ⟨hm, hok⟩ := hx
  intro draftId draft hget
  cases call with
  | createRunDraft =>
    obtain ⟨_, _, hf, -, rfl⟩ := onStorageRet_ok.mp hok
    obtain ⟨-, -, -, -, -, -, -, rfl⟩ := createRunDraft_ok.mp hf
    by_cases hsame : draftId = draftCount w.payroll + 1
    · subst hsame
      obtain rfl := by simpa using hget
      rfl
    · exact h draftId draft (by simpa [hsame] using hget)
  | amendRunDraft _ amended =>
    obtain ⟨_, hf, -, rfl⟩ := onStorage_ok.mp hok
    obtain ⟨-, -, -, draft', -, hpending, -, -, rfl⟩ := amendRunDraft_ok.mp hf
    by_cases hsame : draftId = amended
    · subst hsame
      obtain rfl := by simpa using hget
      exact hpending
    · exact h draftId draft (by simpa [hsame] using hget)
  | finalizeRunDraft admin closed =>
    obtain ⟨_, hf, -, -⟩ := onStorage_ok.mp hok
    obtain ⟨hunpaused, hadmin, draft', hstored, hpending, -⟩ := finalizeRunDraft_ok.mp hf
    exact absurd ⟨admin, closed, ⟨_, by simp [draftClosers], hm⟩, hunpaused, hadmin, draft', hstored,
      hpending⟩ hnot
  | submitRunDraft admin closed | cancelRunDraft admin closed | expireRunDraft admin closed =>
    obtain ⟨_, hf, -, -⟩ := onStorage_ok.mp hok
    obtain ⟨hunpaused, hadmin, draft', hstored, -, -⟩ := closeRunDraft_ok.mp hf
    exact absurd ⟨admin, closed, ⟨_, by simp [draftClosers], hm⟩, hunpaused, hadmin, draft', hstored,
      h closed draft' hstored⟩ hnot
  | _ =>
    rw [exec_keeps hok rfl] at hget
    exact h draftId draft hget

theorem next_draftsPending (hnot : ¬ ClosesDraft i w.payroll)
    (h : DraftsPending w.payroll) : DraftsPending (next w i).payroll := by
  rcases next_payroll w i with ⟨call, ret, hx, -⟩ | ⟨hsame, -⟩
  · exact exec_draftsPending hx hnot h
  · rw [hsame]
    exact h

/-- A well-formed request for a draft is turned down where the index has the
period. -/
theorem createRunDraft_rejected_iff (hunpaused : ¬ Paused e w.payroll)
    (hadmin : AdminCalls e w.payroll admin) (hpos : 0 < totalAmount) (hlabel : periodLabel ≠ "")
    (hroom : draftCount w.payroll < u64Max) :
    Rejected e (.createRunDraft admin totalAmount employeeCount periodLabel) w ↔
      w.payroll.get (.activeDraftForPeriod periodLabel) ≠ none := by
  constructor
  · intro hrejected hfree
    exact hrejected _ _ (onStorageRet_ok.mpr ⟨_, _, createRunDraft_ok.mpr ⟨hunpaused, hlabel, hadmin,
      hpos, hfree, hroom, rfl, rfl⟩, rfl, rfl⟩)
  · intro htaken ret w' hok
    obtain ⟨_, _, hf, -, -⟩ := onStorageRet_ok.mp hok
    obtain ⟨-, -, -, -, hfree, -⟩ := createRunDraft_ok.mp hf
    exact htaken hfree

/-- In every run the index is exact after every step exactly when no step
takes a draft out of `Pending`; and in a run without such a step, a
well-formed request for a draft is turned down exactly when the period has a
pending one. -/
theorem period_index_exact_iff (inputs : List Input) :
    ((∀ st ∈ steps next World.genesis inputs, PeriodIndexExact st.post.payroll) ↔
      ∀ st ∈ steps next World.genesis inputs, ¬ ClosesDraft st.input st.pre.payroll) ∧
    ((∀ st ∈ steps next World.genesis inputs, ¬ ClosesDraft st.input st.pre.payroll) →
      ∀ e admin totalAmount employeeCount periodLabel,
        ¬ Paused e (runFrom next World.genesis inputs).payroll →
        AdminCalls e (runFrom next World.genesis inputs).payroll admin → 0 < totalAmount →
        periodLabel ≠ "" → draftCount (runFrom next World.genesis inputs).payroll < u64Max →
        (Rejected e (.createRunDraft admin totalAmount employeeCount periodLabel)
            (runFrom next World.genesis inputs) ↔
          PendingDraft (runFrom next World.genesis inputs).payroll periodLabel)) := by
  have hempty : DraftsPending World.genesis.payroll := by
    intro draftId draft hget
    cases hget
  -- the two invariant rules below carry `DraftsPending` along steps that close nothing
  have hstep : ∀ (w : World) (i : Input), DraftsPending w.payroll → ¬ ClosesDraft i w.payroll →
      DraftsPending (next w i).payroll := fun _ _ h hnot => next_draftsPending hnot h
  refine ⟨⟨?_, ?_⟩, ?_⟩
  · intro hexact st hst hcloses
    have hpost := hexact st hst
    rw [steps_post hst] at hpost
    have hreached : Reached (next st.pre st.input) := reachable_next (steps_reachable hst) st.input
    obtain ⟨draftId, draft, hget, hclosed⟩ := next_closes hcloses
    exact hclosed (hreached.draftsIndexed.exact_iff.mp hpost draftId draft hget)
  · intro hnone st hst
    have hpre := steps_invariant_pre (I := fun w => DraftsPending w.payroll)
      (C := fun st => ¬ ClosesDraft st.input st.pre.payroll) hempty hstep hnone hst
    rw [steps_post hst]
    have hreached : Reached (next st.pre st.input) := reachable_next (steps_reachable hst) st.input
    exact hreached.draftsIndexed.exact_iff.mpr (next_draftsPending (hnone st hst) hpre)
  · intro hnone e admin totalAmount employeeCount periodLabel hunpaused hadmin hpos hlabel hroom
    have hall := steps_invariant (I := fun w : World => DraftsPending w.payroll)
      (C := fun st : Step World Input => ¬ ClosesDraft st.input st.pre.payroll) hempty hstep hnone
    have hreached : Reached (runFrom next World.genesis inputs) := reachable_runFrom
    rw [createRunDraft_rejected_iff hunpaused hadmin hpos hlabel hroom]
    exact hreached.draftsIndexed.exact_iff.mpr hall periodLabel

end

/-- A cancelled draft blocks its period: no draft is pending, and a new one
is turned down. -/
theorem cancelled_draft_blocks_period :
    let w := runFrom next World.genesis
      [Sample.deploy, Sample.call [Sample.admin] (.createRunDraft Sample.admin 100 1 "june"),
        Sample.call [Sample.admin] (.cancelRunDraft Sample.admin 1)]
    Reached w ∧ ¬ PendingDraft w.payroll "june" ∧
      w.payroll.get (.activeDraftForPeriod "june") = some 1 ∧ ¬ PeriodIndexExact w.payroll ∧
      Rejected (Sample.env [Sample.admin]) (.createRunDraft Sample.admin 100 1 "june") w := by
  intro w
  have hw : Reached w := reachable_runFrom
  have hentry : w.payroll.get (.activeDraftForPeriod "june") = some 1 := rfl
  have hdraft : (w.payroll.get (.runDraft 1)).map (·.state) = some .cancelled := rfl
  have hnone : ¬ PendingDraft w.payroll "june" := by
    rintro ⟨draftId, draft, hstored, hlabel, hpending⟩
    have hindexed := hw.draftsIndexed.indexed draftId draft hstored
    obtain rfl : draftId = 1 := by
      rw [hlabel, hentry] at hindexed
      exact (Option.some.inj hindexed).symm
    rw [hstored] at hdraft
    simp [hpending] at hdraft
  refine ⟨hw, hnone, hentry, fun hexact => ?_, ?_⟩
  · exact hnone ((hexact "june").mp (by simp [hentry]))
  · have hunpaused : ¬ Paused (Sample.env [Sample.admin]) w.payroll := by
      rintro ⟨_, _, h⟩
      exact Bool.false_ne_true h
    have hadmin : AdminCalls (Sample.env [Sample.admin]) w.payroll Sample.admin :=
      ⟨Sample.addrs, rfl, rfl, by decide⟩
    refine (createRunDraft_rejected_iff hunpaused hadmin (by decide) (by decide) ?_).mpr
      (by simp [hentry])
    decide +kernel

end ZkPayroll.Payroll
