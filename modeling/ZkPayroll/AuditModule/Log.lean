import ZkPayroll.SalaryCommitment.Openings
import Mathlib.Data.List.Forall2

/-!
# The audit log

Every verification and every report adds an entry to the log, under one fixed
company id. Two things follow. The log of a company has its reports, and only
these, exactly when all reports are for that one id. And a verification that
ends in a mismatch is an error to the caller, which reverts its entry: none is
ever on record.
-/

namespace ZkPayroll.AuditModule

open Host

/-- A report an auditor was given. -/
structure MadeReport where
  auditor : Address
  companyId : Symbol
  timestamp : Nat

def reportMade (st : Step Storage Input) : Option MadeReport :=
  match st.input.call, exec st.input.env st.input.budget st.pre st.input.call with
  | .generateAggregateReport auditor companyId _ _, .ok _ =>
    some ⟨auditor, companyId, st.input.env.timestamp⟩
  | _, _ => none

def reportsFor (companyId : Symbol) (hist : List (Step Storage Input)) : List MadeReport :=
  (hist.filterMap reportMade).filter (·.companyId = companyId)

structure MadeReport.LoggedAs (r : MadeReport) (entry : AuditLogEntry) : Prop where
  auditor : entry.auditor = r.auditor
  scope : entry.scope = .aggregateOnly
  timestamp : entry.timestamp = r.timestamp
  matched : entry.matched = true

/-- The entries of reports a company is answered with: no verification is made
in their scope. -/
def reportEntries (s : Storage) (companyId : Symbol) : List AuditLogEntry :=
  (queryByCompany s companyId).filter (·.scope = .aggregateOnly)

/-- The log of each company has an entry for each of its reports and for no
other. -/
def LogsSeparated (hist : List (Step Storage Input)) (s : Storage) : Prop :=
  ∀ companyId, List.Forall₂ MadeReport.LoggedAs (reportsFor companyId hist)
    (reportEntries s companyId)

/-- The second storage has one more log entry than the first, and it says that
nothing matched. -/
def FailureRecorded (s s' : Storage) : Prop :=
  ∃ companyId index entry, entry.matched = false ∧
    s.get (.auditLog companyId index) = none ∧ s'.get (.auditLog companyId index) = some entry ∧
    ∀ c j, (c, j) ≠ (companyId, index) → s'.get (.auditLog c j) = s.get (.auditLog c j)

/-- The auditor a call is logged under, and the scope. -/
def Call.logs : Call → Option (Address × AuditScope)
  | .verifyCommitmentWithKey auditor _ _ _ scope => some (auditor, scope)
  | .verifyCommitmentWithViewKey auditor _ _ _ _ scope => some (auditor, scope)
  | .verifyPayrollMetadata auditor _ _ scope => some (auditor, scope)
  | .generateAggregateReport auditor _ _ _ => some (auditor, .aggregateOnly)
  | _ => none

/-- The verdict that is logged with what a call returns: a report is a match. -/
def Ret.matched : Ret → Bool
  | .verified matched => matched
  | _ => true

section
variable {e : LedgerEnv} {s s' : Storage} {i : Input} {hist : List (Step Storage Input)}
  {st : Step Storage Input} {call : Call} {r : Ret}

-- ---------------------------------------------------------------------------
-- What a step does to the log
-- ---------------------------------------------------------------------------

theorem queryByCompany_congr
    (hcount : ∀ c, s'.get (.auditLogCounter c) = s.get (.auditLogCounter c))
    (hlog : ∀ c index, s'.get (.auditLog c index) = s.get (.auditLog c index))
    (companyId : Symbol) : queryByCompany s' companyId = queryByCompany s companyId := by
  simp only [queryByCompany, getAuditLogCount, hcount, hlog]

theorem queryByCompany_logged :
    queryByCompany (logged e auditor scope matched s) "default" =
      queryByCompany s "default" ++ [⟨auditor, "default", scope, e.timestamp, matched⟩] := by
  have hcount : getAuditLogCount (logged e auditor scope matched s) "default" =
      getAuditLogCount s "default" + 1 := by simp [getAuditLogCount, logged]
  have hold : ∀ index ∈ List.range (getAuditLogCount s "default"),
      (logged e auditor scope matched s).get (.auditLog "default" index) =
        s.get (.auditLog "default" index) := by
    intro index hindex
    have hne : index ≠ getAuditLogCount s "default" := (List.mem_range.mp hindex).ne
    simp [logged, hne]
  rw [queryByCompany, hcount, List.range_succ, List.filterMap_append,
    List.filterMap_congr hold, queryByCompany]
  simp [logged]

theorem queryByCompany_logged_ne (h : companyId ≠ "default") :
    queryByCompany (logged e auditor scope matched s) companyId = queryByCompany s companyId := by
  simp [queryByCompany, getAuditLogCount, logged, h]

theorem revokeDescendants_apart (hk : Apart k) (h : revokeDescendants budget auditor s = .ok t) :
    t.get k = s.get k := by
  rw [revokeDescendants_eq_visit] at h
  obtain ⟨trace, rfl⟩ := Walk.visit_play h
  refine Walk.play_kept (o := fun s : Storage => s.get k) fun m _ s => ?_
  cases m with
  | enter x => exact Store.get_remove_ne s (hk.1 x)
  | leave x => exact Store.get_remove_ne s (hk.2 x)

/-- The two storages have the same logs. -/
structure LogKept (s s' : Storage) : Prop where
  count : ∀ companyId, s'.get (.auditLogCounter companyId) = s.get (.auditLogCounter companyId)
  entry : ∀ companyId index,
    s'.get (.auditLog companyId index) = s.get (.auditLog companyId index)

theorem LogKept.of_apart (h : ∀ k : DataKey, Apart k → k ≠ .pauseManager → s'.get k = s.get k) :
    LogKept s s' where
  count _ := h _ (by simp [Apart]) (by simp)
  entry _ _ := h _ (by simp [Apart]) (by simp)

inductive LogEffect (e : LedgerEnv) (s : Storage) (call : Call) (r : Ret) (s' : Storage) : Prop
  | kept (hcall : call.logs = none) (hlog : LogKept s s')
  | verified (auditor : Address) (scope : AuditScope) (hcall : call.logs = some (auditor, scope))
      (hscope : scope ≠ .aggregateOnly) (hafter : s' = logged e auditor scope r.matched s)
  | reported (auditor : Address) (companyId : Symbol) (periodStart periodEnd : Nat)
      (hcall : call = .generateAggregateReport auditor companyId periodStart periodEnd)
      (hverdict : r.matched = true) (hafter : s' = logged e auditor .aggregateOnly true s)

theorem exec_logEffect (h : exec e budget s call = .ok (r, s')) : LogEffect e s call r s' := by
  cases call with
  | setPauseManager =>
    simp only [exec, returningUnit_ok, orPanic_ok, setPauseManager, bind_ok, pure_ok] at h
    obtain ⟨⟨_, -, rfl⟩, -⟩ := h
    exact .kept rfl (.of_apart fun k _ hk => Store.get_set_ne _ _ hk)
  | generateViewKey auditor =>
    simp only [exec, returning_ok, orPanic_ok, generateViewKey_ok] at h
    obtain ⟨_, ⟨-, -, rfl⟩, -⟩ := h
    exact .kept rfl (.of_apart fun k hk _ => Store.get_set_ne _ _ (hk.1 auditor))
  | revokeViewKey admin auditor =>
    obtain ⟨_, t, -, hcascade, rfl⟩ := revokeViewKey_ok.mp (returningUnit_ok.mp h).1
    refine .kept rfl (.of_apart fun k hk _ => ?_)
    rw [Store.get_remove_ne _ (hk.1 auditor)]
    exact revokeDescendants_apart hk hcascade
  | refreshViewKey admin auditor =>
    obtain ⟨_, h, -⟩ := returning_ok.mp h
    obtain ⟨_, -, -, -, rfl⟩ := refreshViewKey_ok.mp h
    exact .kept rfl (.of_apart fun k hk _ => Store.get_set_ne _ _ (hk.1 auditor))
  | setDelegationPolicy admin auditor | approveDelegation admin auditor =>
    obtain ⟨_, -, rfl⟩ := setDelegationPolicy_ok.mp (returningUnit_ok.mp h).1
    exact .kept rfl (.of_apart fun k hk _ => Store.get_set_ne _ _ (hk.1 auditor))
  | delegateViewKey auditor delegate | grantDelegatedAccess auditor delegate =>
    obtain ⟨_, h, -⟩ := returning_ok.mp h
    obtain ⟨_, -, -, rfl⟩ := delegateViewKey_ok.mp h
    refine .kept rfl (.of_apart fun k hk _ => ?_)
    rw [delegated, Store.get_set_ne _ _ (hk.2 auditor), Store.get_set_ne _ _ (hk.1 delegate)]
  | extendDelegatedAccess auditor delegate =>
    obtain ⟨_, h, -⟩ := returning_ok.mp h
    obtain ⟨_, -, -, rfl⟩ := extendDelegatedAccess_ok.mp h
    exact .kept rfl (.of_apart fun k hk _ => Store.get_set_ne _ _ (hk.1 delegate))
  | verifyCommitmentWithKey auditor _ _ _ scope =>
    simp only [exec, returning_ok, verifyCommitmentWithKey_ok] at h
    obtain ⟨_, ⟨_, -, hscope, -, -, rfl, rfl⟩, rfl⟩ := h
    exact .verified auditor scope rfl hscope rfl
  | verifyCommitmentWithViewKey auditor _ _ _ _ scope =>
    simp only [exec, returning_ok, verifyCommitmentWithViewKey_ok] at h
    obtain ⟨_, ⟨_, -, hscope, -, -, -, rfl, rfl⟩, rfl⟩ := h
    exact .verified auditor scope rfl hscope rfl
  | verifyPayrollMetadata auditor _ _ scope =>
    simp only [exec, returning_ok, verifyPayrollMetadata_ok] at h
    obtain ⟨matched, ⟨-, -, hscope, -, -, rfl⟩, rfl⟩ := h
    exact .verified auditor scope rfl hscope rfl
  | generateAggregateReport auditor companyId periodStart periodEnd =>
    simp only [exec, returning_ok, generateAggregateReport, bind_ok, orPanic_ok, recordAuditLog_ok,
      pure_ok, Prod.mk.injEq] at h
    obtain ⟨_, ⟨_, -, _, ⟨-, rfl⟩, -, rfl⟩, rfl⟩ := h
    exact .reported auditor companyId periodStart periodEnd rfl rfl rfl
  | exportAuditSummary =>
    simp only [exec, bind_ok, pure_ok, Prod.mk.injEq] at h
    obtain ⟨_, -, -, rfl⟩ := h
    exact .kept rfl (.of_apart fun _ _ _ => rfl)

inductive LogStep (st : Step Storage Input) : Prop
  | kept (hnone : reportMade st = none)
      (hlog : ∀ companyId, queryByCompany st.post companyId = queryByCompany st.pre companyId)
  | verified (auditor : Address) (scope : AuditScope) (matched : Bool)
      (hscope : scope ≠ .aggregateOnly) (hnone : reportMade st = none)
      (hafter : st.post = logged st.input.env auditor scope matched st.pre)
  | reported (auditor : Address) (companyId : Symbol)
      (hmade : reportMade st = some ⟨auditor, companyId, st.input.env.timestamp⟩)
      (hafter : st.post = logged st.input.env auditor .aggregateOnly true st.pre)

theorem reportMade_none (h : ∀ auditor, i.call.logs ≠ some (auditor, .aggregateOnly)) :
    reportMade ⟨s, i, s'⟩ = none := by
  unfold reportMade
  split
  · rename_i auditor _ _ _ _ hcall _
    exact absurd (by rw [hcall]; rfl) (h auditor)
  · rfl

theorem exec_logStep (h : exec i.env i.budget s i.call = .ok (r, s')) : LogStep ⟨s, i, s'⟩ := by
  cases exec_logEffect h with
  | kept hcall hlog =>
    refine .kept (reportMade_none ?_) (queryByCompany_congr hlog.count hlog.entry)
    simp [hcall]
  | verified auditor scope hcall hscope hafter =>
    refine .verified auditor scope r.matched hscope (reportMade_none ?_) hafter
    simp [hcall, hscope]
  | reported auditor companyId periodStart periodEnd hcall _ hafter =>
    refine .reported auditor companyId ?_ hafter
    simp only [reportMade, h]
    simp only [hcall]

theorem next_logStep (s : Storage) (i : Input) : LogStep ⟨s, i, next s i⟩ := by
  rcases next_cases s i with ⟨⟨err, herr⟩, hsame⟩ | ⟨r, hok⟩
  · refine .kept ?_ fun companyId => by rw [hsame]
    simp [reportMade, herr]
  · exact exec_logStep hok

-- ---------------------------------------------------------------------------
-- Reports by company
-- ---------------------------------------------------------------------------

/-- All reports are in the log of the one company, and the other logs are
empty. -/
structure ReportsLogged (hist : List (Step Storage Input)) (s : Storage) : Prop where
  others : ∀ companyId, companyId ≠ "default" → queryByCompany s companyId = []
  reports : List.Forall₂ MadeReport.LoggedAs (hist.filterMap reportMade) (reportEntries s "default")

theorem ReportsLogged.add (h : ReportsLogged hist s)
    (hentry : List.Forall₂ MadeReport.LoggedAs ([st].filterMap reportMade)
      (List.filter (fun entry => decide (entry.scope = .aggregateOnly))
        [⟨auditor, "default", scope, e.timestamp, matched⟩])) :
    ReportsLogged (hist ++ [st]) (logged e auditor scope matched s) := by
  constructor
  · intro c hc
    rw [queryByCompany_logged_ne hc]
    exact h.others c hc
  · rw [List.filterMap_append, reportEntries, queryByCompany_logged, List.filter_append]
    exact List.rel_append h.reports hentry

theorem ReportsLogged.step (h : ReportsLogged hist st.pre) (hstep : LogStep st) :
    ReportsLogged (hist ++ [st]) st.post := by
  cases hstep with
  | kept hnone hlog =>
    refine ⟨fun c hc => (hlog c).trans (h.others c hc), ?_⟩
    rw [List.filterMap_append, reportEntries, hlog]
    simpa [hnone, reportEntries] using h.reports
  | verified auditor scope matched hscope hnone hafter =>
    rw [hafter]
    apply h.add
    simp [hnone, hscope]
  | reported auditor companyId hmade hafter =>
    rw [hafter]
    apply h.add
    simp only [List.filterMap_cons, hmade, List.filterMap_nil, List.filter_cons, decide_true,
      if_true, List.filter_nil]
    exact .cons ⟨rfl, rfl, rfl, rfl⟩ .nil

theorem reports_logged (inputs : List Input) :
    ReportsLogged (steps next Store.empty inputs) (runFrom next Store.empty inputs) := by
  have hempty : ReportsLogged [] (Store.empty : Storage) := by
    refine ⟨fun c _ => ?_, ?_⟩
    · rfl
    · exact .nil
  refine history_invariant (I := ReportsLogged) hempty ?_ inputs
  intro hist s i h
  have hpre : ReportsLogged hist (⟨s, i, next s i⟩ : Step Storage Input).pre := h
  exact hpre.step (next_logStep s i)

/-- In every run the log of each company has exactly the reports made for it
when, and only when, every report made is for the company `default`. -/
theorem logs_separated_iff (inputs : List Input) :
    LogsSeparated (steps next Store.empty inputs) (runFrom next Store.empty inputs) ↔
      ∀ st ∈ steps next Store.empty inputs, ∀ r, reportMade st = some r →
        r.companyId = "default" := by
  have hlogged := reports_logged inputs
  constructor
  · intro hseparated st hst r hmade
    by_contra hne
    have hmem : r ∈ reportsFor r.companyId (steps next Store.empty inputs) := by
      simp only [reportsFor, List.mem_filter, List.mem_filterMap, decide_true, and_true]
      exact ⟨st, hst, hmade⟩
    have hlog := hseparated r.companyId
    rw [reportEntries, hlogged.others _ hne, List.filter_nil, List.forall₂_nil_right_iff] at hlog
    rw [hlog] at hmem
    cases hmem
  · intro hall companyId
    have hdefault : ∀ r ∈ (steps next Store.empty inputs).filterMap reportMade,
        r.companyId = "default" := by
      intro r hr
      obtain ⟨st, hst, hmade⟩ := List.mem_filterMap.mp hr
      exact hall st hst r hmade
    by_cases hc : companyId = "default"
    · subst hc
      have hsame : reportsFor "default" (steps next Store.empty inputs) =
          (steps next Store.empty inputs).filterMap reportMade :=
        List.filter_eq_self.mpr fun r hr => decide_eq_true (hdefault r hr)
      rw [hsame]
      exact hlogged.reports
    · have hnone : reportsFor companyId (steps next Store.empty inputs) = [] := by
        refine List.filter_eq_nil_iff.mpr fun r hr => ?_
        simpa [hdefault r hr] using Ne.symm hc
      rw [hnone, reportEntries, hlogged.others companyId hc]
      exact .nil

-- ---------------------------------------------------------------------------
-- Failed verifications
-- ---------------------------------------------------------------------------

theorem next_error (h : exec i.env i.budget s i.call = .error err) : next s i = s := by
  rw [next, h]

theorem not_failureRecorded_self (s : Storage) : ¬ FailureRecorded s s := by
  rintro ⟨companyId, index, entry, -, hnone, hsome, -⟩
  rw [hnone] at hsome
  cases hsome

/-- A verification that ends in a mismatch never adds an entry, and no export
counts it. -/
theorem mismatch_never_recorded
    (h : exec i.env i.budget s i.call = .error (.code .commitmentMismatch)) :
    ¬ FailureRecorded s (next s i) ∧
      ∀ e auditor companyId periodStart periodEnd,
        exportAuditSummary e auditor companyId periodStart periodEnd (next s i) =
          exportAuditSummary e auditor companyId periodStart periodEnd s := by
  rw [next_error h]
  exact ⟨not_failureRecorded_self s, fun _ _ _ _ _ => rfl⟩

end

-- ---------------------------------------------------------------------------
-- Sample runs
-- ---------------------------------------------------------------------------

namespace Sample

def mismatching : Input :=
  ⟨hashing [alice], 0, .verifyCommitmentWithKey alice BytesN.zero 500000 blinding .fullCompany⟩

theorem mismatching_exec :
    exec mismatching.env mismatching.budget rootKey mismatching.call =
      .error (.code .commitmentMismatch) := by
  have hverify : verifyCommitmentWithKey (hashing [alice]) alice BytesN.zero 500000 blinding
      .fullCompany rootKey = .error (.code .commitmentMismatch) := by
    refine verifyCommitmentWithKey_mismatch (by decide) (rootKey_accepted _) (by decide)
      rootKey_room ?_
    decide +kernel
  change returning .verified (verifyCommitmentWithKey (hashing [alice]) alice BytesN.zero 500000
    blinding .fullCompany rootKey) = _
  rw [hverify]
  rfl

def twoCompanies : List Input :=
  [call [] (.generateViewKey alice 100),
    call [alice] (.generateAggregateReport alice "acme" 0 50),
    call [alice] (.generateAggregateReport alice "globex" 0 50)]

end Sample

theorem mismatch_leaves_storage :
    ¬ FailureRecorded Sample.rootKey (next Sample.rootKey Sample.mismatching) :=
  (mismatch_never_recorded Sample.mismatching_exec).1

/-- Alice's verification ends in a mismatch, nothing is recorded, and her export
over the whole time counts no failure. -/
theorem mismatch_not_counted :
    let s := Sample.rootKey
    let i := Sample.mismatching
    Reached s ∧ exec i.env i.budget s i.call = .error (.code .commitmentMismatch) ∧
      ¬ FailureRecorded s (next s i) ∧
      (exportAuditSummary i.env Sample.alice "default" 0 1000 (next s i)).map
        (·.verificationFailCount) = .ok 0 := by
  intro s i
  have hsame : next s i = s := next_error Sample.mismatching_exec
  refine ⟨reachable_next reachable_start _, Sample.mismatching_exec, ?_, ?_⟩
  · rw [hsame]
    exact not_failureRecorded_self s
  · rw [hsame]
    rfl

/-- The log of a company with a report is empty, and the one of `default`,
which has none, has the reports of both others. -/
theorem reports_under_default :
    let hist := steps next Store.empty Sample.twoCompanies
    let s := runFrom next Store.empty Sample.twoCompanies
    (reportsFor "acme" hist).length = 1 ∧ queryByCompany s "acme" = [] ∧
      (reportsFor "default" hist).length = 0 ∧ (queryByCompany s "default").length = 2 ∧
      ¬ LogsSeparated hist s := by
  intro hist s
  have hreports : (reportsFor "acme" hist).length = 1 := rfl
  have hlog : queryByCompany s "acme" = [] := rfl
  refine ⟨hreports, hlog, rfl, rfl, fun hseparated => ?_⟩
  have hlength := (hseparated "acme").length_eq
  rw [hreports, reportEntries, hlog] at hlength
  cases hlength

end ZkPayroll.AuditModule
