import ZkPayroll.AuditModule.Log

/-!
# What the log holds

The log of a company is a counter and the entries below it. In every run these
are the entries recorded for the company, in the order they were recorded, and
an entry stays as it is. What the queries and the exports say follows from this
one fact.
-/

namespace ZkPayroll.AuditModule

open Host

def entryRecorded (st : Step Storage Input) : Option AuditLogEntry :=
  match st.input.call.logs, exec st.input.env st.input.budget st.pre st.input.call with
  | some (auditor, scope), .ok (r, _) =>
    some ⟨auditor, "default", scope, st.input.env.timestamp, r.matched⟩
  | _, _ => none

def recordedFor (companyId : Symbol) (hist : List (Step Storage Input)) : List AuditLogEntry :=
  (hist.filterMap entryRecorded).filter (·.companyId = companyId)

def AuditLogEntry.InPeriod (periodStart periodEnd : Nat) (entry : AuditLogEntry) : Prop :=
  periodStart ≤ entry.timestamp ∧ entry.timestamp ≤ periodEnd

instance : DecidablePred (AuditLogEntry.InPeriod periodStart periodEnd) :=
  fun entry => inferInstanceAs (Decidable (periodStart ≤ entry.timestamp ∧ _))

/-- The counters and the entries are those of the given logs. -/
structure LogHolds (log : Symbol → List AuditLogEntry) (s : Storage) : Prop where
  count : ∀ companyId, getAuditLogCount s companyId = (log companyId).length
  entry : ∀ companyId index, s.get (.auditLog companyId index) = (log companyId)[index]?

structure AuditMetadataSummary.IsSum (whole first second : AuditMetadataSummary) : Prop where
  total : whole.totalAuditEntries = first.totalAuditEntries + second.totalAuditEntries
  pass : whole.verificationPassCount = first.verificationPassCount + second.verificationPassCount
  fail : whole.verificationFailCount = first.verificationFailCount + second.verificationFailCount

/-- What the log of a storage promises, given the steps that led to it. -/
structure LogIntact (hist : List (Step Storage Input)) (s : Storage) : Prop where
  stored : ∀ companyId index,
    s.has (.auditLog companyId index) = true ↔ index < getAuditLogCount s companyId
  kept : ∀ later companyId index entry, s.get (.auditLog companyId index) = some entry →
    (runFrom next s later).get (.auditLog companyId index) = some entry
  inOrder : ∀ companyId index,
    (queryByCompany s companyId)[index]? = s.get (.auditLog companyId index)
  asRecorded : ∀ companyId, queryByCompany s companyId = recordedFor companyId hist
  byPeriod : ∀ companyId periodStart periodEnd,
    queryByPeriod s companyId periodStart periodEnd =
      (recordedFor companyId hist).filter (·.InPeriod periodStart periodEnd)
  counts : ∀ e auditor companyId periodStart periodEnd summary,
    exportAuditSummary e auditor companyId periodStart periodEnd s = .ok summary →
    summary.verificationPassCount + summary.verificationFailCount = summary.totalAuditEntries ∧
      summary.totalAuditEntries =
        ((recordedFor companyId hist).filter (·.InPeriod periodStart periodEnd)).length
  additive : ∀ e₁ e₂ e auditor₁ auditor₂ auditor companyId start middle finish first second whole,
    start ≤ middle → middle < finish →
    exportAuditSummary e₁ auditor₁ companyId start middle s = .ok first →
    exportAuditSummary e₂ auditor₂ companyId (middle + 1) finish s = .ok second →
    exportAuditSummary e auditor companyId start finish s = .ok whole → whole.IsSum first second

section
variable {e : LedgerEnv} {s s' : Storage} {i : Input} {hist : List (Step Storage Input)}
  {st : Step Storage Input} {log : Symbol → List AuditLogEntry}

-- ---------------------------------------------------------------------------
-- The log along a run
-- ---------------------------------------------------------------------------

theorem entryRecorded_none (h : i.call.logs = none) : entryRecorded ⟨s, i, s'⟩ = none := by
  simp only [entryRecorded, h]

theorem entryRecorded_failed (h : exec i.env i.budget s i.call = .error err) :
    entryRecorded ⟨s, i, s'⟩ = none := by
  unfold entryRecorded
  rw [h]
  split
  · cases ‹_ = _›
  · rfl

theorem entryRecorded_some (hcall : i.call.logs = some (auditor, scope))
    (h : exec i.env i.budget s i.call = .ok (r, t)) :
    entryRecorded ⟨s, i, s'⟩ = some ⟨auditor, "default", scope, i.env.timestamp, r.matched⟩ := by
  simp only [entryRecorded, hcall, h]

theorem recordedFor_snoc (companyId : Symbol) :
    recordedFor companyId (hist ++ [st]) =
      recordedFor companyId hist ++ (entryRecorded st).toList.filter (·.companyId = companyId) := by
  rw [recordedFor, List.filterMap_append, List.filter_append, recordedFor]
  cases hst : entryRecorded st with
  | none => simp [hst]
  | some entry => simp [hst]

theorem recordedFor_none (h : entryRecorded st = none) (companyId : Symbol) :
    recordedFor companyId (hist ++ [st]) = recordedFor companyId hist := by
  simp [recordedFor_snoc, h]

theorem LogHolds.kept (h : LogHolds log s) (hkept : LogKept s s') : LogHolds log s' where
  count companyId := by
    rw [getAuditLogCount, hkept.count]
    exact h.count companyId
  entry companyId index := by rw [hkept.entry, h.entry]

theorem LogHolds.logged (h : LogHolds (recordedFor · hist) s)
    (hst : entryRecorded st = some ⟨auditor, "default", scope, e.timestamp, matched⟩) :
    LogHolds (recordedFor · (hist ++ [st])) (logged e auditor scope matched s) := by
  have hcount := h.count "default"
  constructor
  · intro companyId
    by_cases hc : companyId = "default"
    · subst hc
      simp [recordedFor_snoc, hst, getAuditLogCount, AuditModule.logged, ← hcount]
    · have hother := h.count companyId
      simp [recordedFor_snoc, hst, getAuditLogCount, AuditModule.logged, ← hother, hc, Ne.symm hc]
  · intro companyId index
    by_cases hc : companyId = "default"
    · subst hc
      simp only [recordedFor_snoc, hst, Option.toList_some, List.filter_cons, decide_true, if_true,
        List.filter_nil, getElem?_snoc, ← hcount, AuditModule.logged]
      rw [Store.get_set_ne _ _ (by simp)]
      split
      · rename_i hindex
        rw [hindex, Store.get_set_self]
      · rename_i hindex
        rw [Store.get_set_ne _ _ (by simpa using hindex)]
        exact h.entry "default" index
    · have hentry := h.entry companyId index
      simp [recordedFor_snoc, hst, AuditModule.logged, hentry, hc, Ne.symm hc]

theorem LogHolds.next (h : LogHolds (recordedFor · hist) s) (i : Input) :
    LogHolds (recordedFor · (hist ++ [⟨s, i, next s i⟩])) (next s i) := by
  rcases next_cases s i with ⟨⟨err, herr⟩, hsame⟩ | ⟨r, hok⟩
  · rw [hsame]
    simpa [recordedFor_none (entryRecorded_failed herr)] using h
  · cases exec_logEffect hok with
    | kept hcall hlog =>
      simpa [recordedFor_none (entryRecorded_none hcall)] using h.kept hlog
    | verified auditor scope hcall hscope hafter =>
      rw [hafter]
      exact h.logged (entryRecorded_some hcall hok)
    | reported auditor companyId periodStart periodEnd hcall hverdict hafter =>
      have hlogs : i.call.logs = some (auditor, .aggregateOnly) := by
        rw [hcall]
        rfl
      rw [hafter]
      refine h.logged ?_
      rw [entryRecorded_some hlogs hok, hverdict]

theorem log_holds (inputs : List Input) :
    LogHolds (recordedFor · (steps next Store.empty inputs)) (runFrom next Store.empty inputs) := by
  refine history_invariant (I := fun hist => LogHolds (recordedFor · hist)) ?_ ?_ inputs
  · exact ⟨fun _ => rfl, fun _ _ => by simp [recordedFor]⟩
  · exact fun _ _ i h => h.next i

theorem recordedFor_append (companyId : Symbol) (inputs later : List Input) :
    recordedFor companyId (steps next Store.empty inputs) <+:
      recordedFor companyId (steps next Store.empty (inputs ++ later)) := by
  rw [steps_append, recordedFor, recordedFor, List.filterMap_append, List.filter_append]
  exact List.prefix_append _ _

-- ---------------------------------------------------------------------------
-- What the queries and the exports say
-- ---------------------------------------------------------------------------

theorem filterMap_range_getElem? (l : List α) :
    (List.range l.length).filterMap (fun i => l[i]?) = l := by
  induction l using List.reverseRecOn with
  | nil => rfl
  | append_singleton l a ih =>
    have hold : ∀ i ∈ List.range l.length, (l ++ [a])[i]? = l[i]? := by
      intro i hi
      exact List.getElem?_append_left (List.mem_range.mp hi)
    rw [List.length_append, List.length_singleton, List.range_succ, List.filterMap_append,
      List.filterMap_congr hold, ih]
    simp

theorem LogHolds.query (h : LogHolds log s) (companyId : Symbol) :
    queryByCompany s companyId = log companyId := by
  simp only [queryByCompany, h.count, h.entry]
  exact filterMap_range_getElem? _

theorem LogHolds.period (h : LogHolds log s) (companyId : Symbol) (periodStart periodEnd : Nat) :
    queryByPeriod s companyId periodStart periodEnd =
      (log companyId).filter (·.InPeriod periodStart periodEnd) := by
  rw [queryByPeriod, h.query]
  rfl

theorem LogHolds.has (h : LogHolds log s) (companyId : Symbol) (index : Nat) :
    s.has (.auditLog companyId index) = true ↔ index < getAuditLogCount s companyId := by
  rw [Store.has, h.entry, h.count]
  simp

theorem exportAuditSummary_ok :
    exportAuditSummary e auditor companyId periodStart periodEnd s = .ok summary ↔
    (∃ record, auditor ∈ e.auths ∧ Accepted e.sequence s auditor record) ∧
      summary = ⟨companyId, periodStart, periodEnd,
        (queryByPeriod s companyId periodStart periodEnd).length,
        (queryByPeriod s companyId periodStart periodEnd).countP (·.matched = true),
        (queryByPeriod s companyId periodStart periodEnd).countP (·.matched = false),
        e.timestamp, auditor⟩ := by
  simp only [exportAuditSummary, bind_ok, authorizeAuditor_ok, pure_ok]
  constructor
  · rintro ⟨record, hcan, rfl⟩
    exact ⟨⟨record, hcan⟩, rfl⟩
  · rintro ⟨⟨record, hcan⟩, rfl⟩
    exact ⟨record, hcan, rfl⟩

theorem countP_matched (l : List AuditLogEntry) :
    l.countP (·.matched = true) + l.countP (·.matched = false) = l.length := by
  rw [List.length_eq_countP_add_countP (fun entry : AuditLogEntry => decide (entry.matched = true))]
  simp

theorem countP_split (p : AuditLogEntry → Bool) (l : List AuditLogEntry) (h : start ≤ middle)
    (h' : middle < finish) :
    (l.filter (·.InPeriod start finish)).countP p =
      (l.filter (·.InPeriod start middle)).countP p +
        (l.filter (·.InPeriod (middle + 1) finish)).countP p := by
  induction l with
  | nil => rfl
  | cons entry l ih =>
    have hwhole : entry.InPeriod start finish ↔
        entry.InPeriod start middle ∨ entry.InPeriod (middle + 1) finish := by
      unfold AuditLogEntry.InPeriod
      omega
    have hapart : ¬ (entry.InPeriod start middle ∧ entry.InPeriod (middle + 1) finish) := by
      unfold AuditLogEntry.InPeriod
      omega
    by_cases hfirst : entry.InPeriod start middle
    · have hsecond : ¬ entry.InPeriod (middle + 1) finish := fun hsecond => hapart ⟨hfirst, hsecond⟩
      simp [hwhole, hfirst, hsecond, List.countP_cons, ih]
      omega
    · by_cases hsecond : entry.InPeriod (middle + 1) finish
      · simp [hwhole, hfirst, hsecond, List.countP_cons, ih]
        omega
      · simp [hwhole, hfirst, hsecond, ih]

theorem export_split (h : start ≤ middle) (h' : middle < finish)
    (hfirst : exportAuditSummary e₁ auditor₁ companyId start middle s = .ok first)
    (hsecond : exportAuditSummary e₂ auditor₂ companyId (middle + 1) finish s = .ok second)
    (hwhole : exportAuditSummary e auditor companyId start finish s = .ok whole) :
    whole.IsSum first second := by
  obtain ⟨-, rfl⟩ := exportAuditSummary_ok.mp hfirst
  obtain ⟨-, rfl⟩ := exportAuditSummary_ok.mp hsecond
  obtain ⟨-, rfl⟩ := exportAuditSummary_ok.mp hwhole
  have htotal := countP_split (fun _ => true) (queryByCompany s companyId) h h'
  simp only [List.countP_true] at htotal
  exact ⟨htotal, countP_split _ _ h h', countP_split _ _ h h'⟩

/-- In every run the stored entries are those below the counter, an entry stays
as it is whatever calls follow, the queries answer with what was recorded, in
order, and the exports count it. -/
theorem log_intact (inputs : List Input) :
    LogIntact (steps next Store.empty inputs) (runFrom next Store.empty inputs) := by
  have hholds := log_holds inputs
  constructor
  · exact hholds.has
  · intro later companyId index entry hentry
    rw [hholds.entry] at hentry
    rw [← runFrom_append, (log_holds (inputs ++ later)).entry]
    obtain ⟨rest, hrest⟩ := recordedFor_append companyId inputs later
    rw [← hrest, List.getElem?_append_left (List.getElem?_eq_some_iff.mp hentry).1, hentry]
  · intro companyId index
    rw [hholds.query, hholds.entry]
  · exact hholds.query
  · exact hholds.period
  · intro e auditor companyId periodStart periodEnd summary h
    obtain ⟨-, rfl⟩ := exportAuditSummary_ok.mp h
    rw [hholds.period]
    exact ⟨countP_matched _, rfl⟩
  · intro e₁ e₂ e auditor₁ auditor₂ auditor companyId start middle finish first second whole h h'
    exact export_split h h'

end

theorem log_intact_reports :
    let s := runFrom next Store.empty Sample.twoCompanies
    let e := Sample.env [Sample.alice]
    (exportAuditSummary e Sample.alice "default" 0 200 s).map (·.totalAuditEntries) = .ok 2 ∧
      ∀ first second whole,
        exportAuditSummary e Sample.alice "default" 0 100 s = .ok first →
        exportAuditSummary e Sample.alice "default" 101 200 s = .ok second →
        exportAuditSummary e Sample.alice "default" 0 200 s = .ok whole →
        whole.IsSum first second := by
  intro s e
  refine ⟨rfl, fun first second whole => ?_⟩
  exact (log_intact Sample.twoCompanies).additive e e e _ _ _ _ 0 100 200 first second whole
    (by decide) (by decide)

end ZkPayroll.AuditModule
