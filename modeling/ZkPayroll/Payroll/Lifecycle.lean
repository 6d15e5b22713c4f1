import ZkPayroll.Payroll.RunRecords

/-!
# The canonical state of a run

Seven entry points write `PayrollState(r)`. The transition hook and the
reconciliation update consult the transition table; preparing and executing a
run write the state of an id that had none; `finalize_payroll_run` and the
cancellations write whatever the recorded state is. The hook in turn moves
the state without a look at the run's record, so both a state the table
forbids to leave can be left, and a settlement can be marked completed that
was never reconciled.
-/

namespace ZkPayroll.Payroll

open Host

-- ---------------------------------------------------------------------------
-- The transition table
-- ---------------------------------------------------------------------------

/-- The step changes recorded states along the table only, or by finalizing a
submitted run; no recorded state disappears. -/
def StateConforms (i : Input) (s s' : Storage) : Prop :=
  ∀ r state, s.get (.payrollState r) = some state →
    s'.get (.payrollState r) = some state ∨
    ∃ state', s'.get (.payrollState r) = some state' ∧
      (isAllowedPayrollStateTransitionInternal state state' = true ∨
        (∃ admin, i.message = .payroll (.finalizePayrollRun admin r)) ∧ state = .submitted ∧
          state' = .reconciliationRequired)

/-- The input finalizes or cancels a pending run whose recorded state does
not allow it. -/
inductive ForcesState (i : Input) (s : Storage) : Prop
  | finalize (admin : Address) (runId : Nat) (state : PayrollRunState)
      (message : i.message = .payroll (.finalizePayrollRun admin runId))
      (accepted : CanFinalize i.env admin runId s)
      (recorded : s.get (.payrollState runId) = some state)
      (forced : state ≠ .submitted ∧ state ≠ .confirming ∧ state ≠ .reconciliationRequired)
  | cancel (admin : Address) (runId : Nat) (reason : Symbol) (state : PayrollRunState)
      (message : i.message = .payroll (.cancelPayrollRunWithReason admin runId reason) ∨
        i.message = .payroll (.cancelPayrollRun admin runId reason))
      (accepted : CanCancel i.env admin runId reason s)
      (recorded : s.get (.payrollState runId) = some state)
      (forced : state = .confirming ∨ state = .reconciliationRequired ∨ state = .completed)

section
variable {e : Env} {s s' : Storage} {w w' : World} {i : Input} {created : List (Nat × Batch)}

theorem StateConforms.of_eq (h : ∀ r, s'.get (.payrollState r) = s.get (.payrollState r)) :
    StateConforms i s s' := fun r _ hstate => .inl ((h r).trans hstate)

theorem StateConforms.of_write (hnew : s'.get (.payrollState r) = some new)
    (hothers : ∀ r', r' ≠ r → s'.get (.payrollState r') = s.get (.payrollState r'))
    (hallowed : ∀ state, s.get (.payrollState r) = some state →
      state = new ∨ isAllowedPayrollStateTransitionInternal state new = true ∨
        (∃ admin, i.message = .payroll (.finalizePayrollRun admin r)) ∧ state = .submitted ∧
          new = .reconciliationRequired) : StateConforms i s s' := by
  intro r' state hstate
  by_cases hr : r' = r
  · subst hr
    rcases hallowed state hstate with rfl | hstep
    · exact .inl hnew
    · exact .inr ⟨new, hnew, hstep⟩
  · exact .inl ((hothers r' hr).trans hstate)

-- ---------------------------------------------------------------------------
-- Who writes a state
-- ---------------------------------------------------------------------------

/-- A call accepted in `s` writes the state `new` for run `r`. -/
inductive StateWrite (e : Env) (s : Storage) : Call → Nat → PayrollRunState → Prop
  | prepared (b : Batch) : StateWrite e s (.preparePayrollRun b) (runCount s + 1) .submitted
  | executed (b : Batch) :
      StateWrite e s (.batchProcessPayroll b) (runCount s + 1) .reconciliationRequired
  | hook (admin : Address) (r : Nat) (new current : PayrollRunState)
      (known : getPayrollRunStateInternal s r = .ok current)
      (allowed : isAllowedPayrollStateTransitionInternal current new = true) :
      StateWrite e s (.transitionPayrollRunState admin r new) r new
  | reconciled (admin : Address) (r : Nat) (status : ReconciliationStatus)
      (current : PayrollRunState) (known : getPayrollRunStateInternal s r = .ok current)
      (allowed : current = reconciledState status ∨
        isAllowedPayrollStateTransitionInternal current (reconciledState status) = true) :
      StateWrite e s (.updateReconciliationStatus admin r status) r (reconciledState status)
  | finalized (admin : Address) (r : Nat) (accepted : CanFinalize e admin r s) :
      StateWrite e s (.finalizePayrollRun admin r) r .reconciliationRequired
  | cancelledWithReason (admin : Address) (r : Nat) (reason : Symbol)
      (accepted : CanCancel e admin r reason s) :
      StateWrite e s (.cancelPayrollRunWithReason admin r reason) r .cancelled
  | cancelled (admin : Address) (r : Nat) (reason : Symbol)
      (accepted : CanCancel e admin r reason s) :
      StateWrite e s (.cancelPayrollRun admin r reason) r .cancelled

theorem exec_state (hok : exec e call w = .ok (ret, w')) :
    (∀ r, w'.payroll.get (.payrollState r) = w.payroll.get (.payrollState r)) ∨
    ∃ r new, StateWrite e w.payroll call r new ∧ w'.payroll.get (.payrollState r) = some new ∧
      ∀ r', r' ≠ r → w'.payroll.get (.payrollState r') = w.payroll.get (.payrollState r') := by
  cases call with
  | preparePayrollRun b =>
    obtain ⟨_, _, hf, -, rfl⟩ := onStorageRet_ok.mp hok
    obtain ⟨-, -, -, -, -, -, _, -, -, -, -, -, -, -, -, rfl⟩ := preparePayrollRun_ok.mp hf
    exact .inr ⟨_, _, .prepared b, by simp [prepared],
      fun r' hr => by simp [prepared, claimRunId, hr]⟩
  | batchProcessPayroll b =>
    obtain ⟨_, hf, -⟩ := exec_batchProcessPayroll_ok.mp hok
    obtain ⟨-, _, -, -, -, -, -, -, -, _, -, _, -, -, rfl⟩ := batchProcessPayroll_ok.mp hf
    refine .inr ⟨_, _, .executed b, ?_, fun r' hr => ?_⟩
    · rw [← runCount_dropDraft]
      exact Store.get_set_self _ _ _
    · simp [executed, claimRunId, runCount_dropDraft, hr]
  | transitionPayrollRunState =>
    obtain ⟨_, hf, -, rfl⟩ := onStorage_ok.mp hok
    obtain ⟨-, -, current, hknown, hallowed, rfl⟩ := transitionPayrollRunState_ok.mp hf
    exact .inr ⟨_, _, .hook _ _ _ current hknown hallowed, by simp, fun r' hr => by simp [hr]⟩
  | updateReconciliationStatus admin r status =>
    obtain ⟨_, hf, -, rfl⟩ := onStorage_ok.mp hok
    obtain ⟨-, -, run, -, current, hknown, -, hallowed, rfl⟩ := updateReconciliationStatus_ok.mp hf
    refine .inr ⟨_, _, .reconciled _ _ _ current hknown ?_, by simp, fun r' hr => by simp [hr]⟩
    by_cases hsame : current = reconciledState status
    · exact .inl hsame
    · exact .inr (by simpa [hsame] using hallowed)
  | finalizePayrollRun =>
    obtain ⟨s', hf, -, rfl⟩ := onStorage_ok.mp hok
    have haccepted := canFinalize_iff.mpr ⟨s', hf⟩
    obtain ⟨-, -, _, -, -, -, _, -, -, -, -, rfl⟩ := finalizePayrollRun_ok.mp hf
    exact .inr ⟨_, _, .finalized _ _ haccepted, by simp [finalized],
      fun r' hr => by simp [finalized, hr]⟩
  | cancelPayrollRunWithReason =>
    obtain ⟨s', hf, -, rfl⟩ := onStorage_ok.mp hok
    have haccepted := canCancel_iff.mpr ⟨s', hf⟩
    obtain ⟨-, -, _, -, -, -, -, _, -, -, rfl⟩ := cancelPayrollRunWithReason_ok.mp hf
    exact .inr ⟨_, _, .cancelledWithReason _ _ _ haccepted, by simp [cancelled],
      fun r' hr => by simp [cancelled, hr]⟩
  | cancelPayrollRun =>
    obtain ⟨s', hf, -, rfl⟩ := onStorage_ok.mp hok
    have haccepted := canCancel_iff.mpr ⟨s', hf⟩
    obtain ⟨-, -, _, -, -, -, -, _, -, -, rfl⟩ := cancelPayrollRunWithReason_ok.mp hf
    exact .inr ⟨_, _, .cancelled _ _ _ haccepted, by simp [cancelled],
      fun r' hr => by simp [cancelled, hr]⟩
  | _ => exact .inl fun r => exec_keeps hok rfl

theorem RunsRecorded.length (h : RunsRecorded created s) : created.length = runCount s := by
  simpa using congrArg List.length h.ids

theorem RunsRecorded.bound (h : RunsRecorded created s) (hr : ¬ Unrecorded s r) :
    r ≤ runCount s := by
  by_contra hout
  exact hr (h.unrecorded r (by omega))

/-- The hook and the reconciliation find a state only where one was recorded
or the run has a record. -/
theorem getPayrollRunStateInternal_known (h : getPayrollRunStateInternal s r = .ok current) :
    s.get (.payrollState r) = some current ∨ ¬ Unrecorded s r := by
  unfold getPayrollRunStateInternal at h
  split at h
  · rename_i hstate
    rw [hstate, pure_ok.mp h]
    exact .inl rfl
  · split at h
    · rename_i hrun
      exact .inr fun hun => by simp [hun.2.1] at hrun
    · simp only [bind_ok, ensure_ok, Store.has_eq_true] at h
      obtain ⟨_, ⟨p, hp⟩, -⟩ := h
      exact .inr fun hun => by simp [hun.1] at hp

theorem payrollState_bound (h : Reached w) :
    ∀ r state, w.payroll.get (.payrollState r) = some state → r ≤ runCount w.payroll := by
  refine payroll_invariant
    (I := fun s => ∀ r state, s.get (.payrollState r) = some state → r ≤ runCount s)
    (by simp) ?_ h
  intro e call w ret w' hw hok ih r state hstate
  obtain ⟨created, hrec⟩ := Reached.runsRecorded hw
  have hcount : runCount w'.payroll = runCount w.payroll + (call.creates ret).toList.length := by
    rw [← hrec.length, ← (hrec.exec hok).length, List.length_append]
  have hknown : ∀ r current, getPayrollRunStateInternal w.payroll r = .ok current →
      r ≤ runCount w.payroll := by
    intro r current hcurrent
    rcases getPayrollRunStateInternal_known hcurrent with hstate | hrecorded
    · exact ih r current hstate
    · exact hrec.bound hrecorded
  have hpending : ∀ r p, w.payroll.get (.pendingRun r) = some p → r ≤ runCount w.payroll := by
    intro r p hp
    exact hrec.bound fun hun => by simp [hun.1] at hp
  rcases exec_state hok with hsame | ⟨r', new, hwrite, -, hothers⟩
  · rw [hsame] at hstate
    have := ih r state hstate
    omega
  · by_cases hr : r = r'
    · subst hr
      cases hwrite with
      | prepared b =>
        obtain ⟨_, _, -, rfl, -⟩ := onStorageRet_ok.mp hok
        simp [Call.creates] at hcount
        omega
      | executed b =>
        obtain ⟨_, -, rfl⟩ := exec_batchProcessPayroll_ok.mp hok
        simp [Call.creates] at hcount
        omega
      | hook _ _ _ current hcurrent =>
        have := hknown _ _ hcurrent
        omega
      | reconciled _ _ _ current hcurrent =>
        have := hknown _ _ hcurrent
        omega
      | finalized _ _ haccepted =>
        obtain ⟨-, -, _, -, -, -, p, hp, -⟩ := haccepted
        have := hpending _ p hp
        omega
      | cancelledWithReason _ _ _ haccepted | cancelled _ _ _ haccepted =>
        obtain ⟨-, -, _, -, -, -, -, p, hp, -⟩ := haccepted
        have := hpending _ p hp
        omega
    · rw [hothers r hr] at hstate
      have := ih r state hstate
      omega

-- ---------------------------------------------------------------------------
-- Conforming steps
-- ---------------------------------------------------------------------------

theorem exec_conforms (hw : Reached w) (hx : Executes i w call ret w')
    (hnot : ¬ ForcesState i w.payroll) : StateConforms i w.payroll w'.payroll := by
  obtain ⟨hm, hok⟩ := hx
  rcases exec_state hok with hsame | ⟨r, new, hwrite, hnew, hothers⟩
  · exact .of_eq hsame
  refine .of_write hnew hothers fun state hstate => ?_
  cases hwrite with
  | prepared b | executed b =>
    have := payrollState_bound hw _ state hstate
    omega
  | hook admin r new current hknown hallowed =>
    obtain rfl : current = state := by
      rw [getPayrollRunStateInternal_recorded hstate] at hknown
      exact (Except.ok.inj hknown).symm
    exact .inr (.inl hallowed)
  | reconciled admin r status current hknown hallowed =>
    obtain rfl : current = state := by
      rw [getPayrollRunStateInternal_recorded hstate] at hknown
      exact (Except.ok.inj hknown).symm
    rcases hallowed with hsame | hallowed
    · exact .inl hsame
    · exact .inr (.inl hallowed)
  | finalized admin r haccepted =>
    by_contra hcon
    refine hnot (.finalize admin r state hm haccepted hstate ⟨?_, ?_, ?_⟩) <;> rintro rfl
    · exact hcon (.inr (.inr ⟨⟨admin, hm⟩, rfl, rfl⟩))
    · exact hcon (.inr (.inl rfl))
    · exact hcon (.inl rfl)
  | cancelledWithReason admin r reason haccepted =>
    by_contra hcon
    refine hnot (.cancel admin r reason state (.inl hm) haccepted hstate ?_)
    cases state <;> simp_all [isAllowedPayrollStateTransitionInternal]
  | cancelled admin r reason haccepted =>
    by_contra hcon
    refine hnot (.cancel admin r reason state (.inr hm) haccepted hstate ?_)
    cases state <;> simp_all [isAllowedPayrollStateTransitionInternal]

theorem next_finalized (hm : i.message = .payroll (.finalizePayrollRun admin runId))
    (haccepted : CanFinalize i.env admin runId w.payroll) :
    (next w i).payroll.get (.payrollState runId) = some .reconciliationRequired := by
  obtain ⟨s', hf⟩ := canFinalize_iff.mp haccepted
  rw [next_stores hm rfl hf]
  obtain ⟨-, -, _, -, -, -, _, -, -, -, -, rfl⟩ := finalizePayrollRun_ok.mp hf
  simp [finalized]

theorem next_cancelled (hm : i.message = .payroll (.cancelPayrollRunWithReason admin runId reason) ∨
      i.message = .payroll (.cancelPayrollRun admin runId reason))
    (haccepted : CanCancel i.env admin runId reason w.payroll) :
    (next w i).payroll.get (.payrollState runId) = some .cancelled := by
  obtain ⟨s', hf⟩ := canCancel_iff.mp haccepted
  have hnext : (next w i).payroll = s' := by
    rcases hm with hm | hm
    · exact next_stores hm rfl hf
    · exact next_stores hm rfl hf
  obtain ⟨-, -, _, -, -, -, -, _, -, -, rfl⟩ := cancelPayrollRunWithReason_ok.mp hf
  rw [hnext]
  simp [cancelled]

theorem forced_not_conforming (h : ForcesState i w.payroll) :
    ¬ StateConforms i w.payroll (next w i).payroll := by
  intro hconf
  cases h with
  | finalize admin r state hm haccepted hstate hforced =>
    have hnew := next_finalized hm haccepted
    obtain ⟨h1, h2, h3⟩ := hforced
    rcases hconf r state hstate with hsame | ⟨state', hstate', hstep⟩
    · exact h3 (Store.get_inj hsame hnew)
    · obtain rfl : state' = .reconciliationRequired := Store.get_inj hstate' hnew
      cases state <;> simp_all [isAllowedPayrollStateTransitionInternal]
  | cancel admin r reason state hm haccepted hstate hforced =>
    have hnew := next_cancelled hm haccepted
    rcases hconf r state hstate with hsame | ⟨state', hstate', hstep⟩
    · obtain rfl : state = .cancelled := Store.get_inj hsame hnew
      simp at hforced
    · obtain rfl : state' = .cancelled := Store.get_inj hstate' hnew
      rcases hforced with rfl | rfl | rfl <;> simp [isAllowedPayrollStateTransitionInternal] at hstep

theorem conforms_iff (hw : Reached w) (i : Input) :
    StateConforms i w.payroll (next w i).payroll ↔ ¬ ForcesState i w.payroll := by
  constructor
  · intro hconf hforced
    exact forced_not_conforming hforced hconf
  · intro hnot
    rcases next_payroll w i with ⟨call, ret, hx, -⟩ | ⟨hsame, -⟩
    · exact exec_conforms hw hx hnot
    · exact .of_eq fun r => by rw [hsame]

/-- The table has no way out of a terminal state. -/
theorem StateConforms.terminal (h : StateConforms i s s')
    (hterminal : isTerminalPayrollStateInternal state = true)
    (hstate : s.get (.payrollState r) = some state) : s'.get (.payrollState r) = some state := by
  rcases h r state hstate with hsame | ⟨state', -, hallowed | ⟨-, rfl, -⟩⟩
  · exact hsame
  · cases state <;> simp_all [isTerminalPayrollStateInternal, isAllowedPayrollStateTransitionInternal]
  · simp [isTerminalPayrollStateInternal] at hterminal

/-- Every step of every run follows the table exactly when it does not force
a state; and in a run whose steps force nothing a terminal state is final. -/
theorem run_states_follow_table_iff (inputs : List Input) :
    (∀ st ∈ steps next World.genesis inputs,
      (StateConforms st.input st.pre.payroll st.post.payroll ↔
        ¬ ForcesState st.input st.pre.payroll)) ∧
    ((∀ st ∈ steps next World.genesis inputs, ¬ ForcesState st.input st.pre.payroll) →
      ∀ before after, inputs = before ++ after → ∀ r state,
        isTerminalPayrollStateInternal state = true →
        (runFrom next World.genesis before).payroll.get (.payrollState r) = some state →
        (runFrom next World.genesis inputs).payroll.get (.payrollState r) = some state) := by
  refine ⟨?_, ?_⟩
  · intro st hst
    rw [steps_post hst]
    exact conforms_iff (steps_reachable hst) st.input
  intro hnone before after hsplit r state hterminal hstate
  subst hsplit
  -- along the later inputs, one conforming step at a time
  induction after using List.reverseRecOn with
  | nil => simpa using hstate
  | append_singleton after i ih =>
    rw [← List.append_assoc] at hnone ⊢
    rw [runFrom_snoc]
    rw [steps_snoc] at hnone
    have hpre := ih fun st hst => hnone st (by simp [hst])
    have hlast := hnone _ (List.mem_append_right _ (List.mem_singleton_self _))
    exact ((conforms_iff reachable_runFrom i).mpr hlast).terminal hterminal hpre

end

/-- A pending run moved to `Completed` by the hook and then cancelled: the
terminal state is left along a pair the table does not have. -/
theorem completed_run_cancelled :
    let w := runFrom next World.genesis (Sample.onePending ++
      [Sample.call [Sample.admin] (.transitionPayrollRunState Sample.admin 1 .confirming),
        Sample.call [Sample.admin] (.transitionPayrollRunState Sample.admin 1 .completed)])
    let i := Sample.call [Sample.admin] (.cancelPayrollRun Sample.admin 1 "late")
    Reached w ∧ w.payroll.get (.payrollState 1) = some .completed ∧
      (next w i).payroll.get (.payrollState 1) = some .cancelled ∧
      ¬ StateConforms i w.payroll (next w i).payroll := by
  intro w i
  have hbefore : w.payroll.get (.payrollState 1) = some .completed := rfl
  have hafter : (next w i).payroll.get (.payrollState 1) = some .cancelled := rfl
  refine ⟨reachable_runFrom, hbefore, hafter, fun h => ?_⟩
  have hkept := h.terminal rfl hbefore
  simp [hafter] at hkept

end ZkPayroll.Payroll
