import ZkPayroll.Payroll.Lifecycle

/-!
# The two settlement records of a run

An executed run says twice whether it is settled: in its canonical state and
in its reconciliation status. `update_reconciliation_status` writes both;
the transition hook writes the state alone, and its moves to `Completed` are
what separates the two.
-/

namespace ZkPayroll.Payroll

open Host

/-- For every executed run, completed and reconciled mean the same. -/
def RecordsAgree (s : Storage) : Prop :=
  ∀ r run, s.get (.payrollRun r) = some run →
    (s.get (.payrollState r) = some .completed ↔ run.reconciliationStatus = .reconciled)

/-- The input moves an executed run to `Completed` through the hook. -/
def HookCompletes (i : Input) (s : Storage) : Prop :=
  ∃ admin r, i.message = .payroll (.transitionPayrollRunState admin r .completed) ∧
    ¬ Paused i.env s ∧ AdminCalls i.env s admin ∧
    (∃ current, getPayrollRunStateInternal s r = .ok current ∧
      isAllowedPayrollStateTransitionInternal current .completed = true) ∧
    ∃ run, s.get (.payrollRun r) = some run

section
variable {e : Env} {s s' : Storage} {w w' : World} {i : Input}

theorem RecordsAgree.of_eq (h : RecordsAgree s)
    (hrun : ∀ r, s'.get (.payrollRun r) = s.get (.payrollRun r))
    (hstate : ∀ r, s'.get (.payrollState r) = s.get (.payrollState r)) : RecordsAgree s' := by
  intro r run hr
  rw [hstate]
  exact h r run (by rw [← hrun]; exact hr)

theorem RecordsAgree.of_run (h : RecordsAgree s)
    (hothers : ∀ r', r' ≠ r → s'.get (.payrollRun r') = s.get (.payrollRun r') ∧
      s'.get (.payrollState r') = s.get (.payrollState r'))
    (hone : ∀ run, s'.get (.payrollRun r) = some run →
      (s'.get (.payrollState r) = some .completed ↔ run.reconciliationStatus = .reconciled)) :
    RecordsAgree s' := by
  intro r' run hr'
  by_cases hr : r' = r
  · subst hr
    exact hone run hr'
  · obtain ⟨hrun, hstate⟩ := hothers r' hr
    rw [hstate]
    exact h r' run (by rw [← hrun]; exact hr')

theorem reconciledState_completed :
    reconciledState status = .completed ↔ status = .reconciled := by
  cases status <;> simp [reconciledState]

theorem RecordsAgree.exec (h : RecordsAgree w.payroll) (hw : Reached w)
    (hx : Executes i w call ret w') (hnot : ¬ HookCompletes i w.payroll) :
    RecordsAgree w'.payroll := by
  obtain ⟨hm, hok⟩ := hx
  cases call with
  | preparePayrollRun b =>
    obtain ⟨created, hrec⟩ := Reached.runsRecorded hw
    obtain ⟨-, hfree, -⟩ := hrec.unrecorded (runCount w.payroll + 1) (by omega)
    obtain ⟨_, _, hf, -, rfl⟩ := onStorageRet_ok.mp hok
    obtain ⟨-, -, -, -, -, -, _, -, -, -, -, -, -, -, -, rfl⟩ := preparePayrollRun_ok.mp hf
    refine h.of_run (r := runCount w.payroll + 1) ?_ ?_
    · intro r' hr
      simp [prepared, claimRunId, hr]
    · simp [prepared, claimRunId, hfree]
  | batchProcessPayroll b =>
    obtain ⟨_, hf, -⟩ := exec_batchProcessPayroll_ok.mp hok
    obtain ⟨-, _, -, -, -, -, -, -, -, _, -, _, -, -, rfl⟩ := batchProcessPayroll_ok.mp hf
    refine h.of_run (r := runCount (dropDraft b.draftHash w.payroll) + 1) ?_ ?_
    · intro r' hr
      simp [executed, claimRunId, hr]
    · simp [executed, Batch.payrollRun]
  | finalizePayrollRun admin r =>
    obtain ⟨_, hf, -, rfl⟩ := onStorage_ok.mp hok
    obtain ⟨-, -, _, -, -, -, _, -, -, -, -, rfl⟩ := finalizePayrollRun_ok.mp hf
    refine h.of_run (r := r) ?_ ?_
    · intro r' hr
      simp [finalized, hr]
    · simp [finalized, PendingPayrollRun.executed]
  | cancelPayrollRunWithReason admin r | cancelPayrollRun admin r =>
    obtain ⟨_, hf, -, rfl⟩ := onStorage_ok.mp hok
    obtain ⟨-, -, _, -, -, -, hfree, _, -, -, rfl⟩ := cancelPayrollRunWithReason_ok.mp hf
    refine h.of_run (r := r) ?_ ?_
    · intro r' hr
      simp [cancelled, hr]
    · simp [cancelled, hfree]
  | transitionPayrollRunState admin r new =>
    obtain ⟨_, hf, -, rfl⟩ := onStorage_ok.mp hok
    obtain ⟨hpaused, hadmin, current, hknown, hallowed, rfl⟩ := transitionPayrollRunState_ok.mp hf
    refine h.of_run (r := r) (fun r' hr => by simp [hr]) fun run hafter => ?_
    have hrun : w.payroll.get (.payrollRun r) = some run := by simpa using hafter
    have hnew : new ≠ .completed := by
      rintro rfl
      exact hnot ⟨admin, r, hm, hpaused, hadmin, ⟨current, hknown, hallowed⟩, run, hrun⟩
    -- the state left was not `Completed`, which the table has no way out of
    have hstatus : run.reconciliationStatus ≠ .reconciled := by
      intro hreconciled
      have hcompleted := (h r run hrun).mpr hreconciled
      rw [getPayrollRunStateInternal_recorded hcompleted] at hknown
      obtain rfl := Except.ok.inj hknown
      cases new <;> simp [isAllowedPayrollStateTransitionInternal] at hallowed
    simp [hnew, hstatus]
  | updateReconciliationStatus admin r status =>
    obtain ⟨_, hf, -, rfl⟩ := onStorage_ok.mp hok
    obtain ⟨-, -, run, -, current, -, -, -, rfl⟩ := updateReconciliationStatus_ok.mp hf
    refine h.of_run (r := r) (fun r' hr => by simp [hr]) ?_
    simp [reconciledState_completed]
  | setRunMetadata admin r metadataHash =>
    obtain ⟨_, hf, -, rfl⟩ := onStorage_ok.mp hok
    obtain ⟨-, -, -, -, -, run, hrun, rfl⟩ := setRunMetadata_ok.mp hf
    refine h.of_run (r := r) (fun r' hr => by simp [hr]) ?_
    simpa using h r run hrun
  | _ =>
    exact h.of_eq (fun r => exec_keeps hok rfl)
      fun r => exec_keeps hok rfl

theorem RecordsAgree.next (h : RecordsAgree w.payroll) (hw : Reached w)
    (hnot : ¬ HookCompletes i w.payroll) : RecordsAgree (next w i).payroll := by
  rcases next_payroll w i with ⟨call, ret, hx, -⟩ | ⟨hsame, -⟩
  · exact h.exec hw hx hnot
  · rw [hsame]
    exact h

theorem hook_separates (h : RecordsAgree w.payroll) (hhook : HookCompletes i w.payroll) :
    ¬ RecordsAgree (Payroll.next w i).payroll := by
  obtain ⟨admin, r, hm, hpaused, hadmin, ⟨current, hknown, hallowed⟩, run, hrun⟩ := hhook
  have hf := transitionPayrollRunState_ok.mpr ⟨hpaused, hadmin, current, hknown, hallowed, rfl⟩
  intro hafter
  rw [next_stores hm rfl hf] at hafter
  have hreconciled := (hafter r run (by simpa using hrun)).mp (by simp)
  have hcompleted := (h r run hrun).mpr hreconciled
  rw [getPayrollRunStateInternal_recorded hcompleted] at hknown
  obtain rfl := Except.ok.inj hknown
  simp [isAllowedPayrollStateTransitionInternal] at hallowed

/-- The two records agree in every state of a run of the system exactly when
no step completes an executed run through the hook. -/
theorem records_agree_iff_hook_unused (inputs : List Input) :
    (∀ st ∈ steps next World.genesis inputs, RecordsAgree st.post.payroll) ↔
      ∀ st ∈ steps next World.genesis inputs, ¬ HookCompletes st.input st.pre.payroll := by
  have hstart : RecordsAgree World.genesis.payroll := by
    intro r run hrun
    simp [World.genesis] at hrun
  constructor
  · intro hagree st hst hhook
    have hpre : RecordsAgree st.pre.payroll := by
      rcases steps_pre hst with hfirst | ⟨st', hst', hpost⟩
      · rw [hfirst]
        exact hstart
      · rw [← hpost]
        exact hagree st' hst'
    refine hook_separates hpre hhook ?_
    rw [← steps_post hst]
    exact hagree st hst
  · intro hnone st hst
    have hpre : Reached st.pre ∧ RecordsAgree st.pre.payroll := by
      refine steps_invariant_pre (I := fun w => Reached w ∧ RecordsAgree w.payroll)
        ⟨reachable_start, hstart⟩ ?_ hnone hst
      rintro w i ⟨hw, h⟩ hnot
      exact ⟨reachable_next hw i, h.next hw hnot⟩
    rw [steps_post hst]
    exact hpre.2.next hpre.1 (hnone st hst)

end

/-- A finalized run completed through the hook is `Completed` and not
reconciled. -/
theorem hook_completes_unreconciled_run :
    let w := runFrom next World.genesis (Sample.onePending ++
      [Sample.call [Sample.admin] (.finalizePayrollRun Sample.admin 1),
        Sample.call [Sample.admin] (.transitionPayrollRunState Sample.admin 1 .completed)])
    Reached w ∧ w.payroll.get (.payrollState 1) = some .completed ∧
      (w.payroll.get (.payrollRun 1)).map (·.reconciliationStatus) = some .unreconciled ∧
      ¬ RecordsAgree w.payroll := by
  intro w
  have hstate : w.payroll.get (.payrollState 1) = some .completed := rfl
  have hstatus : (w.payroll.get (.payrollRun 1)).map (·.reconciliationStatus) =
      some .unreconciled := rfl
  refine ⟨reachable_runFrom, hstate, hstatus, fun h => ?_⟩
  obtain ⟨run, hrun, hunreconciled⟩ := Option.map_eq_some_iff.mp hstatus
  have hreconciled := (h 1 run hrun).mp hstate
  simp [hreconciled] at hunreconciled

end ZkPayroll.Payroll
