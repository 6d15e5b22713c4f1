import ZkPayroll.Payroll.Reservations

/-!
# Executed runs and the tokens that moved

An executed run comes about in two ways. `batch_process_payroll` pays every
employee of the batch before it stores the record. `finalize_payroll_run`
turns a pending record into an executed one and moves nothing, although it is
described as executing the payments. So the executed runs add up to the
salaries paid exactly as long as no run is finalized.
-/

namespace ZkPayroll.Payroll

open Host

-- ---------------------------------------------------------------------------
-- What the payout loop does to balances
-- ---------------------------------------------------------------------------

def paidTotal (payments : List Payment) : Int := (payments.map fun p => p.2.1).sum

def paidTo (a : Address) (payments : List Payment) : Int :=
  paidTotal (payments.filter fun p => p.2.2 = a)

def paidOut (treasury : Address) (payments : List Payment) : Int :=
  paidTotal (payments.filter fun p => p.2.2 ≠ treasury)

@[simp] theorem paidTotal_cons (p : Payment) (rest : List Payment) :
    paidTotal (p :: rest) = p.2.1 + paidTotal rest := rfl

@[simp] theorem paidTo_cons (a : Address) (p : Payment) (rest : List Payment) :
    paidTo a (p :: rest) = (if p.2.2 = a then p.2.1 else 0) + paidTo a rest := by
  by_cases hp : p.2.2 = a <;> simp [paidTo, hp]

@[simp] theorem paidOut_cons (a : Address) (p : Payment) (rest : List Payment) :
    paidOut a (p :: rest) = (if p.2.2 = a then 0 else p.2.1) + paidOut a rest := by
  by_cases hp : p.2.2 = a <;> simp [paidOut, hp]

theorem paidTotal_split (a : Address) (payments : List Payment) :
    paidTotal payments = paidTo a payments + paidOut a payments := by
  induction payments with
  | nil => rfl
  | cons p rest ih =>
    simp only [paidTotal_cons, paidTo_cons, paidOut_cons, ih]
    split <;> omega

theorem settleTokens_balance (h : settleTokens treasury payments t = .ok t') (a : Address) :
    Token.balance t' a = Token.balance t a -
      (if a = treasury then paidTotal payments else 0) + paidTo a payments := by
  induction payments generalizing t with
  | nil =>
    simp only [settleTokens, pure_ok] at h
    simp [h, paidTotal, paidTo]
  | cons p rest ih =>
    obtain ⟨proof, amount, employee⟩ := p
    simp only [settleTokens, bind_ok] at h
    obtain ⟨t₁, htransfer, hrest⟩ := h
    obtain ⟨-, -, hbalance⟩ := Token.transfer_ok htransfer
    simp only [ih hrest, hbalance a, paidTotal_cons, paidTo_cons, eq_comm (a := a)]
    split_ifs <;> omega

theorem settleTokens_treasury (h : settleTokens treasury payments t = .ok t') :
    Token.balance t' treasury = Token.balance t treasury - paidOut treasury payments := by
  rw [settleTokens_balance h, if_pos rfl, paidTotal_split treasury]
  omega

theorem Batch.payments_amounts {b : Batch} (h : b.ShapeOk) :
    b.payments.map (fun p => p.2.1) = b.amounts := by
  obtain ⟨hamounts, hemployees, -, -⟩ := h
  have hpairs : b.payments.map Prod.snd = b.amounts.zip b.employees :=
    List.map_snd_zip (by simp [hamounts, hemployees])
  calc b.payments.map (fun p => p.2.1)
      = (b.payments.map Prod.snd).map Prod.fst := by simp
    _ = b.amounts := by rw [hpairs, List.map_fst_zip (by omega)]

/-- An accepted batch pays out what it was authorised to spend. -/
theorem Batch.paidTotal_eq {b : Batch} (hshape : b.ShapeOk) (hpay : b.PaymentsOk) :
    paidTotal b.payments = b.expectedTotalSpend := by
  rw [paidTotal, Batch.payments_amounts hshape]
  exact hpay.2.2.2

-- ---------------------------------------------------------------------------
-- Executed runs
-- ---------------------------------------------------------------------------

def executedAmount : (k : DataKey) → k.Val → Int
  | .payrollRun _, run => run.totalAmount
  | _, _ => 0

/-- The total amount of all stored executed runs. -/
def executedTotal (s : Storage) : Int := s.total executedAmount

/-- What the contract has transferred from the treasury to employees. -/
def salaryPaid (w : World) : Int :=
  ((w.transfers.filter fun t => t.purpose = .salary).map Transfer.amount).sum

section
variable {e : Env} {s s' : Storage} {w w' : World} {created : List (Nat × Batch)}

theorem executedAmount_zero (hk : k.kind ≠ .payrollRun) (v : k.Val) : executedAmount k v = 0 := by
  cases k <;> first | rfl | simp at hk

@[simp] theorem executedTotal_set {v : k.Val} (hk : k.kind ≠ .payrollRun) :
    executedTotal (s.set k v) = executedTotal s :=
  Store.total_set_zero s v (executedAmount_zero hk)

@[simp] theorem executedTotal_remove (hk : k.kind ≠ .payrollRun) :
    executedTotal (s.remove k) = executedTotal s :=
  Store.total_remove_zero s (executedAmount_zero hk)

theorem executedTotal_new (h : s.get (.payrollRun r) = none) (run : PayrollRun) :
    executedTotal (s.set (.payrollRun r) run) = executedTotal s + run.totalAmount :=
  Store.total_set_new h

theorem executedTotal_restate (h : s.get (.payrollRun r) = some run)
    (hamount : run'.totalAmount = run.totalAmount) :
    executedTotal (s.set (.payrollRun r) run') = executedTotal s :=
  Store.total_set_same h hamount

theorem executedTotal_agree (h : Agree kinds s s') (hk : .payrollRun ∉ kinds) :
    executedTotal s' = executedTotal s := by
  refine Store.total_frame h fun k hmem => executedAmount_zero ?_
  rintro heq
  exact hk (heq ▸ hmem)

@[simp] theorem executedTotal_dropDraft :
    executedTotal (dropDraft draftHash s) = executedTotal s :=
  executedTotal_agree (dropDraft_agree s) (by simp)

theorem salaryPaid_settled (addrs : ContractAddresses) (payments : List Payment) :
    salaryPaid { w.settled addrs payments t c with payroll := s } =
      paidTotal payments + salaryPaid w := by
  simp [salaryPaid, World.settled, salaryTransfers, paidTotal, List.filter_map, Function.comp_def]

-- ---------------------------------------------------------------------------
-- Finalized runs
-- ---------------------------------------------------------------------------

def Finalizes (st : Step World Input) : Prop :=
  ∃ admin runId, st.input.message = .payroll (.finalizePayrollRun admin runId) ∧
    CanFinalize st.input.env admin runId st.pre.payroll

/-- The amount a call turns from pending into executed without paying it. -/
def Call.unpaid (s : Storage) : Call → Int
  | .finalizePayrollRun _ runId => (s.get (.pendingRun runId)).elim 0 (·.totalAmount)
  | _ => 0

theorem executedTotal_executed (hrec : RunsRecorded created s) :
    executedTotal (executed e addrs b (dropDraft b.draftHash s)) =
      executedTotal s + b.expectedTotalSpend := by
  obtain ⟨-, hfree, -⟩ := hrec.unrecorded (runCount (dropDraft b.draftHash s) + 1)
    (by rw [runCount_dropDraft]; omega)
  have hnone : (claimRunId e addrs.admin b.nonce (dropDraft b.draftHash s)).get
      (.payrollRun (runCount (dropDraft b.draftHash s) + 1)) = none := by
    simpa [claimRunId] using hfree
  rw [executed, executedTotal_set (by simp), executedTotal_new hnone]
  simp [claimRunId, Batch.payrollRun]

theorem exec_executedTotal (hrec : RunsRecorded created w.payroll)
    (hok : exec e call w = .ok (ret, w')) :
    executedTotal w'.payroll + salaryPaid w =
      executedTotal w.payroll + salaryPaid w' + call.unpaid w.payroll := by
  cases call with
  | finalizePayrollRun admin runId =>
    obtain ⟨_, hf, -, rfl⟩ := onStorage_ok.mp hok
    obtain ⟨-, -, addrs, -, -, -, p, hp, -, hfree, -, rfl⟩ := finalizePayrollRun_ok.mp hf
    have htotal : executedTotal (finalized e addrs runId p w.payroll) =
        executedTotal w.payroll + p.totalAmount := by
      rw [finalized, executedTotal_new (by simpa using hfree)]
      simp [PendingPayrollRun.executed]
    simp only [htotal, Call.unpaid, hp, Option.elim_some, salaryPaid]
    omega
  | batchProcessPayroll b =>
    obtain ⟨_, hf, -⟩ := exec_batchProcessPayroll_ok.mp hok
    obtain ⟨hadmitted, addrs, -, -, -, -, -, -, -, _, -, _, -, -, rfl⟩ := batchProcessPayroll_ok.mp hf
    have hspend := Batch.paidTotal_eq hadmitted.shape hadmitted.payments
    simp only [salaryPaid_settled, hspend, executedTotal_executed hrec, Call.unpaid]
    omega
  | updateReconciliationStatus =>
    obtain ⟨_, hf, -, rfl⟩ := onStorage_ok.mp hok
    obtain ⟨-, -, run, hrun, _, -, -, -, rfl⟩ := updateReconciliationStatus_ok.mp hf
    simp [executedTotal_restate hrun, Call.unpaid, salaryPaid]
  | setRunMetadata admin runId metadataHash =>
    obtain ⟨_, hf, -, rfl⟩ := onStorage_ok.mp hok
    obtain ⟨-, -, -, -, -, run, hrun, rfl⟩ := setRunMetadata_ok.mp hf
    have hrun' : (w.payroll.remove (.draftCommitment metadataHash)).get (.payrollRun runId) =
        some run := by simpa using hrun
    simp [executedTotal_restate hrun', Call.unpaid, salaryPaid]
  | deposit =>
    obtain ⟨hf, -⟩ := onWorld_ok.mp hok
    obtain ⟨-, -, -, -, _, -, _, -, -, -, _, -, -, rfl⟩ := deposit_ok.mp hf
    simp [Call.unpaid, salaryPaid]
  | approveEmergencyWithdrawal =>
    obtain ⟨hf, -⟩ := onWorld_ok.mp hok
    obtain ⟨-, _, -, -, -, _, -, -, _, -, rfl⟩ := approveEmergencyWithdrawal_ok.mp hf
    simp [Call.unpaid, salaryPaid]
  | _ =>
    have htotal := executedTotal_agree (exec_frame hok) (of_decide_eq_true rfl)
    rw [exec_inside hok rfl] at htotal ⊢
    simp [htotal, Call.unpaid, salaryPaid]

-- ---------------------------------------------------------------------------
-- Runs of the system
-- ---------------------------------------------------------------------------

def unpaidAmount (st : Step World Input) : Int :=
  (performed st).elim 0 fun done => done.1.unpaid st.pre.payroll

/-- The executed runs exceed the salaries paid by the finalized amounts. -/
theorem executedTotal_run (inputs : List Input) :
    executedTotal (runFrom next World.genesis inputs).payroll =
      salaryPaid (runFrom next World.genesis inputs) +
        ((steps next World.genesis inputs).map unpaidAmount).sum := by
  induction inputs using List.reverseRecOn with
  | nil => rfl
  | append_singleton inputs i ih =>
    rw [runFrom_snoc, steps_snoc]
    simp only [List.map_append, List.map_singleton, List.sum_append, List.sum_singleton]
    rcases next_payroll (runFrom next World.genesis inputs) i with
      ⟨call, ret, ⟨-, hok⟩, hperf⟩ | ⟨hsame, hlog, hperf⟩
    · have hstep := exec_executedTotal (runsRecorded_run inputs) hok
      simp only [unpaidAmount, hperf, Option.elim_some]
      omega
    · simp only [unpaidAmount, hperf, Option.elim_none, hsame, salaryPaid, hlog]
      simpa [salaryPaid] using ih

theorem performed_finalizes {st : Step World Input} (h : Finalizes st) :
    ∃ admin runId, performed st = some (.finalizePayrollRun admin runId, .unit) ∧
      ∃ p, st.pre.payroll.get (.pendingRun runId) = some p := by
  obtain ⟨admin, runId, hm, hcan⟩ := h
  obtain ⟨s', hok⟩ := canFinalize_iff.mp hcan
  obtain ⟨-, -, _, -, -, -, p, hp, -⟩ := hcan
  have hexec : exec st.input.env (.finalizePayrollRun admin runId) st.pre =
      .ok (.unit, { st.pre with payroll := s' }) := onStorage_ok.mpr ⟨s', hok, rfl, rfl⟩
  exact ⟨admin, runId, performed_executes ⟨hm, hexec⟩, p, hp⟩

theorem finalizes_performed {st : Step World Input}
    (h : performed st = some (.finalizePayrollRun admin runId, ret)) : Finalizes st := by
  obtain ⟨_, hm, hexec⟩ := executes_performed h
  obtain ⟨s', hok, -, -⟩ := onStorage_ok.mp hexec
  exact ⟨admin, runId, hm, canFinalize_iff.mpr ⟨s', hok⟩⟩

theorem unpaidAmount_pos {st : Step World Input} {inputs : List Input}
    (hst : st ∈ steps next World.genesis inputs) (h : Finalizes st) : 0 < unpaidAmount st := by
  obtain ⟨admin, runId, hperf, p, hp⟩ := performed_finalizes h
  obtain ⟨created, hrec⟩ := Reached.runsRecorded (steps_reachable hst)
  simp only [unpaidAmount, hperf, Option.elim_some, Call.unpaid, hp]
  exact (hrec.pending_pos hp).1

theorem unpaidAmount_zero {st : Step World Input} (h : ¬ Finalizes st) : unpaidAmount st = 0 := by
  unfold unpaidAmount
  cases hperf : performed st with
  | none => rfl
  | some done =>
    obtain ⟨call, ret⟩ := done
    cases call with
    | finalizePayrollRun => exact absurd (finalizes_performed hperf) h
    | _ => rfl

/-- The executed runs are the paid ones exactly in the runs of the system
that finalize nothing. -/
theorem executed_paid_iff_never_finalized (inputs : List Input) :
    executedTotal (runFrom next World.genesis inputs).payroll =
        salaryPaid (runFrom next World.genesis inputs) ↔
      ∀ st ∈ steps next World.genesis inputs, ¬ Finalizes st := by
  have hnonneg : ∀ x ∈ (steps next World.genesis inputs).map unpaidAmount, 0 ≤ x := by
    intro x hx
    obtain ⟨st, hst, rfl⟩ := List.mem_map.mp hx
    by_cases hfin : Finalizes st
    · exact (unpaidAmount_pos hst hfin).le
    · exact (unpaidAmount_zero hfin).ge
  rw [executedTotal_run]
  constructor
  · intro heq st hst hfin
    have hsum : ((steps next World.genesis inputs).map unpaidAmount).sum = 0 := by omega
    have hzero : unpaidAmount st = 0 :=
      List.all_zero_of_le_zero_le_of_sum_eq_zero hnonneg hsum (List.mem_map_of_mem hst)
    have hpos := unpaidAmount_pos hst hfin
    omega
  · intro hnone
    have hsum : ((steps next World.genesis inputs).map unpaidAmount).sum = 0 := by
      refine List.sum_eq_zero fun x hx => ?_
      obtain ⟨st, hst, rfl⟩ := List.mem_map.mp hx
      exact unpaidAmount_zero (hnone st hst)
    omega

end

/-- A run of 100 prepared and finalized: executed, and nothing was paid. -/
theorem finalized_run_unpaid :
    let w := runFrom next World.genesis
      (Sample.onePending ++ [Sample.call [Sample.admin] (.finalizePayrollRun Sample.admin 1)])
    executedTotal w.payroll = 100 ∧ salaryPaid w = 0 ∧ executedTotal w.payroll ≠ salaryPaid w := by
  decide +kernel

end ZkPayroll.Payroll
