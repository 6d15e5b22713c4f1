import ZkPayroll.PaymentExecutor.Ledger

/-!
# One company's payments seen from another

Periods are numbered for each company, and every company has a first period;
the payment record is stored under the employee and the number alone. An
employee on two payrolls is therefore paid by whichever company comes first:
the other one is told that it has already paid, and `get_payment` and
`is_paid` answer for both. The companies are isolated exactly where no two of
them pay one employee under one number.
-/

namespace ZkPayroll.PaymentExecutor

open Host

/-- In the run, `execute_payment` tells the company that it has paid the
employee in the period only if it has, and a transaction that pays nothing
for the company leaves what the views say. -/
structure Isolated (inputs : List Input) (companyId : Nat) (employee : Address) (period : Nat) :
    Prop where
  alreadyPaid : ∀ before after, inputs = before ++ after → ∀ e p, p.companyId = companyId →
    p.employee = employee → p.period = period →
    executePayment e p (runFrom next System.genesis before) = .error (.code .alreadyPaid) →
    ∃ q ∈ payments (steps next System.genesis before),
      q.companyId = companyId ∧ q.employee = employee ∧ q.period = period
  unaffected : ∀ st ∈ steps next System.genesis inputs,
    (∀ q ∈ acceptedPayments st, q.companyId ≠ companyId) →
    isPaid st.post.executor employee period = isPaid st.pre.executor employee period ∧
      getPayment st.post.executor employee period = getPayment st.pre.executor employee period

section
variable {e : LedgerEnv} {w w' : System} {i : Input} {ps : List PaymentRequest}

-- ---------------------------------------------------------------------------
-- Records around a transaction
-- ---------------------------------------------------------------------------

theorem Pays.recorded (hp : Pays e ps w w') (hq : q ∈ ps) :
    w.executor.get (.payment q.employee q.period) = none ∧
      ∃ record, w'.executor.get (.payment q.employee q.period) = some record := by
  induction hp with
  | nil => cases hq
  | cons p r hpayable hrest ih =>
    rcases List.mem_cons.mp hq with rfl | hq
    · refine ⟨hpayable.unpaid, q.record e, hrest.record_kept ?_⟩
      rw [paid_executor, paidStorage_payment, if_pos ⟨rfl, rfl⟩]
    · obtain ⟨hnone, hpaid⟩ := ih hq
      refine ⟨?_, hpaid⟩
      rw [paid_executor, paidStorage_payment] at hnone
      split_ifs at hnone
      exact hnone

theorem Pays.others_kept (hp : Pays e ps w w')
    (h : ∀ q ∈ ps, ¬ (q.employee = employee ∧ q.period = period)) :
    w'.executor.get (.payment employee period) = w.executor.get (.payment employee period) := by
  induction hp with
  | nil => rfl
  | cons p r _ _ ih =>
    have hne : ¬ (employee = p.employee ∧ period = p.period) := by
      rintro ⟨rfl, rfl⟩
      exact h p List.mem_cons_self ⟨rfl, rfl⟩
    rw [ih fun q hq => h q (List.mem_cons_of_mem _ hq), paid_executor, paidStorage_payment,
      if_neg hne]

theorem next_others_kept (h : ∀ q ∈ acceptedPayments ⟨w, i, next w i⟩,
    ¬ (q.employee = employee ∧ q.period = period)) :
    (next w i).executor.get (.payment employee period) =
      w.executor.get (.payment employee period) := by
  rcases next_ledger w i with hpays | ⟨-, hkept, -⟩
  · exact hpays.others_kept h
  · exact hkept.payments employee period

theorem next_recorded (h : q ∈ acceptedPayments ⟨w, i, next w i⟩) :
    w.executor.get (.payment q.employee q.period) = none ∧
      ∃ record, (next w i).executor.get (.payment q.employee q.period) = some record := by
  rcases next_ledger w i with hpays | ⟨hnone, -, -⟩
  · exact hpays.recorded h
  · rw [hnone] at h
    cases h

-- ---------------------------------------------------------------------------
-- Isolation
-- ---------------------------------------------------------------------------

/-- A company is isolated in a run exactly when no transaction of the run
submits, with its guards met, another company's payment to the same employee
under the same period number. -/
theorem isolated_iff_no_shared_number (inputs : List Input) (companyId : Nat) (employee : Address)
    (period : Nat) :
    Isolated inputs companyId employee period ↔
      ∀ st ∈ steps next System.genesis inputs, ∀ q, Submits st q → q.employee = employee →
        q.period = period → q.companyId = companyId := by
  constructor
  · rintro h st hst q hq rfl rfl
    by_contra hother
    -- the whole transaction is another company's, and it records the payment
    have hothers : ∀ p ∈ acceptedPayments st, p.companyId ≠ companyId := by
      intro p hp
      rw [(mem_acceptedPayments.mp hp).companyId_eq hq]
      exact hother
    obtain ⟨hview, -⟩ := h.unaffected st hst hothers
    have hmem := mem_acceptedPayments.mpr hq
    rw [steps_eq hst] at hmem
    obtain ⟨hnone, record, hsome⟩ := next_recorded hmem
    rw [steps_post hst] at hview
    simp [isPaid, Store.has, hnone, hsome] at hview
  · intro h
    constructor
    · rintro before after rfl e p rfl rfl rfl herr
      obtain ⟨record, hrecord⟩ := Option.ne_none_iff_exists'.mp (executePayment_alreadyPaid herr)
      obtain ⟨q, hq, hemployee, hperiod, -⟩ :=
        (consistent_run before).stored p.employee p.period record hrecord
      obtain ⟨st, hst, hmem⟩ := mem_payments.mp hq
      exact ⟨q, hq, h st (mem_steps_append hst _) q (mem_acceptedPayments.mp hmem) hemployee hperiod,
        hemployee, hperiod⟩
    · intro st hst hothers
      have hkept : (next st.pre st.input).executor.get (.payment employee period) =
          st.pre.executor.get (.payment employee period) := by
        refine next_others_kept fun q hq => ?_
        rw [← steps_eq hst] at hq
        rintro ⟨hemployee, hperiod⟩
        exact hothers q hq (h st hst q (mem_acceptedPayments.mp hq) hemployee hperiod)
      rw [steps_post hst]
      simp [isPaid, getPayment, Store.has, hkept]

end

section
set_option maxRecDepth 1000

/-- Company 1 can pay its employee in its first period; once company 0 has paid
the same employee in its own first period, company 1, which has paid nobody,
is told that it has already paid, and `is_paid` has changed its answer. -/
theorem other_company_already_paid :
    let zeroPays := Sample.companyCall 0 (.executePayment (Sample.payment 0 1 1))
    let onePays := Sample.companyCall 1 (.executePayment (Sample.payment 1 2 1))
    let w := runFrom next System.genesis Sample.deployed
    let w' := runFrom next System.genesis (Sample.deployed ++ [zeroPays])
    payments (steps next System.genesis (Sample.deployed ++ [onePays])) = [Sample.payment 1 2 1] ∧
      payments (steps next System.genesis (Sample.deployed ++ [zeroPays])) =
        [Sample.payment 0 1 1] ∧
      executePayment onePays.env (Sample.payment 1 2 1) w' = .error (.code .alreadyPaid) ∧
      isPaid w.executor Sample.alice 1 = false ∧ isPaid w'.executor Sample.alice 1 = true ∧
      ¬ Isolated (Sample.deployed ++ [zeroPays]) 1 Sample.alice 1 := by
  intro zeroPays onePays w w'
  have hpaid : payments (steps next System.genesis (Sample.deployed ++ [zeroPays])) =
      [Sample.payment 0 1 1] := by decide +kernel
  have hrefused : executePayment onePays.env (Sample.payment 1 2 1) w' =
      .error (.code .alreadyPaid) := rfl
  refine ⟨by decide +kernel, hpaid, hrefused, by decide +kernel, by decide +kernel, fun h => ?_⟩
  obtain ⟨q, hq, hcompany, -⟩ :=
    h.alreadyPaid _ [] (List.append_nil _).symm _ _ rfl rfl rfl hrefused
  rw [hpaid] at hq
  obtain rfl := List.mem_singleton.mp hq
  cases hcompany

end

end ZkPayroll.PaymentExecutor
