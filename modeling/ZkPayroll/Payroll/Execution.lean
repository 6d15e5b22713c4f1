import ZkPayroll.Payroll.Repeat

/-!
# When a batch is executed

`batch_process_payroll` in terms of the world before it: what the payroll
storage, the treasury, the employees' balances and the commitment contract
must look like. The loop over the payments is unrolled once here
(`settleCommitments_ready`), so that a later proof sees conditions on one
world and no loop.
-/

namespace ZkPayroll.Payroll

open Host

/-- What the payout loop asks of the commitment contract. -/
structure CommitmentsReady (e : Env) (addrs : ContractAddresses) (b : Batch) (w : World) : Prop where
  unpaused : ¬ SalaryCommitmentContract.Paused e (w.commitments addrs.commitment)
  operator : SalaryCommitmentContract.OperatorCalls (e.calling addrs.commitment)
    (w.commitments addrs.commitment)
  enrolled : ∀ p ∈ b.payments.zipIdx,
    PaymentReady e addrs.verifier (w.commitments addrs.commitment) p.2 p.1
  unspent : NullifiersUnspent addrs b.proofs.length w

/-- The guards of `batch_process_payroll`, those of the contracts it calls
included. -/
def CanExecute (e : Env) (b : Batch) (w : World) : Prop :=
  BatchAdmitted e b w.payroll ∧
    ∃ addrs, w.payroll.get .addresses = some addrs ∧
      NonceAccepted w.payroll addrs.admin b.nonce ∧ isAssetAllowed w.payroll addrs.token = true ∧
      ¬ Paused e w.payroll ∧ addrs.admin ∈ e.auths ∧ ClaimOk addrs.admin w.payroll ∧
      b.expectedTotalSpend ≤ w.tokenBalance addrs.token addrs.treasury ∧ CreditsFit addrs b w ∧
      CommitmentsReady e addrs b w

section
variable {e : Env} {w w' : World} {payments : List Payment}
variable {c c' : SalaryCommitmentContract.Storage}

theorem paymentReady_before (h : PaymentReady e verifier (afterPayment e k employee c) j p) :
    PaymentReady e verifier c j p := by
  obtain ⟨hunlocked, stored, hstored, hproof⟩ := h
  refine ⟨?_, stored, by simpa [afterPayment] using hstored, hproof⟩
  by_cases hsame : p.2.2 = employee
  · subst hsame
    simp [afterPayment] at hunlocked
  · simpa [afterPayment, hsame] using hunlocked

theorem settleCommitments_head (h : settleCommitments e verifier k (p :: payments) c = .ok c') :
    ¬ SalaryCommitmentContract.Paused e c ∧ SalaryCommitmentContract.OperatorCalls e c ∧
      PaymentReady e verifier c k p ∧
      settleCommitments e verifier (k + 1) payments (afterPayment e k p.2.2 c) = .ok c' := by
  obtain ⟨proof, amount, employee⟩ := p
  simp only [settleCommitments, bind_ok, SalaryCommitmentContract.getCommitment_ok, ensure_ok,
    SalaryCommitmentContract.recordNullifier_ok, SalaryCommitmentContract.lockCommitmentUpdates_ok]
    at h
  obtain ⟨stored, hstored, _, hproof, _, ⟨hunpaused, hoperator, -, rfl⟩, _, ⟨-, -, hunlocked, rfl⟩,
    hrest⟩ := h
  exact ⟨hunpaused, hoperator, ⟨by simpa using hunlocked, stored, hstored, hproof⟩, hrest⟩

theorem settleCommitments_ready (h : settleCommitments e verifier first payments c = .ok c') :
    ∀ p ∈ payments.zipIdx first, PaymentReady e verifier c p.2 p.1 := by
  induction payments generalizing first c with
  | nil => simp
  | cons p rest ih =>
    obtain ⟨-, -, hready, hrest⟩ := settleCommitments_head h
    rw [List.zipIdx_cons, List.forall_mem_cons]
    exact ⟨hready, fun q hq => paymentReady_before (ih hrest q hq)⟩

theorem Batch.payments_ne_nil {b : Batch} (h : b.ShapeOk) : b.payments ≠ [] := by
  intro hnil
  have hlength := Batch.payments_length h
  rw [hnil] at hlength
  exact h.2.2.1 hlength.symm

theorem Batch.payments_distinct {b : Batch} (hshape : b.ShapeOk) (hpay : b.PaymentsOk) :
    (b.payments.map fun p => p.2.2).Nodup := by
  rw [Batch.payments_employees hshape]
  exact hpay.1

theorem Batch.payments_pos {b : Batch} (hshape : b.ShapeOk) (hpay : b.PaymentsOk) :
    ∀ p ∈ b.payments, 0 < p.2.1 := by
  intro p hp
  refine hpay.2.1 p.2.1 ?_
  rw [← Batch.payments_amounts hshape]
  exact List.mem_map_of_mem hp

theorem settleCommitments_iff (hshape : b.ShapeOk) (hpay : b.PaymentsOk) :
    (∃ c, settleCommitments (e.calling addrs.commitment) addrs.verifier 0 b.payments
      (w.commitments addrs.commitment) = .ok c) ↔ CommitmentsReady e addrs b w := by
  have hlength := Batch.payments_length hshape
  have hsmall : 0 + b.payments.length ≤ 65536 := by
    have hmax := hshape.2.2.2
    simp only [maxBatch] at hmax
    omega
  have hdistinct := Batch.payments_distinct hshape hpay
  constructor
  · rintro ⟨c', h⟩
    have hready := settleCommitments_ready h
    obtain ⟨p, rest, hpayments⟩ := List.exists_cons_of_ne_nil (Batch.payments_ne_nil hshape)
    have hhead := h
    rw [hpayments] at hhead
    obtain ⟨hunpaused, hoperator, -, -⟩ := settleCommitments_head hhead
    have hunspent := (settleCommitments_succeeds_iff hunpaused hoperator hready hdistinct hsmall).mp
      ⟨c', h⟩
    exact ⟨hunpaused, hoperator, hready, fun k hk => hunspent k (Nat.zero_le k) (by omega)⟩
  · intro h
    refine (settleCommitments_succeeds_iff (e := e.calling addrs.commitment) h.unpaused h.operator
      h.enrolled hdistinct hsmall).mpr fun k _ hk => h.unspent k (by omega)

theorem canExecute_iff (hw : Reached w) :
    CanExecute e b w ↔ ∃ runId w', batchProcessPayroll e b w = .ok (runId, w') := by
  have htokens : ∀ {addrs : ContractAddresses}, b.ShapeOk → b.PaymentsOk →
      b.expectedTotalSpend ≤ w.tokenBalance addrs.token addrs.treasury →
      ((∃ t, settleTokens addrs.treasury b.payments (w.tokens addrs.token) = .ok t) ↔
        CreditsFit addrs b w) := by
    intro addrs hshape hpay hfunded
    refine settleTokens_succeeds_iff (hw.sane addrs.token) (Batch.payments_pos hshape hpay)
      (Batch.payments_distinct hshape hpay) ?_
    rw [Batch.paidTotal_eq hshape hpay]
    exact hfunded
  simp only [batchProcessPayroll_ok, CanExecute]
  constructor
  · rintro ⟨hadmitted, addrs, haddrs, hnonce, hallowed, hunpaused, hauth, hclaim, hfunded, hfit,
      hready⟩
    obtain ⟨t, ht⟩ := (htokens hadmitted.shape hadmitted.payments hfunded).mpr hfit
    obtain ⟨c, hc⟩ := (settleCommitments_iff hadmitted.shape hadmitted.payments).mpr hready
    exact ⟨_, _, hadmitted, addrs, haddrs, hnonce, hallowed, hunpaused, hauth, hclaim, hfunded, t, ht,
      c, hc, rfl, rfl⟩
  · rintro ⟨_, _, hadmitted, addrs, haddrs, hnonce, hallowed, hunpaused, hauth, hclaim, hfunded, t,
      ht, c, hc, -, -⟩
    exact ⟨hadmitted, addrs, haddrs, hnonce, hallowed, hunpaused, hauth, hclaim, hfunded,
      (htokens hadmitted.shape hadmitted.payments hfunded).mp ⟨t, ht⟩,
      (settleCommitments_iff hadmitted.shape hadmitted.payments).mp ⟨c, hc⟩⟩

end

end ZkPayroll.Payroll
