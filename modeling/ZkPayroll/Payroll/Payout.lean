import ZkPayroll.Payroll.Settlement
import ZkPayroll.SalaryCommitmentLaws
import Mathlib.Algebra.BigOperators.Fin

/-!
# What an executed batch pays

`batch_process_payroll` checks the amounts in one loop and pays in another.
The balances after it follow from the batch alone: every address gains what
the batch has for it, and the treasury, which may be on the payroll too, loses
the sum of all amounts.
-/

namespace ZkPayroll.Payroll

open Host

def Batch.paidTo (b : Batch) (a : Address) : Int :=
  ∑ i : Fin b.amounts.length, if b.employees[i]? = some a then b.amounts[i] else 0

section
variable {e : Env} {w w' : World} {b : Batch}

-- ---------------------------------------------------------------------------
-- Payments by position
-- ---------------------------------------------------------------------------

theorem paidTo_zip (a : Address) (proofs : List (BytesN 256)) (amounts : List Int)
    (employees : List Address) (hamounts : amounts.length = proofs.length)
    (hemployees : employees.length = proofs.length) :
    Payroll.paidTo a (proofs.zip (amounts.zip employees)) =
      ∑ i : Fin amounts.length, if employees[i]? = some a then amounts[i] else 0 := by
  induction proofs generalizing amounts employees with
  | nil =>
    obtain rfl := List.eq_nil_of_length_eq_zero hamounts
    rfl
  | cons proof proofs ih =>
    cases amounts with
    | nil => simp at hamounts
    | cons amount amounts =>
      cases employees with
      | nil => simp at hemployees
      | cons employee employees =>
        have hrest := ih amounts employees (by simpa using hamounts) (by simpa using hemployees)
        rw [List.zip_cons_cons, List.zip_cons_cons, paidTo_cons, hrest]
        refine Eq.symm ((Fin.sum_univ_succ _).trans ?_)
        simp

theorem Batch.paidTo_eq (h : b.ShapeOk) (a : Address) : b.paidTo a = Payroll.paidTo a b.payments :=
  (paidTo_zip a b.proofs b.amounts b.employees h.1 h.2.1).symm

theorem Batch.mem_payments (h : b.ShapeOk) (hemployee : employee ∈ b.employees) :
    ∃ p ∈ b.payments, p.2.2 = employee := by
  obtain ⟨hamounts, hemployees, -, -⟩ := h
  have hpairs : b.payments.map Prod.snd = b.amounts.zip b.employees :=
    List.map_snd_zip (by simp [hamounts, hemployees])
  have hall : b.payments.map (fun p => p.2.2) = b.employees :=
    calc b.payments.map (fun p => p.2.2)
        = (b.payments.map Prod.snd).map Prod.snd := by simp
      _ = b.employees := by rw [hpairs, List.map_snd_zip (by omega)]
  rw [← hall] at hemployee
  exact List.mem_map.mp hemployee

-- ---------------------------------------------------------------------------
-- Locks
-- ---------------------------------------------------------------------------

theorem settleCommitments_locks {payments : List Payment}
    (h : settleCommitments e verifier i payments c = .ok c') :
    (∀ p ∈ payments, SalaryCommitmentContract.isCommitmentLocked c' p.2.2 = true) ∧
      ∀ a, SalaryCommitmentContract.isCommitmentLocked c a = true →
        SalaryCommitmentContract.isCommitmentLocked c' a = true := by
  induction payments generalizing i c with
  | nil =>
    obtain rfl := pure_ok.mp h
    exact ⟨by simp, fun _ ha => ha⟩
  | cons p rest ih =>
    obtain ⟨proof, amount, employee⟩ := p
    simp only [settleCommitments, bind_ok, ensure_ok] at h
    obtain ⟨_, -, _, -, c₁, hrecord, c₂, hlock, hrest⟩ := h
    obtain ⟨-, -, -, rfl⟩ := SalaryCommitmentContract.recordNullifier_ok.mp hrecord
    obtain ⟨-, -, -, rfl⟩ := SalaryCommitmentContract.lockCommitmentUpdates_ok.mp hlock
    obtain ⟨hlocked, hkept⟩ := ih hrest
    refine ⟨fun p hp => ?_, fun a ha => ?_⟩
    · rcases List.mem_cons.mp hp with rfl | hp
      · exact hkept employee (by simp [SalaryCommitmentContract.isCommitmentLocked])
      · exact hlocked p hp
    · apply hkept
      by_cases hsame : a = employee
      · simp [SalaryCommitmentContract.isCommitmentLocked, hsame]
      · simpa [SalaryCommitmentContract.isCommitmentLocked, hsame] using ha

-- ---------------------------------------------------------------------------
-- The batch
-- ---------------------------------------------------------------------------

/-- From any state, a batch that goes through pays each address what it lists
for it, out of the treasury; it stores a run of their sum; it lists no address
twice, and leaves the commitment of everyone it pays locked. -/
theorem batch_pays_exactly (hok : batchProcessPayroll e b w = .ok (runId, w')) :
    ∃ addrs, w.payroll.get .addresses = some addrs ∧
      (∀ a, w'.tokenBalance addrs.token a = w.tokenBalance addrs.token a + b.paidTo a -
        if a = addrs.treasury then b.amounts.sum else 0) ∧
      (∃ run, w'.payroll.get (.payrollRun runId) = some run ∧
        run.totalAmount = b.amounts.sum ∧ run.employeeCount = b.employees.length) ∧
      b.employees.Nodup ∧
      ∀ employee ∈ b.employees, SalaryCommitmentContract.isCommitmentLocked
        (w'.commitments addrs.commitment) employee = true := by
  obtain ⟨hadmitted, addrs, haddrs, -, -, -, -, -, -, t, ht, c, hc, rfl, rfl⟩ :=
    batchProcessPayroll_ok.mp hok
  have hshape := hadmitted.shape
  have hspend : b.amounts.sum = b.expectedTotalSpend := hadmitted.payments.2.2.2
  refine ⟨addrs, haddrs, fun a => ?_, ?_, hadmitted.payments.1, fun employee hmem => ?_⟩
  · have hbalance := settleTokens_balance ht a
    rw [Batch.paidTotal_eq hshape hadmitted.payments, ← hspend] at hbalance
    simp only [World.tokenBalance, World.settled, Function.update_self, hbalance,
      Batch.paidTo_eq hshape]
    omega
  · refine ⟨b.payrollRun e addrs.admin (runCount w.payroll + 1), ?_, hspend.symm, hshape.2.1.symm⟩
    have hcount : runCount (dropDraft b.draftHash w.payroll) = runCount w.payroll :=
      runCount_dropDraft
    rw [← hcount]
    simp [executed]
  · obtain ⟨p, hp, rfl⟩ := Batch.mem_payments hshape hmem
    simp only [World.settled, Function.update_self]
    exact (settleCommitments_locks hc).1 p hp

end

theorem batch_pays_alice :
    let w := runFrom next World.genesis (Sample.funded 1000 ++ Sample.enrolled)
    let i := Sample.call [Sample.admin] (.batchProcessPayroll (Sample.batch 1 Sample.alice 250))
    (next w i).tokenBalance Sample.token Sample.treasury = 750 ∧
      (next w i).tokenBalance Sample.token Sample.alice = 250 := by
  intro w i
  have hok : batchProcessPayroll i.env (Sample.batch 1 Sample.alice 250) w =
      .ok (1, next w i) := rfl
  obtain ⟨addrs, haddrs, hbalance, -⟩ := batch_pays_exactly hok
  obtain rfl : Sample.addrs = addrs := Option.some.inj haddrs
  exact ⟨(hbalance Sample.treasury).trans (by decide +kernel),
    (hbalance Sample.alice).trans (by decide +kernel)⟩

end ZkPayroll.Payroll
