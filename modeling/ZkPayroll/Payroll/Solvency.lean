import ZkPayroll.Payroll.Settlement

/-!
# Payouts and the reserved funds

Two calls pay tokens out of the treasury. An emergency withdrawal is checked
against the balance less the reservation; a batch is checked against the
whole balance, so it can spend what is reserved for pending runs.
-/

namespace ZkPayroll.Payroll

open Host

/-- The treasury holds at least what is reserved. -/
def Covered (addrs : ContractAddresses) (w : World) : Prop :=
  getLockedFunds w.payroll addrs.token ≤ w.tokenBalance addrs.token addrs.treasury

instance (addrs : ContractAddresses) (w : World) : Decidable (Covered addrs w) :=
  inferInstanceAs (Decidable (_ ≤ _))

/-- The calls that pay tokens out of the treasury. -/
inductive Call.PaysOut : Call → Prop
  | batch (b : Batch) : PaysOut (.batchProcessPayroll b)
  | emergency (admin : Address) : PaysOut (.approveEmergencyWithdrawal admin)

section
variable {e : Env} {s : Storage} {w w' : World}

-- ---------------------------------------------------------------------------
-- Emergency withdrawals
-- ---------------------------------------------------------------------------

theorem request_pos (h : Reached w) (hrequest : w.payroll.get .emergencyRequest = some request) :
    0 < request.amount := by
  have hinv : ∀ request, w.payroll.get .emergencyRequest = some request → 0 < request.amount := by
    refine payroll_invariant
      (I := fun s => ∀ request, s.get .emergencyRequest = some request → 0 < request.amount)
      (by simp) ?_ h
    intro e call w ret w' _ hok ih request hrequest
    cases call with
    | requestEmergencyWithdrawal =>
      obtain ⟨-, hpos, -, -, -, -, rfl⟩ := requestEmergencyWithdrawal_ok.mp (onWorld_ok.mp hok).1
      obtain rfl := Option.some.inj ((Store.get_set_self _ _ _).symm.trans hrequest)
      exact hpos
    | approveEmergencyWithdrawal =>
      obtain ⟨-, _, -, -, -, _, -, -, _, -, rfl⟩ :=
        approveEmergencyWithdrawal_ok.mp (onWorld_ok.mp hok).1
      simp at hrequest
    | cancelEmergencyWithdrawal =>
      obtain ⟨_, hf, -, rfl⟩ := onStorage_ok.mp hok
      obtain ⟨-, -, -, -, rfl⟩ := cancelEmergencyWithdrawal_ok.mp hf
      simp at hrequest
    | _ =>
      rw [exec_keeps hok rfl] at hrequest
      exact ih request hrequest
  exact hinv request hrequest

theorem le_unreserved (hpos : 0 < amount) (h : amount ≤ unreserved w asset treasury) :
    getLockedFunds w.payroll asset + amount ≤ w.tokenBalance asset treasury := by
  unfold unreserved at h
  cases hsub : checkedSub (w.tokenBalance asset treasury) (getLockedFunds w.payroll asset) with
  | none =>
    simp only [hsub, Option.getD_none] at h
    omega
  | some x =>
    obtain ⟨-, rfl⟩ := checkedSub_some.mp hsub
    simp only [hsub, Option.getD_some] at h
    omega

theorem emergency_covered (hw : Reached w) (haddrs : w.payroll.get .addresses = some addrs)
    (hcovered : Covered addrs w) (hok : approveEmergencyWithdrawal e admin w = .ok w') :
    Covered addrs w' := by
  obtain ⟨-, addrs', haddrs', -, -, request, hrequest, hle, balances, htransfer, rfl⟩ :=
    approveEmergencyWithdrawal_ok.mp hok
  obtain rfl : addrs = addrs' := Store.get_inj haddrs haddrs'
  have hroom := le_unreserved (request_pos hw hrequest) hle
  obtain ⟨-, -, hbalance⟩ := Token.transfer_ok htransfer
  have htreasury := hbalance addrs.treasury
  simp only [Covered, World.tokenBalance, getLockedFunds] at hcovered hroom ⊢
  simp only [ne_eq, reduceCtorEq, not_false_eq_true, Store.get_remove_ne, Function.update_self,
    htreasury, if_true]
  split <;> omega

-- ---------------------------------------------------------------------------
-- Batches
-- ---------------------------------------------------------------------------

theorem batch_covered (haddrs : w.payroll.get .addresses = some addrs)
    (hok : batchProcessPayroll e b w = .ok (runId, w')) :
    Covered addrs w' ↔ getLockedFunds w.payroll addrs.token + paidOut addrs.treasury b.payments ≤
      w.tokenBalance addrs.token addrs.treasury := by
  obtain ⟨-, addrs', haddrs', -, -, -, -, -, -, t, ht, c, -, -, rfl⟩ := batchProcessPayroll_ok.mp hok
  obtain rfl : addrs = addrs' := Store.get_inj haddrs haddrs'
  have hlocked : getLockedFunds (executed e addrs b (dropDraft b.draftHash w.payroll)) addrs.token =
      getLockedFunds w.payroll addrs.token := by
    simp [getLockedFunds, executed, claimRunId]
  have hbalance := settleTokens_treasury ht
  simp only [Covered, World.tokenBalance, World.settled, Function.update_self, hlocked, hbalance]
  omega

/-- A payout from a covered treasury leaves it covered exactly when it is an
emergency withdrawal, or a batch whose payments to others fit beside the
reservation. -/
theorem payout_covered_iff (hw : Reached w) (haddrs : w.payroll.get .addresses = some addrs)
    (hcovered : Covered addrs w) (hcall : call.PaysOut) (hok : exec e call w = .ok (ret, w')) :
    Covered addrs w' ↔ ∀ b, call = .batchProcessPayroll b →
      getLockedFunds w.payroll addrs.token + paidOut addrs.treasury b.payments ≤
        w.tokenBalance addrs.token addrs.treasury := by
  cases hcall with
  | batch b =>
    obtain ⟨_, hf, -⟩ := exec_batchProcessPayroll_ok.mp hok
    rw [batch_covered haddrs hf]
    constructor
    · rintro h _ ⟨rfl⟩
      exact h
    · intro h
      exact h b rfl
  | emergency admin =>
    have hkept := emergency_covered hw haddrs hcovered (onWorld_ok.mp hok).1
    exact ⟨fun _ _ h => by simp at h, fun _ => hkept⟩

end

namespace Sample

def reserved600 : List Input :=
  funded 1000 ++ enrolled ++ [call [admin] (.preparePayrollRun (batch 1 alice 600))]

end Sample

theorem batch_beside_reservation :
    let w := runFrom next World.genesis Sample.reserved600
    let i := Sample.call [Sample.admin] (.batchProcessPayroll (Sample.batch 2 Sample.bob 300))
    Covered Sample.addrs (next w i) := by
  intro w i
  have hok : exec i.env (.batchProcessPayroll (Sample.batch 2 Sample.bob 300)) w =
      .ok (.id 2, next w i) := rfl
  refine (payout_covered_iff reachable_runFrom rfl (by decide +kernel) (.batch _) hok).mpr ?_
  rintro _ ⟨rfl⟩
  decide +kernel

/-- A batch of 900 goes through beside a reservation of 600 and leaves 100. -/
theorem batch_spends_reservation :
    let w := runFrom next World.genesis Sample.reserved600
    let i := Sample.call [Sample.admin] (.batchProcessPayroll (Sample.batch 2 Sample.bob 900))
    Reached w ∧ w.payroll.get .addresses = some Sample.addrs ∧ Covered Sample.addrs w ∧
      exec i.env (.batchProcessPayroll (Sample.batch 2 Sample.bob 900)) w = .ok (.id 2, next w i) ∧
      ¬ Covered Sample.addrs (next w i) :=
  ⟨reachable_runFrom, rfl, by decide +kernel, rfl, by decide +kernel⟩

end ZkPayroll.Payroll
