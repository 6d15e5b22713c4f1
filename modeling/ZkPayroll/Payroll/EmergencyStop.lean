import ZkPayroll.Payroll.RunRecords

/-!
# The emergency stop

While the configured pause manager says so, no call may move tokens, create a
run, use up a nonce or reserve funds for a run. Every entry point that does
any of this asks `require_not_paused` first, except `prepare_payroll_run`: a
batch that passes its other checks is prepared, paused or not.
`cancel_payroll_run` does not ask either, and only releases.
-/

namespace ZkPayroll.Payroll

open Host

/-- The call sets a reservation by hand instead of through a run. -/
def Call.setsReservation : Call → Bool
  | .addLockedFunds .. | .subtractLockedFunds .. => true
  | _ => false

/-- What an emergency stop freezes. -/
structure Frozen (call : Call) (w w' : World) : Prop where
  tokens : w'.tokens = w.tokens
  pending : ∀ r, w.payroll.get (.pendingRun r) = none → w'.payroll.get (.pendingRun r) = none
  runs : ∀ r, w.payroll.get (.payrollRun r) = none → w'.payroll.get (.payrollRun r) = none
  nonces : ∀ n, w.payroll.get (.runNonce n) = none → w'.payroll.get (.runNonce n) = none
  counter : w'.payroll.get .runCounter = w.payroll.get .runCounter
  reserved : call.setsReservation = false →
    ∀ asset, getLockedFunds w'.payroll asset ≤ getLockedFunds w.payroll asset

section
variable {e : Env} {w w' : World} {i : Input}

theorem Frozen.refl (call : Call) (w : World) : Frozen call w w :=
  ⟨rfl, fun _ => id, fun _ => id, fun _ => id, rfl, fun _ _ => le_rfl⟩

theorem Frozen.of_agree (htokens : w'.tokens = w.tokens) (h : Agree kinds w.payroll w'.payroll)
    (hkinds : ∀ kind ∈ [Kind.pendingRun, .payrollRun, .runNonce, .runCounter, .lockedPayrollFunds],
      kind ∉ kinds) : Frozen call w w' := by
  simp only [List.forall_mem_cons, List.not_mem_nil, false_imp_iff, implies_true, and_true] at hkinds
  obtain ⟨hpending, hruns, hnonces, hcounter, hlocked⟩ := hkinds
  refine ⟨htokens, fun r => ?_, fun r => ?_, fun n => ?_, h .runCounter hcounter, fun _ asset => ?_⟩
  · rw [h (.pendingRun r) hpending]
    exact id
  · rw [h (.payrollRun r) hruns]
    exact id
  · rw [h (.runNonce n) hnonces]
    exact id
  · rw [getLockedFunds, h (.lockedPayrollFunds asset) hlocked]
    rfl

theorem no_pauseManager_uninitialized (h : Reached w) :
    w.payroll.get .addresses = none → w.payroll.get .pauseManager = none := by
  refine payroll_invariant
    (I := fun s => s.get .addresses = none → s.get .pauseManager = none) (fun _ => rfl) ?_ h
  intro e call w ret w' _ hok ih hnone
  have hbefore := exec_uninitialized hok hnone
  cases call with
  | setPauseManager =>
    obtain ⟨_, hf, -, -⟩ := onStorage_ok.mp hok
    obtain ⟨⟨addrs, haddrs, -⟩, -⟩ := setPauseManager_ok.mp hf
    simp [hbefore] at haddrs
  | _ =>
    rw [exec_keeps hok rfl]
    exact ih hbefore

theorem cancelled_frozen (hpos : 0 < p.totalAmount) :
    Frozen call w { w with payroll := cancelled e addrs r reason p w.payroll } := by
  refine ⟨rfl, fun r' hr' => ?_, fun r' => ?_, fun n => ?_, ?_, fun _ asset => ?_⟩
  · by_cases hsame : r' = r
    · subst hsame
      simp [cancelled]
    · simpa [cancelled, hsame] using hr'
  · simp [cancelled]
  · simp [cancelled]
  · simp [cancelled]
  · by_cases hsame : asset = addrs.token
    · subst hsame
      simp only [cancelled, getLockedFunds, ne_eq, reduceCtorEq, not_false_eq_true,
        Store.get_set_ne, Store.get_remove_ne, Store.get_set_self, Option.getD_some]
      omega
    · simp [cancelled, getLockedFunds, hsame]

/-- A call that goes through under the stop freezes the contract, or prepares
a run. -/
theorem exec_frozen (hw : Reached w) (hpaused : Paused e w.payroll)
    (hok : exec e call w = .ok (ret, w')) :
    Frozen call w w' ∨ ∃ b, call = .preparePayrollRun b ∧ CanPrepare e b w.payroll := by
  obtain ⟨created, hrec⟩ := Reached.runsRecorded hw
  cases call with
  | initializePayroll =>
    obtain ⟨_, hf, -, -⟩ := onStorage_ok.mp hok
    have hnone := no_pauseManager_uninitialized hw (initializePayroll_ok.mp hf).1
    obtain ⟨pm, hpm, -⟩ := hpaused
    simp [hnone] at hpm
  | updateReconciliationStatus =>
    obtain ⟨_, hf, -, -⟩ := onStorage_ok.mp hok
    exact absurd hpaused (updateReconciliationStatus_ok.mp hf).1
  | setRunMetadata =>
    obtain ⟨_, hf, -, -⟩ := onStorage_ok.mp hok
    exact absurd hpaused (setRunMetadata_ok.mp hf).1
  | preparePayrollRun b =>
    obtain ⟨runId, s', hf, -, -⟩ := onStorageRet_ok.mp hok
    exact .inr ⟨b, rfl, canPrepare_iff.mpr ⟨runId, s', hf⟩⟩
  | finalizePayrollRun =>
    obtain ⟨_, hf, -, -⟩ := onStorage_ok.mp hok
    exact absurd hpaused (finalizePayrollRun_ok.mp hf).1
  | cancelPayrollRunWithReason | cancelPayrollRun =>
    obtain ⟨_, hf, -, rfl⟩ := onStorage_ok.mp hok
    obtain ⟨-, -, _, -, -, -, -, p, hp, -, rfl⟩ := cancelPayrollRunWithReason_ok.mp hf
    exact .inl (cancelled_frozen (hrec.pending_pos hp).1)
  | batchProcessPayroll =>
    obtain ⟨_, hf, -⟩ := exec_batchProcessPayroll_ok.mp hok
    obtain ⟨-, _, -, -, -, hunpaused, -⟩ := batchProcessPayroll_ok.mp hf
    exact absurd hpaused hunpaused
  | deposit => exact absurd hpaused (deposit_ok.mp (onWorld_ok.mp hok).1).1
  | approveEmergencyWithdrawal =>
    exact absurd hpaused (approveEmergencyWithdrawal_ok.mp (onWorld_ok.mp hok).1).1
  | addLockedFunds | subtractLockedFunds =>
    have hget : ∀ k : DataKey, k.kind ≠ .lockedPayrollFunds →
        w'.payroll.get k = w.payroll.get k := by
      intro k hk
      exact exec_get hok (by simpa [Call.footprint] using hk)
    have hinside := exec_inside hok (by simp [Call.reachesOut])
    refine .inl ⟨by rw [hinside], fun r => ?_, fun r => ?_, fun n => ?_, ?_, ?_⟩
    · rw [hget (.pendingRun r) (by simp)]
      exact id
    · rw [hget (.payrollRun r) (by simp)]
      exact id
    · rw [hget (.runNonce n) (by simp)]
      exact id
    · exact hget .runCounter (by simp)
    · simp [Call.setsReservation]
  | _ =>
    have hinside := exec_inside hok (by simp [Call.reachesOut])
    exact .inl (.of_agree (by rw [hinside]) (exec_frame hok) (of_decide_eq_true rfl))

theorem next_prepared (hm : i.message = .payroll (.preparePayrollRun b))
    (h : CanPrepare i.env b w.payroll) :
    ∃ addrs, (next w i).payroll = prepared i.env addrs b w.payroll := by
  obtain ⟨runId, s', hf⟩ := canPrepare_iff.mp h
  obtain ⟨-, -, -, -, -, -, addrs, -, -, -, -, -, -, -, -, rfl⟩ := preparePayrollRun_ok.mp hf
  exact ⟨addrs, next_returns hm rfl hf⟩

/-- In every reachable world under an emergency stop, a call to the contract
leaves everything frozen exactly when it is not a batch that `prepare` takes;
and a pending run can still be cancelled, which releases what it reserved. -/
theorem paused_call_frozen_iff (hw : Reached w) (hpaused : Paused i.env w.payroll)
    (hm : i.message = .payroll call) :
    (Frozen call w (next w i) ↔
      ∀ b, call = .preparePayrollRun b → ¬ CanPrepare i.env b w.payroll) ∧
    ∀ admin r reason p addrs, call = .cancelPayrollRun admin r reason →
      CanCancel i.env admin r reason w.payroll → w.payroll.get (.pendingRun r) = some p →
      w.payroll.get .addresses = some addrs →
      (next w i).payroll.get (.pendingRun r) = none ∧
        getLockedFunds (next w i).payroll addrs.token =
          getLockedFunds w.payroll addrs.token - p.totalAmount := by
  refine ⟨⟨?_, ?_⟩, ?_⟩
  · rintro hfrozen b rfl hcan
    obtain ⟨addrs, hnext⟩ := next_prepared hm hcan
    have hfree : w.payroll.get (.runNonce b.nonce) = none := hcan.2.2.2.1
    have hused := hfrozen.nonces b.nonce hfree
    rw [hnext] at hused
    simp [prepared, claimRunId] at hused
  · intro hnone
    rcases next_call hm with ⟨ret, -, hok⟩ | hsame
    · rcases exec_frozen hw hpaused hok with hfrozen | ⟨b, hcall, hcan⟩
      · exact hfrozen
      · exact absurd hcan (hnone b hcall)
    · rw [hsame]
      exact .refl call w
  · rintro admin r reason p addrs rfl hcan hp haddrs
    obtain ⟨s', hf⟩ := canCancel_iff.mp hcan
    rw [next_stores hm rfl hf]
    obtain ⟨-, -, addrs', haddrs', -, -, -, p', hp', -, rfl⟩ := cancelPayrollRunWithReason_ok.mp hf
    obtain rfl : p = p' := by simpa [hp] using hp'
    obtain rfl : addrs = addrs' := by simpa [haddrs] using haddrs'
    exact ⟨by simp [cancelled], by simp [cancelled, getLockedFunds]⟩

end

-- ---------------------------------------------------------------------------
-- The gap
-- ---------------------------------------------------------------------------

def Sample.guarded : List Input :=
  Sample.onePending ++ [Sample.call [Sample.admin] (.setPauseManager Sample.owner)]

def Sample.pausedCall (auths : List Address) (c : Call) : Input :=
  ⟨{ Sample.env auths with isPaused := fun pm => pm == Sample.owner }, .payroll c⟩

theorem paused_deposit_frozen :
    let w := runFrom next World.genesis Sample.guarded
    let c : Call := .deposit Sample.admin 10 (Sample.digest 1)
    Paused (Sample.pausedCall [Sample.admin] c).env w.payroll ∧
      Frozen c w (next w (Sample.pausedCall [Sample.admin] c)) := by
  intro w c
  have hpaused : Paused (Sample.pausedCall [Sample.admin] c).env w.payroll := ⟨_, rfl, rfl⟩
  refine ⟨hpaused, (paused_call_frozen_iff reachable_runFrom hpaused rfl).1.mpr ?_⟩
  intro b hcall
  simp [c] at hcall

/-- Under an emergency stop a second run is prepared: it takes an id and a
nonce, and its reservation is added. -/
theorem prepare_ignores_pause :
    let w := runFrom next World.genesis Sample.guarded
    let c : Call := .preparePayrollRun (Sample.batch 2 Sample.alice 100)
    let w' := next w (Sample.pausedCall [Sample.admin] c)
    Reached w ∧ Paused (Sample.pausedCall [Sample.admin] c).env w.payroll ∧
      (w.payroll.get .runCounter = some 1 ∧ w'.payroll.get .runCounter = some 2) ∧
      (getLockedFunds w.payroll Sample.token = 100 ∧ getLockedFunds w'.payroll Sample.token = 200) ∧
      ¬ Frozen c w w' := by
  intro w c w'
  refine ⟨reachable_runFrom, ⟨_, rfl, rfl⟩, ⟨rfl, rfl⟩, ⟨rfl, rfl⟩, fun h => ?_⟩
  exact absurd h.counter (by decide +kernel)

end ZkPayroll.Payroll
