import ZkPayroll.Payroll.Solvency
import ZkPayroll.Payroll.Execution

/-!
# What the treasury has left

`get_available_treasury_balance` and `get_safe_treasury_summary` report the
balance less the reservation. The report is good as long as the treasury
covers what is reserved. Deposits, releases and emergency withdrawals keep it
covered; a new reservation is not checked against the balance at all, and a
batch is checked against the whole of it. So the treasury is promised at most
once in exactly those runs in which neither asks for more than is left.
-/

namespace ZkPayroll.Payroll

open Host

/-- Somebody moves tokens out of the treasury without the payroll contract. -/
def SpendsDirectly (st : Step World Input) : Prop :=
  ∃ addrs asset dest amount, st.pre.payroll.get .addresses = some addrs ∧
    st.input.message = .token asset (.transfer addrs.treasury dest amount)

def left (addrs : ContractAddresses) (w : World) : Int :=
  w.tokenBalance addrs.token addrs.treasury - getLockedFunds w.payroll addrs.token

/-- The step goes through and reserves, or pays to others, more than is left. -/
inductive Overcommits (st : Step World Input) : Prop
  | prepare (b : Batch) (addrs : ContractAddresses)
      (message : st.input.message = .payroll (.preparePayrollRun b))
      (guards : CanPrepare st.input.env b st.pre.payroll)
      (stored : st.pre.payroll.get .addresses = some addrs)
      (exceeds : left addrs st.pre < b.expectedTotalSpend)
  | batch (b : Batch) (addrs : ContractAddresses)
      (message : st.input.message = .payroll (.batchProcessPayroll b))
      (guards : CanExecute st.input.env b st.pre)
      (stored : st.pre.payroll.get .addresses = some addrs)
      (exceeds : left addrs st.pre < paidOut addrs.treasury b.payments)

/-- Both reports are non-negative and add up, for every asset. -/
def Sound (w : World) : Prop :=
  ∀ addrs, w.payroll.get .addresses = some addrs → ∀ asset,
    (∃ available, getAvailableTreasuryBalance w asset = .ok available ∧
      0 ≤ available ∧ available ≤ w.tokenBalance asset addrs.treasury) ∧
    ∃ summary, getSafeTreasurySummary w asset = .ok summary ∧
      summary.availableBalance =
        summary.totalBalance - summary.reservedBalance - summary.blockedBalance ∧
      0 ≤ summary.availableBalance

/-- The treasury is never promised twice along a run. -/
structure PromisedOnce (inputs : List Input) : Prop where
  sound : ∀ st ∈ steps next World.genesis inputs, Sound st.post
  reserved : ∀ st ∈ steps next World.genesis inputs, ∀ b runId addrs available,
    Executes st.input st.pre (.preparePayrollRun b) (.id runId) st.post →
    st.pre.payroll.get .addresses = some addrs →
    getAvailableTreasuryBalance st.pre addrs.token = .ok available →
    b.expectedTotalSpend ≤ available

/-- What is known of every world reached without direct reservations: nothing is
reserved in an asset other than the stored token. -/
structure Booked (w : World) : Prop where
  reached : Reached w
  reserved : Reserved w.payroll
  recorded : ∃ created, RunsRecorded created w.payroll
  others : ∀ asset, (∀ addrs, w.payroll.get .addresses = some addrs → asset ≠ addrs.token) →
    getLockedFunds w.payroll asset = 0

section
variable {e : Env} {w w' : World} {i : Input}

-- ---------------------------------------------------------------------------
-- Reservations in other assets
-- ---------------------------------------------------------------------------

theorem exec_others (hok : exec e call w = .ok (ret, w'))
    (hadd : ∀ asset amount, call ≠ .addLockedFunds asset amount)
    (hsub : ∀ asset amount, call ≠ .subtractLockedFunds asset amount)
    (hasset : ∀ addrs, w'.payroll.get .addresses = some addrs → asset ≠ addrs.token) :
    getLockedFunds w'.payroll asset = getLockedFunds w.payroll asset := by
  cases call with
  | preparePayrollRun b =>
    obtain ⟨_, _, hf, -, rfl⟩ := onStorageRet_ok.mp hok
    obtain ⟨-, -, -, -, -, -, addrs, haddrs, -, -, -, -, -, -, -, rfl⟩ := preparePayrollRun_ok.mp hf
    have hne := hasset addrs (by simpa [prepared, claimRunId] using haddrs)
    simp [getLockedFunds, prepared, claimRunId, hne]
  | finalizePayrollRun =>
    obtain ⟨_, hf, -, rfl⟩ := onStorage_ok.mp hok
    obtain ⟨-, -, addrs, haddrs, -, -, p, -, -, -, -, rfl⟩ := finalizePayrollRun_ok.mp hf
    have hne := hasset addrs (by simpa [finalized] using haddrs)
    simp [getLockedFunds, finalized, hne]
  | cancelPayrollRunWithReason | cancelPayrollRun =>
    obtain ⟨_, hf, -, rfl⟩ := onStorage_ok.mp hok
    obtain ⟨-, -, addrs, haddrs, -, -, -, p, -, -, rfl⟩ := cancelPayrollRunWithReason_ok.mp hf
    have hne := hasset addrs (by simpa [cancelled] using haddrs)
    simp [getLockedFunds, cancelled, hne]
  | addLockedFunds asset amount => exact absurd rfl (hadd asset amount)
  | subtractLockedFunds asset amount => exact absurd rfl (hsub asset amount)
  | _ => rw [getLockedFunds, exec_keeps hok rfl, getLockedFunds]

theorem booked_run (inputs : List Input) (h : ∀ i ∈ inputs, ¬ DirectReservation i) :
    Booked (runFrom next World.genesis inputs) := by
  refine ⟨reachable_runFrom, reserved_run inputs h, ⟨_, runsRecorded_run inputs⟩, ?_⟩
  induction inputs using List.reverseRecOn with
  | nil => exact fun _ _ => rfl
  | append_singleton inputs i ih =>
    intro asset hasset
    have hbefore := ih fun j hj => h j (by simp [hj])
    rw [runFrom_snoc] at hasset ⊢
    rcases next_payroll (runFrom next World.genesis inputs) i with
      ⟨call, ret, ⟨hm, hok⟩, -⟩ | ⟨hsame, -⟩
    · obtain ⟨hadd, hsub⟩ := indirect_call (h i (by simp)) hm
      rw [exec_others hok hadd hsub hasset]
      refine hbefore asset fun addrs haddrs => ?_
      obtain ⟨_, _, haddrs'⟩ := exec_addresses hok haddrs
      have hne := hasset _ haddrs'
      exact hne
    · rw [hsame] at hasset ⊢
      exact hbefore asset hasset

theorem Booked.other (h : Booked w) (haddrs : w.payroll.get .addresses = some addrs)
    (hasset : asset ≠ addrs.token) : getLockedFunds w.payroll asset = 0 :=
  h.others asset fun addrs' haddrs' => by rwa [← Store.get_inj haddrs haddrs']

theorem Booked.locked_nonneg (h : Booked w) (haddrs : w.payroll.get .addresses = some addrs)
    (asset : Address) : 0 ≤ getLockedFunds w.payroll asset := by
  by_cases hasset : asset = addrs.token
  · obtain ⟨created, hrec⟩ := h.recorded
    rw [hasset, h.reserved.token_locked haddrs]
    exact Store.total_nonneg hrec.pendingAmount_nonneg
  · exact (h.other haddrs hasset).ge

-- ---------------------------------------------------------------------------
-- The reports
-- ---------------------------------------------------------------------------

theorem Booked.balance_sub (h : Booked w) (haddrs : w.payroll.get .addresses = some addrs)
    (asset : Address) :
    checkedSub (w.tokenBalance asset addrs.treasury) (getLockedFunds w.payroll asset) =
      some (w.tokenBalance asset addrs.treasury - getLockedFunds w.payroll asset) := by
  have hsane := h.reached.sane asset addrs.treasury
  have hnonneg := h.locked_nonneg haddrs asset
  have hfits := (h.reserved.fits asset).2
  have hmin : i128Min = -i128Max - 1 := by decide
  unfold World.tokenBalance
  exact checkedSub_some.mpr ⟨⟨by omega, by omega⟩, rfl⟩

theorem Booked.available (h : Booked w) (haddrs : w.payroll.get .addresses = some addrs)
    (asset : Address) : getAvailableTreasuryBalance w asset =
      .ok (w.tokenBalance asset addrs.treasury - getLockedFunds w.payroll asset) := by
  simp only [getAvailableTreasuryBalance, bind_ok, getAddresses_ok, pure_ok]
  refine ⟨addrs, haddrs, ?_⟩
  rw [h.balance_sub haddrs, Option.getD_some]

theorem Booked.summary (h : Booked w) (haddrs : w.payroll.get .addresses = some addrs)
    (asset : Address) : getSafeTreasurySummary w asset =
      .ok ⟨asset, w.tokenBalance asset addrs.treasury,
        w.tokenBalance asset addrs.treasury - getLockedFunds w.payroll asset,
        getLockedFunds w.payroll asset, 0⟩ := by
  have hsub := h.balance_sub haddrs asset
  obtain ⟨hfits, -⟩ := checkedSub_some.mp hsub
  simp only [getSafeTreasurySummary, bind_ok, getAddresses_ok, pure_ok]
  refine ⟨addrs, haddrs, ?_⟩
  rw [hsub, Option.getD_some, checkedSub_some.mpr ⟨by rwa [Int.sub_zero], rfl⟩, Option.getD_some,
    Int.sub_zero]

theorem Booked.sound_iff (h : Booked w) :
    Sound w ↔ ∀ addrs, w.payroll.get .addresses = some addrs → Covered addrs w := by
  constructor
  · intro hsound addrs haddrs
    obtain ⟨⟨available, hreport, hnonneg, -⟩, -⟩ := hsound addrs haddrs addrs.token
    rw [h.available haddrs] at hreport
    obtain rfl := Except.ok.inj hreport
    unfold Covered
    omega
  · intro hcovered addrs haddrs asset
    have hlocked := h.locked_nonneg haddrs asset
    have hleft : getLockedFunds w.payroll asset ≤ w.tokenBalance asset addrs.treasury := by
      by_cases hasset : asset = addrs.token
      · rw [hasset]
        exact hcovered addrs haddrs
      · rw [h.other haddrs hasset]
        exact (h.reached.sane asset addrs.treasury).1
    refine ⟨⟨_, h.available haddrs asset, by omega, by omega⟩, _, h.summary haddrs asset, ?_, ?_⟩
    · exact (Int.sub_zero _).symm
    · simp only
      omega

-- ---------------------------------------------------------------------------
-- Steps
-- ---------------------------------------------------------------------------

theorem prepare_covered (haddrs : w.payroll.get .addresses = some addrs)
    (hok : preparePayrollRun e b w.payroll = .ok (runId, s')) :
    Covered addrs { w with payroll := s' } ↔ b.expectedTotalSpend ≤ left addrs w := by
  obtain ⟨-, -, -, -, -, -, addrs', haddrs', -, -, -, -, -, -, -, rfl⟩ := preparePayrollRun_ok.mp hok
  obtain rfl : addrs = addrs' := Store.get_inj haddrs haddrs'
  have hlocked : getLockedFunds (prepared e addrs b w.payroll) addrs.token =
      getLockedFunds w.payroll addrs.token + b.expectedTotalSpend := by
    simp [getLockedFunds, prepared]
  simp only [Covered, left, hlocked, World.tokenBalance]
  omega

theorem release_covered (hcovered : Covered addrs w) (hpos : 0 < amount)
    (hlocked : getLockedFunds s' addrs.token = getLockedFunds w.payroll addrs.token - amount) :
    Covered addrs { w with payroll := s' } := by
  simp only [Covered, World.tokenBalance] at hcovered ⊢
  omega

theorem deposit_covered (haddrs : w.payroll.get .addresses = some addrs)
    (hcovered : Covered addrs w) (hok : deposit e depositor amount depositId w = .ok w') :
    Covered addrs w' := by
  obtain ⟨-, -, hpos, -, addrs', haddrs', _, -, -, -, balances, htransfer, -, rfl⟩ :=
    deposit_ok.mp hok
  obtain rfl : addrs = addrs' := Store.get_inj haddrs haddrs'
  obtain ⟨-, -, hbalance⟩ := Token.transfer_ok htransfer
  have htreasury := hbalance addrs.treasury
  simp only [Covered, World.tokenBalance, getLockedFunds] at hcovered ⊢
  simp only [ne_eq, reduceCtorEq, not_false_eq_true, Store.get_set_ne, Function.update_self,
    htreasury, if_true]
  split <;> omega

theorem token_covered (hcovered : Covered addrs w) (hok : Token.exec (w.tokens asset) call = .ok t)
    (hspends : ∀ dest amount, call ≠ .transfer addrs.treasury dest amount) :
    Covered addrs { w with tokens := Function.update w.tokens asset t } := by
  have hgrows : Token.balance (w.tokens asset) addrs.treasury ≤ Token.balance t addrs.treasury := by
    cases call with
    | initializeToken =>
      rw [pure_ok.mp hok]
    | mint dest amount =>
      obtain ⟨hpos, -, hbalance⟩ := Token.mint_ok hok
      rw [hbalance]
      split <;> omega
    | transfer source dest amount =>
      obtain ⟨hpos, -, hbalance⟩ := Token.transfer_ok hok
      have hsource : addrs.treasury ≠ source := by
        rintro rfl
        exact hspends dest amount rfl
      rw [hbalance, if_neg hsource]
      split <;> omega
  simp only [Covered, World.tokenBalance] at hcovered ⊢
  by_cases hasset : addrs.token = asset
  · subst hasset
    rw [Function.update_self]
    exact hcovered.trans hgrows
  · rw [Function.update_of_ne hasset]
    exact hcovered

theorem first_covered (h : Booked w) (hok : exec e call w = .ok (ret, w'))
    (hnone : w.payroll.get .addresses = none) (haddrs : w'.payroll.get .addresses = some addrs) :
    Covered addrs w' := by
  cases call with
  | initializePayroll =>
    have hlocked : getLockedFunds w'.payroll addrs.token = 0 := by
      rw [getLockedFunds, exec_keeps hok rfl]
      exact h.others addrs.token (by simp [hnone])
    rw [Covered, hlocked, exec_inside hok rfl]
    exact (h.reached.sane addrs.token addrs.treasury).1
  | acceptAdminRotation =>
    obtain ⟨_, hf, -, -⟩ := onStorage_ok.mp hok
    obtain ⟨-, _, -, -, -, -, _, hstored, -⟩ := acceptAdminRotation_ok.mp hf
    simp [hnone] at hstored
  | acceptTreasuryRotation =>
    obtain ⟨_, hf, -, -⟩ := onStorage_ok.mp hok
    obtain ⟨-, _, -, -, -, -, -, _, hstored, -⟩ := acceptTreasuryRotation_ok.mp hf
    simp [hnone] at hstored
  | acceptAdminHandover =>
    obtain ⟨_, hf, -, -⟩ := onStorage_ok.mp hok
    obtain ⟨-, _, -, -, -, _, hstored, -⟩ := acceptAdminHandover_ok.mp hf
    simp [hnone] at hstored
  | _ =>
    rw [exec_keeps hok rfl, hnone] at haddrs
    cases haddrs

/-- The treasury of an initialised contract stays covered by a call that commits
no more than is left. -/
theorem exec_covered (h : Booked w) (haddrs : w.payroll.get .addresses = some addrs)
    (hcovered : Covered addrs w) (hok : exec e call w = .ok (ret, w'))
    (hadd : ∀ asset amount, call ≠ .addLockedFunds asset amount)
    (hsub : ∀ asset amount, call ≠ .subtractLockedFunds asset amount)
    (hprepare : ∀ b, call = .preparePayrollRun b → b.expectedTotalSpend ≤ left addrs w)
    (hbatch : ∀ b, call = .batchProcessPayroll b → paidOut addrs.treasury b.payments ≤ left addrs w) :
    Covered addrs w' := by
  obtain ⟨created, hrec⟩ := h.recorded
  cases call with
  | preparePayrollRun b =>
    obtain ⟨_, _, hf, -, rfl⟩ := onStorageRet_ok.mp hok
    exact (prepare_covered haddrs hf).mpr (hprepare b rfl)
  | batchProcessPayroll b =>
    obtain ⟨_, hf, -⟩ := exec_batchProcessPayroll_ok.mp hok
    have hroom := hbatch b rfl
    unfold left at hroom
    exact (batch_covered haddrs hf).mpr (by omega)
  | finalizePayrollRun =>
    obtain ⟨_, hf, -, rfl⟩ := onStorage_ok.mp hok
    obtain ⟨-, -, addrs', haddrs', -, -, p, hp, -, -, -, rfl⟩ := finalizePayrollRun_ok.mp hf
    obtain rfl : addrs = addrs' := Store.get_inj haddrs haddrs'
    exact release_covered hcovered (hrec.pending_pos hp).1 (by simp [getLockedFunds, finalized])
  | cancelPayrollRunWithReason | cancelPayrollRun =>
    obtain ⟨_, hf, -, rfl⟩ := onStorage_ok.mp hok
    obtain ⟨-, -, addrs', haddrs', -, -, -, p, hp, -, rfl⟩ := cancelPayrollRunWithReason_ok.mp hf
    obtain rfl : addrs = addrs' := Store.get_inj haddrs haddrs'
    exact release_covered hcovered (hrec.pending_pos hp).1 (by simp [getLockedFunds, cancelled])
  | deposit => exact deposit_covered haddrs hcovered (onWorld_ok.mp hok).1
  | approveEmergencyWithdrawal =>
    exact emergency_covered h.reached haddrs hcovered (onWorld_ok.mp hok).1
  | addLockedFunds asset amount => exact absurd rfl (hadd asset amount)
  | subtractLockedFunds asset amount => exact absurd rfl (hsub asset amount)
  | _ =>
    have hlocked : getLockedFunds w'.payroll addrs.token = getLockedFunds w.payroll addrs.token := by
      rw [getLockedFunds, exec_keeps hok rfl, getLockedFunds]
    rw [Covered, hlocked, exec_inside hok rfl]
    exact hcovered

theorem next_covered (h : Booked w)
    (hcovered : ∀ addrs, w.payroll.get .addresses = some addrs → Covered addrs w)
    (hindirect : ¬ DirectReservation i) (hspends : ¬ SpendsDirectly ⟨w, i, next w i⟩)
    (hwithin : ¬ Overcommits ⟨w, i, next w i⟩)
    (haddrs : (next w i).payroll.get .addresses = some addrs) : Covered addrs (next w i) := by
  rcases next_cases w i with ⟨call, ret, hm, hok⟩ | ⟨asset, call, t, hm, hok, hnext⟩ |
    ⟨_, _, _, -, -, hnext⟩ | ⟨-, hnext⟩
  · cases hstored : w.payroll.get .addresses with
    | none => exact first_covered h hok hstored haddrs
    | some stored =>
      obtain ⟨_, _, haddrs'⟩ := exec_addresses hok hstored
      obtain rfl := Store.get_inj haddrs' haddrs
      obtain ⟨hadd, hsub⟩ := indirect_call hindirect hm
      have hkept : Covered stored (next w i) := by
        refine exec_covered h hstored (hcovered stored hstored) hok hadd hsub ?_ ?_
        · rintro b rfl
          by_contra hover
          obtain ⟨runId, s', hf, -, -⟩ := onStorageRet_ok.mp hok
          exact hwithin (.prepare b stored hm (canPrepare_iff.mpr ⟨runId, s', hf⟩) hstored
            (not_le.mp hover))
        · rintro b rfl
          by_contra hover
          obtain ⟨runId, hf, -⟩ := exec_batchProcessPayroll_ok.mp hok
          exact hwithin (.batch b stored hm ((canExecute_iff h.reached).mpr ⟨runId, _, hf⟩) hstored
            (not_le.mp hover))
      -- the token and the treasury are those stored before
      exact hkept
  · rw [hnext] at haddrs ⊢
    refine token_covered (hcovered addrs haddrs) hok ?_
    rintro dest amount rfl
    exact hspends ⟨addrs, asset, dest, amount, haddrs, hm⟩
  · rw [hnext] at haddrs ⊢
    exact hcovered addrs haddrs
  · rw [hnext] at haddrs ⊢
    exact hcovered addrs haddrs

theorem overcommits_uncovered {st : Step World Input} (h : Booked st.pre)
    (hpost : st.post = next st.pre st.input) (hover : Overcommits st) :
    ∃ addrs, st.post.payroll.get .addresses = some addrs ∧ ¬ Covered addrs st.post := by
  cases hover with
  | prepare b addrs hm hguards haddrs hover =>
    obtain ⟨runId, s', hf⟩ := canPrepare_iff.mp hguards
    have hok : exec st.input.env (.preparePayrollRun b) st.pre =
        .ok (.id runId, { st.pre with payroll := s' }) := onStorageRet_ok.mpr ⟨_, _, hf, rfl, rfl⟩
    obtain ⟨_, _, haddrs'⟩ := exec_addresses hok haddrs
    rw [hpost, Executes.next_eq ⟨hm, hok⟩]
    exact ⟨_, haddrs', fun hcovered => not_le.mpr hover ((prepare_covered haddrs hf).mp hcovered)⟩
  | batch b addrs hm hguards haddrs hover =>
    obtain ⟨runId, w', hf⟩ := (canExecute_iff h.reached).mp hguards
    have hok : exec st.input.env (.batchProcessPayroll b) st.pre = .ok (.id runId, w') :=
      exec_batchProcessPayroll_ok.mpr ⟨_, hf, rfl⟩
    obtain ⟨_, _, haddrs'⟩ := exec_addresses hok haddrs
    rw [hpost, Executes.next_eq ⟨hm, hok⟩]
    refine ⟨_, haddrs', fun hcovered => ?_⟩
    have hroom := (batch_covered haddrs hf).mp hcovered
    unfold left at hover
    omega

-- ---------------------------------------------------------------------------
-- Runs
-- ---------------------------------------------------------------------------

theorem covered_run (inputs : List Input) (hindirect : ∀ i ∈ inputs, ¬ DirectReservation i)
    (hspends : ∀ st ∈ steps next World.genesis inputs, ¬ SpendsDirectly st)
    (hwithin : ∀ st ∈ steps next World.genesis inputs, ¬ Overcommits st) (addrs : ContractAddresses)
    (haddrs : (runFrom next World.genesis inputs).payroll.get .addresses = some addrs) :
    Covered addrs (runFrom next World.genesis inputs) := by
  induction inputs using List.reverseRecOn generalizing addrs with
  | nil => cases haddrs
  | append_singleton inputs i ih =>
    have hbefore : ∀ j ∈ inputs, ¬ DirectReservation j := fun j hj => hindirect j (by simp [hj])
    rw [runFrom_snoc] at haddrs ⊢
    refine next_covered (booked_run inputs hbefore) ?_ (hindirect i (by simp))
      (hspends _ (last_mem_steps i)) (hwithin _ (last_mem_steps i)) haddrs
    exact ih hbefore (fun st hst => hspends st (mem_steps_append hst _))
      fun st hst => hwithin st (mem_steps_append hst _)

/-- As long as reservations are made by the run operations and the treasury's
tokens leave through the contract, the treasury is promised once in exactly
those runs in which no step commits more than is left. -/
theorem treasury_promised_once_iff (inputs : List Input)
    (hindirect : ∀ i ∈ inputs, ¬ DirectReservation i)
    (hspends : ∀ st ∈ steps next World.genesis inputs, ¬ SpendsDirectly st) :
    PromisedOnce inputs ↔ ∀ st ∈ steps next World.genesis inputs, ¬ Overcommits st := by
  constructor
  · intro h st hst hover
    obtain ⟨before, after, rfl, hpre, hpost⟩ := mem_steps_last hst
    have hbefore : Booked st.pre := hpre ▸ booked_run before fun j hj => hindirect j (by simp [hj])
    have hafter : Booked st.post :=
      hpost ▸ booked_run _ fun j hj => hindirect j (List.mem_append_left _ hj)
    obtain ⟨addrs, haddrs, huncovered⟩ := overcommits_uncovered hbefore (steps_post hst) hover
    exact huncovered (hafter.sound_iff.mp (h.sound st hst) addrs haddrs)
  · intro hwithin
    refine ⟨fun st hst => ?_, fun st hst b runId addrs available hprepares haddrs hreport => ?_⟩
    · obtain ⟨before, after, rfl, -, hpost⟩ := mem_steps_last hst
      have hupto : ∀ j ∈ before ++ [st.input], ¬ DirectReservation j :=
        fun j hj => hindirect j (List.mem_append_left _ hj)
      rw [hpost, (booked_run _ hupto).sound_iff]
      exact covered_run _ hupto (fun st' hst' => hspends st' (mem_steps_append hst' after))
        fun st' hst' => hwithin st' (mem_steps_append hst' after)
    · obtain ⟨before, after, rfl, hpre, -⟩ := mem_steps_last hst
      have hbefore : Booked st.pre :=
        hpre ▸ booked_run before fun j hj => hindirect j (by simp [hj])
      rw [hbefore.available haddrs] at hreport
      obtain rfl := Except.ok.inj hreport
      by_contra hover
      obtain ⟨_, s', hf, -, -⟩ := onStorageRet_ok.mp hprepares.2
      exact hwithin st hst (.prepare b addrs hprepares.1 (canPrepare_iff.mpr ⟨_, s', hf⟩) haddrs
        (not_le.mp hover))

end

theorem one_pending_promised_once : PromisedOnce Sample.onePending := by
  refine (treasury_promised_once_iff Sample.onePending ?_ ?_).mpr ?_
  · simp [Sample.onePending, Sample.funded, Sample.deploy, Sample.call, DirectReservation]
  · simp [Sample.onePending, Sample.funded, Sample.deploy, Sample.call, SpendsDirectly, steps]
  · intro st hst hover
    simp only [Sample.onePending, Sample.funded, List.cons_append, List.nil_append, steps,
      List.mem_cons, List.not_mem_nil, or_false] at hst
    rcases hst with rfl | rfl | rfl
    · cases hover with
      | prepare _ _ hm | batch _ _ hm => cases hm
    · cases hover with
      | prepare _ _ hm | batch _ _ hm => cases hm
    · cases hover with
      | batch _ _ hm => cases hm
      | prepare b addrs hm _ haddrs hover =>
        cases hm
        obtain rfl : Sample.addrs = addrs := Option.some.inj haddrs
        revert hover
        decide +kernel

/-- Two runs of 600 are prepared on a treasury of 1000, and the reports go
negative. -/
theorem promised_twice :
    let second := Sample.call [Sample.admin] (.preparePayrollRun (Sample.batch 2 Sample.bob 600))
    let inputs := Sample.funded 1000 ++
      [Sample.call [Sample.admin] (.preparePayrollRun (Sample.batch 1 Sample.alice 600)), second]
    let w := runFrom next World.genesis inputs
    (∀ i ∈ inputs, ¬ DirectReservation i) ∧
      (∀ st ∈ steps next World.genesis inputs, ¬ SpendsDirectly st) ∧
      getAvailableTreasuryBalance w Sample.token = .ok (-200) ∧
      getSafeTreasurySummary w Sample.token = .ok ⟨Sample.token, 1000, -200, 1200, 0⟩ ∧
      ¬ PromisedOnce inputs := by
  intro second inputs w
  have havailable : getAvailableTreasuryBalance w Sample.token = .ok (-200) := by decide +kernel
  refine ⟨?_, ?_, havailable, by decide +kernel, fun h => ?_⟩
  · simp [inputs, second, Sample.funded, Sample.deploy, Sample.call, DirectReservation]
  · simp [inputs, second, Sample.funded, Sample.deploy, Sample.call, SpendsDirectly, steps]
  · have hlast := @last_mem_steps _ _ next World.genesis (Sample.funded 1000 ++
      [Sample.call [Sample.admin] (.preparePayrollRun (Sample.batch 1 Sample.alice 600))]) second
    rw [List.append_assoc] at hlast
    obtain ⟨⟨available, hreport, hnonneg, -⟩, -⟩ := h.sound _ hlast Sample.addrs rfl Sample.token
    have hsame : .ok (-200) = (.ok available : Result Int) := havailable.symm.trans hreport
    obtain rfl := Except.ok.inj hsame
    revert hnonneg
    decide

end ZkPayroll.Payroll
