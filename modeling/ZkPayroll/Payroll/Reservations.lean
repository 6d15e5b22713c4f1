import ZkPayroll.Payroll.RunRecords

/-!
# Reserved funds match the pending runs

The contract keeps the funds reserved for pending runs and the number of
pending runs in two counters of their own. Over every run of the system in
which `add_locked_funds` and `subtract_locked_funds` are reached through the
run entry points only, both counters are what the stored pending runs add up
to.

Both functions are public in the source, and a direct call may set the
reservation to anything: the theorem says nothing of such runs.
-/

namespace ZkPayroll.Payroll

open Host

def pendingAmount : (k : DataKey) → k.Val → Int
  | .pendingRun _, p => p.totalAmount
  | _, _ => 0

def pendingOne : (k : DataKey) → k.Val → Nat
  | .pendingRun _, _ => 1
  | _, _ => 0

/-- The total amount of all stored pending runs. -/
def pendingTotal (s : Storage) : Int := s.total pendingAmount

/-- The number of stored pending runs. -/
def pendingRuns (s : Storage) : Nat := s.total pendingOne

/-- A direct call to one of the two reservation helpers. -/
def DirectReservation (i : Input) : Prop :=
  ∃ asset amount, i.message = .payroll (.addLockedFunds asset amount) ∨
    i.message = .payroll (.subtractLockedFunds asset amount)

/-- Before initialisation no token is fixed, and the first clause speaks of
every asset. -/
structure Reserved (s : Storage) : Prop where
  locked : ∀ asset, (∀ addrs, s.get .addresses = some addrs → asset = addrs.token) →
    getLockedFunds s asset = pendingTotal s
  counted : pendingPayrollRunCount s = pendingRuns s
  fits : ∀ asset, InI128 (getLockedFunds s asset)

section
variable {e : Env} {s s' : Storage} {w w' : World} {created : List (Nat × Batch)}

-- ---------------------------------------------------------------------------
-- Steps
-- ---------------------------------------------------------------------------

theorem reserved_empty : Reserved (.empty : Storage) where
  locked _ _ := rfl
  counted := rfl
  fits _ := by simp [getLockedFunds, InI128, i128Min, i128Max]

theorem pendingAmount_zero (hk : k.kind ≠ .pendingRun) (v : k.Val) : pendingAmount k v = 0 := by
  cases k <;> first | rfl | simp at hk

theorem pendingOne_zero (hk : k.kind ≠ .pendingRun) (v : k.Val) : pendingOne k v = 0 := by
  cases k <;> first | rfl | simp at hk

@[simp] theorem pendingTotal_set {v : k.Val} (hk : k.kind ≠ .pendingRun) :
    pendingTotal (s.set k v) = pendingTotal s :=
  Store.total_set_zero s v (pendingAmount_zero hk)

@[simp] theorem pendingRuns_set {v : k.Val} (hk : k.kind ≠ .pendingRun) :
    pendingRuns (s.set k v) = pendingRuns s :=
  Store.total_set_zero s v (pendingOne_zero hk)

theorem pendingTotal_new (h : s.get (.pendingRun r) = none) (p : PendingPayrollRun) :
    pendingTotal (s.set (.pendingRun r) p) = pendingTotal s + p.totalAmount :=
  Store.total_set_new h

theorem pendingRuns_new (h : s.get (.pendingRun r) = none) (p : PendingPayrollRun) :
    pendingRuns (s.set (.pendingRun r) p) = pendingRuns s + 1 :=
  Store.total_set_new h

theorem pendingTotal_closed (h : s.get (.pendingRun r) = some p) :
    pendingTotal (s.remove (.pendingRun r)) = pendingTotal s - p.totalAmount :=
  eq_sub_of_add_eq (Store.total_remove_stored h)

theorem pendingRuns_closed (h : s.get (.pendingRun r) = some p) :
    pendingRuns (s.remove (.pendingRun r)) + 1 = pendingRuns s :=
  Store.total_remove_stored h

theorem Reserved.of_agree (kinds : List Kind) (h : Reserved s) (hagree : Agree kinds s s')
    (hpending : .pendingRun ∉ kinds) (hcount : .pendingRunCount ∉ kinds)
    (hlocked : .lockedPayrollFunds ∉ kinds)
    (haddrs : ∀ addrs, s.get .addresses = some addrs →
      ∃ addrs', s'.get .addresses = some addrs' ∧ addrs'.token = addrs.token) : Reserved s' := by
  have hkind : ∀ k : DataKey, k.kind ∈ kinds → k.kind ≠ .pendingRun := by
    intro k hk heq
    exact hpending (heq ▸ hk)
  have htotal : pendingTotal s' = pendingTotal s :=
    Store.total_frame hagree fun k hk => pendingAmount_zero (hkind k hk)
  have hruns : pendingRuns s' = pendingRuns s :=
    Store.total_frame hagree fun k hk => pendingOne_zero (hkind k hk)
  have hget : ∀ asset, getLockedFunds s' asset = getLockedFunds s asset := by
    intro asset
    rw [getLockedFunds, hagree (.lockedPayrollFunds asset) hlocked, getLockedFunds]
  refine ⟨?_, ?_, ?_⟩
  · intro asset hasset
    rw [hget, htotal]
    refine h.locked asset fun addrs hstored => ?_
    obtain ⟨addrs', hstored', htoken⟩ := haddrs addrs hstored
    exact (hasset addrs' hstored').trans htoken
  · rw [hruns, ← h.counted, pendingPayrollRunCount, hagree .pendingRunCount hcount,
      pendingPayrollRunCount]
  · intro asset
    rw [hget]
    exact h.fits asset

theorem Reserved.of_token (h : Reserved s) (haddrs : s'.get .addresses = some addrs)
    (hlocked : getLockedFunds s' addrs.token = pendingTotal s')
    (hfits : InI128 (getLockedFunds s' addrs.token))
    (hothers : ∀ asset, asset ≠ addrs.token → getLockedFunds s' asset = getLockedFunds s asset)
    (hcounted : pendingPayrollRunCount s' = pendingRuns s') : Reserved s' := by
  refine ⟨?_, hcounted, ?_⟩
  · intro asset hasset
    rw [hasset addrs haddrs]
    exact hlocked
  · intro asset
    by_cases ha : asset = addrs.token
    · rw [ha]
      exact hfits
    · rw [hothers asset ha]
      exact h.fits asset

theorem Reserved.token_locked (h : Reserved s) (haddrs : s.get .addresses = some addrs) :
    getLockedFunds s addrs.token = pendingTotal s :=
  h.locked addrs.token fun addrs' haddrs' => by
    rw [Store.get_inj haddrs haddrs']

theorem Reserved.prepare (h : Reserved s) (hrec : RunsRecorded created s)
    (haddrs : s.get .addresses = some addrs)
    (hfits : InI128 (getLockedFunds s addrs.token + b.expectedTotalSpend)) :
    Reserved (prepared e addrs b s) := by
  obtain ⟨hfree, -, -⟩ := hrec.unrecorded (runCount s + 1) (by omega)
  have hnone : (claimRunId e addrs.admin b.nonce s).get (.pendingRun (runCount s + 1)) = none := by
    simpa [claimRunId] using hfree
  have hlocked : getLockedFunds (prepared e addrs b s) addrs.token =
      getLockedFunds s addrs.token + b.expectedTotalSpend := by
    simp [getLockedFunds, prepared]
  have htotal : pendingTotal (prepared e addrs b s) = pendingTotal s + b.expectedTotalSpend := by
    simp [prepared, pendingTotal_new hnone, Batch.pendingRun]
    simp [claimRunId]
  have hruns : pendingRuns (prepared e addrs b s) = pendingRuns s + 1 := by
    simp [prepared, pendingRuns_new hnone]
    simp [claimRunId]
  refine h.of_token (by simpa [prepared, claimRunId] using haddrs) ?_ ?_ ?_ ?_
  · rw [hlocked, htotal, h.token_locked haddrs]
  · rw [hlocked]
    exact hfits
  · intro asset ha
    simp [getLockedFunds, prepared, claimRunId, ha]
  · rw [hruns, ← h.counted]
    simp [pendingPayrollRunCount, prepared]

theorem Reserved.close (h : Reserved s) (haddrs : s.get .addresses = some addrs)
    (hfits : InI128 (getLockedFunds s addrs.token - amount))
    (haddrs' : s'.get .addresses = some addrs)
    (hlocked : ∀ asset, getLockedFunds s' asset =
      getLockedFunds s asset - if asset = addrs.token then amount else 0)
    (hcount : pendingPayrollRunCount s' = pendingPayrollRunCount s - 1)
    (htotal : pendingTotal s' = pendingTotal s - amount)
    (hruns : pendingRuns s' + 1 = pendingRuns s) : Reserved s' := by
  refine h.of_token haddrs' ?_ ?_ ?_ ?_
  · rw [hlocked, htotal, h.token_locked haddrs, if_pos rfl]
  · rw [hlocked, if_pos rfl]
    exact hfits
  · intro asset ha
    rw [hlocked, if_neg ha, sub_zero]
  · have := h.counted
    omega

theorem Reserved.finalize (h : Reserved s) (haddrs : s.get .addresses = some addrs)
    (hpending : s.get (.pendingRun r) = some p)
    (hfits : InI128 (getLockedFunds s addrs.token - p.totalAmount)) :
    Reserved (finalized e addrs r p s) := by
  have hpending' : ∀ x : Int, (s.set (.lockedPayrollFunds addrs.token) x).get (.pendingRun r) =
      some p := by simpa using hpending
  refine h.close haddrs hfits (by simpa [finalized] using haddrs) ?_ ?_ ?_ ?_
  · intro asset
    by_cases ha : asset = addrs.token
    · subst ha
      simp [getLockedFunds, finalized]
    · simp [getLockedFunds, finalized, ha]
  · simp [pendingPayrollRunCount, finalized]
  · simp [finalized, pendingTotal_closed (hpending' _)]
  · simp [finalized]
    simpa using pendingRuns_closed (hpending' _)

theorem Reserved.cancel (h : Reserved s) (haddrs : s.get .addresses = some addrs)
    (hpending : s.get (.pendingRun r) = some p)
    (hfits : InI128 (getLockedFunds s addrs.token - p.totalAmount)) :
    Reserved (cancelled e addrs r reason p s) := by
  have hpending' : ∀ (x : Int) c, ((s.set (.lockedPayrollFunds addrs.token) x).set
      (.cancelledBatchRecord r) c).get (.pendingRun r) = some p := by
    intro x c
    simpa using hpending
  refine h.close haddrs hfits (by simpa [cancelled] using haddrs) ?_ ?_ ?_ ?_
  · intro asset
    by_cases ha : asset = addrs.token
    · subst ha
      simp [getLockedFunds, cancelled]
    · simp [getLockedFunds, cancelled, ha]
  · simp [pendingPayrollRunCount, cancelled]
  · simp [cancelled, pendingTotal_closed (hpending' _ _)]
  · simp [cancelled]
    simpa using pendingRuns_closed (hpending' _ _)

-- ---------------------------------------------------------------------------
-- Runs
-- ---------------------------------------------------------------------------

theorem Reserved.exec (h : Reserved w.payroll) (hrec : RunsRecorded created w.payroll)
    (hok : exec e call w = .ok (ret, w'))
    (hadd : ∀ asset amount, call ≠ .addLockedFunds asset amount)
    (hsub : ∀ asset amount, call ≠ .subtractLockedFunds asset amount) : Reserved w'.payroll := by
  cases call with
  | preparePayrollRun b =>
    obtain ⟨_, _, hf, -, rfl⟩ := onStorageRet_ok.mp hok
    obtain ⟨-, -, -, -, -, -, addrs, haddrs, -, -, -, -, -, hfits, -, rfl⟩ :=
      preparePayrollRun_ok.mp hf
    exact h.prepare hrec haddrs hfits
  | finalizePayrollRun =>
    obtain ⟨_, hf, -, rfl⟩ := onStorage_ok.mp hok
    obtain ⟨-, -, addrs, haddrs, -, -, p, hpending, -, -, hfits, rfl⟩ := finalizePayrollRun_ok.mp hf
    exact h.finalize haddrs hpending hfits
  | cancelPayrollRunWithReason | cancelPayrollRun =>
    obtain ⟨_, hf, -, rfl⟩ := onStorage_ok.mp hok
    obtain ⟨-, -, addrs, haddrs, -, -, -, p, hpending, hfits, rfl⟩ :=
      cancelPayrollRunWithReason_ok.mp hf
    exact h.cancel haddrs hpending hfits
  | addLockedFunds asset amount => exact absurd rfl (hadd asset amount)
  | subtractLockedFunds asset amount => exact absurd rfl (hsub asset amount)
  | _ =>
    refine h.of_agree _ (exec_frame hok) ?_ ?_ ?_ fun addrs haddrs => ?_
    · simp [Call.footprint]
    · simp [Call.footprint]
    · simp [Call.footprint]
    · obtain ⟨_, _, haddrs'⟩ := exec_addresses hok haddrs
      exact ⟨_, haddrs', rfl⟩

theorem indirect_call (hi : ¬ DirectReservation i) (hm : i.message = .payroll call) :
    (∀ asset amount, call ≠ .addLockedFunds asset amount) ∧
      ∀ asset amount, call ≠ .subtractLockedFunds asset amount := by
  constructor
  · rintro asset amount rfl
    exact hi ⟨asset, amount, .inl hm⟩
  · rintro asset amount rfl
    exact hi ⟨asset, amount, .inr hm⟩

theorem reserved_run (inputs : List Input) (h : ∀ i ∈ inputs, ¬ DirectReservation i) :
    Reserved (runFrom next World.genesis inputs).payroll := by
  induction inputs using List.reverseRecOn with
  | nil => exact reserved_empty
  | append_singleton inputs i ih =>
    rw [runFrom_snoc]
    have hres := ih fun j hj => h j (by simp [hj])
    rcases next_payroll (runFrom next World.genesis inputs) i with
      ⟨call, ret, ⟨hm, hok⟩, -⟩ | ⟨hsame, -⟩
    · obtain ⟨hadd, hsub⟩ := indirect_call (h i (by simp)) hm
      exact hres.exec (runsRecorded_run inputs) hok hadd hsub
    · rw [hsame]
      exact hres

theorem RunsRecorded.pendingAmount_nonneg (hrec : RunsRecorded created s) (k : DataKey) (v : k.Val)
    (hv : s.get k = some v) : 0 ≤ pendingAmount k v := by
  cases k with
  | pendingRun r => exact (hrec.pending_pos hv).1.le
  | _ => exact le_rfl

/-- The reservation is what the stored pending runs add up to and their count
is their number. So the reservation is never negative, and for a pending run
there is always something to subtract: the count is positive and the amount
comes off the reservation. -/
theorem reservation_is_sum_of_pending_runs (inputs : List Input)
    (hindirect : ∀ i ∈ inputs, ¬ DirectReservation i) :
    let s := (runFrom next World.genesis inputs).payroll
    ∀ addrs, s.get .addresses = some addrs →
      getLockedFunds s addrs.token = pendingTotal s ∧
      pendingPayrollRunCount s = pendingRuns s ∧
      0 ≤ getLockedFunds s addrs.token ∧
      ∀ r p, s.get (.pendingRun r) = some p →
        0 < pendingPayrollRunCount s ∧
        ∃ s', subtractLockedFunds addrs.token p.totalAmount s = .ok s' := by
  intro s addrs haddrs
  have h : Reserved s := reserved_run inputs hindirect
  have hrec : RunsRecorded _ s := runsRecorded_run inputs
  have hnonneg := hrec.pendingAmount_nonneg
  refine ⟨h.token_locked haddrs, h.counted, ?_, ?_⟩
  · rw [h.token_locked haddrs]
    exact Store.total_nonneg hnonneg
  · intro r p hp
    have hmin : i128Min ≤ 0 := by decide
    have hle : p.totalAmount ≤ pendingTotal s := Store.le_total hnonneg hp
    have hpos := (hrec.pending_pos hp).1
    have hmax := (h.fits addrs.token).2
    rw [h.token_locked haddrs] at hmax
    refine ⟨?_, _, subtractLockedFunds_ok.mpr ⟨?_, rfl⟩⟩
    · rw [h.counted]
      have : 1 ≤ pendingRuns s := Store.le_total (w := pendingOne) (fun _ _ _ => Nat.zero_le _) hp
      omega
    · rw [h.token_locked haddrs]
      exact ⟨by omega, by omega⟩

end

theorem reservation_of_one_pending_run :
    let s := (runFrom next World.genesis Sample.onePending).payroll
    getLockedFunds s Sample.token = 100 ∧ getLockedFunds s Sample.token = pendingTotal s ∧
      pendingPayrollRunCount s = pendingRuns s ∧
      ∃ s', subtractLockedFunds Sample.token 100 s = .ok s' := by
  have hindirect : ∀ i ∈ Sample.onePending, ¬ DirectReservation i := by
    simp [Sample.onePending, Sample.funded, Sample.deploy, Sample.call, DirectReservation]
  obtain ⟨hlocked, hcount, -, hpending⟩ :=
    reservation_is_sum_of_pending_runs Sample.onePending hindirect Sample.addrs rfl
  exact ⟨rfl, hlocked, hcount, (hpending 1 _ rfl).2⟩

end ZkPayroll.Payroll
