import ZkPayroll.PaymentExecutor.Steps

/-!
# Numbered periods

The sequence entry of a company names its next period. A transaction opens
that period, closes one, or counts payments in open ones; `next_periods` says
so, and the numbering, the closed flags and the fixity of closed periods
follow from it.
-/

namespace ZkPayroll.PaymentExecutor

open Host

/-- The sequence is the same, and so is every period but for the count of open
ones. -/
structure PeriodsKept (s s' : Storage) : Prop where
  sequence : ∀ companyId, s'.get (.periodSequence companyId) = s.get (.periodSequence companyId)
  periods : ∀ companyId i, s'.get (.period companyId i) = s.get (.period companyId i) ∨
    ∃ period count, s.get (.period companyId i) = some period ∧ period.closed = false ∧
      s'.get (.period companyId i) = some { period with paymentCount := count }

/-- The company's next period is added, after its previous one is closed. -/
structure PeriodCreated (e : LedgerEnv) (companyId : Nat) (s s' : Storage) : Prop where
  previous : ¬ PreviousOpen s companyId
  created : s' = (s.set (.period companyId (nextPeriodId s companyId))
    (newPeriod e companyId (nextPeriodId s companyId))).set
      (.periodSequence companyId) (nextPeriodId s companyId + 1)

structure PeriodEnded (e : LedgerEnv) (companyId i : Nat) (s s' : Storage) (period : PayrollPeriod) :
    Prop where
  stored : s.get (.period companyId i) = some period
  wasOpen : period.closed = false
  ended : s' = s.set (.period companyId i) (period.ended e)

/-- The stored periods are those below the sequence entry, and all but the
last are closed. -/
structure Numbered (s : Storage) (companyId : Nat) : Prop where
  positive : 1 ≤ nextPeriodId s companyId
  stored : ∀ i, (∃ period, s.get (.period companyId i) = some period) ↔
    1 ≤ i ∧ i < nextPeriodId s companyId
  closed : ∀ i period, s.get (.period companyId i) = some period →
    i + 1 < nextPeriodId s companyId → period.closed = true

section
variable {e : LedgerEnv} {s s' : Storage} {w w' : System} {i : Input}

-- ---------------------------------------------------------------------------
-- What a transaction does to periods
-- ---------------------------------------------------------------------------

theorem PeriodsKept.refl (s : Storage) : PeriodsKept s s :=
  ⟨fun _ => rfl, fun _ _ => .inl rfl⟩

theorem PeriodsKept.of_frame (h : Store.Frame (fun k => k.isConfig = true) s s') :
    PeriodsKept s s' where
  sequence companyId := h (.periodSequence companyId) (by simp [DataKey.isConfig])
  periods companyId i := .inl (h (.period companyId i) (by simp [DataKey.isConfig]))

theorem PeriodsKept.trans (h : PeriodsKept s t) (h' : PeriodsKept t u) : PeriodsKept s u where
  sequence companyId := (h'.sequence companyId).trans (h.sequence companyId)
  periods companyId i := by
    rcases h.periods companyId i with hsame | ⟨period, count, hget, hopen, hset⟩
    · rw [← hsame]
      exact h'.periods companyId i
    · refine .inr ?_
      rcases h'.periods companyId i with hsame | ⟨period', count', hget', -, hset'⟩
      · exact ⟨period, count, hget, hopen, hsame.trans hset⟩
      · obtain rfl : { period with paymentCount := count } = period' := by
          rw [hset] at hget'
          exact Option.some.inj hget'
        exact ⟨period, count', hget, hopen, hset'⟩

theorem Payable.periodsKept (hp : Payable e p w r) :
    PeriodsKept w.executor (w.paid e p r).executor where
  sequence companyId := by simp [paid_executor, paidStorage]
  periods companyId i := by
    by_cases hsame : companyId = p.companyId ∧ i = p.period
    · obtain ⟨rfl, rfl⟩ := hsame
      refine .inr ⟨r.period, r.period.paymentCount + 1, hp.inPeriod, hp.periodOpen, ?_⟩
      simp [paid_executor, paidStorage]
    · refine .inl ?_
      have hne : DataKey.period companyId i ≠ .period p.companyId p.period := by simpa using hsame
      simp [paid_executor, paidStorage, hne]

theorem Pays.periodsKept (hp : Pays e ps w w') : PeriodsKept w.executor w'.executor := by
  induction hp with
  | nil before => exact .refl _
  | cons p r hpayable _ ih => exact hpayable.periodsKept.trans ih

theorem exec_periods (hok : exec e call w = .ok (ret, w')) :
    PeriodsKept w.executor w'.executor ∨
      (∃ companyId, PeriodCreated e companyId w.executor w'.executor) ∨
      ∃ companyId periodId period, PeriodEnded e companyId periodId w.executor w'.executor period := by
  cases call with
  | createPeriod companyId =>
    simp only [exec, bind_ok, Prod.exists, createPeriod_ok, pure_ok, Prod.mk.injEq] at hok
    obtain ⟨_, _, ⟨-, -, hprevious, -, -, rfl⟩, -, rfl⟩ := hok
    exact .inr (.inl ⟨companyId, hprevious, rfl⟩)
  | closePeriod companyId periodId =>
    simp only [exec, bind_ok, Prod.exists, closePeriod_ok, pure_ok, Prod.mk.injEq] at hok
    obtain ⟨_, _, ⟨-, period, hstored, hopen, -, rfl⟩, -, rfl⟩ := hok
    exact .inr (.inr ⟨companyId, periodId, period, hstored, hopen, rfl⟩)
  | executePayment p =>
    obtain ⟨r, hpayable, -, rfl⟩ := exec_executePayment_ok.mp hok
    exact .inl hpayable.periodsKept
  | executeBatchPayroll b =>
    obtain ⟨-, hpays, -⟩ := exec_executeBatchPayroll_ok.mp hok
    exact .inl hpays.periodsKept
  | initializeExecutor =>
    obtain ⟨s, hf, -, rfl⟩ := onStorage_ok.mp hok
    exact .inl (.of_frame (initializeExecutor_frame hf))
  | setExecutorAdmin =>
    obtain ⟨s, hf, -, rfl⟩ := onStorage_ok.mp hok
    exact .inl (.of_frame (setExecutorAdmin_frame hf))
  | setPauseManager =>
    obtain ⟨s, hf, -, rfl⟩ := onStorage_ok.mp hok
    exact .inl (.of_frame (setPauseManager_frame hf))
  | setAssetAllowed =>
    obtain ⟨s, hf, -, rfl⟩ := onStorage_ok.mp hok
    exact .inl (.of_frame (setAssetAllowed_frame hf))
  | setAssetDecimals =>
    obtain ⟨s, hf, -, rfl⟩ := onStorage_ok.mp hok
    exact .inl (.of_frame (setAssetDecimals_frame hf))

theorem next_periods (w : System) (i : Input) :
    PeriodsKept w.executor (next w i).executor ∨
      (∃ companyId, PeriodCreated i.env companyId w.executor (next w i).executor) ∨
      ∃ companyId periodId period,
        PeriodEnded i.env companyId periodId w.executor (next w i).executor period := by
  cases hd : deliver i.env i.message w with
  | error err =>
    rw [next_failed hd]
    exact .inl (.refl _)
  | ok result =>
    obtain ⟨ret, w'⟩ := result
    rw [next_ok hd]
    cases hm : i.message with
    | executor call =>
      rw [hm] at hd
      exact exec_periods hd
    | registry id call | commitment id call | token id call =>
      simp only [hm, deliver, bind_ok, orPanic_ok, pure_ok, Prod.mk.injEq] at hd
      obtain ⟨_, -, -, rfl⟩ := hd
      exact .inl (.refl _)

-- ---------------------------------------------------------------------------
-- Numbering
-- ---------------------------------------------------------------------------

theorem Numbered.kept (h : Numbered s companyId) (hkept : PeriodsKept s s') :
    Numbered s' companyId := by
  have hnext : nextPeriodId s' companyId = nextPeriodId s companyId := by
    rw [nextPeriodId, hkept.sequence]
    rfl
  refine ⟨by rw [hnext]; exact h.positive, fun i => ?_, fun i period hget hlt => ?_⟩
  · rw [hnext, ← h.stored i]
    rcases hkept.periods companyId i with hsame | ⟨period, count, hget, -, hset⟩
    · rw [hsame]
    · exact ⟨fun _ => ⟨period, hget⟩, fun _ => ⟨_, hset⟩⟩
  · rw [hnext] at hlt
    rcases hkept.periods companyId i with hsame | ⟨old, count, hold, hopen, -⟩
    · exact h.closed i period (hsame ▸ hget) hlt
    · exact absurd (h.closed i old hold hlt) (by simp [hopen])

theorem Numbered.created (h : Numbered s companyId) (hnew : PeriodCreated e other s s') :
    Numbered s' companyId := by
  obtain ⟨hprevious, rfl⟩ := hnew
  by_cases hsame : companyId = other
  · subst hsame
    have hnext : ∀ t : Storage, nextPeriodId (t.set (.periodSequence companyId)
        (nextPeriodId s companyId + 1)) companyId = nextPeriodId s companyId + 1 := by
      simp [nextPeriodId]
    refine ⟨by rw [hnext]; omega, fun i => ?_, fun i period hget hlt => ?_⟩
    · rw [hnext]
      by_cases hi : i = nextPeriodId s companyId
      · subst hi
        have := h.positive
        simp only [Store.get_set_ne, Store.get_set_self, ne_eq, reduceCtorEq, not_false_eq_true,
          Option.some.injEq, exists_eq', true_iff]
        omega
      · have hne : DataKey.period companyId i ≠ .period companyId (nextPeriodId s companyId) := by
          simpa using hi
        simp only [Store.get_set_ne, ne_eq, reduceCtorEq, not_false_eq_true, hne, h.stored i]
        omega
    · rw [hnext] at hlt
      have hi : i ≠ nextPeriodId s companyId := by omega
      have hne : DataKey.period companyId i ≠ .period companyId (nextPeriodId s companyId) := by
        simpa using hi
      simp only [Store.get_set_ne, ne_eq, reduceCtorEq, not_false_eq_true, hne] at hget
      -- the period before the new one was checked, the earlier ones were closed already
      by_cases hlast : i + 1 = nextPeriodId s companyId
      · by_contra hopen
        obtain ⟨hpos, -⟩ := (h.stored i).mp ⟨period, hget⟩
        refine hprevious ⟨by omega, ?_⟩
        rw [← hlast, Nat.add_sub_cancel, hget]
        simpa using hopen
      · exact h.closed i period hget (by omega)
  · have hnext : nextPeriodId ((s.set (.period other (nextPeriodId s other))
        (newPeriod e other (nextPeriodId s other))).set (.periodSequence other)
          (nextPeriodId s other + 1)) companyId = nextPeriodId s companyId := by
      simp [nextPeriodId, hsame]
    refine ⟨by rw [hnext]; exact h.positive, fun i => ?_, fun i period hget hlt => ?_⟩
    · rw [hnext, ← h.stored i]
      simp [hsame]
    · rw [hnext] at hlt
      exact h.closed i period (by simpa [hsame] using hget) hlt

theorem Numbered.ended (h : Numbered s companyId) (hend : PeriodEnded e other j s s' old) :
    Numbered s' companyId := by
  obtain ⟨hget, hopen, rfl⟩ := hend
  have hnext : nextPeriodId (s.set (.period other j) (old.ended e)) companyId =
      nextPeriodId s companyId := by
    simp [nextPeriodId]
  refine ⟨by rw [hnext]; exact h.positive, fun i => ?_, fun i period hget' hlt => ?_⟩
  · rw [hnext, ← h.stored i]
    by_cases hsame : companyId = other ∧ i = j
    · obtain ⟨rfl, rfl⟩ := hsame
      simp [hget]
    · have hne : DataKey.period companyId i ≠ .period other j := by simpa using hsame
      simp [hne]
  · rw [hnext] at hlt
    by_cases hsame : companyId = other ∧ i = j
    · obtain ⟨rfl, rfl⟩ := hsame
      rw [Store.get_set_self] at hget'
      obtain rfl := Option.some.inj hget'
      rfl
    · have hne : DataKey.period companyId i ≠ .period other j := by simpa using hsame
      rw [Store.get_set_ne _ _ hne] at hget'
      exact h.closed i period hget' hlt

theorem numbered_run (inputs : List Input) (companyId : Nat) :
    Numbered (runFrom next System.genesis inputs).executor companyId := by
  refine run_invariant (I := fun w : System => Numbered w.executor companyId) ?_ ?_
    reachable_runFrom
  · exact ⟨le_refl _, fun i => by simp [System.genesis, nextPeriodId]; omega,
      by simp [System.genesis]⟩
  · intro w i h
    rcases next_periods w i with hkept | ⟨_, hnew⟩ | ⟨_, _, _, hend⟩
    · exact h.kept hkept
    · exact h.created hnew
    · exact h.ended hend

theorem Numbered.open_unique (h : Numbered s companyId)
    (hj : s.get (.period companyId j) = some period) (hopen : period.closed = false)
    (hk : s.get (.period companyId k) = some other) (hopen' : other.closed = false) : j = k := by
  have hlast : ∀ n stored, s.get (.period companyId n) = some stored → stored.closed = false →
      n + 1 = nextPeriodId s companyId := by
    intro n stored hget hstored
    obtain ⟨-, hlt⟩ := (h.stored n).mp ⟨stored, hget⟩
    by_contra hne
    have := h.closed n stored hget (by omega)
    simp [hstored] at this
  have := hlast j period hj hopen
  have := hlast k other hk hopen'
  omega

-- ---------------------------------------------------------------------------
-- Closed periods
-- ---------------------------------------------------------------------------

theorem next_closed_kept (hn : Numbered w.executor companyId)
    (hget : w.executor.get (.period companyId j) = some period) (hclosed : period.closed = true) :
    (next w i).executor.get (.period companyId j) = some period := by
  rcases next_periods w i with hkept | ⟨other, -, hnew⟩ | ⟨other, k, stored, hstored, hopen, hend⟩
  · rcases hkept.periods companyId j with hsame | ⟨old, _, hold, hopen, -⟩
    · rw [hsame, hget]
    · rw [hget] at hold
      obtain rfl := Option.some.inj hold
      simp [hclosed] at hopen
  · have hne : DataKey.period companyId j ≠ .period other (nextPeriodId w.executor other) := by
      rintro ⟨⟩
      have := ((hn.stored _).mp ⟨period, hget⟩).2
      omega
    simp [hnew, hne, hget]
  · have hne : DataKey.period companyId j ≠ .period other k := by
      rintro ⟨⟩
      rw [hget] at hstored
      obtain rfl := Option.some.inj hstored
      simp [hclosed] at hopen
    simp [hend, hne, hget]

theorem run_closed_kept (hw : Reached w)
    (hget : w.executor.get (.period companyId j) = some period) (hclosed : period.closed = true)
    (later : List Input) :
    (runFrom next w later).executor.get (.period companyId j) = some period := by
  induction later generalizing w with
  | nil => exact hget
  | cons i later ih =>
    obtain ⟨before, rfl⟩ := hw
    exact ih (reachable_next reachable_runFrom i)
      (next_closed_kept (numbered_run before companyId) hget hclosed)

theorem next_count (hn : Numbered w.executor companyId)
    (hchanged : paymentCount (next w i).executor companyId j ≠ paymentCount w.executor companyId j) :
    ∃ period, w.executor.get (.period companyId j) = some period ∧ period.closed = false := by
  rcases next_periods w i with hkept | ⟨other, -, hnew⟩ | ⟨other, k, stored, hstored, -, hend⟩
  · rcases hkept.periods companyId j with hsame | ⟨period, _, hget, hopen, -⟩
    · simp [paymentCount, hsame] at hchanged
    · exact ⟨period, hget, hopen⟩
  · refine absurd ?_ hchanged
    by_cases hsame : companyId = other ∧ j = nextPeriodId w.executor other
    · obtain ⟨rfl, rfl⟩ := hsame
      have hfree : w.executor.get (.period companyId (nextPeriodId w.executor companyId)) = none := by
        by_contra hstored
        obtain ⟨period, hget⟩ := Option.ne_none_iff_exists'.mp hstored
        have := ((hn.stored _).mp ⟨period, hget⟩).2
        omega
      simp [paymentCount, hnew, hfree, newPeriod]
    · have hne : DataKey.period companyId j ≠ .period other (nextPeriodId w.executor other) := by
        simpa using hsame
      simp [paymentCount, hnew, hne]
  · refine absurd ?_ hchanged
    by_cases hsame : companyId = other ∧ j = k
    · obtain ⟨rfl, rfl⟩ := hsame
      simp [paymentCount, hend, hstored, PayrollPeriod.ended]
    · have hne : DataKey.period companyId j ≠ .period other k := by simpa using hsame
      simp [paymentCount, hend, hne]

/-- In every run and for every company: the stored periods are numbered from 1
to just below the sequence entry, all before the last are closed and at most
one is open; a closed period keeps its record from then on; and a count
changes only in a period that was open. -/
theorem periods_disciplined (inputs : List Input) (companyId : Nat) :
    (∀ j, (∃ period,
        (runFrom next System.genesis inputs).executor.get (.period companyId j) = some period) ↔
      1 ≤ j ∧ j < nextPeriodId (runFrom next System.genesis inputs).executor companyId) ∧
    (∀ j period,
      (runFrom next System.genesis inputs).executor.get (.period companyId j) = some period →
      j + 1 < nextPeriodId (runFrom next System.genesis inputs).executor companyId →
      period.closed = true) ∧
    (∀ j k period other,
      (runFrom next System.genesis inputs).executor.get (.period companyId j) = some period →
      period.closed = false →
      (runFrom next System.genesis inputs).executor.get (.period companyId k) = some other →
      other.closed = false → j = k) ∧
    (∀ before after, inputs = before ++ after → ∀ j period,
      (runFrom next System.genesis before).executor.get (.period companyId j) = some period →
      period.closed = true →
      (runFrom next System.genesis inputs).executor.get (.period companyId j) = some period) ∧
    (∀ st ∈ steps next System.genesis inputs, ∀ j,
      paymentCount st.post.executor companyId j ≠ paymentCount st.pre.executor companyId j →
      ∃ period, st.pre.executor.get (.period companyId j) = some period ∧
        period.closed = false) := by
  have h := numbered_run inputs companyId
  refine ⟨h.stored, h.closed, ?_, ?_, ?_⟩
  · intro j k period other hj hopen hk hopen'
    exact h.open_unique hj hopen hk hopen'
  · rintro before after rfl j period hget hclosed
    rw [runFrom_append]
    exact run_closed_kept reachable_runFrom hget hclosed after
  · intro st hst j hchanged
    obtain ⟨before, _, -, hpre, -⟩ := mem_steps hst
    rw [steps_post hst] at hchanged
    exact next_count (hpre ▸ numbered_run before companyId) hchanged

end

end ZkPayroll.PaymentExecutor
