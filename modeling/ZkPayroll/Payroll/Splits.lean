import ZkPayroll.Payroll.Execution
import Mathlib.Algebra.Order.Group.Int
import Mathlib.Algebra.Group.Prod

/-!
# Batch splits

A split is checked against the parent total its own record states, and
`validate_batch_split_aggregate` compares with the executed run of the parent.
Neither looks at the other children. So the recorded children add up to no
more than the parent, and a validated aggregate is their sum, exactly as long
as every call that records a split or an executed run happens to agree with
the children already there.
-/

namespace ZkPayroll.Payroll

open Host

def childShare (r : Nat) : (k : DataKey) → k.Val → Int × Nat
  | .batchSplitRecord parent _, child =>
    if parent = r then (child.childTotal, child.childEmployeeCount) else (0, 0)
  | _, _ => (0, 0)

def recordedChildren (s : Storage) (r : Nat) : Int × Nat := s.total (childShare r)

def HasSplit (s : Storage) (r : Nat) : Prop :=
  ∃ c child, s.get (.batchSplitRecord r c) = some child

/-- The children recorded for a parent sum to at most what each of them states
for it. -/
def SplitsConserved (s : Storage) : Prop :=
  ∀ r c child, s.get (.batchSplitRecord r c) = some child →
    recordedChildren s r ≤ (child.parentTotal, child.parentEmployeeCount)

/-- For a parent with recorded children only their sum is validated. -/
def AggregateExact (s : Storage) : Prop :=
  ∀ r total count, HasSplit s r → validateBatchSplitAggregate s r total count = true →
    recordedChildren s r = (total, count)

-- ---------------------------------------------------------------------------
-- The condition on a step
-- ---------------------------------------------------------------------------

/-- The children of the parent with the new one in the place of its key. -/
def BatchSplit.childrenWith (b : BatchSplit) (s : Storage) : Int × Nat :=
  recordedChildren (s.remove (.batchSplitRecord b.parentRunId b.childRunId)) b.parentRunId +
    (b.childTotal, b.childEmployeeCount)

/-- The new child fits beside the others, by its own record and by theirs, and
fills an executed parent. -/
structure BatchSplit.Fits (b : BatchSplit) (s : Storage) : Prop where
  own : b.childrenWith s ≤ (b.parentTotal, b.parentEmployeeCount)
  others : ∀ c child, c ≠ b.childRunId → s.get (.batchSplitRecord b.parentRunId c) = some child →
    b.childrenWith s ≤ (child.parentTotal, child.parentEmployeeCount)
  executed : ∀ run, s.get (.payrollRun b.parentRunId) = some run →
    b.childrenWith s = (run.totalAmount, run.employeeCount)

/-- An accepted split fits, and a run that has children when it is executed is
what they sum to. -/
def KeepsSplits (i : Input) (w : World) : Prop :=
  match i.message with
  | .payroll (.recordBatchSplit admin b) => admin ∈ i.env.auths → b.Balanced → b.Fits w.payroll
  | .payroll (.finalizePayrollRun admin runId) =>
    CanFinalize i.env admin runId w.payroll → HasSplit w.payroll runId →
      ∀ p, w.payroll.get (.pendingRun runId) = some p →
        recordedChildren w.payroll runId = (p.totalAmount, p.employeeCount)
  | .payroll (.batchProcessPayroll b) =>
    CanExecute i.env b w → HasSplit w.payroll (runCount w.payroll + 1) →
      recordedChildren w.payroll (runCount w.payroll + 1) = (b.expectedTotalSpend, b.proofs.length)
  | _ => True

section
variable {e : Env} {s s' : Storage} {w w' : World} {i : Input} {b : BatchSplit}

-- ---------------------------------------------------------------------------
-- Sums of children
-- ---------------------------------------------------------------------------

theorem recordedChildren_congr
    (h : ∀ r c, s'.get (.batchSplitRecord r c) = s.get (.batchSplitRecord r c)) (r : Nat) :
    recordedChildren s' r = recordedChildren s r := by
  refine Store.total_congr fun k => ?_
  cases k with
  | batchSplitRecord parent c => simp [Store.weightAt, h]
  | _ =>
    simp only [Store.weightAt]
    cases s'.get _ <;> cases s.get _ <;> rfl

theorem recordedChildren_set (r c : Nat) (child : BatchSplitRecord) :
    recordedChildren (s.set (.batchSplitRecord r c) child) r =
      recordedChildren (s.remove (.batchSplitRecord r c)) r +
        (child.childTotal, child.childEmployeeCount) := by
  refine (Store.total_set_eq s (.batchSplitRecord r c) child).trans ?_
  simp [recordedChildren, childShare]

theorem recordedChildren_set_ne (c : Nat) (child : BatchSplitRecord) (h : r' ≠ r) :
    recordedChildren (s.set (.batchSplitRecord r c) child) r' = recordedChildren s r' := by
  refine Store.total_set_zero (w := childShare r') (k := .batchSplitRecord r c) s child ?_
  intro v
  exact if_neg h.symm

-- ---------------------------------------------------------------------------
-- What the validation reads
-- ---------------------------------------------------------------------------

def executedTotals (s : Storage) (r : Nat) : Option (Int × Nat) :=
  (s.get (.payrollRun r)).map fun run => (run.totalAmount, run.employeeCount)

theorem executedTotals_rewritten (hrun : s.get (.payrollRun runId) = some run)
    (hsame : executedTotals s' runId = some (run.totalAmount, run.employeeCount))
    (hothers : ∀ r, r ≠ runId → s'.get (.payrollRun r) = s.get (.payrollRun r)) (r : Nat) :
    executedTotals s' r = executedTotals s r := by
  by_cases hr : r = runId
  · subst hr
    rw [hsame, executedTotals, hrun, Option.map_some]
  · rw [executedTotals, executedTotals, hothers r hr]

theorem validateBatchSplitAggregate_iff :
    validateBatchSplitAggregate s r total count = true ↔
      executedTotals s r = some (total, count) := by
  unfold validateBatchSplitAggregate executedTotals
  cases s.get (.payrollRun r) with
  | none => simp
  | some run => simp

structure SplitsSound (s : Storage) : Prop where
  conserved : SplitsConserved s
  validated : ∀ r totals, executedTotals s r = some totals → HasSplit s r →
    recordedChildren s r = totals

theorem splitsSound_iff : SplitsSound s ↔ SplitsConserved s ∧ AggregateExact s := by
  constructor
  · intro h
    refine ⟨h.conserved, fun r total count hsplit hvalid => ?_⟩
    exact h.validated r _ (validateBatchSplitAggregate_iff.mp hvalid) hsplit
  · rintro ⟨hconserved, hexact⟩
    refine ⟨hconserved, fun r totals htotals hsplit => ?_⟩
    exact hexact r totals.1 totals.2 hsplit (validateBatchSplitAggregate_iff.mpr htotals)

theorem splitsSound_empty : SplitsSound (.empty : Storage) := by
  constructor
  · intro r c child h
    cases h
  · rintro r totals - ⟨c, child, h⟩
    cases h

theorem SplitsSound.congr (h : SplitsSound s)
    (hsplits : ∀ r c, s'.get (.batchSplitRecord r c) = s.get (.batchSplitRecord r c))
    (hruns : ∀ r, executedTotals s' r = executedTotals s r) : SplitsSound s' := by
  have hsum := recordedChildren_congr hsplits
  constructor
  · intro r c child hget
    rw [hsum]
    exact h.conserved r c child ((hsplits r c).symm.trans hget)
  · rintro r totals htotals ⟨c, child, hget⟩
    rw [hsum]
    exact h.validated r totals ((hruns r).symm.trans htotals)
      ⟨c, child, (hsplits r c).symm.trans hget⟩

-- ---------------------------------------------------------------------------
-- One step
-- ---------------------------------------------------------------------------

theorem SplitsSound.set_iff (h : SplitsSound s) (e : Env) (admin : Address) :
    SplitsSound (s.set (.batchSplitRecord b.parentRunId b.childRunId) (b.record e admin)) ↔
      b.Fits s := by
  have hself := recordedChildren_set (s := s) b.parentRunId b.childRunId (b.record e admin)
  change _ = b.childrenWith s at hself
  constructor
  · intro hafter
    refine ⟨?_, fun c child hc hget => ?_, fun run hrun => ?_⟩
    · rw [← hself]
      exact hafter.conserved b.parentRunId b.childRunId _ (Store.get_set_self _ _ _)
    · rw [← hself]
      exact hafter.conserved b.parentRunId c child (by simpa [hc] using hget)
    · rw [← hself]
      refine hafter.validated b.parentRunId _ ?_ ⟨b.childRunId, _, Store.get_set_self _ _ _⟩
      simp [executedTotals, hrun]
  · intro hfits
    constructor
    · intro r c child hget
      by_cases hr : r = b.parentRunId
      · subst hr
        rw [hself]
        by_cases hc : c = b.childRunId
        · subst hc
          obtain rfl := Option.some.inj ((Store.get_set_self _ _ _).symm.trans hget)
          exact hfits.own
        · exact hfits.others c child hc (by simpa [hc] using hget)
      · rw [recordedChildren_set_ne _ _ hr]
        exact h.conserved r c child (by simpa [hr] using hget)
    · rintro r totals htotals ⟨c, child, hget⟩
      have htotals : executedTotals s r = some totals := by simpa [executedTotals] using htotals
      by_cases hr : r = b.parentRunId
      · subst hr
        obtain ⟨run, hrun, rfl⟩ := Option.map_eq_some_iff.mp htotals
        rw [hself]
        exact hfits.executed run hrun
      · rw [recordedChildren_set_ne _ _ hr]
        exact h.validated r totals htotals ⟨c, child, by simpa [hr] using hget⟩

theorem SplitsSound.executed_iff (h : SplitsSound s)
    (hsplits : ∀ r c, s'.get (.batchSplitRecord r c) = s.get (.batchSplitRecord r c))
    (hone : executedTotals s' runId = some totals)
    (hothers : ∀ r, r ≠ runId → executedTotals s' r = executedTotals s r) :
    SplitsSound s' ↔ (HasSplit s runId → recordedChildren s runId = totals) := by
  have hsum := recordedChildren_congr hsplits
  constructor
  · rintro hafter ⟨c, child, hget⟩
    rw [← hsum]
    exact hafter.validated runId totals hone ⟨c, child, (hsplits runId c).trans hget⟩
  · intro hfits
    constructor
    · intro r c child hget
      rw [hsum]
      exact h.conserved r c child ((hsplits r c).symm.trans hget)
    · rintro r totals' htotals ⟨c, child, hget⟩
      have hsplit : HasSplit s r := ⟨c, child, (hsplits r c).symm.trans hget⟩
      rw [hsum]
      by_cases hr : r = runId
      · subst hr
        rw [hone] at htotals
        obtain rfl := Option.some.inj htotals
        exact hfits hsplit
      · rw [hothers r hr] at htotals
        exact h.validated r totals' htotals hsplit

theorem next_recordBatchSplit (hm : i.message = .payroll (.recordBatchSplit admin b))
    (h : SplitsSound w.payroll) :
    SplitsSound (next w i).payroll ↔ (admin ∈ i.env.auths → b.Balanced → b.Fits w.payroll) := by
  by_cases hok : admin ∈ i.env.auths ∧ b.Balanced
  · obtain ⟨hauth, hbalanced⟩ := hok
    rw [next_stores hm rfl (recordBatchSplit_ok.mpr ⟨hauth, hbalanced, rfl⟩), h.set_iff]
    exact ⟨fun hfits _ _ => hfits, fun hfits => hfits hauth hbalanced⟩
  · have hrejected : Rejected i.env (.recordBatchSplit admin b) w := by
      intro ret w' hexec
      obtain ⟨_, hf, -, -⟩ := onStorage_ok.mp hexec
      obtain ⟨hauth, hbalanced, -⟩ := recordBatchSplit_ok.mp hf
      exact hok ⟨hauth, hbalanced⟩
    rw [next_rejected hm hrejected]
    exact ⟨fun _ hauth hbalanced => absurd ⟨hauth, hbalanced⟩ hok, fun _ => h⟩

theorem next_finalizePayrollRun (hm : i.message = .payroll (.finalizePayrollRun admin runId))
    (h : SplitsSound w.payroll) :
    SplitsSound (next w i).payroll ↔
      (CanFinalize i.env admin runId w.payroll → HasSplit w.payroll runId →
        ∀ p, w.payroll.get (.pendingRun runId) = some p →
          recordedChildren w.payroll runId = (p.totalAmount, p.employeeCount)) := by
  by_cases hok : CanFinalize i.env admin runId w.payroll
  · obtain ⟨s, hf⟩ := canFinalize_iff.mp hok
    obtain ⟨-, -, addrs, -, -, -, p, hp, -, -, -, hs⟩ := finalizePayrollRun_ok.mp hf
    have htotals : executedTotals s runId = some (p.totalAmount, p.employeeCount) := by
      simp [hs, executedTotals, finalized, PendingPayrollRun.executed]
    rw [next_stores hm rfl hf, h.executed_iff (by simp [hs, finalized]) htotals
      (fun r hr => by simp [hs, executedTotals, finalized, hr])]
    constructor
    · intro hsum _ hsplit p' hp'
      obtain rfl : p = p' := Store.get_inj hp hp'
      exact hsum hsplit
    · intro hsum hsplit
      exact hsum hok hsplit p hp
  · have hrejected : Rejected i.env (.finalizePayrollRun admin runId) w := by
      intro ret w' hexec
      obtain ⟨s, hf, -, -⟩ := onStorage_ok.mp hexec
      exact hok (canFinalize_iff.mpr ⟨s, hf⟩)
    rw [next_rejected hm hrejected]
    exact ⟨fun _ hcan => absurd hcan hok, fun _ => h⟩

theorem next_batchProcessPayroll {b : Batch} (hw : Reached w)
    (hm : i.message = .payroll (.batchProcessPayroll b)) (h : SplitsSound w.payroll) :
    SplitsSound (next w i).payroll ↔
      (CanExecute i.env b w → HasSplit w.payroll (runCount w.payroll + 1) →
        recordedChildren w.payroll (runCount w.payroll + 1) =
          (b.expectedTotalSpend, b.proofs.length)) := by
  by_cases hcan : CanExecute i.env b w
  · obtain ⟨runId, w', hf⟩ := (canExecute_iff hw).mp hcan
    have hx : Executes i w (.batchProcessPayroll b) (.id runId) w' :=
      ⟨hm, exec_batchProcessPayroll_ok.mpr ⟨runId, hf, rfl⟩⟩
    obtain ⟨-, addrs, -, -, -, -, -, -, -, t, -, c, -, -, hw'⟩ := batchProcessPayroll_ok.mp hf
    have hpayroll : w'.payroll =
        executed i.env addrs b (dropDraft b.draftHash w.payroll) := by rw [hw']
    have htotals : executedTotals w'.payroll (runCount w.payroll + 1) =
        some (b.expectedTotalSpend, b.proofs.length) := by
      have hcount : runCount (dropDraft b.draftHash w.payroll) = runCount w.payroll :=
        runCount_dropDraft
      rw [hpayroll, ← hcount]
      simp [executedTotals, executed, Batch.payrollRun]
    have hothers : ∀ r, r ≠ runCount w.payroll + 1 →
        executedTotals w'.payroll r = executedTotals w.payroll r := by
      intro r hr
      simp [hpayroll, executedTotals, executed, claimRunId, runCount_dropDraft, hr]
    rw [hx.next_eq, h.executed_iff (by simp [hpayroll, executed, claimRunId]) htotals hothers]
    exact ⟨fun hsum _ => hsum, fun hsum => hsum hcan⟩
  · have hrejected : Rejected i.env (.batchProcessPayroll b) w := by
      intro ret w' hexec
      obtain ⟨runId, hf, -⟩ := exec_batchProcessPayroll_ok.mp hexec
      exact hcan ((canExecute_iff hw).mpr ⟨runId, w', hf⟩)
    rw [next_rejected hm hrejected]
    exact ⟨fun _ hguards => absurd hguards hcan, fun _ => h⟩

theorem exec_splits_kept (hok : exec e call w = .ok (ret, w')) (h : SplitsSound w.payroll)
    (hsplit : ∀ admin b, call ≠ .recordBatchSplit admin b)
    (hfinalize : ∀ admin runId, call ≠ .finalizePayrollRun admin runId)
    (hbatch : ∀ b, call ≠ .batchProcessPayroll b) : SplitsSound w'.payroll := by
  cases call with
  | recordBatchSplit admin b => exact absurd rfl (hsplit admin b)
  | finalizePayrollRun admin runId => exact absurd rfl (hfinalize admin runId)
  | batchProcessPayroll b => exact absurd rfl (hbatch b)
  | updateReconciliationStatus admin runId status =>
    obtain ⟨_, hf, -, rfl⟩ := onStorage_ok.mp hok
    obtain ⟨-, -, run, hrun, _, -, -, -, rfl⟩ := updateReconciliationStatus_ok.mp hf
    refine h.congr (by simp) (executedTotals_rewritten hrun ?_ fun r hr => by simp [hr])
    simp [executedTotals]
  | setRunMetadata admin runId metadataHash =>
    obtain ⟨_, hf, -, rfl⟩ := onStorage_ok.mp hok
    obtain ⟨-, -, -, -, -, run, hrun, rfl⟩ := setRunMetadata_ok.mp hf
    refine h.congr (by simp) (executedTotals_rewritten hrun ?_ fun r hr => by simp [hr])
    simp [executedTotals]
  | _ =>
    refine h.congr (fun r c => exec_keeps hok rfl) fun r => ?_
    rw [executedTotals, executedTotals, exec_keeps hok rfl]

/-- A step keeps the law exactly when it meets the condition. -/
theorem next_splits (hw : Reached w) (i : Input) (h : SplitsSound w.payroll) :
    SplitsSound (next w i).payroll ↔ KeepsSplits i w := by
  have hkept : (∀ admin b, i.message ≠ .payroll (.recordBatchSplit admin b)) →
      (∀ admin runId, i.message ≠ .payroll (.finalizePayrollRun admin runId)) →
      (∀ b, i.message ≠ .payroll (.batchProcessPayroll b)) → SplitsSound (next w i).payroll := by
    intro hsplit hfinalize hbatch
    rcases next_payroll w i with ⟨call, ret, ⟨hm, hok⟩, -⟩ | ⟨hsame, -⟩
    · refine exec_splits_kept hok h ?_ ?_ ?_
      · rintro admin b rfl
        exact hsplit admin b hm
      · rintro admin runId rfl
        exact hfinalize admin runId hm
      · rintro b rfl
        exact hbatch b hm
    · rw [hsame]
      exact h
  unfold KeepsSplits
  split
  case h_1 admin b hm => exact next_recordBatchSplit hm h
  case h_2 admin runId hm => exact next_finalizePayrollRun hm h
  case h_3 b hm => exact next_batchProcessPayroll hw hm h
  case h_4 hsplit hfinalize hbatch => exact iff_of_true (hkept hsplit hfinalize hbatch) trivial

/-- In every run the recorded children conserve their parents after every
step, and only their sum is validated, exactly when every accepted split fits
beside the children already recorded and every run that has children when it
is executed is what they sum to. -/
theorem splits_conserved_iff (inputs : List Input) :
    (∀ st ∈ steps next World.genesis inputs,
        SplitsConserved st.post.payroll ∧ AggregateExact st.post.payroll) ↔
      ∀ st ∈ steps next World.genesis inputs, KeepsSplits st.input st.pre := by
  simp only [← splitsSound_iff]
  exact steps_invariant_iff (I := fun w : World => SplitsSound w.payroll)
    (C := fun st => KeepsSplits st.input st.pre) reachable_start splitsSound_empty
    (fun _ i hw h => next_splits hw i h) inputs

end

/-- A run of 1000 is executed, and two children of 600 are recorded for it. -/
theorem split_children_exceed_parent :
    let w := runFrom next World.genesis (Sample.funded 1000 ++ Sample.enrolled ++
      [Sample.call [Sample.admin] (.batchProcessPayroll (Sample.batch 1 Sample.alice 1000)),
        Sample.call [Sample.admin] (.recordBatchSplit Sample.admin ⟨1, 2, 1000, 1, 600, 1⟩),
        Sample.call [Sample.admin] (.recordBatchSplit Sample.admin ⟨1, 3, 1000, 1, 600, 1⟩)])
    Reached w ∧ recordedChildren w.payroll 1 = (1200, 2) ∧
      validateBatchSplitAggregate w.payroll 1 1000 1 = true ∧
      ¬ SplitsConserved w.payroll ∧ ¬ AggregateExact w.payroll := by
  intro w
  have hsum : recordedChildren w.payroll 1 = (1200, 2) := by decide +kernel
  have hvalid : validateBatchSplitAggregate w.payroll 1 1000 1 = true := rfl
  have hchild : w.payroll.get (.batchSplitRecord 1 2) =
      some ⟨1, 2, 1000, 1, 600, 1, 100, Sample.admin⟩ := rfl
  refine ⟨reachable_runFrom, hsum, hvalid, fun h => ?_, fun h => ?_⟩
  · have hle := h 1 2 _ hchild
    rw [hsum] at hle
    exact absurd hle (by decide)
  · have heq := h 1 1000 1 ⟨2, _, hchild⟩ hvalid
    rw [hsum] at heq
    exact absurd heq (by decide)

end ZkPayroll.Payroll
