import ZkPayroll.Payroll.Execution
import ZkPayroll.Payroll.Privileged

/-!
# Compliance holds

A hold on the employer or on an employee is meant to stop the payroll
execution it affects. The storage keeps exactly the holds that were placed and
not released since, but neither `prepare_payroll_run` nor
`batch_process_payroll` reads them. So holds have the effect they are meant to
have only in runs that submit nothing they affect but what the other guards
reject.
-/

namespace ZkPayroll.Payroll

open Host

/-- The hold is stored under the id and active. -/
def HoldActive (s : Storage) (holdId : Nat) (hold : ComplianceHold) : Prop :=
  s.get (.complianceHold holdId) = some hold ∧ hold.isActive = true

/-- The hold is on the employer, or on one of the batch's employees. -/
def ComplianceHold.Affects (hold : ComplianceHold) (s : Storage) (b : Batch) : Prop :=
  (hold.scope = .employer ∧ ∃ addrs, s.get .addresses = some addrs ∧ hold.target = addrs.admin) ∨
    (hold.scope = .employee ∧ hold.target ∈ b.employees)

def Call.batch? : Call → Option Batch
  | .preparePayrollRun b | .batchProcessPayroll b => some b
  | _ => none

/-- The guards of the calls that prepare or pay a batch. They do not mention
holds. -/
def MeetsGuards (e : Env) (w : World) : Call → Prop
  | .preparePayrollRun b => CanPrepare e b w.payroll
  | .batchProcessPayroll b => CanExecute e b w
  | _ => False

def PlacesHold (hold : ComplianceHold) (st : Step World Input) : Prop :=
  ∃ admin scope target reasonCode holdId,
    performed st = some (.placeComplianceHold admin scope target reasonCode, .id holdId) ∧
    hold = newHold st.input.env admin scope target reasonCode holdId

def ReleasesHold (holdId : Nat) (st : Step World Input) : Prop :=
  ∃ admin ret, performed st = some (.releaseComplianceHold admin holdId, ret)

/-- Before its `n`-th step the run has placed the hold, and not released it
since. -/
def StandsBefore (inputs : List Input) (n : Nat) (hold : ComplianceHold) : Prop :=
  ∃ (m : Nat) (st : Step World Input), m < n ∧
    (steps next World.genesis inputs)[m]? = some st ∧ PlacesHold hold st ∧
    ∀ (k : Nat) (st' : Step World Input), m < k → k < n →
      (steps next World.genesis inputs)[k]? = some st' → ¬ ReleasesHold hold.holdId st'

section
variable {e : Env} {w w' : World} {i : Input}

theorem exec_holdActive (hw : Reached w) (hok : exec e call w = .ok (ret, w'))
    (hnot : ∀ admin, call ≠ .releaseComplianceHold admin holdId)
    (h : HoldActive w.payroll holdId hold) : HoldActive w'.payroll holdId hold := by
  obtain ⟨hstored, hactive⟩ := h
  refine ⟨?_, hactive⟩
  cases call with
  | placeComplianceHold =>
    obtain ⟨_, _, hf, -, rfl⟩ := onStorageRet_ok.mp hok
    obtain ⟨-, -, -, rfl⟩ := placeComplianceHold_ok.mp hf
    have hne : holdId ≠ holdCount w.payroll + 1 := by
      rintro rfl
      have hfree := hw.holdsNumbered _ (Nat.lt_succ_self (holdCount w.payroll))
      simp [hstored] at hfree
    simpa [hne] using hstored
  | releaseComplianceHold admin released =>
    obtain ⟨_, hf, -, rfl⟩ := onStorage_ok.mp hok
    obtain ⟨-, _, -, -, rfl⟩ := releaseComplianceHold_ok.mp hf
    have hne : holdId ≠ released := by
      rintro rfl
      exact hnot admin rfl
    simpa [hne] using hstored
  | _ =>
    rw [exec_keeps hok rfl]
    exact hstored

theorem next_holdActive (hw : Reached w) (hnot : ¬ ReleasesHold holdId ⟨w, i, next w i⟩)
    (h : HoldActive w.payroll holdId hold) : HoldActive (next w i).payroll holdId hold := by
  rcases next_payroll w i with ⟨call, ret, ⟨-, hok⟩, hperformed⟩ | ⟨hsame, -⟩
  · refine exec_holdActive hw hok ?_ h
    rintro admin rfl
    exact hnot ⟨admin, ret, hperformed⟩
  · rw [hsame]
    exact h

theorem next_hold_kept (hplaces : ∀ hold : ComplianceHold, hold.holdId = holdId →
      ¬ PlacesHold hold ⟨w, i, next w i⟩)
    (hreleases : ¬ ReleasesHold holdId ⟨w, i, next w i⟩) :
    (next w i).payroll.get (.complianceHold holdId) = w.payroll.get (.complianceHold holdId) := by
  rcases next_payroll w i with ⟨call, ret, ⟨-, hok⟩, hperformed⟩ | ⟨hsame, -⟩
  · generalize hw' : next w i = w' at hok hperformed hplaces hreleases ⊢
    cases call with
    | placeComplianceHold admin scope target reasonCode =>
      obtain ⟨placed, s', hf, rfl, hpost⟩ := onStorageRet_ok.mp hok
      obtain ⟨-, -, hnumber, rfl⟩ := placeComplianceHold_ok.mp hf
      have hne : holdId ≠ holdCount w.payroll + 1 := by
        intro hsame
        exact hplaces (newHold i.env admin scope target reasonCode placed)
          (hnumber.trans hsame.symm) ⟨admin, scope, target, reasonCode, placed, hperformed, rfl⟩
      subst hpost
      simp [hne]
    | releaseComplianceHold admin released =>
      obtain ⟨s', hf, -, hpost⟩ := onStorage_ok.mp hok
      obtain ⟨-, _, -, -, rfl⟩ := releaseComplianceHold_ok.mp hf
      have hne : holdId ≠ released := by
        rintro rfl
        exact hreleases ⟨admin, ret, hperformed⟩
      subst hpost
      simp [hne]
    | _ => exact exec_keeps hok rfl
  · rw [hsame]

section
variable {st : Step World Input} (hst : st ∈ steps next World.genesis inputs)
include hst

theorem places_holdActive (h : PlacesHold hold st) :
    HoldActive st.post.payroll hold.holdId hold := by
  obtain ⟨admin, scope, target, reasonCode, holdId, hperformed, rfl⟩ := h
  obtain ⟨-, hok⟩ := performed_step hst hperformed
  obtain ⟨_, s', hf, hret, hpost⟩ := onStorageRet_ok.mp hok
  obtain ⟨-, -, hnumber, rfl⟩ := placeComplianceHold_ok.mp hf
  obtain rfl := Ret.id.inj hret
  subst hnumber
  rw [hpost]
  exact ⟨by simp [newHold], rfl⟩

theorem releases_not_holdActive (h : ReleasesHold holdId st)
    (hactive : HoldActive st.post.payroll holdId hold) : False := by
  obtain ⟨admin, ret, hperformed⟩ := h
  obtain ⟨-, hok⟩ := performed_step hst hperformed
  obtain ⟨s', hf, -, hpost⟩ := onStorage_ok.mp hok
  obtain ⟨-, released, -, -, rfl⟩ := releaseComplianceHold_ok.mp hf
  obtain ⟨hstored, htrue⟩ := hactive
  rw [hpost, Store.get_set_self] at hstored
  obtain rfl := Option.some.inj hstored
  cases htrue

end

/-- The active holds of the storage are those the run has placed and not
released since. -/
theorem holdActive_iff_stands {st : Step World Input}
    (hst : (steps next World.genesis inputs)[n]? = some st) :
    HoldActive st.pre.payroll holdId hold ↔ hold.holdId = holdId ∧ StandsBefore inputs n hold := by
  constructor
  · rintro ⟨hstored, hactive⟩
    -- The last step that wrote the hold did not release it, so it placed it.
    obtain ⟨m, st', hmn, hm, hwrites, hpost, hbetween⟩ := last_write
      (f := fun w : World => w.payroll.get (.complianceHold holdId))
      (W := fun st => (∃ hold : ComplianceHold, hold.holdId = holdId ∧ PlacesHold hold st) ∨
        ReleasesHold holdId st)
      (v := some hold) (by simp [World.genesis])
      (fun w i hnot => next_hold_kept
        (fun hold hid hplaces => hnot (.inl ⟨hold, hid, hplaces⟩))
        fun h => hnot (.inr h)) hst hstored
    have hmem := List.mem_of_getElem? hm
    rcases hwrites with ⟨placed, rfl, hplaces⟩ | hreleases
    · obtain ⟨hplaced, -⟩ := places_holdActive hmem hplaces
      obtain rfl : placed = hold := Option.some.inj (hplaced.symm.trans hpost)
      exact ⟨rfl, m, st', hmn, hm, hplaces, fun k st'' hk hkn hget hrel =>
        hbetween k st'' hk hkn hget (.inr hrel)⟩
    · exact (releases_not_holdActive hmem hreleases ⟨hpost, hactive⟩).elim
  · rintro ⟨rfl, m, st', hmn, hm, hplaces, hbetween⟩
    have hmem := List.mem_of_getElem? hm
    have hpost : Reached st'.post := by
      rw [steps_post hmem]
      exact reachable_next (steps_reachable hmem) st'.input
    refine (kept_between
      (I := fun w : World => Reached w ∧ HoldActive w.payroll hold.holdId hold)
      (C := fun st => ¬ ReleasesHold hold.holdId st)
      (fun w i hw hnot => ⟨reachable_next hw.1 i, next_holdActive hw.1 hnot hw.2⟩) hm
      ⟨hpost, places_holdActive hmem hplaces⟩ hmn hst hbetween).2

theorem prepare_rejected_iff :
    Rejected e (.preparePayrollRun b) w ↔ ¬ CanPrepare e b w.payroll := by
  rw [canPrepare_iff]
  constructor
  · rintro hrejected ⟨runId, s', hf⟩
    exact hrejected _ _ (onStorageRet_ok.mpr ⟨runId, s', hf, rfl, rfl⟩)
  · intro hnot ret w' hok
    obtain ⟨runId, s', hf, -, -⟩ := onStorageRet_ok.mp hok
    exact hnot ⟨runId, s', hf⟩

theorem batch_rejected_iff (hw : Reached w) :
    Rejected e (.batchProcessPayroll b) w ↔ ¬ CanExecute e b w := by
  rw [canExecute_iff hw]
  constructor
  · rintro hrejected ⟨runId, w', hf⟩
    exact hrejected _ _ (exec_batchProcessPayroll_ok.mpr ⟨runId, hf, rfl⟩)
  · intro hnot ret w' hok
    obtain ⟨runId, hf, -⟩ := exec_batchProcessPayroll_ok.mp hok
    exact hnot ⟨runId, w', hf⟩

theorem rejected_iff (hw : Reached w) (hcall : call.batch? = some b) :
    Rejected e call w ↔ ¬ MeetsGuards e w call := by
  cases call with
  | preparePayrollRun => exact prepare_rejected_iff
  | batchProcessPayroll => exact batch_rejected_iff hw
  | _ => cases hcall

/-- In a run an active hold rejects every batch it affects exactly when no
batch of the run that meets its guards is affected by a hold the run has placed
and not released since. -/
theorem holds_block_iff (inputs : List Input) :
    (∀ st ∈ steps next World.genesis inputs, ∀ call b, st.input.message = .payroll call →
        call.batch? = some b → ∀ holdId hold, HoldActive st.pre.payroll holdId hold →
          hold.Affects st.pre.payroll b → Rejected st.input.env call st.pre) ↔
      ∀ (n : Nat) (st : Step World Input), (steps next World.genesis inputs)[n]? = some st →
        ∀ call b, st.input.message = .payroll call → call.batch? = some b →
          MeetsGuards st.input.env st.pre call →
            ∀ hold, StandsBefore inputs n hold → ¬ hold.Affects st.pre.payroll b := by
  constructor
  · intro h n st hst call b hm hb hguards hold hstands haffects
    have hmem := List.mem_of_getElem? hst
    have hactive := (holdActive_iff_stands hst).mpr ⟨rfl, hstands⟩
    have hrejected := h st hmem call b hm hb hold.holdId hold hactive haffects
    exact (rejected_iff (steps_reachable hmem) hb).mp hrejected hguards
  · intro h st hmem call b hm hb holdId hold hactive haffects
    obtain ⟨n, hst⟩ := List.getElem?_of_mem hmem
    rw [rejected_iff (steps_reachable hmem) hb]
    intro hguards
    obtain ⟨-, hstands⟩ := (holdActive_iff_stands hst).mp hactive
    exact h n st hst call b hm hb hguards hold hstands haffects

end

-- ---------------------------------------------------------------------------
-- Holds without effect
-- ---------------------------------------------------------------------------

def Sample.held (scope : ComplianceHoldScope) (target : Address) : List Input :=
  Sample.funded 1000 ++ Sample.enrolled ++
    [Sample.call [Sample.admin] (.placeComplianceHold Sample.admin scope target "review")]

def Sample.hold (scope : ComplianceHoldScope) (target : Address) : ComplianceHold :=
  ⟨1, scope, target, "review", 100, Sample.admin, true⟩

/-- Under an active hold on the employer a run is prepared, and under an
active hold on the employee a batch pays that employee. -/
theorem held_batches_accepted :
    (let w := runFrom next World.genesis (Sample.held .employer Sample.admin)
      let hold := Sample.hold .employer Sample.admin
      let b := Sample.batch 1 Sample.alice 100
      Reached w ∧ HoldActive w.payroll 1 hold ∧ hold.Affects w.payroll b ∧
        ¬ Rejected (Sample.env [Sample.admin]) (.preparePayrollRun b) w) ∧
    (let w := runFrom next World.genesis (Sample.held .employee Sample.alice)
      let hold := Sample.hold .employee Sample.alice
      let b := Sample.batch 1 Sample.alice 100
      Reached w ∧ HoldActive w.payroll 1 hold ∧ hold.Affects w.payroll b ∧
        ¬ Rejected (Sample.env [Sample.admin]) (.batchProcessPayroll b) w) := by
  refine ⟨⟨reachable_runFrom, ⟨rfl, rfl⟩, .inl ⟨rfl, _, rfl, rfl⟩, fun h => ?_⟩,
    ⟨reachable_runFrom, ⟨rfl, rfl⟩, .inr ⟨rfl, by decide⟩, fun h => ?_⟩⟩
  · exact h (.id 1) _ rfl
  · exact h (.id 1) _ rfl

end ZkPayroll.Payroll
