import ZkPayroll.Payroll.Steps

/-!
# Challenged runs and the archive

A run is archived in two ways, each with a marker of its own.
`archive_payroll_run` asks whether the run is challenged;
`archive_payroll_run_with_reason` does not.
-/

namespace ZkPayroll.Payroll

open Host

def BecomesArchived (s s' : Storage) (runId : Nat) : Prop :=
  (s.get (.archivedRun runId) = none ∧ s'.get (.archivedRun runId) ≠ none) ∨
    (s.get (.archiveMarker runId) = none ∧ s'.get (.archiveMarker runId) ≠ none)

def ChallengedKept (s s' : Storage) : Prop :=
  ∀ runId, s.get (.challengedRun runId) ≠ none → ¬ BecomesArchived s s' runId

def ArchivesChallenged (i : Input) (s : Storage) : Prop :=
  ∃ admin runId archiveReason,
    i.message = .payroll (.archivePayrollRunWithReason admin runId archiveReason) ∧
    admin ∈ i.env.auths ∧ (∃ run, s.get (.payrollRun runId) = some run) ∧
    s.get (.archiveMarker runId) = none ∧ s.get (.challengedRun runId) ≠ none

section
variable {s s' : Storage} {w w' : World} {i : Input}

theorem ChallengedKept.of_get
    (harchived : ∀ runId, s'.get (.archivedRun runId) = s.get (.archivedRun runId))
    (hmarked : ∀ runId, s'.get (.archiveMarker runId) = s.get (.archiveMarker runId)) :
    ChallengedKept s s' := by
  rintro runId - (⟨hnone, hnew⟩ | ⟨hnone, hnew⟩)
  · exact hnew ((harchived runId).trans hnone)
  · exact hnew ((hmarked runId).trans hnone)

theorem exec_challengedKept (hx : Executes i w call ret w')
    (hnot : ¬ ArchivesChallenged i w.payroll) : ChallengedKept w.payroll w'.payroll := by
  obtain ⟨hm, hok⟩ := hx
  cases call with
  | archivePayrollRun _ archived =>
    obtain ⟨_, hf, -, rfl⟩ := onStorage_ok.mp hok
    obtain ⟨-, -, -, hunchallenged, -, rfl⟩ := archivePayrollRun_ok.mp hf
    intro runId hchallenged hbecomes
    have hne : runId ≠ archived := by
      rintro rfl
      exact hchallenged hunchallenged
    rcases hbecomes with ⟨hnone, hnew⟩ | ⟨hnone, hnew⟩
    · exact hnew (by simpa [hne] using hnone)
    · exact hnew (by simpa using hnone)
  | archivePayrollRunWithReason admin archived archiveReason =>
    obtain ⟨_, hf, -, rfl⟩ := onStorage_ok.mp hok
    obtain ⟨hauth, hrun, hunmarked, rfl⟩ := archivePayrollRunWithReason_ok.mp hf
    intro runId hchallenged hbecomes
    have hne : runId ≠ archived := by
      rintro rfl
      exact hnot ⟨admin, runId, archiveReason, hm, hauth, hrun, hunmarked, hchallenged⟩
    rcases hbecomes with ⟨hnone, hnew⟩ | ⟨hnone, hnew⟩
    · exact hnew (by simpa using hnone)
    · exact hnew (by simpa [hne] using hnone)
  | _ =>
    exact .of_get (fun _ => exec_keeps hok rfl)
      (fun _ => exec_keeps hok rfl)

theorem archivesChallenged_archives (h : ArchivesChallenged i w.payroll) :
    ¬ ChallengedKept w.payroll (next w i).payroll := by
  obtain ⟨admin, runId, archiveReason, hm, hauth, hrun, hunmarked, hchallenged⟩ := h
  intro hkept
  refine hkept runId hchallenged (.inr ⟨hunmarked, ?_⟩)
  rw [next_stores hm rfl (archivePayrollRunWithReason_ok.mpr ⟨hauth, hrun, hunmarked, rfl⟩)]
  simp

theorem challengedKept_iff (w : World) (i : Input) :
    ChallengedKept w.payroll (next w i).payroll ↔ ¬ ArchivesChallenged i w.payroll := by
  constructor
  · intro hkept harchives
    exact archivesChallenged_archives harchives hkept
  · intro hnot
    rcases next_payroll w i with ⟨call, ret, hx, -⟩ | ⟨hsame, -⟩
    · exact exec_challengedKept hx hnot
    · exact .of_get (fun _ => by rw [hsame]) (fun _ => by rw [hsame])

/-- In every run, no challenged run becomes archived at any step exactly when
no step archives a challenged run with a reason. -/
theorem challenged_never_archived_iff (inputs : List Input) :
    (∀ st ∈ steps next World.genesis inputs, ChallengedKept st.pre.payroll st.post.payroll) ↔
      ∀ st ∈ steps next World.genesis inputs, ¬ ArchivesChallenged st.input st.pre.payroll := by
  refine forall₂_congr fun st hst => ?_
  rw [steps_post hst]
  exact challengedKept_iff st.pre st.input

end

/-- An executed run is challenged and then archived with a reason. -/
theorem challenged_run_archived :
    let inputs := Sample.onePending ++
      [Sample.call [Sample.admin] (.finalizePayrollRun Sample.admin 1),
        Sample.call [Sample.admin] (.flagRunChallenged Sample.admin 1)]
    let w := runFrom next World.genesis inputs
    let i := Sample.call [Sample.admin] (.archivePayrollRunWithReason Sample.admin 1 "done")
    w.payroll.get (.challengedRun 1) = some true ∧ BecomesArchived w.payroll (next w i).payroll 1 ∧
      ¬ ∀ st ∈ steps next World.genesis (inputs ++ [i]),
        ChallengedKept st.pre.payroll st.post.payroll := by
  intro inputs w i
  have hchallenged : w.payroll.get (.challengedRun 1) = some true := rfl
  have hbecomes : BecomesArchived w.payroll (next w i).payroll 1 :=
    .inr ⟨rfl, by decide +kernel⟩
  refine ⟨hchallenged, hbecomes, fun h => ?_⟩
  have hlast : ChallengedKept w.payroll (next w i).payroll := h _ (last_mem_steps i)
  exact hlast 1 (by simp [hchallenged]) hbecomes

end ZkPayroll.Payroll
