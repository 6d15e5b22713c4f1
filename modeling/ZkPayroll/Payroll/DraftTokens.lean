import ZkPayroll.Payroll.Execution

/-!
# One run for each pre-committed draft

`commit_draft` stores a pre-commitment that is meant to admit one run.
`batch_process_payroll` uses it up; `prepare_payroll_run` only looks at it, and
`commit_metadata_hash` stores pre-commitments for another purpose under the
same key. A pre-commitment is stale when it was made for metadata or when a
run was prepared with it since. In a history where no run is created from a
stale one, runs never outnumber committed drafts.
-/

namespace ZkPayroll.Payroll

open Host

-- ---------------------------------------------------------------------------
-- Counting
-- ---------------------------------------------------------------------------

def commitsDraft (h : BytesN 32) (st : Step World Input) : Bool :=
  match performed st with
  | some (.commitDraft _ draftHash, _) => decide (draftHash = h)
  | _ => false

def draftCommits (h : BytesN 32) (hist : List (Step World Input)) : Nat :=
  hist.countP (commitsDraft h)

/-- The runs ever created with this draft hash in their record. -/
def runsWithDraft (h : BytesN 32) (hist : List (Step World Input)) : Nat :=
  (creations hist).countP fun created => decide (created.2.resolvedDraftHash = h)

-- ---------------------------------------------------------------------------
-- Stale pre-commitments
-- ---------------------------------------------------------------------------

def staleAfter (h : BytesN 32) (stale : Bool) (st : Step World Input) : Bool :=
  match performed st with
  | some (.commitDraft _ draftHash, _) => if draftHash = h then false else stale
  | some (.commitMetadataHash _ metadataHash, _) => if metadataHash = h then true else stale
  | some (.preparePayrollRun b, _) => if b.draftHash = some h then true else stale
  | _ => stale

/-- The pre-commitment last stored for the hash was made for metadata, or a
run was prepared with it. -/
def draftStale (h : BytesN 32) (hist : List (Step World Input)) : Bool :=
  hist.foldl (staleAfter h) false

/-- The input creates a run from a stale pre-commitment. -/
def ReusesDraft (h : BytesN 32) (hist : List (Step World Input)) (i : Input) (w : World) : Prop :=
  draftStale h hist = true ∧ ∃ b : Batch, b.draftHash = some h ∧
    ((i.message = .payroll (.preparePayrollRun b) ∧ CanPrepare i.env b w.payroll) ∨
      (i.message = .payroll (.batchProcessPayroll b) ∧ CanExecute i.env b w))

/-- Runs do not outnumber committed drafts, and a fresh pre-commitment leaves
room for one more. -/
structure DraftsBacked (h : BytesN 32) (hist : List (Step World Input)) (s : Storage) : Prop where
  counted : runsWithDraft h hist ≤ draftCommits h hist
  spare : draftStale h hist = false → s.get (.draftCommitment h) ≠ none →
    runsWithDraft h hist + 1 ≤ draftCommits h hist

section
variable {e : Env} {s s' : Storage} {w w' : World} {i : Input} {hist : List (Step World Input)}
variable {h : BytesN 32}

theorem draftCommits_snoc (st : Step World Input) :
    draftCommits h (hist ++ [st]) = draftCommits h hist + (commitsDraft h st).toNat :=
  countP_snoc (commitsDraft h) hist st

theorem runsWithDraft_snoc (st : Step World Input) :
    runsWithDraft h (hist ++ [st]) = runsWithDraft h hist +
      (creation st).toList.countP fun created => decide (created.2.resolvedDraftHash = h) := by
  rw [runsWithDraft, creations_snoc, List.countP_append]
  rfl

theorem draftStale_snoc (st : Step World Input) :
    draftStale h (hist ++ [st]) = staleAfter h (draftStale h hist) st := by
  simp [draftStale]

theorem resolvedDraftHash_eq (hnonzero : h ≠ BytesN.zero) {b : Batch} :
    b.resolvedDraftHash = h ↔ b.draftHash = some h := by
  unfold Batch.resolvedDraftHash
  cases b.draftHash with
  | none => simpa using hnonzero.symm
  | some dh => simp

theorem DraftsBacked.unchanged {st : Step World Input} (hb : DraftsBacked h hist s)
    (hcommit : commitsDraft h st = false) (hcreate : creation st = none)
    (hstale : draftStale h hist = true → staleAfter h (draftStale h hist) st = true)
    (hstored : s.get (.draftCommitment h) = none →
      staleAfter h (draftStale h hist) st = false → s'.get (.draftCommitment h) = none) :
    DraftsBacked h (hist ++ [st]) s' := by
  obtain ⟨hcounted, hspare⟩ := hb
  have hcommits : draftCommits h (hist ++ [st]) = draftCommits h hist := by
    rw [draftCommits_snoc, hcommit]
    rfl
  have hruns : runsWithDraft h (hist ++ [st]) = runsWithDraft h hist := by
    rw [runsWithDraft_snoc, hcreate]
    rfl
  refine ⟨by rw [hcommits, hruns]; exact hcounted, fun hfresh hget => ?_⟩
  rw [draftStale_snoc] at hfresh
  rw [hcommits, hruns]
  refine hspare ?_ fun hnone => hget (hstored hnone hfresh)
  by_contra hold
  rw [hstale (by simpa using hold)] at hfresh
  cases hfresh

theorem DraftsBacked.committed {st : Step World Input} (hb : DraftsBacked h hist s)
    (hcommit : commitsDraft h st = true) (hcreate : creation st = none) :
    DraftsBacked h (hist ++ [st]) s' := by
  have hcounted := hb.counted
  have hcommits : draftCommits h (hist ++ [st]) = draftCommits h hist + 1 := by
    rw [draftCommits_snoc, hcommit]
    rfl
  have hruns : runsWithDraft h (hist ++ [st]) = runsWithDraft h hist := by
    rw [runsWithDraft_snoc, hcreate]
    rfl
  exact ⟨by omega, fun _ _ => by omega⟩

/-- A step that creates a run: with the hash, the run takes the room a fresh
pre-commitment leaves; with another hash it does not count. -/
theorem DraftsBacked.created {st : Step World Input} (hb : DraftsBacked h hist s)
    (hnonzero : h ≠ BytesN.zero) (hcommit : commitsDraft h st = false)
    (hcreate : creation st = some (runId, b))
    (hfresh : b.draftHash = some h → draftStale h hist = false ∧
      s.get (.draftCommitment h) ≠ none)
    (hused : b.draftHash = some h → staleAfter h (draftStale h hist) st = true ∨
      s'.get (.draftCommitment h) = none)
    (hother : b.draftHash ≠ some h → staleAfter h (draftStale h hist) st = draftStale h hist ∧
      s'.get (.draftCommitment h) = s.get (.draftCommitment h)) :
    DraftsBacked h (hist ++ [st]) s' := by
  obtain ⟨hcounted, hspare⟩ := hb
  have hcommits : draftCommits h (hist ++ [st]) = draftCommits h hist := by
    rw [draftCommits_snoc, hcommit]
    rfl
  by_cases hdraft : b.draftHash = some h
  · have hruns : runsWithDraft h (hist ++ [st]) = runsWithDraft h hist + 1 := by
      rw [runsWithDraft_snoc, hcreate]
      simp [(resolvedDraftHash_eq hnonzero).mpr hdraft]
    obtain ⟨hstale, hstored⟩ := hfresh hdraft
    refine ⟨by rw [hcommits, hruns]; exact hspare hstale hstored, fun hfresh' hget => ?_⟩
    rw [draftStale_snoc] at hfresh'
    rcases hused hdraft with hstale' | hnone
    · simp [hstale'] at hfresh'
    · exact absurd hnone hget
  · have hruns : runsWithDraft h (hist ++ [st]) = runsWithDraft h hist := by
      rw [runsWithDraft_snoc, hcreate]
      simp [resolvedDraftHash_eq hnonzero, hdraft]
    obtain ⟨hstale, hstored⟩ := hother hdraft
    refine ⟨by rw [hcommits, hruns]; exact hcounted, fun hfresh' hget => ?_⟩
    rw [draftStale_snoc, hstale] at hfresh'
    rw [hcommits, hruns]
    exact hspare hfresh' (hstored ▸ hget)

theorem DraftsBacked.executes (hb : DraftsBacked h hist w.payroll) (hw : Reached w)
    (hnonzero : h ≠ BytesN.zero) (hx : Executes i w call ret w')
    (hperformed : performed ⟨w, i, w'⟩ = some (call, ret)) (hnot : ¬ ReusesDraft h hist i w) :
    DraftsBacked h (hist ++ [⟨w, i, w'⟩]) w'.payroll := by
  obtain ⟨hm, hok⟩ := hx
  cases call with
  | commitDraft admin draftHash =>
    obtain ⟨_, hf, -, rfl⟩ := onStorage_ok.mp hok
    obtain ⟨-, -, -, -, rfl⟩ := commitHash_ok.mp hf
    by_cases hsame : draftHash = h
    · exact hb.committed (by simp [commitsDraft, hperformed, hsame])
        (by simp [creation, hperformed, Call.creates])
    · refine hb.unchanged ?_ ?_ ?_ ?_
      · simp [commitsDraft, hperformed, hsame]
      · simp [creation, hperformed, Call.creates]
      · simp [staleAfter, hperformed, hsame]
      · intro hnone _
        simpa [Ne.symm hsame] using hnone
  | commitMetadataHash admin metadataHash =>
    obtain ⟨_, hf, -, rfl⟩ := onStorage_ok.mp hok
    obtain ⟨-, -, -, -, rfl⟩ := commitHash_ok.mp hf
    refine hb.unchanged ?_ ?_ ?_ ?_
    · simp [commitsDraft, hperformed]
    · simp [creation, hperformed, Call.creates]
    · intro hstale
      simp [staleAfter, hperformed, hstale]
    · by_cases hsame : metadataHash = h
      · simp [staleAfter, hperformed, hsame]
      · intro hnone _
        simpa [Ne.symm hsame] using hnone
  | setRunMetadata admin runId metadataHash =>
    obtain ⟨_, hf, -, rfl⟩ := onStorage_ok.mp hok
    obtain ⟨-, -, -, -, -, _, -, rfl⟩ := setRunMetadata_ok.mp hf
    refine hb.unchanged ?_ ?_ ?_ ?_
    · simp [commitsDraft, hperformed]
    · simp [creation, hperformed, Call.creates]
    · simp [staleAfter, hperformed]
    · intro hnone _
      by_cases hsame : h = metadataHash
      · subst hsame
        simp
      · simpa [hsame] using hnone
  | preparePayrollRun b =>
    obtain ⟨runId, s', hf, rfl, rfl⟩ := onStorageRet_ok.mp hok
    have hcan := canPrepare_iff.mpr ⟨runId, s', hf⟩
    obtain ⟨-, -, -, -, hcommitted, -, _, -, -, -, -, -, -, -, -, rfl⟩ := preparePayrollRun_ok.mp hf
    refine hb.created hnonzero ?_ (show creation _ = some (runId, b) from ?_) ?_ ?_ ?_
    · simp [commitsDraft, hperformed]
    · simp [creation, hperformed, Call.creates]
    · intro hdraft
      obtain ⟨v, hv⟩ := hcommitted h hdraft
      refine ⟨?_, by simp [hv]⟩
      by_contra hstale
      exact hnot ⟨by simpa using hstale, b, hdraft, .inl ⟨hm, hcan⟩⟩
    · intro hdraft
      exact .inl (by simp [staleAfter, hperformed, hdraft])
    · intro hdraft
      exact ⟨by simp [staleAfter, hperformed, hdraft], by simp [prepared, claimRunId]⟩
  | batchProcessPayroll b =>
    obtain ⟨runId, hf, rfl⟩ := exec_batchProcessPayroll_ok.mp hok
    have hcan := (canExecute_iff hw).mpr ⟨runId, w', hf⟩
    obtain ⟨hadmitted, _, -, -, -, -, -, -, -, _, -, _, -, -, rfl⟩ := batchProcessPayroll_ok.mp hf
    refine hb.created hnonzero ?_ (show creation _ = some (runId, b) from ?_) ?_ ?_ ?_
    · simp [commitsDraft, hperformed]
    · simp [creation, hperformed, Call.creates]
    · intro hdraft
      obtain ⟨v, hv⟩ := hadmitted.draftCommitted h hdraft
      refine ⟨?_, by simp [hv]⟩
      by_contra hstale
      exact hnot ⟨by simpa using hstale, b, hdraft, .inr ⟨hm, hcan⟩⟩
    · intro hdraft
      exact .inr (by simp [executed, claimRunId, dropDraft, hdraft])
    · intro hdraft
      refine ⟨by simp [staleAfter, hperformed], ?_⟩
      cases hb' : b.draftHash with
      | none => simp [executed, claimRunId, dropDraft]
      | some dh =>
        have hne : h ≠ dh := by
          rintro rfl
          exact hdraft hb'
        simp [executed, claimRunId, dropDraft, hne]
  | _ =>
    refine hb.unchanged ?_ ?_ ?_ ?_
    · rw [commitsDraft, hperformed]
    · rw [creation, hperformed]
      rfl
    · rw [staleAfter, hperformed]
      exact id
    · rw [exec_keeps hok rfl]
      exact fun hnone _ => hnone

theorem DraftsBacked.next (hb : DraftsBacked h hist w.payroll) (hw : Reached w)
    (hnonzero : h ≠ BytesN.zero) (hnot : ¬ ReusesDraft h hist i w) :
    DraftsBacked h (hist ++ [⟨w, i, next w i⟩]) (next w i).payroll := by
  rcases next_payroll w i with ⟨call, ret, hx, hperformed⟩ | ⟨hsame, -, hnone⟩
  · exact hb.executes hw hnonzero hx hperformed hnot
  · refine hb.unchanged ?_ ?_ ?_ ?_
    · simp [commitsDraft, hnone]
    · simp [creation, hnone]
    · simp [staleAfter, hnone]
    · rw [hsame]
      exact fun hget _ => hget

theorem draftsBacked_run (hnonzero : h ≠ BytesN.zero) (inputs : List Input)
    (hfresh : ∀ before i after, inputs = before ++ i :: after →
      ¬ ReusesDraft h (steps next World.genesis before) i (runFrom next World.genesis before)) :
    DraftsBacked h (steps next World.genesis inputs) (runFrom next World.genesis inputs).payroll := by
  induction inputs using List.reverseRecOn with
  | nil => exact ⟨Nat.zero_le _, fun _ hget => absurd rfl hget⟩
  | append_singleton inputs i ih =>
    rw [steps_snoc, runFrom_snoc]
    refine DraftsBacked.next (ih ?_) reachable_runFrom hnonzero (hfresh inputs i [] rfl)
    intro before j after hsplit
    exact hfresh before j (after ++ [i]) (by rw [hsplit, List.append_assoc]; rfl)

/-- In every run that creates no run from a stale pre-commitment of the hash,
at every point the runs created with the hash are at most as many as the
drafts committed with it before. -/
theorem runs_le_committed_drafts (hnonzero : h ≠ BytesN.zero) (inputs : List Input)
    (hfresh : ∀ before i after, inputs = before ++ i :: after →
      ¬ ReusesDraft h (steps next World.genesis before) i (runFrom next World.genesis before)) :
    ∀ before after, inputs = before ++ after →
      runsWithDraft h (steps next World.genesis before) ≤
        draftCommits h (steps next World.genesis before) := by
  rintro before after rfl
  refine (draftsBacked_run hnonzero before ?_).counted
  rintro before' i after' rfl
  exact hfresh before' i (after' ++ after) (by simp)

end

-- ---------------------------------------------------------------------------
-- One draft, two runs
-- ---------------------------------------------------------------------------

def Sample.draftBatch (n : UInt8) : Batch :=
  { Sample.batch n Sample.alice 100 with draftHash := some (Sample.digest 7) }

def Sample.oneDraftRun : List Input :=
  Sample.funded 1000 ++
    [Sample.call [Sample.admin] (.commitDraft Sample.admin (Sample.digest 7)),
      Sample.call [Sample.admin] (.preparePayrollRun (Sample.draftBatch 1))]

theorem one_draft_run_backed :
    Sample.digest 7 ≠ BytesN.zero ∧
      runsWithDraft (Sample.digest 7) (steps next World.genesis Sample.oneDraftRun) = 1 ∧
      runsWithDraft (Sample.digest 7) (steps next World.genesis Sample.oneDraftRun) ≤
        draftCommits (Sample.digest 7) (steps next World.genesis Sample.oneDraftRun) := by
  refine ⟨by decide, by decide +kernel, runs_le_committed_drafts (by decide) Sample.oneDraftRun ?_
    Sample.oneDraftRun [] (by simp)⟩
  -- no proper prefix of the run leaves the pre-commitment stale
  have hfresh : ∀ n < Sample.oneDraftRun.length, draftStale (Sample.digest 7)
      (steps next World.genesis (Sample.oneDraftRun.take n)) = false := by decide +kernel
  rintro before i after hsplit ⟨hstale, -⟩
  have hbefore := hfresh before.length (by rw [hsplit]; simp)
  rw [hsplit, List.take_left] at hbefore
  rw [hbefore] at hstale
  cases hstale

/-- A single committed draft stands behind two prepared runs. -/
theorem two_runs_one_draft :
    let inputs := Sample.oneDraftRun ++
      [Sample.call [Sample.admin] (.preparePayrollRun (Sample.draftBatch 2))]
    draftCommits (Sample.digest 7) (steps next World.genesis inputs) = 1 ∧
      runsWithDraft (Sample.digest 7) (steps next World.genesis inputs) = 2 := by
  decide +kernel

end ZkPayroll.Payroll
