import ZkPayroll.Payroll.Steps

/-!
# Batch execution checkpoints

A checkpoint says twice whether its batch is over, in its state and in two
flags. `CheckpointStep` says what a step can do to the checkpoint of a batch:
begin it, record progress on it until it is over, resume it unless it is over
or already resumed.
-/

namespace ZkPayroll.Payroll

open Host

def recordsProgress (c : CheckpointId) (st : Step World Input) : Bool :=
  match performed st with
  | some (.recordBatchCheckpointProgress _ c' _ _, _) => decide (c' = c)
  | _ => false

def resumesBatch (c : CheckpointId) (st : Step World Input) : Bool :=
  match performed st with
  | some (.resumeBatchExecution _ c' _, _) => decide (c' = c)
  | _ => false

def progressCalls (c : CheckpointId) (hist : List (Step World Input)) : Nat :=
  hist.countP (recordsProgress c)

/-- The record belongs to its key, its flags agree with its state, and it
counts its progress calls. -/
structure CheckpointSound (c : CheckpointId) (hist : List (Step World Input))
    (checkpoint : BatchCheckpoint) : Prop where
  describes : checkpoint.Describes c
  completed : checkpoint.completed = true ↔ checkpoint.state = .completed
  failed : checkpoint.failed = true ↔ checkpoint.state = .failed
  counted : checkpoint.totalCheckpoints = 1 + progressCalls c hist

/-- What a checkpoint can become later on. -/
structure CheckpointMoves (checkpoint later : BatchCheckpoint) : Prop where
  index : checkpoint.lastCheckpointIndex ≤ later.lastCheckpointIndex
  closed : checkpoint.completed = true ∨ checkpoint.failed = true → later = checkpoint

section
variable {e : Env} {s : Storage} {w w' : World} {i : Input} {hist : List (Step World Input)}
  {c : CheckpointId} {st : Step World Input}

theorem CheckpointSound.not_both (h : CheckpointSound c hist checkpoint) :
    ¬ (checkpoint.completed = true ∧ checkpoint.failed = true) := by
  rintro ⟨hcompleted, hfailed⟩
  have hstate := h.failed.mp hfailed
  rw [h.completed.mp hcompleted] at hstate
  cases hstate

theorem CheckpointMoves.refl (checkpoint : BatchCheckpoint) :
    CheckpointMoves checkpoint checkpoint :=
  ⟨le_rfl, fun _ => rfl⟩

theorem CheckpointMoves.trans (h : CheckpointMoves x y) (h' : CheckpointMoves y z) :
    CheckpointMoves x z where
  index := h.index.trans h'.index
  closed hclosed := by
    obtain rfl := h.closed hclosed
    exact h'.closed hclosed

-- ---------------------------------------------------------------------------
-- One step
-- ---------------------------------------------------------------------------

/-- What a step can do to the checkpoint of a batch. -/
inductive CheckpointStep (c : CheckpointId) (st : Step World Input) : Option BatchCheckpoint →
    Option BatchCheckpoint → Prop
  | kept (hprogress : recordsProgress c st = false) (hresumes : resumesBatch c st = false) :
    CheckpointStep c st stored stored
  | begun (checkpointIndex : Nat) (hprogress : recordsProgress c st = false)
      (hresumes : resumesBatch c st = false) :
    CheckpointStep c st none (some (c.started checkpointIndex))
  | progressed (checkpoint : BatchCheckpoint) (checkpointIndex : Nat) (state : BatchCheckpointState)
      (hopen : checkpoint.completed = false ∧ checkpoint.failed = false)
      (hindex : checkpoint.lastCheckpointIndex ≤ checkpointIndex)
      (hprogress : recordsProgress c st = true) (hresumes : resumesBatch c st = false) :
    CheckpointStep c st (some checkpoint) (some { checkpoint with
      lastCheckpointIndex := checkpointIndex
      state := state
      totalCheckpoints := checkpoint.totalCheckpoints + 1
      completed := decide (state = .completed)
      failed := decide (state = .failed) })
  | resumed (checkpoint : BatchCheckpoint)
      (hopen : checkpoint.completed = false ∧ checkpoint.failed = false)
      (hstate : checkpoint.state ≠ .resumed)
      (hprogress : recordsProgress c st = false) (hresumes : resumesBatch c st = true) :
    CheckpointStep c st (some checkpoint) (some { checkpoint with state := .resumed })

theorem checkpointKey_ne (h : c ≠ c') : c.key ≠ c'.key := by
  intro hkey
  apply h
  cases c
  cases c'
  simpa [CheckpointId.key] using hkey

theorem exec_checkpointStep (hx : Executes i w call ret w') (c : CheckpointId) :
    CheckpointStep c ⟨w, i, w'⟩ (w.payroll.get c.key) (w'.payroll.get c.key) := by
  have hperformed : performed ⟨w, i, w'⟩ = some (call, ret) := performed_executes hx
  obtain ⟨-, hok⟩ := hx
  cases call with
  | beginBatchExecutionCheckpoint admin c' checkpointIndex =>
    obtain ⟨_, hf, -, rfl⟩ := onStorage_ok.mp hok
    obtain ⟨-, -, -, hfree, rfl⟩ := beginBatchExecutionCheckpoint_ok.mp hf
    by_cases hc : c = c'
    · subst hc
      rw [hfree, Store.get_set_self]
      exact .begun checkpointIndex (by simp [recordsProgress, hperformed])
        (by simp [resumesBatch, hperformed])
    · rw [Store.get_set_ne _ _ (checkpointKey_ne hc)]
      exact .kept (by simp [recordsProgress, hperformed]) (by simp [resumesBatch, hperformed])
  | recordBatchCheckpointProgress admin c' checkpointIndex state =>
    obtain ⟨_, hf, -, rfl⟩ := onStorage_ok.mp hok
    obtain ⟨-, checkpoint, hstored, -, hnot, -, rfl⟩ := recordBatchCheckpointProgress_ok.mp hf
    simp only [not_or, Bool.not_eq_true, not_lt] at hnot
    obtain ⟨hcompleted, hfailed, hindex, -, -⟩ := hnot
    by_cases hc : c = c'
    · subst hc
      rw [hstored, Store.get_set_self]
      exact .progressed checkpoint checkpointIndex state ⟨hcompleted, hfailed⟩ hindex
        (by simp [recordsProgress, hperformed]) (by simp [resumesBatch, hperformed])
    · rw [Store.get_set_ne _ _ (checkpointKey_ne hc)]
      exact .kept (by simp [recordsProgress, hperformed, Ne.symm hc])
        (by simp [resumesBatch, hperformed])
  | resumeBatchExecution admin c' checkpointIndex =>
    obtain ⟨_, hf, -, rfl⟩ := exec_resumeBatchExecution_ok.mp hok
    obtain ⟨-, -, -, checkpoint, hstored, ⟨-, rfl, hstate, hopen⟩, rfl⟩ :=
      resumeBatchExecution_ok.mp hf
    by_cases hc : c = c'
    · subst hc
      rw [hstored, Store.get_set_self]
      exact .resumed checkpoint hopen (fun h => hstate (.inl h))
        (by simp [recordsProgress, hperformed]) (by simp [resumesBatch, hperformed])
    · rw [Store.get_set_ne _ _ (checkpointKey_ne hc)]
      exact .kept (by simp [recordsProgress, hperformed])
        (by simp [resumesBatch, hperformed, Ne.symm hc])
  | _ =>
    rw [exec_keeps hok rfl]
    exact .kept (by simp [recordsProgress, hperformed]) (by simp [resumesBatch, hperformed])

theorem next_checkpointStep (w : World) (i : Input) (c : CheckpointId) :
    CheckpointStep c ⟨w, i, next w i⟩ (w.payroll.get c.key) ((next w i).payroll.get c.key) := by
  rcases next_payroll w i with ⟨call, ret, hx, -⟩ | ⟨hsame, -, hnone⟩
  · exact exec_checkpointStep hx c
  · rw [hsame]
    exact .kept (by simp [recordsProgress, hnone]) (by simp [resumesBatch, hnone])

theorem CheckpointStep.moves (h : CheckpointStep c st (some checkpoint) after) :
    ∃ later, after = some later ∧ CheckpointMoves checkpoint later := by
  cases h with
  | kept => exact ⟨checkpoint, rfl, .refl checkpoint⟩
  | progressed _ checkpointIndex state hopen hindex =>
    exact ⟨_, rfl, hindex, by simp [hopen.1, hopen.2]⟩
  | resumed _ hopen => exact ⟨_, rfl, le_rfl, by simp [hopen.1, hopen.2]⟩

-- ---------------------------------------------------------------------------
-- Runs
-- ---------------------------------------------------------------------------

theorem progressCalls_snoc (st : Step World Input) :
    progressCalls c (hist ++ [st]) = progressCalls c hist + (recordsProgress c st).toNat :=
  countP_snoc (recordsProgress c) hist st

def CheckpointRecorded (c : CheckpointId) (hist : List (Step World Input)) :
    Option BatchCheckpoint → Prop
  | none => progressCalls c hist = 0
  | some checkpoint => CheckpointSound c hist checkpoint

theorem CheckpointStep.recorded (h : CheckpointStep c st before after)
    (hrec : CheckpointRecorded c hist before) : CheckpointRecorded c (hist ++ [st]) after := by
  have hcount : progressCalls c (hist ++ [st]) = _ := progressCalls_snoc st
  cases h with
  | kept hprogress =>
    rw [hprogress] at hcount
    cases before with
    | none => exact hcount.trans hrec
    | some checkpoint =>
      refine ⟨hrec.describes, hrec.completed, hrec.failed, ?_⟩
      rw [hcount]
      exact hrec.counted
  | begun checkpointIndex hprogress =>
    rw [hprogress] at hcount
    refine ⟨⟨rfl, rfl, rfl, rfl⟩, by simp [CheckpointId.started], by simp [CheckpointId.started],
      ?_⟩
    rw [hcount, show progressCalls c hist = 0 from hrec]
    rfl
  | progressed checkpoint checkpointIndex state _ _ hprogress =>
    rw [hprogress] at hcount
    refine ⟨hrec.describes, by simp, by simp, ?_⟩
    rw [hcount, hrec.counted]
    rfl
  | resumed checkpoint hopen _ hprogress =>
    rw [hprogress] at hcount
    refine ⟨hrec.describes, by simp [hopen.1], by simp [hopen.2], ?_⟩
    rw [hcount]
    exact hrec.counted

theorem checkpoint_recorded (inputs : List Input) (c : CheckpointId) :
    CheckpointRecorded c (steps next World.genesis inputs)
      ((runFrom next World.genesis inputs).payroll.get c.key) := by
  have hstep : ∀ hist w i, CheckpointRecorded c hist (w.payroll.get c.key) →
      CheckpointRecorded c (hist ++ [⟨w, i, next w i⟩]) ((next w i).payroll.get c.key) := by
    intro hist w i hrec
    exact (next_checkpointStep w i c).recorded hrec
  have hstart : CheckpointRecorded c [] (World.genesis.payroll.get c.key) :=
    show CheckpointRecorded c [] none from rfl
  exact history_invariant
    (I := fun hist (w : World) => CheckpointRecorded c hist (w.payroll.get c.key)) hstart hstep
      inputs

theorem checkpoint_later (hw : Reached w) (hstored : w.payroll.get c.key = some checkpoint)
    (later : List Input) :
    ∃ checkpoint' : BatchCheckpoint, (runFrom next w later).payroll.get c.key = some checkpoint' ∧
      CheckpointMoves checkpoint checkpoint' := by
  refine record_later (R := CheckpointMoves) (fun w : World => w.payroll.get c.key)
    CheckpointMoves.refl (fun _ _ _ => CheckpointMoves.trans) ?_ hw hstored later
  intro w i checkpoint _ hstored
  have hstep := next_checkpointStep w i c
  rw [hstored] at hstep
  exact hstep.moves

def BatchResumed (c : CheckpointId) (w : World) : Prop :=
  ∃ checkpoint : BatchCheckpoint, w.payroll.get c.key = some checkpoint ∧
    checkpoint.state = .resumed

theorem CheckpointStep.resumes (h : CheckpointStep c st before after)
    (hresumes : resumesBatch c st = true) :
    (∀ checkpoint, before = some checkpoint → checkpoint.state ≠ .resumed) ∧
      ∃ checkpoint : BatchCheckpoint, after = some checkpoint ∧ checkpoint.state = .resumed := by
  cases h with
  | resumed checkpoint _ hstate =>
    refine ⟨?_, _, rfl, rfl⟩
    rintro _ ⟨rfl⟩
    exact hstate
  | kept _ hnot | begun _ _ hnot | progressed _ _ _ _ _ _ hnot => simp [hnot] at hresumes

theorem batchResumed_kept (w : World) (i : Input) (h : BatchResumed c w)
    (hnot : recordsProgress c ⟨w, i, next w i⟩ = false) : BatchResumed c (next w i) := by
  obtain ⟨checkpoint, hstored, hstate⟩ := h
  have hstep := next_checkpointStep w i c
  rw [hstored] at hstep
  generalize hafter : (next w i).payroll.get c.key = after at hstep
  cases hstep with
  | kept => exact ⟨checkpoint, hafter, hstate⟩
  | progressed _ _ _ _ _ hprogress => simp [hnot] at hprogress
  | resumed => exact ⟨_, hafter, rfl⟩

theorem progress_between_resumes {m n : Nat} {st' : Step World Input} (hmn : m < n)
    (hm : (steps next World.genesis inputs)[m]? = some st)
    (hn : (steps next World.genesis inputs)[n]? = some st')
    (hresumes : resumesBatch c st = true) (hresumes' : resumesBatch c st' = true) :
    ∃ (k : Nat) (st'' : Step World Input), m < k ∧ k < n ∧
      (steps next World.genesis inputs)[k]? = some st'' ∧ recordsProgress c st'' = true := by
  by_contra hnone
  have hquiet : ∀ (k : Nat) (st'' : Step World Input), m < k → k < n →
      (steps next World.genesis inputs)[k]? = some st'' → recordsProgress c st'' = false := by
    intro k st'' hmk hkn hk
    refine Bool.eq_false_iff.mpr fun hprogress => ?_
    exact hnone ⟨k, st'', hmk, hkn, hk, hprogress⟩
  have hpost : BatchResumed c st.post := by
    have hstep := next_checkpointStep st.pre st.input c
    rw [← steps_eq (List.mem_of_getElem? hm), ← steps_post (List.mem_of_getElem? hm)] at hstep
    exact (hstep.resumes hresumes).2
  obtain ⟨checkpoint, hstored, hstate⟩ := kept_between (I := BatchResumed c)
    (C := fun st => recordsProgress c st = false) batchResumed_kept hm hpost hmn hn hquiet
  have hstep := next_checkpointStep st'.pre st'.input c
  rw [← steps_eq (List.mem_of_getElem? hn)] at hstep
  exact (hstep.resumes hresumes').1 checkpoint hstored hstate

/-- In every run the checkpoint of a batch is sound and its index only grows,
it does not change once the batch is over, a resume names the stored index,
and between two resumes progress is recorded. -/
theorem checkpoints_resume_safely (inputs : List Input) (c : CheckpointId) :
    (∀ checkpoint : BatchCheckpoint,
      (runFrom next World.genesis inputs).payroll.get c.key = some checkpoint →
        CheckpointSound c (steps next World.genesis inputs) checkpoint ∧
        ¬ (checkpoint.completed = true ∧ checkpoint.failed = true) ∧
        ∀ later, ∃ checkpoint' : BatchCheckpoint,
          (runFrom next World.genesis (inputs ++ later)).payroll.get c.key = some checkpoint' ∧
            CheckpointMoves checkpoint checkpoint') ∧
    (∀ st admin checkpointIndex ret, st ∈ steps next World.genesis inputs →
      performed st = some (.resumeBatchExecution admin c checkpointIndex, ret) →
      ∃ checkpoint : BatchCheckpoint, st.pre.payroll.get c.key = some checkpoint ∧
        checkpointIndex = checkpoint.lastCheckpointIndex) ∧
    ∀ (m n : Nat) (st st' : Step World Input), m < n →
      (steps next World.genesis inputs)[m]? = some st →
      (steps next World.genesis inputs)[n]? = some st' →
      resumesBatch c st = true → resumesBatch c st' = true →
      ∃ (k : Nat) (st'' : Step World Input), m < k ∧ k < n ∧
        (steps next World.genesis inputs)[k]? = some st'' ∧ recordsProgress c st'' = true := by
  refine ⟨fun checkpoint hstored => ?_, fun st admin checkpointIndex ret _ hperformed => ?_, ?_⟩
  · have hrec := checkpoint_recorded inputs c
    rw [hstored] at hrec
    have hsound : CheckpointSound c (steps next World.genesis inputs) checkpoint := hrec
    refine ⟨hsound, hsound.not_both, fun later => ?_⟩
    rw [runFrom_append]
    exact checkpoint_later reachable_runFrom hstored later
  · obtain ⟨_, hx⟩ := executes_performed hperformed
    obtain ⟨_, hf, -, -⟩ := exec_resumeBatchExecution_ok.mp hx.2
    obtain ⟨-, -, -, checkpoint, hstored, ⟨-, hindex, -⟩, -⟩ := resumeBatchExecution_ok.mp hf
    exact ⟨checkpoint, hstored, hindex⟩
  · intro m n st st' hmn hm hn hresumes hresumes'
    exact progress_between_resumes hmn hm hn hresumes hresumes'

end

theorem checkpoint_resumed_twice :
    let c : CheckpointId := ⟨Sample.admin, Sample.digest 1, Sample.token, Sample.digest 2⟩
    let inputs :=
      [Sample.deploy, Sample.call [Sample.admin] (.beginBatchExecutionCheckpoint Sample.admin c 0),
        Sample.call [Sample.admin] (.resumeBatchExecution Sample.admin c 0),
        Sample.call [Sample.admin]
          (.recordBatchCheckpointProgress Sample.admin c 5 .partiallyCheckpointed),
        Sample.call [Sample.admin] (.resumeBatchExecution Sample.admin c 5)]
    ∃ (k : Nat) (st : Step World Input), 2 < k ∧ k < 4 ∧
      (steps next World.genesis inputs)[k]? = some st ∧ recordsProgress c st = true := by
  intro c inputs
  exact (checkpoints_resume_safely inputs c).2.2 2 4 _ _ (by decide) rfl rfl rfl rfl

end ZkPayroll.Payroll
