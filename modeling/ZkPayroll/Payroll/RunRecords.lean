import ZkPayroll.Payroll.Steps

/-!
# The record of every run

A run is created by a `prepare_payroll_run` or `batch_process_payroll` call
that goes through, and the id the call returns is the run's for good.
`creations` reads ids and batches off the steps of a run of the system; the
storage is compared with it.

The record of a run moves from pending to executed or to cancelled and is
never in two places; its terms are those of the call that created it.
-/

namespace ZkPayroll.Payroll

open Host

-- ---------------------------------------------------------------------------
-- Creations
-- ---------------------------------------------------------------------------

/-- The id and the batch of the run a call created, if it created one. -/
def Call.creates : Call → Ret → Option (Nat × Batch)
  | .preparePayrollRun b, .id runId => some (runId, b)
  | .batchProcessPayroll b, .id runId => some (runId, b)
  | _, _ => none

def creation (st : Step World Input) : Option (Nat × Batch) :=
  (performed st).bind fun (call, ret) => call.creates ret

def creations (hist : List (Step World Input)) : List (Nat × Batch) := hist.filterMap creation

theorem creations_snoc (hist : List (Step World Input)) (st : Step World Input) :
    creations (hist ++ [st]) = creations hist ++ (creation st).toList := by
  unfold creations
  cases h : creation st <;> simp [h]

-- ---------------------------------------------------------------------------
-- Records
-- ---------------------------------------------------------------------------

/-- What all three kinds of record keep of the call that created the run. -/
structure RunTerms where
  totalAmount : Int
  employeeCount : Nat
  draftHash : BytesN 32
  deriving DecidableEq

def Batch.terms (b : Batch) : RunTerms :=
  ⟨b.expectedTotalSpend, b.proofs.length, b.resolvedDraftHash⟩

def PendingPayrollRun.terms (p : PendingPayrollRun) : RunTerms :=
  ⟨p.totalAmount, p.employeeCount, p.draftHash⟩

def PayrollRun.terms (run : PayrollRun) : RunTerms :=
  ⟨run.totalAmount, run.employeeCount, run.draftHash⟩

def CancelledBatchStatus.terms (c : CancelledBatchStatus) : RunTerms :=
  ⟨c.totalAmount, c.employeeCount, c.draftHash⟩

/-- Exactly one record is stored under the id, and it has the batch's terms,
and its nonce where the record has a nonce at all. -/
inductive Recorded (s : Storage) (runId : Nat) (b : Batch) : Prop
  | pending (p : PendingPayrollRun) (stored : s.get (.pendingRun runId) = some p)
      (terms : p.terms = b.terms) (nonce : p.nonce = b.nonce)
      (notExecuted : s.get (.payrollRun runId) = none)
      (notCancelled : s.get (.cancelledBatchRecord runId) = none)
  | executed (run : PayrollRun) (stored : s.get (.payrollRun runId) = some run)
      (terms : run.terms = b.terms) (nonce : run.nonce = b.nonce)
      (notPending : s.get (.pendingRun runId) = none)
      (notCancelled : s.get (.cancelledBatchRecord runId) = none)
  | cancelled (c : CancelledBatchStatus) (stored : s.get (.cancelledBatchRecord runId) = some c)
      (terms : c.terms = b.terms)
      (notPending : s.get (.pendingRun runId) = none)
      (notExecuted : s.get (.payrollRun runId) = none)

def Unrecorded (s : Storage) (runId : Nat) : Prop :=
  s.get (.pendingRun runId) = none ∧ s.get (.payrollRun runId) = none ∧
    s.get (.cancelledBatchRecord runId) = none

/-- The storage has the record of every created run, of no other, and the
nonce index of them all. -/
structure RunsRecorded (created : List (Nat × Batch)) (s : Storage) : Prop where
  ids : created.map Prod.fst = List.range' 1 (runCount s)
  recorded : ∀ runId b, (runId, b) ∈ created → Recorded s runId b
  unrecorded : ∀ runId, ¬ (1 ≤ runId ∧ runId ≤ runCount s) → Unrecorded s runId
  nonces : ∀ nonce runId,
    s.get (.runNonce nonce) = some runId ↔ ∃ b, (runId, b) ∈ created ∧ b.nonce = nonce
  distinct : (created.map fun c => c.2.nonce).Nodup
  positive : ∀ c ∈ created, 0 < c.2.expectedTotalSpend
  uninitialized : s.get .addresses = none → created = []

section
variable {e : Env} {s s' : Storage} {w w' : World} {created : List (Nat × Batch)}

theorem Recorded.of_eq (h : Recorded s runId b)
    (hpending : s'.get (.pendingRun runId) = s.get (.pendingRun runId))
    (hexecuted : s'.get (.payrollRun runId) = s.get (.payrollRun runId))
    (hcancelled : s'.get (.cancelledBatchRecord runId) = s.get (.cancelledBatchRecord runId)) :
    Recorded s' runId b := by
  cases h with
  | pending p stored terms nonce h1 h2 =>
    exact .pending p (hpending ▸ stored) terms nonce (hexecuted ▸ h1) (hcancelled ▸ h2)
  | executed run stored terms nonce h1 h2 =>
    exact .executed run (hexecuted ▸ stored) terms nonce (hpending ▸ h1) (hcancelled ▸ h2)
  | cancelled c stored terms h1 h2 =>
    exact .cancelled c (hcancelled ▸ stored) terms (hpending ▸ h1) (hexecuted ▸ h2)

theorem RunsRecorded.exists_created (h : RunsRecorded created s) (hr : ¬ Unrecorded s runId) :
    ∃ b, (runId, b) ∈ created := by
  have hbound : 1 ≤ runId ∧ runId ≤ runCount s := by
    by_contra hout
    exact hr (h.unrecorded runId hout)
  have hmem : runId ∈ created.map Prod.fst := by
    rw [h.ids, List.mem_range'_1]
    omega
  obtain ⟨⟨_, b⟩, hcreated, rfl⟩ := List.mem_map.mp hmem
  exact ⟨b, hcreated⟩

theorem RunsRecorded.pending_pos (h : RunsRecorded created s)
    (hp : s.get (.pendingRun runId) = some p) :
    0 < p.totalAmount ∧ s.get (.payrollRun runId) = none := by
  have hrecorded : ¬ Unrecorded s runId := fun hun => by simp [hun.1] at hp
  obtain ⟨b, hmem⟩ := h.exists_created hrecorded
  cases h.recorded runId b hmem with
  | pending p' stored terms nonce notExecuted notCancelled =>
    obtain rfl : p = p' := Store.get_inj hp stored
    have htotal : p.totalAmount = b.expectedTotalSpend := congrArg RunTerms.totalAmount terms
    exact ⟨htotal ▸ h.positive _ hmem, notExecuted⟩
  | executed _ _ _ _ notPending => simp [hp] at notPending
  | cancelled _ _ _ notPending => simp [hp] at notPending

-- ---------------------------------------------------------------------------
-- Steps that create no run
-- ---------------------------------------------------------------------------

theorem RunsRecorded.rerecord (h : RunsRecorded created s)
    (hcount : runCount s' = runCount s)
    (hnonce : ∀ nonce, s'.get (.runNonce nonce) = s.get (.runNonce nonce))
    (hrecorded : ∀ runId b, Recorded s runId b → Recorded s' runId b)
    (hunrecorded : ∀ runId, Unrecorded s runId → Unrecorded s' runId)
    (haddrs : s'.get .addresses = none → s.get .addresses = none) : RunsRecorded created s' where
  ids := by rw [hcount]; exact h.ids
  recorded runId b hmem := hrecorded runId b (h.recorded runId b hmem)
  unrecorded runId hout := hunrecorded runId (h.unrecorded runId (hcount ▸ hout))
  nonces nonce runId := by rw [hnonce]; exact h.nonces nonce runId
  distinct := h.distinct
  positive := h.positive
  uninitialized hnone := h.uninitialized (haddrs hnone)

def runRecordKinds : List Kind := [.runNonce, .pendingRun, .payrollRun, .cancelledBatchRecord]

theorem runCount_agree (h : Agree kinds s s') (hk : .runCounter ∉ kinds) :
    runCount s' = runCount s := by
  rw [runCount, h .runCounter hk, runCount]

theorem RunsRecorded.of_agree (kinds : List Kind) (h : RunsRecorded created s)
    (hagree : Agree kinds s s') (hkinds : ∀ kind ∈ runRecordKinds, kind ∉ kinds)
    (hcount : runCount s' = runCount s)
    (haddrs : s'.get .addresses = none → s.get .addresses = none) : RunsRecorded created s' := by
  simp only [runRecordKinds, List.forall_mem_cons, List.not_mem_nil, false_imp_iff, implies_true,
    and_true] at hkinds
  obtain ⟨hnonce, hpending, hexecuted, hcancelled⟩ := hkinds
  have hrecord : ∀ runId, s'.get (.pendingRun runId) = s.get (.pendingRun runId) ∧
      s'.get (.payrollRun runId) = s.get (.payrollRun runId) ∧
      s'.get (.cancelledBatchRecord runId) = s.get (.cancelledBatchRecord runId) :=
    fun runId => ⟨hagree _ hpending, hagree _ hexecuted, hagree _ hcancelled⟩
  refine h.rerecord hcount (fun nonce => hagree _ hnonce) ?_ ?_ haddrs
  · intro runId b hrec
    obtain ⟨h1, h2, h3⟩ := hrecord runId
    exact hrec.of_eq h1 h2 h3
  · rintro runId ⟨h1, h2, h3⟩
    obtain ⟨h4, h5, h6⟩ := hrecord runId
    exact ⟨h4 ▸ h1, h5 ▸ h2, h6 ▸ h3⟩

theorem RunsRecorded.rewrite (r : Nat) (h : RunsRecorded created s) (hstored : ¬ Unrecorded s r)
    (hone : ∀ b, Recorded s r b → Recorded s' r b)
    (hothers : ∀ runId, runId ≠ r → s'.get (.pendingRun runId) = s.get (.pendingRun runId) ∧
      s'.get (.payrollRun runId) = s.get (.payrollRun runId) ∧
      s'.get (.cancelledBatchRecord runId) = s.get (.cancelledBatchRecord runId))
    (hcount : runCount s' = runCount s)
    (hnonce : ∀ nonce, s'.get (.runNonce nonce) = s.get (.runNonce nonce))
    (haddrs : s'.get .addresses = none → s.get .addresses = none) : RunsRecorded created s' := by
  refine h.rerecord hcount hnonce ?_ ?_ haddrs
  · intro runId b hrec
    by_cases hr : runId = r
    · subst hr
      exact hone b hrec
    · obtain ⟨h1, h2, h3⟩ := hothers runId hr
      exact hrec.of_eq h1 h2 h3
  · rintro runId ⟨h1, h2, h3⟩
    have hr : runId ≠ r := by
      rintro rfl
      exact hstored ⟨h1, h2, h3⟩
    obtain ⟨h4, h5, h6⟩ := hothers runId hr
    exact ⟨h4 ▸ h1, h5 ▸ h2, h6 ▸ h3⟩

theorem RunsRecorded.finalize (h : RunsRecorded created s)
    (hpending : s.get (.pendingRun r) = some p) (hfree : s.get (.payrollRun r) = none) :
    RunsRecorded created (finalized e addrs r p s) := by
  have hstored : ¬ Unrecorded s r := fun hun => by simp [hun.1] at hpending
  refine h.rewrite r hstored ?_ (fun runId hr => by simp [finalized, hr])
    (by simp [runCount, finalized]) (by simp [finalized]) (by simp [finalized])
  intro b hrec
  cases hrec with
  | pending p' stored terms nonce notExecuted notCancelled =>
    obtain rfl : p = p' := Store.get_inj hpending stored
    exact .executed (p.executed e addrs.admin r) (by simp [finalized]) terms nonce
      (by simp [finalized]) (by simpa [finalized] using notCancelled)
  | executed run stored => simp [hfree] at stored
  | cancelled c stored terms notPending => simp [hpending] at notPending

theorem RunsRecorded.cancel (h : RunsRecorded created s)
    (hpending : s.get (.pendingRun r) = some p) (hfree : s.get (.payrollRun r) = none) :
    RunsRecorded created (cancelled e addrs r reason p s) := by
  have hstored : ¬ Unrecorded s r := fun hun => by simp [hun.1] at hpending
  refine h.rewrite r hstored ?_ (fun runId hr => by simp [cancelled, hr])
    (by simp [runCount, cancelled]) (by simp [cancelled]) (by simp [cancelled])
  intro b hrec
  cases hrec with
  | pending p' stored terms nonce notExecuted notCancelled =>
    obtain rfl : p = p' := Store.get_inj hpending stored
    exact .cancelled (p.cancelled e addrs.admin r reason) (by simp [cancelled]) terms
      (by simp [cancelled]) (by simpa [cancelled] using notExecuted)
  | executed run stored => simp [hfree] at stored
  | cancelled c stored terms notPending => simp [hpending] at notPending

theorem RunsRecorded.restate (h : RunsRecorded created s) (run' : PayrollRun)
    (hrun : s.get (.payrollRun r) = some run) (hterms : run'.terms = run.terms)
    (hnonce : run'.nonce = run.nonce) : RunsRecorded created (s.set (.payrollRun r) run') := by
  have hstored : ¬ Unrecorded s r := fun hun => by simp [hun.2.1] at hrun
  refine h.rewrite r hstored ?_ (fun runId hr => by simp [hr]) (by simp [runCount]) (by simp)
    (by simp)
  intro b hrec
  cases hrec with
  | pending _ _ _ _ notExecuted => simp [hrun] at notExecuted
  | executed stored' hstored' terms nonce notPending notCancelled =>
    obtain rfl : run = stored' := Store.get_inj hrun hstored'
    exact .executed run' (by simp) (hterms.trans terms) (hnonce.trans nonce)
      (by simpa using notPending) (by simpa using notCancelled)
  | cancelled _ _ _ _ notExecuted => simp [hrun] at notExecuted

-- ---------------------------------------------------------------------------
-- Steps that create a run
-- ---------------------------------------------------------------------------

theorem RunsRecorded.create (h : RunsRecorded created s)
    (hcount : runCount s' = runCount s + 1) (hpos : 0 < b.expectedTotalSpend)
    (hfresh : s.get (.runNonce b.nonce) = none)
    (hnonce : s'.get (.runNonce b.nonce) = some (runCount s + 1))
    (hothers : ∀ nonce, nonce ≠ b.nonce → s'.get (.runNonce nonce) = s.get (.runNonce nonce))
    (hnew : Recorded s' (runCount s + 1) b)
    (hold : ∀ runId, runId ≠ runCount s + 1 →
      s'.get (.pendingRun runId) = s.get (.pendingRun runId) ∧
      s'.get (.payrollRun runId) = s.get (.payrollRun runId) ∧
      s'.get (.cancelledBatchRecord runId) = s.get (.cancelledBatchRecord runId))
    (haddrs : s'.get .addresses ≠ none) :
    RunsRecorded (created ++ [(runCount s + 1, b)]) s' := by
  have hbound : ∀ runId b', (runId, b') ∈ created → 1 ≤ runId ∧ runId ≤ runCount s := by
    intro runId b' hmem
    have : runId ∈ List.range' 1 (runCount s) := h.ids ▸ List.mem_map_of_mem hmem
    rw [List.mem_range'_1] at this
    omega
  have hunused : ∀ c ∈ created, c.2.nonce ≠ b.nonce := by
    intro c hmem heq
    have := (h.nonces b.nonce c.1).mpr ⟨c.2, hmem, heq⟩
    simp [hfresh] at this
  refine ⟨?_, ?_, ?_, ?_, ?_, ?_, fun hnone => absurd hnone haddrs⟩
  · simp [h.ids, hcount, List.range'_concat, Nat.add_comm 1]
  · intro runId b' hmem
    rcases List.mem_append.mp hmem with hmem | hmem
    · obtain ⟨h1, h2, h3⟩ := hold runId (by have := hbound runId b' hmem; omega)
      exact (h.recorded runId b' hmem).of_eq h1 h2 h3
    · obtain ⟨rfl, rfl⟩ : runId = runCount s + 1 ∧ b' = b := by simpa using hmem
      exact hnew
  · intro runId hout
    rw [hcount] at hout
    obtain ⟨h1, h2, h3⟩ := hold runId (by omega)
    obtain ⟨h4, h5, h6⟩ := h.unrecorded runId (by omega)
    exact ⟨h1.trans h4, h2.trans h5, h3.trans h6⟩
  · intro nonce runId
    by_cases hn : nonce = b.nonce
    · subst hn
      rw [hnonce]
      constructor
      · rintro ⟨rfl⟩
        exact ⟨b, by simp, rfl⟩
      · rintro ⟨b', hmem, heq⟩
        rcases List.mem_append.mp hmem with hmem | hmem
        · exact absurd heq (hunused _ hmem)
        · obtain ⟨rfl, -⟩ : runId = runCount s + 1 ∧ b' = b := by simpa using hmem
          rfl
    · rw [hothers nonce hn, h.nonces]
      constructor
      · rintro ⟨b', hmem, heq⟩
        exact ⟨b', List.mem_append_left _ hmem, heq⟩
      · rintro ⟨b', hmem, heq⟩
        rcases List.mem_append.mp hmem with hmem | hmem
        · exact ⟨b', hmem, heq⟩
        · obtain ⟨-, rfl⟩ : runId = runCount s + 1 ∧ b' = b := by simpa using hmem
          exact absurd heq.symm hn
  · rw [List.map_append, List.nodup_append]
    refine ⟨h.distinct, by simp, ?_⟩
    intro n hn m hm
    obtain ⟨c, hmem, rfl⟩ := List.mem_map.mp hn
    obtain rfl : m = b.nonce := by simpa using hm
    exact hunused c hmem
  · intro c hmem
    rcases List.mem_append.mp hmem with hmem | hmem
    · exact h.positive c hmem
    · obtain rfl : c = (runCount s + 1, b) := by simpa using hmem
      exact hpos

theorem RunsRecorded.prepare (h : RunsRecorded created s) (haddrs : s.get .addresses = some addrs)
    (hpos : 0 < b.expectedTotalSpend) (hfresh : s.get (.runNonce b.nonce) = none) :
    RunsRecorded (created ++ [(runCount s + 1, b)]) (prepared e addrs b s) := by
  obtain ⟨-, hfree, hfree'⟩ := h.unrecorded (runCount s + 1) (by omega)
  refine h.create (by simp [runCount, prepared, claimRunId]) hpos hfresh
    (by simp [prepared, claimRunId]) ?_ ?_ ?_ (by simp [prepared, claimRunId, haddrs])
  · intro nonce hne
    simp [prepared, claimRunId, hne]
  · exact .pending (b.pendingRun e addrs.admin (runCount s + 1)) (by simp [prepared]) rfl rfl
      (by simpa [prepared, claimRunId] using hfree) (by simpa [prepared, claimRunId] using hfree')
  · intro runId hne
    simp [prepared, claimRunId, hne]

theorem RunsRecorded.execute (h : RunsRecorded created s) (haddrs : s.get .addresses = some addrs)
    (hpos : 0 < b.expectedTotalSpend) (hfresh : s.get (.runNonce b.nonce) = none) :
    RunsRecorded (created ++ [(runCount s + 1, b)]) (executed e addrs b s) := by
  obtain ⟨hfree, -, hfree'⟩ := h.unrecorded (runCount s + 1) (by omega)
  refine h.create (by simp [runCount, executed, claimRunId]) hpos hfresh
    (by simp [executed, claimRunId]) ?_ ?_ ?_ (by simp [executed, claimRunId, haddrs])
  · intro nonce hne
    simp [executed, claimRunId, hne]
  · exact .executed (b.payrollRun e addrs.admin (runCount s + 1)) (by simp [executed]) rfl rfl
      (by simpa [executed, claimRunId] using hfree) (by simpa [executed, claimRunId] using hfree')
  · intro runId hne
    simp [executed, claimRunId, hne]

-- ---------------------------------------------------------------------------
-- Runs of the system
-- ---------------------------------------------------------------------------

theorem RunsRecorded.exec (h : RunsRecorded created w.payroll)
    (hok : exec e call w = .ok (ret, w')) :
    RunsRecorded (created ++ (call.creates ret).toList) w'.payroll := by
  have hquiet : call.creates ret = none → RunsRecorded created w'.payroll →
      RunsRecorded (created ++ (call.creates ret).toList) w'.payroll := by
    intro hnone h
    simpa [hnone] using h
  cases call with
  | preparePayrollRun b =>
    obtain ⟨_, _, hf, rfl, rfl⟩ := onStorageRet_ok.mp hok
    obtain ⟨-, -, hshape, hfresh, -, hpay, addrs, haddrs, -, -, -, -, -, -, rfl, rfl⟩ :=
      preparePayrollRun_ok.mp hf
    exact h.prepare haddrs (Batch.spend_pos hshape hpay) hfresh
  | batchProcessPayroll b =>
    obtain ⟨_, hf, rfl⟩ := exec_batchProcessPayroll_ok.mp hok
    obtain ⟨hadmitted, addrs, haddrs, -, -, -, -, -, -, _, -, _, -, rfl, rfl⟩ :=
      batchProcessPayroll_ok.mp hf
    have hdrop : RunsRecorded created (dropDraft b.draftHash w.payroll) :=
      h.of_agree _ (dropDraft_agree _) (by simp [runRecordKinds]) runCount_dropDraft (by simp)
    have hnew : RunsRecorded (created ++ [(runCount (dropDraft b.draftHash w.payroll) + 1, b)])
        (executed e addrs b (dropDraft b.draftHash w.payroll)) :=
      hdrop.execute (by simpa using haddrs) (Batch.spend_pos hadmitted.shape hadmitted.payments)
        (by simpa using hadmitted.nonceFresh)
    simpa [Call.creates, runCount_dropDraft] using hnew
  | finalizePayrollRun admin runId =>
    obtain ⟨_, hf, -, rfl⟩ := onStorage_ok.mp hok
    obtain ⟨-, -, addrs, -, -, -, p, hpending, -, hfree, -, rfl⟩ := finalizePayrollRun_ok.mp hf
    exact hquiet rfl (h.finalize hpending hfree)
  | cancelPayrollRunWithReason | cancelPayrollRun =>
    obtain ⟨_, hf, -, rfl⟩ := onStorage_ok.mp hok
    obtain ⟨-, -, addrs, -, -, -, hfree, p, hpending, -, rfl⟩ := cancelPayrollRunWithReason_ok.mp hf
    exact hquiet rfl (h.cancel hpending hfree)
  | updateReconciliationStatus admin runId status =>
    obtain ⟨_, hf, -, rfl⟩ := onStorage_ok.mp hok
    obtain ⟨-, -, run, hrun, _, -, -, -, rfl⟩ := updateReconciliationStatus_ok.mp hf
    have hrestated := h.restate { run with reconciliationStatus := status } hrun rfl rfl
    exact hquiet rfl (hrestated.of_agree [.payrollState] (by simp) (by simp [runRecordKinds])
      (by simp [runCount]) (by simp))
  | setRunMetadata admin runId metadataHash =>
    obtain ⟨_, hf, -, rfl⟩ := onStorage_ok.mp hok
    obtain ⟨-, -, -, -, -, run, hrun, rfl⟩ := setRunMetadata_ok.mp hf
    have hdrop : RunsRecorded created (w.payroll.remove (.draftCommitment metadataHash)) :=
      h.of_agree [.draftCommitment] (by simp) (by simp [runRecordKinds]) (by simp [runCount])
        (by simp)
    have hrun' : (w.payroll.remove (.draftCommitment metadataHash)).get (.payrollRun runId) =
        some run := by simpa using hrun
    exact hquiet rfl (hdrop.restate { run with metadataHash := metadataHash } hrun' rfl rfl)
  | initializePayroll addrs =>
    obtain ⟨_, hf, -, hw⟩ := onStorage_ok.mp hok
    obtain ⟨hnone, hs⟩ := initializePayroll_ok.mp hf
    have hzero : runCount w.payroll = 0 := by
      have := congrArg List.length h.ids
      simpa [h.uninitialized hnone] using this.symm
    have hcount : runCount w'.payroll = 0 := by
      rw [hw, hs, runCount_agree (initializeStorageVersion_agree _) (by simp)]
      simp [runCount]
    exact hquiet rfl (h.of_agree _ (exec_frame hok) (by simp [runRecordKinds, Call.footprint])
      (hcount.trans hzero.symm) (exec_uninitialized hok))
  | _ =>
    refine hquiet rfl (h.of_agree _ (exec_frame hok) ?_ ?_ (exec_uninitialized hok))
    · exact of_decide_eq_true rfl
    · exact runCount_agree (exec_frame hok) (of_decide_eq_true rfl)

theorem runsRecorded_empty : RunsRecorded [] (.empty : Storage) where
  ids := by simp [runCount]
  recorded := by simp
  unrecorded := by simp [Unrecorded]
  nonces := by simp
  distinct := List.nodup_nil
  positive := by simp
  uninitialized _ := rfl

/-- The invariant holds along every run of the system. -/
theorem runsRecorded_run (inputs : List Input) :
    RunsRecorded (creations (steps next World.genesis inputs))
      (runFrom next World.genesis inputs).payroll := by
  have hstart : RunsRecorded (creations []) World.genesis.payroll := runsRecorded_empty
  refine history_invariant (I := fun hist w => RunsRecorded (creations hist) w.payroll) hstart ?_
    inputs
  intro hist w i h
  rw [creations_snoc]
  rcases next_payroll w i with ⟨call, ret, ⟨-, hok⟩, hperf⟩ | ⟨hsame, -, hperf⟩
  · simpa [creation, hperf] using h.exec hok
  · simpa [creation, hperf, hsame] using h

theorem Reached.runsRecorded (h : Reached w) : ∃ created, RunsRecorded created w.payroll := by
  obtain ⟨inputs, rfl⟩ := h
  exact ⟨_, runsRecorded_run inputs⟩

/-- No run is lost, duplicated or re-used: the ids handed out are `1` up to
the counter, in order; each has exactly one record, with the terms of the
call that created it; no other id has one; and the nonce index is that of the
created runs, whose nonces differ. -/
theorem every_run_recorded_once (inputs : List Input) :
    let created := creations (steps next World.genesis inputs)
    let s := (runFrom next World.genesis inputs).payroll
    created.map Prod.fst = List.range' 1 (runCount s) ∧
    (∀ runId b, (runId, b) ∈ created → Recorded s runId b) ∧
    (∀ runId, ¬ (1 ≤ runId ∧ runId ≤ runCount s) → Unrecorded s runId) ∧
    (created.map fun c => c.2.nonce).Nodup ∧
    ∀ nonce runId,
      s.get (.runNonce nonce) = some runId ↔ ∃ b, (runId, b) ∈ created ∧ b.nonce = nonce := by
  intro created s
  have h : RunsRecorded created s := runsRecorded_run inputs
  exact ⟨h.ids, h.recorded, h.unrecorded, h.distinct, h.nonces⟩

end

end ZkPayroll.Payroll
