import ZkPayroll.Payroll.Settlement
import ZkPayroll.SalaryCommitmentLaws

/-!
# Paying one batch after another

The payout loop spends one nullifier for each payment in the commitment
contract, and derives it from the position in the batch alone. Nothing else a
batch is told to need stands in the way of the next one: with those needs met
a batch succeeds exactly when its nullifiers are unspent and two counters have
room. The first batch spends the nullifier of position 0, so it is the last.
-/

namespace ZkPayroll.Payroll

open Host

/-- The employee's commitment is stored and unlocked, and the verifier takes
the proof of the payment at index `k`. -/
def PaymentReady (e : Env) (verifier : Address) (c : SalaryCommitmentContract.Storage) (k : Nat)
    (p : Payment) : Prop :=
  c.get (.commitmentLock p.2.2) = none ∧
    ∃ stored, c.get (.commitment p.2.2) = some stored ∧
      e.verifyPaymentProof verifier p.1 [stored.commitment, paymentNullifier k, BytesN.zero] = true

structure BatchReady (e : Env) (addrs : ContractAddresses) (b : Batch) (w : World) : Prop where
  configured : w.payroll.get .addresses = some addrs
  active : CompanyActive w.payroll
  version : ∀ state, w.payroll.get .storageVersion = some state →
    minSupportedStorageVersion ≤ state.version ∧ state.version ≤ maxSupportedStorageVersion
  unpaused : ¬ Paused e w.payroll
  commitmentUnpaused : ¬ SalaryCommitmentContract.Paused e (w.commitments addrs.commitment)
  authorised : addrs.admin ∈ e.auths
  shape : b.ShapeOk
  payments : b.PaymentsOk
  enrolled : ∀ p ∈ b.payments.zipIdx,
    PaymentReady e addrs.verifier (w.commitments addrs.commitment) p.2 p.1
  nonceNonZero : b.nonce ≠ BytesN.zero
  nonceFresh : w.payroll.get (.runNonce b.nonce) = none
  nonceAccepted : NonceAccepted w.payroll addrs.admin b.nonce
  draftCommitted : DraftCommitted b.draftHash w.payroll
  assetAllowed : isAssetAllowed w.payroll addrs.token = true
  funded : b.expectedTotalSpend ≤ w.tokenBalance addrs.token addrs.treasury
  operator : (w.commitments addrs.commitment).get .payrollOperator = some e.contract

/-- No payment of a batch of `n` finds its nullifier spent. -/
def NullifiersUnspent (addrs : ContractAddresses) (n : Nat) (w : World) : Prop :=
  ∀ k < n, (w.commitments addrs.commitment).get (.nullifier (paymentNullifier k)) = none

/-- Every employee but the treasury itself can be credited. -/
def CreditsFit (addrs : ContractAddresses) (b : Batch) (w : World) : Prop :=
  ∀ p ∈ b.payments, p.2.2 ≠ addrs.treasury →
    w.tokenBalance addrs.token p.2.2 + p.2.1 ≤ i128Max

section
variable {e : Env} {s s' : Storage} {w w' : World} {payments : List Payment}

-- ---------------------------------------------------------------------------
-- The commitment contract's half of the loop
-- ---------------------------------------------------------------------------

theorem paymentNullifier_inj (hj : j < 65536) (hk : k < 65536)
    (h : paymentNullifier j = paymentNullifier k) : j = k := by
  have hbytes := congrArg Subtype.val h
  simp only [paymentNullifier, List.cons.injEq, ← UInt8.toNat_inj, UInt8.toNat_ofNat', and_true]
    at hbytes
  omega

section
variable {c c' : SalaryCommitmentContract.Storage}

/-- The commitment contract after the payment at index `k` to `employee`. -/
def afterPayment (e : Env) (k : Nat) (employee : Address) (c : SalaryCommitmentContract.Storage) :
    SalaryCommitmentContract.Storage :=
  (c.set (.nullifier (paymentNullifier k)) ⟨paymentNullifier k, e.timestamp⟩).set
    (.commitmentLock employee) true

theorem settleCommitments_cons (hunpaused : ¬ SalaryCommitmentContract.Paused e c)
    (hoperator : SalaryCommitmentContract.OperatorCalls e c)
    (hready : PaymentReady e verifier c k p) :
    settleCommitments e verifier k (p :: payments) c = .ok c' ↔
      c.get (.nullifier (paymentNullifier k)) = none ∧
        settleCommitments e verifier (k + 1) payments (afterPayment e k p.2.2 c) = .ok c' := by
  obtain ⟨proof, amount, employee⟩ := p
  obtain ⟨hunlocked, stored, hstored, hproof⟩ := hready
  have hpaused' : ¬ SalaryCommitmentContract.Paused e
      (c.set (.nullifier (paymentNullifier k)) ⟨paymentNullifier k, e.timestamp⟩) := by
    simpa [SalaryCommitmentContract.Paused] using hunpaused
  have hoperator' : SalaryCommitmentContract.OperatorCalls e
      (c.set (.nullifier (paymentNullifier k)) ⟨paymentNullifier k, e.timestamp⟩) := by
    simpa [SalaryCommitmentContract.OperatorCalls] using hoperator
  simp only [settleCommitments, bind_ok, SalaryCommitmentContract.getCommitment_ok, ensure_ok,
    SalaryCommitmentContract.recordNullifier_ok, SalaryCommitmentContract.lockCommitmentUpdates_ok]
  constructor
  · rintro ⟨_, -, _, -, _, ⟨-, -, hfree, rfl⟩, _, ⟨-, -, -, rfl⟩, hrest⟩
    exact ⟨hfree, hrest⟩
  · rintro ⟨hfree, hrest⟩
    exact ⟨stored, hstored, (), hproof, _, ⟨hunpaused, hoperator, hfree, rfl⟩, _,
      ⟨hpaused', hoperator', by simpa using hunlocked, rfl⟩, hrest⟩

/-- With its other needs met, the commitment contract's half succeeds exactly
when the nullifiers of its positions are unspent. -/
theorem settleCommitments_succeeds_iff (hunpaused : ¬ SalaryCommitmentContract.Paused e c)
    (hoperator : SalaryCommitmentContract.OperatorCalls e c)
    (hready : ∀ p ∈ payments.zipIdx first, PaymentReady e verifier c p.2 p.1)
    (hdistinct : (payments.map fun p => p.2.2).Nodup) (hsmall : first + payments.length ≤ 65536) :
    (∃ c', settleCommitments e verifier first payments c = .ok c') ↔
      ∀ k, first ≤ k → k < first + payments.length →
        c.get (.nullifier (paymentNullifier k)) = none := by
  induction payments generalizing first c with
  | nil =>
    simp only [settleCommitments, pure_ok, exists_eq, List.length_nil, true_iff]
    omega
  | cons p rest ih =>
    simp only [List.zipIdx_cons, List.forall_mem_cons] at hready
    obtain ⟨hfirst, hrest⟩ := hready
    simp only [List.map_cons, List.nodup_cons] at hdistinct
    obtain ⟨hnotin, hdistinct⟩ := hdistinct
    simp only [List.length_cons] at hsmall ⊢
    have hready' : ∀ q ∈ rest.zipIdx (first + 1),
        PaymentReady e verifier (afterPayment e first p.2.2 c) q.2 q.1 := by
      intro q hq
      obtain ⟨hunlocked, stored, hstored, hproof⟩ := hrest q hq
      have hne : q.1.2.2 ≠ p.2.2 := by
        intro hsame
        refine hnotin (List.mem_map.mpr ⟨q.1, ?_, hsame⟩)
        exact List.fst_mem_of_mem_zipIdx hq
      refine ⟨by simpa [afterPayment, hne] using hunlocked, stored, ?_, hproof⟩
      simpa [afterPayment] using hstored
    have ih' := ih (c := afterPayment e first p.2.2 c)
      (by simpa [SalaryCommitmentContract.Paused, afterPayment] using hunpaused)
      (by simpa [SalaryCommitmentContract.OperatorCalls, afterPayment] using hoperator)
      hready' hdistinct (by omega)
    simp only [settleCommitments_cons hunpaused hoperator hfirst, exists_and_left, ih']
    -- The payment at `first` spends a nullifier none of the later ones needs.
    have hother : ∀ k, first + 1 ≤ k → k < first + 1 + rest.length →
        (afterPayment e first p.2.2 c).get (.nullifier (paymentNullifier k)) =
          c.get (.nullifier (paymentNullifier k)) := by
      intro k hlow hhigh
      have hne : paymentNullifier k ≠ paymentNullifier first := by
        intro hsame
        have := paymentNullifier_inj (by omega) (by omega) hsame
        omega
      simp [afterPayment, hne]
    constructor
    · rintro ⟨hfree, hlater⟩ k hlow hhigh
      rcases Nat.eq_or_lt_of_le hlow with rfl | hlt
      · exact hfree
      · rw [← hother k hlt (by omega)]
        exact hlater k hlt (by omega)
    · intro hall
      refine ⟨hall first le_rfl (by omega), fun k hlow hhigh => ?_⟩
      rw [hother k hlow hhigh]
      exact hall k (by omega) (by omega)

end

-- ---------------------------------------------------------------------------
-- The token's half of the loop
-- ---------------------------------------------------------------------------

theorem paidTotal_nonneg (h : ∀ p ∈ payments, 0 < p.2.1) : 0 ≤ paidTotal payments := by
  refine List.sum_nonneg fun amount hmem => ?_
  obtain ⟨p, hp, rfl⟩ := List.mem_map.mp hmem
  exact (h p hp).le

theorem settleTokens_succeeds_iff {t : Token.Storage} (hsane : Token.Sane t)
    (hpos : ∀ p ∈ payments, 0 < p.2.1) (hdistinct : (payments.map fun p => p.2.2).Nodup)
    (hfunded : paidTotal payments ≤ Token.balance t treasury) :
    (∃ t', settleTokens treasury payments t = .ok t') ↔
      ∀ p ∈ payments, p.2.2 ≠ treasury → Token.balance t p.2.2 + p.2.1 ≤ i128Max := by
  induction payments generalizing t with
  | nil => simp [settleTokens, pure_ok]
  | cons p rest ih =>
    obtain ⟨proof, amount, employee⟩ := p
    simp only [List.forall_mem_cons] at hpos ⊢
    simp only [List.map_cons, List.nodup_cons] at hdistinct
    obtain ⟨hnotin, hdistinct⟩ := hdistinct
    have hrest := paidTotal_nonneg hpos.2
    simp only [paidTotal_cons] at hfunded
    have hmin : i128Min ≤ 0 := by decide
    -- What the rest of the loop finds after the first transfer.
    have hlater : ∀ {t₁}, Token.transfer t treasury employee amount = .ok t₁ →
        ((∃ t', settleTokens treasury rest t₁ = .ok t') ↔
          ∀ q ∈ rest, q.2.2 ≠ treasury → Token.balance t q.2.2 + q.2.1 ≤ i128Max) := by
      intro t₁ htransfer
      obtain ⟨-, -, hbalance⟩ := Token.transfer_ok htransfer
      rw [ih (Token.transfer_sane hsane htransfer) hpos.2 hdistinct]
      · refine forall₂_congr fun q hq => forall_congr' fun hne => ?_
        have hother : q.2.2 ≠ employee := by
          rintro rfl
          exact hnotin (List.mem_map.mpr ⟨q, hq, rfl⟩)
        rw [hbalance, if_neg hne, if_neg hother]
        simp
      · rw [hbalance, if_pos rfl]
        split_ifs <;> omega
    simp only [settleTokens, bind_ok]
    constructor
    · rintro ⟨t', t₁, htransfer, hsettle⟩
      exact ⟨fun hne => (Token.transfer_fits htransfer hne).2, (hlater htransfer).mp ⟨t', hsettle⟩⟩
    · rintro ⟨hfits, hrests⟩
      have hroom : employee ≠ treasury → InI128 (Token.balance t employee + amount) := by
        intro hne
        have hbalance := (hsane employee).1
        exact ⟨by omega, hfits hne⟩
      obtain ⟨t₁, htransfer⟩ :=
        Token.transfer_succeeds (hsane treasury).2 hpos.1.le (by omega) hroom
      obtain ⟨t', hsettle⟩ := (hlater htransfer).mpr hrests
      exact ⟨t', t₁, htransfer, hsettle⟩

-- ---------------------------------------------------------------------------
-- What every reachable world provides
-- ---------------------------------------------------------------------------

theorem Reached.sane (hw : Reached w) (asset : Address) : Token.Sane (w.tokens asset) :=
  run_invariant (I := fun w => Token.Sane (w.tokens asset)) Token.sane_empty
    (fun _ _ => next_token (fun h hs => Token.exec_sane hs h) asset) hw

theorem Reached.administered (hw : Reached w) (id : Address) :
    SalaryCommitmentContract.Administered (w.commitments id) :=
  run_invariant (I := fun w => SalaryCommitmentContract.Administered (w.commitments id))
    (by simp [SalaryCommitmentContract.Administered, World.genesis])
    (fun _ _ => next_commitment SalaryCommitmentContract.exec_administered id) hw

/-- No entry point commits the zero hash. -/
theorem Reached.zero_uncommitted (hw : Reached w) :
    w.payroll.get (.draftCommitment BytesN.zero) = none := by
  refine payroll_invariant (I := fun s => s.get (.draftCommitment BytesN.zero) = none)
    (by simp) ?_ hw
  intro e call w ret w' _ hok ih
  cases call with
  | commitDraft | commitMetadataHash =>
    obtain ⟨_, hf, -, rfl⟩ := onStorage_ok.mp hok
    obtain ⟨-, hnonzero, -, -, rfl⟩ := commitHash_ok.mp hf
    simpa [hnonzero.symm] using ih
  | setRunMetadata =>
    obtain ⟨_, hf, -, rfl⟩ := onStorage_ok.mp hok
    obtain ⟨-, -, hnonzero, -, -, _, -, rfl⟩ := setRunMetadata_ok.mp hf
    simpa [hnonzero.symm] using ih
  | batchProcessPayroll b =>
    obtain ⟨_, hf, -⟩ := exec_batchProcessPayroll_ok.mp hok
    obtain ⟨hadmitted, _, -, -, -, -, -, -, -, _, -, _, -, -, rfl⟩ := batchProcessPayroll_ok.mp hf
    cases hdraft : b.draftHash with
    | none => simpa [executed, claimRunId, dropDraft, hdraft] using ih
    | some dh =>
      have hnonzero := hadmitted.draftNonZero dh hdraft
      simpa [executed, claimRunId, dropDraft, hdraft, hnonzero.symm] using ih
  | _ =>
    rw [exec_keeps hok rfl]
    exact ih

theorem Reached.migrated (hw : Reached w) (h : w.payroll.get .storageVersion = some state) :
    state.migrationComplete = true := by
  have hinv : ∀ state, w.payroll.get .storageVersion = some state →
      state.migrationComplete = true := by
    refine payroll_invariant (I := fun s => ∀ state, s.get .storageVersion = some state →
      state.migrationComplete = true) (by simp) ?_ hw
    intro e call w ret w' _ hok ih state hstate
    cases call with
    | initializePayroll =>
      obtain ⟨_, hf, -, rfl⟩ := onStorage_ok.mp hok
      obtain ⟨-, rfl⟩ := initializePayroll_ok.mp hf
      simp only [initializeStorageVersion] at hstate
      split at hstate
      · exact ih state (by simpa using hstate)
      · obtain rfl := by simpa using hstate
        rfl
    | setStorageVersion =>
      obtain ⟨_, hf, -, rfl⟩ := onStorage_ok.mp hok
      obtain ⟨-, -, -, -, rfl⟩ := setStorageVersion_ok.mp hf
      obtain rfl := by simpa using hstate
      rfl
    | _ =>
      rw [exec_keeps hok rfl] at hstate
      exact ih state hstate
  exact hinv state h

/-- Every employer's nonce sequence counts some of the runs. -/
structure Sequenced (s : Storage) : Prop where
  counted : ∀ employer, nonceSequenceLength s employer ≤ runCount s
  uninitialized : s.get .addresses = none → ∀ employer, nonceSequenceLength s employer = 0

theorem nonceSequenceLength_claimRunId (employer : Address) :
    nonceSequenceLength (claimRunId e admin nonce s) employer =
      nonceSequenceLength s employer + if employer = admin then 1 else 0 := by
  by_cases h : employer = admin
  · subst h
    simp [nonceSequenceLength, claimRunId]
  · simp [nonceSequenceLength, claimRunId, h]

theorem Sequenced.claim (h : Sequenced s) (haddrs : s.get .addresses = some addrs) :
    Sequenced (claimRunId e addrs.admin nonce s) where
  counted employer := by
    have hcount : runCount (claimRunId e addrs.admin nonce s) = runCount s + 1 := by
      simp [runCount, claimRunId]
    have := h.counted employer
    rw [hcount, nonceSequenceLength_claimRunId]
    split <;> omega
  uninitialized hnone := by simp [claimRunId, haddrs] at hnone

theorem Sequenced.of_get (h : Sequenced s) (hcount : s'.get .runCounter = s.get .runCounter)
    (hseq : ∀ employer, s'.get (.employerNonceSequence employer) =
      s.get (.employerNonceSequence employer))
    (hnone : s'.get .addresses = none → s.get .addresses = none) : Sequenced s' where
  counted employer := by
    rw [nonceSequenceLength, hseq, runCount, hcount]
    exact h.counted employer
  uninitialized haddrs employer := by
    rw [nonceSequenceLength, hseq]
    exact h.uninitialized (hnone haddrs) employer

theorem exec_sequenced (hok : exec e call w = .ok (ret, w')) (h : Sequenced w.payroll) :
    Sequenced w'.payroll := by
  cases call with
  | initializePayroll addrs =>
    obtain ⟨_, hf, -, rfl⟩ := onStorage_ok.mp hok
    obtain ⟨hnone, rfl⟩ := initializePayroll_ok.mp hf
    have hzero : ∀ employer, nonceSequenceLength (initializeStorageVersion e
        ((((w.payroll.set .addresses addrs).set (.allowedAsset addrs.token) true).set .treasuryOwner
          addrs.treasuryOwner).set .runCounter 0)) employer = 0 := by
      intro employer
      rw [nonceSequenceLength, initializeStorageVersion_agree _ _ (by simp)]
      simpa [nonceSequenceLength] using h.uninitialized hnone employer
    exact ⟨fun employer => by rw [hzero]; exact Nat.zero_le _, fun _ => hzero⟩
  | preparePayrollRun b =>
    obtain ⟨_, _, hf, -, rfl⟩ := onStorageRet_ok.mp hok
    obtain ⟨-, -, -, -, -, -, addrs, haddrs, -, -, -, -, -, -, -, rfl⟩ := preparePayrollRun_ok.mp hf
    have hclaimed : Sequenced (claimRunId e addrs.admin b.nonce w.payroll) := h.claim haddrs
    exact hclaimed.of_get (by simp [prepared]) (by simp [prepared]) (by simp [prepared])
  | batchProcessPayroll b =>
    obtain ⟨_, hf, -⟩ := exec_batchProcessPayroll_ok.mp hok
    obtain ⟨-, addrs, haddrs, -, -, -, -, -, -, _, -, _, -, -, rfl⟩ := batchProcessPayroll_ok.mp hf
    have hdropped : Sequenced (dropDraft b.draftHash w.payroll) :=
      h.of_get (by simp) (by simp) (by simp)
    have hclaimed : Sequenced
        (claimRunId e addrs.admin b.nonce (dropDraft b.draftHash w.payroll)) :=
      hdropped.claim (by simpa using haddrs)
    exact hclaimed.of_get (by simp [executed]) (by simp [executed]) (by simp [executed])
  | _ =>
    exact h.of_get (exec_keeps hok rfl)
      (fun _ => exec_keeps hok rfl) (exec_uninitialized hok)

theorem Reached.sequenced (hw : Reached w) : Sequenced w.payroll :=
  payroll_invariant ⟨by simp [nonceSequenceLength], by simp [nonceSequenceLength]⟩
    (fun _ => exec_sequenced) hw

-- ---------------------------------------------------------------------------
-- When a batch goes through
-- ---------------------------------------------------------------------------

theorem BatchReady.admitted (hw : Reached w) (h : BatchReady e addrs b w) :
    BatchAdmitted e b w.payroll where
  active := h.active
  version state hstate := by
    obtain ⟨hmin, hmax⟩ := h.version state hstate
    exact ⟨hmin, hmax, hw.migrated hstate⟩
  nonceNonZero := h.nonceNonZero
  draftNonZero := by
    rintro dh hdraft rfl
    obtain ⟨_, hcommitted⟩ := h.draftCommitted _ hdraft
    simp [hw.zero_uncommitted] at hcommitted
  shape := h.shape
  nonceFresh := h.nonceFresh
  draftCommitted := h.draftCommitted
  payments := h.payments

theorem Batch.payments_employees {b : Batch} (h : b.ShapeOk) :
    b.payments.map (fun p => p.2.2) = b.employees := by
  obtain ⟨hamounts, hemployees, -, -⟩ := h
  have hpairs : b.payments.map Prod.snd = b.amounts.zip b.employees :=
    List.map_snd_zip (by simp [hamounts, hemployees])
  calc b.payments.map (fun p => p.2.2)
      = (b.payments.map Prod.snd).map Prod.snd := by simp
    _ = b.employees := by rw [hpairs, List.map_snd_zip (by omega)]

theorem Batch.payments_length {b : Batch} (h : b.ShapeOk) :
    b.payments.length = b.proofs.length := by
  obtain ⟨hamounts, hemployees, -, -⟩ := h
  simp [Batch.payments, hamounts, hemployees]

theorem BatchReady.commitments_iff (hw : Reached w) (h : BatchReady e addrs b w) :
    (∃ c, settleCommitments (e.calling addrs.commitment) addrs.verifier 0 b.payments
      (w.commitments addrs.commitment) = .ok c) ↔ NullifiersUnspent addrs b.proofs.length w := by
  obtain ⟨admin, hadmin⟩ := hw.administered _ _ h.operator
  have hlength := Batch.payments_length h.shape
  have hsmall : b.proofs.length ≤ maxBatch := h.shape.2.2.2
  have hoperator : SalaryCommitmentContract.OperatorCalls (e.calling addrs.commitment)
      (w.commitments addrs.commitment) := ⟨admin, hadmin, by simp [h.operator, Env.calling]⟩
  have hdistinct : (b.payments.map fun p => p.2.2).Nodup := by
    rw [Batch.payments_employees h.shape]
    exact h.payments.1
  have hbound : 0 + b.payments.length ≤ 65536 := by
    simp only [maxBatch] at hsmall
    omega
  rw [settleCommitments_succeeds_iff (e := e.calling addrs.commitment) h.commitmentUnpaused
    hoperator h.enrolled hdistinct hbound]
  simp [NullifiersUnspent, hlength]

theorem BatchReady.tokens_iff (hw : Reached w) (h : BatchReady e addrs b w) :
    (∃ t, settleTokens addrs.treasury b.payments (w.tokens addrs.token) = .ok t) ↔
      CreditsFit addrs b w := by
  refine settleTokens_succeeds_iff (hw.sane addrs.token) ?_ ?_ ?_
  · intro p hp
    refine h.payments.2.1 p.2.1 ?_
    rw [← Batch.payments_amounts h.shape]
    exact List.mem_map_of_mem hp
  · rw [Batch.payments_employees h.shape]
    exact h.payments.1
  · rw [Batch.paidTotal_eq h.shape h.payments]
    exact h.funded

/-- In any reachable world a batch with its needs met succeeds exactly when no
nullifier of its positions is spent, the run counter has room, and so do the
employees' balances. -/
theorem batch_succeeds_iff (hw : Reached w) (h : BatchReady e addrs b w) :
    (∃ runId w', batchProcessPayroll e b w = .ok (runId, w')) ↔
      NullifiersUnspent addrs b.proofs.length w ∧ runCount w.payroll + 1 ≤ u64Max ∧
        CreditsFit addrs b w := by
  rw [← h.commitments_iff hw, ← h.tokens_iff hw]
  constructor
  · rintro ⟨runId, w', hok⟩
    obtain ⟨-, addrs', haddrs', -, -, -, -, hclaim, -, t, ht, c, hc, -, -⟩ :=
      batchProcessPayroll_ok.mp hok
    obtain rfl : addrs = addrs' := Store.get_inj h.configured haddrs'
    exact ⟨⟨c, hc⟩, hclaim.1, t, ht⟩
  · rintro ⟨⟨c, hc⟩, hroom, t, ht⟩
    have hseq := hw.sequenced.counted addrs.admin
    exact ⟨_, _, batchProcessPayroll_ok.mpr ⟨h.admitted hw, addrs, h.configured, h.nonceAccepted,
      h.assetAllowed, h.unpaused, h.authorised, ⟨hroom, by omega⟩, h.funded, t, ht, c, hc, rfl,
      rfl⟩⟩

-- ---------------------------------------------------------------------------
-- The first batch is the last
-- ---------------------------------------------------------------------------

theorem settleCommitments_spends (hne : payments ≠ [])
    (h : settleCommitments e verifier first payments c = .ok c') :
    c.get (.nullifier (paymentNullifier first)) = none ∧
      ∃ v, c'.get (.nullifier (paymentNullifier first)) = some v := by
  cases payments with
  | nil => exact absurd rfl hne
  | cons p rest =>
    obtain ⟨proof, amount, employee⟩ := p
    simp only [settleCommitments, bind_ok] at h
    obtain ⟨_, -, _, -, c₁, hrecord, c₂, hlock, hrest⟩ := h
    obtain ⟨-, -, hfree, rfl⟩ := SalaryCommitmentContract.recordNullifier_ok.mp hrecord
    have hlock : SalaryCommitmentContract.exec e _ (.lockCommitmentUpdates employee) = .ok c₂ :=
      hlock
    have hlocked := SalaryCommitmentContract.exec_spent hlock (Store.get_set_self _ _ _)
    exact ⟨hfree, _, settleCommitments_kept SalaryCommitmentContract.exec_spent hrest hlocked⟩

theorem batch_spends (haddrs : w.payroll.get .addresses = some addrs)
    (hok : batchProcessPayroll e b w = .ok (runId, w')) :
    (w.commitments addrs.commitment).get (.nullifier (paymentNullifier 0)) = none ∧
      ∃ v, (w'.commitments addrs.commitment).get (.nullifier (paymentNullifier 0)) = some v := by
  obtain ⟨hadmitted, addrs', haddrs', -, -, -, -, -, -, t, -, c, hc, -, rfl⟩ :=
    batchProcessPayroll_ok.mp hok
  obtain rfl : addrs = addrs' := Store.get_inj haddrs haddrs'
  have hne : b.payments ≠ [] := by
    have hlength := Batch.payments_length hadmitted.shape
    have hpos := hadmitted.shape.2.2.1
    rintro hnil
    simp [hnil] at hlength
    exact hpos hlength.symm
  obtain ⟨hfree, hspent⟩ := settleCommitments_spends hne hc
  exact ⟨hfree, by simpa [World.settled] using hspent⟩

theorem later_batch_rejected (hok : batchProcessPayroll e b w = .ok (runId, w'))
    (inputs : List Input) : batchProcessPayroll e' b' (runFrom next w' inputs) ≠ .ok later := by
  obtain ⟨-, addrs, haddrs, -⟩ := batchProcessPayroll_ok.mp hok
  obtain ⟨-, v, hspent⟩ := batch_spends haddrs hok
  have hexec : exec e (.batchProcessPayroll b) w = .ok (.id runId, w') :=
    exec_batchProcessPayroll_ok.mpr ⟨runId, hok, rfl⟩
  obtain ⟨admin, owner, haddrs'⟩ := exec_addresses hexec haddrs
  -- The commitment contract's address and its spent nullifier survive.
  have hkept : (∃ admin owner, (runFrom next w' inputs).payroll.get .addresses =
        some { addrs with admin := admin, treasuryOwner := owner }) ∧
      ((runFrom next w' inputs).commitments addrs.commitment).get
        (.nullifier (paymentNullifier 0)) = some v := by
    refine run_invariant (I := fun w : World => (∃ admin owner, w.payroll.get .addresses =
        some { addrs with admin := admin, treasuryOwner := owner }) ∧
      (w.commitments addrs.commitment).get (.nullifier (paymentNullifier 0)) = some v)
      ⟨⟨admin, owner, haddrs'⟩, hspent⟩ ?_ reachable_runFrom
    rintro w i ⟨⟨admin, owner, haddrs⟩, hspent⟩
    refine ⟨?_, next_commitment SalaryCommitmentContract.exec_spent _ hspent⟩
    rcases next_payroll w i with ⟨call, ret, ⟨-, hcall⟩, -⟩ | ⟨hsame, -⟩
    · obtain ⟨admin', owner', haddrs'⟩ := exec_addresses hcall haddrs
      exact ⟨admin', owner', haddrs'⟩
    · exact ⟨admin, owner, by rw [hsame, haddrs]⟩
  obtain ⟨⟨_, _, hafter⟩, hspent'⟩ := hkept
  intro hlater
  obtain ⟨hfree, -⟩ := batch_spends hafter hlater
  simp [hspent'] at hfree

end

namespace Sample

def alicePaid : List Input :=
  funded 1000 ++ enrolled ++ [call [admin] (.batchProcessPayroll (batch 1 alice 100))]

end Sample

theorem first_batch_succeeds :
    let w := runFrom next World.genesis (Sample.funded 1000 ++ Sample.enrolled)
    let e := Sample.env [Sample.admin]
    let b := Sample.batch 1 Sample.alice 100
    BatchReady e Sample.addrs b w ∧ ∃ runId w', batchProcessPayroll e b w = .ok (runId, w') := by
  intro w e b
  have hready : BatchReady e Sample.addrs b w :=
    { configured := rfl
      active := .inl rfl
      version := fun state h => by obtain rfl := Option.some.inj h; decide
      unpaused := fun ⟨_, _, h⟩ => Bool.false_ne_true h
      commitmentUnpaused := fun ⟨_, _, h⟩ => Bool.false_ne_true h
      authorised := by decide
      shape := ⟨rfl, rfl, by decide, by decide⟩
      payments := ⟨by decide, by decide, by decide, rfl⟩
      enrolled := fun p hp => by obtain rfl := List.mem_singleton.mp hp; exact ⟨rfl, _, rfl, rfl⟩
      nonceNonZero := by decide
      nonceFresh := rfl
      nonceAccepted := by rintro _ ⟨⟩
      draftCommitted := by rintro _ ⟨⟩
      assetAllowed := rfl
      funded := by decide +kernel
      operator := rfl }
  refine ⟨hready, (batch_succeeds_iff reachable_runFrom hready).mpr ⟨?_, by decide +kernel, ?_⟩⟩
  · intro k hk
    obtain rfl : k = 0 := by simpa [b, Sample.batch] using hk
    rfl
  · intro p hp _
    obtain rfl := List.mem_singleton.mp hp
    decide +kernel

/-- Bob's first payment of 100, with everything it needs, fails because alice
was paid before. -/
theorem second_batch_fails :
    let w := runFrom next World.genesis Sample.alicePaid
    let e := Sample.env [Sample.admin]
    let b := Sample.batch 2 Sample.bob 100
    Reached w ∧ BatchReady e Sample.addrs b w ∧
      batchProcessPayroll e b w = .error "Nullifier already used" := by
  intro w e b
  refine ⟨reachable_runFrom, ?_, rfl⟩
  exact
    { configured := rfl
      active := .inl rfl
      version := fun state h => by obtain rfl := Option.some.inj h; decide
      unpaused := fun ⟨_, _, h⟩ => Bool.false_ne_true h
      commitmentUnpaused := fun ⟨_, _, h⟩ => Bool.false_ne_true h
      authorised := by decide
      shape := ⟨rfl, rfl, by decide, by decide⟩
      payments := ⟨by decide, by decide, by decide, rfl⟩
      enrolled := fun p hp => by obtain rfl := List.mem_singleton.mp hp; exact ⟨rfl, _, rfl, rfl⟩
      nonceNonZero := by decide
      nonceFresh := rfl
      nonceAccepted := by rintro _ ⟨⟩; decide
      draftCommitted := by rintro _ ⟨⟩
      assetAllowed := rfl
      funded := by decide +kernel
      operator := rfl }

end ZkPayroll.Payroll
