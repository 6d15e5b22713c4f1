import ZkPayroll.Payroll.Steps

/-!
# Privileged records and the admin

Ten kinds of record belong to the admin. Most of their writers compare the
named caller with the stored admin. Six only ask the named caller for its
authorisation, whoever that is, and the two reservation helpers ask nobody.
-/

namespace ZkPayroll.Payroll

open Host

def privilegedKinds : List Kind :=
  [.complianceHold, .reservationExpiry, .archivedRun, .archiveMarker, .challengedRun,
    .batchSplitRecord, .evidencePointer, .runDraft, .batchCheckpoint, .lockedPayrollFunds]

/-- The stored admin is among the addresses that authorise the call. -/
def AdminAuthorises (e : Env) (s : Storage) : Prop :=
  ∃ addrs, s.get .addresses = some addrs ∧ addrs.admin ∈ e.auths

/-- The input removes an expired reservation. -/
def ReleasesExpired (i : Input) (s : Storage) (k : DataKey) : Prop :=
  ∃ asset, i.message = .payroll (.releaseExpiredReservation asset) ∧ k = .reservationExpiry asset ∧
    ∃ expiry, s.get (.reservationExpiry asset) = some expiry ∧ expiry.expiresAt < i.env.timestamp

/-- No privileged entry is created, changed or removed, expired reservations
apart. -/
def PrivilegedKept (i : Input) (s s' : Storage) : Prop :=
  ∀ k : DataKey, k.kind ∈ privilegedKinds →
    s'.get k = s.get k ∨ s'.get k = none ∧ ReleasesExpired i s k

/-- An entry point that never looks at the stored admin is called, its own
checks pass, and what it would store is not already there. -/
def UnguardedChange (e : Env) (s : Storage) : Call → Prop
  | .placeComplianceHold admin _ _ _ => admin ∈ e.auths ∧ holdCount s + 1 ≤ u64Max
  | .releaseComplianceHold admin holdId =>
    admin ∈ e.auths ∧ ∃ hold, s.get (.complianceHold holdId) = some hold ∧ hold.isActive = true
  | .setReservationExpiryPolicy admin asset reservedAmount expiryLedgerOffset =>
    admin ∈ e.auths ∧ e.timestamp + expiryLedgerOffset ≤ u64Max ∧
      s.get (.reservationExpiry asset) ≠
        some ⟨asset, reservedAmount, e.timestamp + expiryLedgerOffset, e.timestamp⟩
  | .archivePayrollRunWithReason admin runId _ =>
    admin ∈ e.auths ∧ (∃ run, s.get (.payrollRun runId) = some run) ∧
      s.get (.archiveMarker runId) = none
  | .recordBatchSplit admin b =>
    admin ∈ e.auths ∧ b.Balanced ∧
      s.get (.batchSplitRecord b.parentRunId b.childRunId) ≠ some (b.record e admin)
  | .createEvidencePointer admin contentHash _ _ _ =>
    ¬ Paused e s ∧ admin ∈ e.auths ∧ contentHash ≠ BytesN.zero ∧
      s.get (.evidencePointerIndex contentHash) = none ∧
      s.get (.evidencePointer (generatePointerId e contentHash)) = none
  | .addLockedFunds asset amount =>
    InI128 (getLockedFunds s asset + amount) ∧
      (s.get (.lockedPayrollFunds asset) = none ∨ amount ≠ 0)
  | .subtractLockedFunds asset amount =>
    InI128 (getLockedFunds s asset - amount) ∧
      (s.get (.lockedPayrollFunds asset) = none ∨ amount ≠ 0)
  | _ => False

def ChangesUnguarded (i : Input) (s : Storage) : Prop :=
  ∃ call, i.message = .payroll call ∧ UnguardedChange i.env s call

section
variable {e : Env} {s s' : Storage} {w w' : World} {i : Input}

theorem AdminCalls.authorises (h : AdminCalls e s admin) : AdminAuthorises e s := by
  obtain ⟨addrs, haddrs, rfl, hauth⟩ := h
  exact ⟨addrs, haddrs, hauth⟩

-- ---------------------------------------------------------------------------
-- Hold numbers
-- ---------------------------------------------------------------------------

def HoldsNumbered (s : Storage) : Prop :=
  ∀ holdId, holdCount s < holdId → s.get (.complianceHold holdId) = none

theorem exec_holdsNumbered (h : exec e call w = .ok (ret, w')) (hI : HoldsNumbered w.payroll) :
    HoldsNumbered w'.payroll := by
  cases call with
  | placeComplianceHold =>
    obtain ⟨_, _, hf, -, rfl⟩ := onStorageRet_ok.mp h
    obtain ⟨-, -, -, rfl⟩ := placeComplianceHold_ok.mp hf
    intro holdId hlt
    have hlt : holdCount w.payroll + 1 < holdId := by simpa [holdCount] using hlt
    have hne : holdId ≠ holdCount w.payroll + 1 := by omega
    simpa [hne] using hI holdId (by omega)
  | releaseComplianceHold _ holdId =>
    obtain ⟨_, hf, -, rfl⟩ := onStorage_ok.mp h
    obtain ⟨-, hold, hstored, -, rfl⟩ := releaseComplianceHold_ok.mp hf
    intro other hlt
    have hnone := hI other (by simpa [holdCount] using hlt)
    have hne : other ≠ holdId := by
      rintro rfl
      simp [hstored] at hnone
    simpa [hne] using hnone
  | _ =>
    intro holdId hlt
    rw [exec_keeps h rfl]
    refine hI holdId ?_
    rwa [holdCount, exec_keeps h rfl] at hlt

theorem Reached.holdsNumbered (hw : Reached w) : HoldsNumbered w.payroll :=
  payroll_invariant (by simp [HoldsNumbered]) (fun _ => exec_holdsNumbered) hw

-- ---------------------------------------------------------------------------
-- Guarded calls
-- ---------------------------------------------------------------------------

/-- An unauthorised call changes a privileged entry only through an entry
point that does not look at the admin. -/
theorem exec_privileged (hx : Executes i w call ret w')
    (hunauth : ¬ AdminAuthorises i.env w.payroll)
    (hguarded : ¬ UnguardedChange i.env w.payroll call) :
    PrivilegedKept i w.payroll w'.payroll := by
  obtain ⟨hm, h⟩ := hx
  intro k hk
  cases call with
  | preparePayrollRun =>
    obtain ⟨_, _, hf, -, rfl⟩ := onStorageRet_ok.mp h
    obtain ⟨-, -, -, -, -, -, addrs, haddrs, -, hauth, -⟩ := preparePayrollRun_ok.mp hf
    exact absurd ⟨addrs, haddrs, hauth⟩ hunauth
  | finalizePayrollRun =>
    obtain ⟨_, hf, -, rfl⟩ := onStorage_ok.mp h
    obtain ⟨-, -, addrs, haddrs, rfl, hauth, -⟩ := finalizePayrollRun_ok.mp hf
    exact absurd ⟨addrs, haddrs, hauth⟩ hunauth
  | cancelPayrollRunWithReason | cancelPayrollRun =>
    obtain ⟨_, hf, -, rfl⟩ := onStorage_ok.mp h
    obtain ⟨-, -, addrs, haddrs, rfl, hauth, -⟩ := cancelPayrollRunWithReason_ok.mp hf
    exact absurd ⟨addrs, haddrs, hauth⟩ hunauth
  | createRunDraft =>
    obtain ⟨_, _, hf, -, rfl⟩ := onStorageRet_ok.mp h
    obtain ⟨-, -, hadmin, -⟩ := createRunDraft_ok.mp hf
    exact absurd hadmin.authorises hunauth
  | amendRunDraft =>
    obtain ⟨_, hf, -, rfl⟩ := onStorage_ok.mp h
    obtain ⟨-, -, hadmin, -⟩ := amendRunDraft_ok.mp hf
    exact absurd hadmin.authorises hunauth
  | finalizeRunDraft =>
    obtain ⟨_, hf, -, rfl⟩ := onStorage_ok.mp h
    obtain ⟨-, hadmin, -⟩ := finalizeRunDraft_ok.mp hf
    exact absurd hadmin.authorises hunauth
  | submitRunDraft | cancelRunDraft | expireRunDraft =>
    obtain ⟨_, hf, -, rfl⟩ := onStorage_ok.mp h
    obtain ⟨-, hadmin, -⟩ := closeRunDraft_ok.mp hf
    exact absurd hadmin.authorises hunauth
  | beginBatchExecutionCheckpoint =>
    obtain ⟨_, hf, -, rfl⟩ := onStorage_ok.mp h
    obtain ⟨-, -, hadmin, -⟩ := beginBatchExecutionCheckpoint_ok.mp hf
    exact absurd hadmin.authorises hunauth
  | recordBatchCheckpointProgress =>
    obtain ⟨_, hf, -, rfl⟩ := onStorage_ok.mp h
    obtain ⟨hadmin, -⟩ := recordBatchCheckpointProgress_ok.mp hf
    exact absurd hadmin.authorises hunauth
  | resumeBatchExecution =>
    obtain ⟨_, hf, -, rfl⟩ := exec_resumeBatchExecution_ok.mp h
    obtain ⟨-, -, hadmin, -⟩ := resumeBatchExecution_ok.mp hf
    exact absurd hadmin.authorises hunauth
  | archivePayrollRun =>
    obtain ⟨_, hf, -, rfl⟩ := onStorage_ok.mp h
    obtain ⟨-, hadmin, -⟩ := archivePayrollRun_ok.mp hf
    exact absurd hadmin.authorises hunauth
  | flagRunChallenged =>
    obtain ⟨_, hf, -, rfl⟩ := onStorage_ok.mp h
    obtain ⟨hadmin, -⟩ := flagRunChallenged_ok.mp hf
    exact absurd hadmin.authorises hunauth
  | clearRunChallenge =>
    obtain ⟨_, hf, -, rfl⟩ := onStorage_ok.mp h
    obtain ⟨hadmin, -⟩ := clearRunChallenge_ok.mp hf
    exact absurd hadmin.authorises hunauth
  -- From here on the entry points ask for no admin. Their own checks passed,
  -- so they stored what was already there.
  | placeComplianceHold =>
    obtain ⟨_, _, hf, -, rfl⟩ := onStorageRet_ok.mp h
    obtain ⟨hauth, hfits, -⟩ := placeComplianceHold_ok.mp hf
    exact absurd ⟨hauth, hfits⟩ hguarded
  | releaseComplianceHold =>
    obtain ⟨_, hf, -, rfl⟩ := onStorage_ok.mp h
    obtain ⟨hauth, hold, hstored, hactive, -⟩ := releaseComplianceHold_ok.mp hf
    exact absurd ⟨hauth, hold, hstored, hactive⟩ hguarded
  | setReservationExpiryPolicy _ asset =>
    obtain ⟨_, hf, -, rfl⟩ := onStorage_ok.mp h
    obtain ⟨hauth, hfits, rfl⟩ := setReservationExpiryPolicy_ok.mp hf
    simp only [UnguardedChange, hauth, hfits, true_and, not_not] at hguarded
    exact .inl (Store.get_set_stored hguarded k)
  | archivePayrollRunWithReason =>
    obtain ⟨_, hf, -, rfl⟩ := onStorage_ok.mp h
    obtain ⟨hauth, hexecuted, hunmarked, -⟩ := archivePayrollRunWithReason_ok.mp hf
    exact absurd ⟨hauth, hexecuted, hunmarked⟩ hguarded
  | recordBatchSplit =>
    obtain ⟨_, hf, -, rfl⟩ := onStorage_ok.mp h
    obtain ⟨hauth, hbalanced, rfl⟩ := recordBatchSplit_ok.mp hf
    simp only [UnguardedChange, hauth, hbalanced, true_and, not_not] at hguarded
    exact .inl (Store.get_set_stored hguarded k)
  | createEvidencePointer =>
    obtain ⟨_, _, hf, -, rfl⟩ := onStorageRet_ok.mp h
    obtain ⟨hpaused, hauth, hnonzero, hindex, hfree, -⟩ := createEvidencePointer_ok.mp hf
    exact absurd ⟨hpaused, hauth, hnonzero, hindex, hfree⟩ hguarded
  | addLockedFunds asset amount =>
    obtain ⟨_, hf, -, rfl⟩ := onStorage_ok.mp h
    obtain ⟨hfits, rfl⟩ := addLockedFunds_ok.mp hf
    simp only [UnguardedChange, hfits, true_and, not_or, not_not] at hguarded
    obtain ⟨hstored, rfl⟩ := hguarded
    exact .inl (Store.get_set_stored (by simpa using getLockedFunds_stored hstored) k)
  | subtractLockedFunds asset amount =>
    obtain ⟨_, hf, -, rfl⟩ := onStorage_ok.mp h
    obtain ⟨hfits, rfl⟩ := subtractLockedFunds_ok.mp hf
    simp only [UnguardedChange, hfits, true_and, not_or, not_not] at hguarded
    obtain ⟨hstored, rfl⟩ := hguarded
    exact .inl (Store.get_set_stored (by simpa using getLockedFunds_stored hstored) k)
  | releaseExpiredReservation asset =>
    obtain ⟨_, hf, -, rfl⟩ := onStorage_ok.mp h
    obtain ⟨hexpired, rfl⟩ := releaseExpiredReservation_ok.mp hf
    by_cases hkey : k = .reservationExpiry asset
    · subst hkey
      exact .inr ⟨by simp, asset, hm, rfl, hexpired⟩
    · exact .inl (Store.get_remove_ne _ hkey)
  | _ => exact .inl (exec_keeps_kinds h rfl hk)

-- ---------------------------------------------------------------------------
-- Unguarded calls
-- ---------------------------------------------------------------------------

theorem not_privilegedKept (hk : DataKey.kind k ∈ privilegedKinds) (hstored : s'.get k ≠ none)
    (hnew : s'.get k ≠ s.get k) : ¬ PrivilegedKept i s s' := by
  intro hkept
  rcases hkept k hk with hsame | ⟨hnone, -⟩
  · exact hnew hsame
  · exact hstored hnone

theorem next_unguarded (hw : Reached w) (hm : i.message = .payroll call)
    (h : UnguardedChange i.env w.payroll call) :
    ¬ PrivilegedKept i w.payroll (next w i).payroll := by
  cases call with
  | placeComplianceHold admin scope target reasonCode =>
    obtain ⟨hauth, hfits⟩ := h
    rw [next_returns hm rfl (placeComplianceHold_ok.mpr ⟨hauth, hfits, rfl, rfl⟩)]
    have hfree := hw.holdsNumbered _ (Nat.lt_succ_self (holdCount w.payroll))
    exact not_privilegedKept (k := .complianceHold (holdCount w.payroll + 1))
      (by simp [privilegedKinds]) (by simp) (by simp [hfree])
  | releaseComplianceHold admin holdId =>
    obtain ⟨hauth, hold, hstored, hactive⟩ := h
    rw [next_stores hm rfl (releaseComplianceHold_ok.mpr ⟨hauth, hold, hstored, hactive, rfl⟩)]
    refine not_privilegedKept (k := .complianceHold holdId) (by simp [privilegedKinds]) (by simp) ?_
    intro hsame
    have hinactive := congrArg (Option.map ComplianceHold.isActive) hsame
    simp [hstored, hactive] at hinactive
  | setReservationExpiryPolicy admin asset reservedAmount expiryLedgerOffset =>
    obtain ⟨hauth, hfits, hnew⟩ := h
    rw [next_stores hm rfl (setReservationExpiryPolicy_ok.mpr ⟨hauth, hfits, rfl⟩)]
    exact not_privilegedKept (k := .reservationExpiry asset) (by simp [privilegedKinds]) (by simp)
      (by simpa [newReservation] using hnew.symm)
  | archivePayrollRunWithReason admin runId archiveReason =>
    obtain ⟨hauth, hexecuted, hunmarked⟩ := h
    rw [next_stores hm rfl
      (archivePayrollRunWithReason_ok.mpr ⟨hauth, hexecuted, hunmarked, rfl⟩)]
    exact not_privilegedKept (k := .archiveMarker runId) (by simp [privilegedKinds]) (by simp)
      (by simp [hunmarked])
  | recordBatchSplit admin b =>
    obtain ⟨hauth, hbalanced, hnew⟩ := h
    rw [next_stores hm rfl (recordBatchSplit_ok.mpr ⟨hauth, hbalanced, rfl⟩)]
    exact not_privilegedKept (k := .batchSplitRecord b.parentRunId b.childRunId)
      (by simp [privilegedKinds]) (by simp) (by simpa using hnew.symm)
  | createEvidencePointer admin contentHash scope target metadataHash =>
    obtain ⟨hpaused, hauth, hnonzero, hindex, hfree⟩ := h
    rw [next_returns hm rfl (createEvidencePointer_ok.mpr
      ⟨hpaused, hauth, hnonzero, hindex, hfree, rfl, rfl⟩)]
    exact not_privilegedKept (k := .evidencePointer (generatePointerId i.env contentHash))
      (by simp [privilegedKinds]) (by simp) (by simp [hfree])
  | addLockedFunds asset amount =>
    obtain ⟨hfits, hnew⟩ := h
    rw [next_stores hm rfl (addLockedFunds_ok.mpr ⟨hfits, rfl⟩)]
    refine not_privilegedKept (k := .lockedPayrollFunds asset) (by simp [privilegedKinds])
      (by simp) ?_
    cases hlocked : w.payroll.get (.lockedPayrollFunds asset) with
    | none => simp
    | some locked => simpa [getLockedFunds, hlocked] using hnew
  | subtractLockedFunds asset amount =>
    obtain ⟨hfits, hnew⟩ := h
    rw [next_stores hm rfl (subtractLockedFunds_ok.mpr ⟨hfits, rfl⟩)]
    refine not_privilegedKept (k := .lockedPayrollFunds asset) (by simp [privilegedKinds])
      (by simp) ?_
    cases hlocked : w.payroll.get (.lockedPayrollFunds asset) with
    | none => simp
    | some locked => simpa [getLockedFunds, hlocked] using hnew
  | _ => exact h.elim

-- ---------------------------------------------------------------------------
-- The admin owns the privileged records
-- ---------------------------------------------------------------------------

/-- An unauthorised transaction leaves the privileged records alone exactly
when it is no effective call of an entry point that forgets the admin. -/
theorem privileged_kept_iff (hw : Reached w) (hunauth : ¬ AdminAuthorises i.env w.payroll) :
    PrivilegedKept i w.payroll (next w i).payroll ↔ ¬ ChangesUnguarded i w.payroll := by
  constructor
  · rintro hkept ⟨call, hm, h⟩
    exact next_unguarded hw hm h hkept
  · intro hguarded
    rcases next_payroll w i with ⟨call, ret, hx, -⟩ | ⟨hsame, -⟩
    · exact exec_privileged hx hunauth fun h => hguarded ⟨call, hx.1, h⟩
    · rw [hsame]
      exact fun k _ => .inl rfl

end

theorem stranger_releases_expired_reservation :
    let w := runFrom next World.genesis [Sample.deploy,
      Sample.call [Sample.admin] (.setReservationExpiryPolicy Sample.admin Sample.token 50 0)]
    let i : Input := ⟨{ Sample.env [] with timestamp := 101 },
      .payroll (.releaseExpiredReservation Sample.token)⟩
    (next w i).payroll.get (.reservationExpiry Sample.token) = none ∧
      PrivilegedKept i w.payroll (next w i).payroll := by
  intro w i
  refine ⟨by decide +kernel, (privileged_kept_iff reachable_runFrom ?_).mpr ?_⟩
  · rintro ⟨_, -, hauth⟩
    cases hauth
  · rintro ⟨call, hm, h⟩
    obtain rfl : call = .releaseExpiredReservation Sample.token := by simpa [i] using hm.symm
    exact h

/-- Alice, who is not the admin, places a compliance hold on bob. -/
theorem stranger_places_hold :
    let w := runFrom next World.genesis [Sample.deploy]
    let i := Sample.call [Sample.alice]
      (.placeComplianceHold Sample.alice .employee Sample.bob "FRAUD")
    Reached w ∧ ¬ AdminAuthorises i.env w.payroll ∧
      w.payroll.get (.complianceHold 1) = none ∧
      (next w i).payroll.get (.complianceHold 1) =
        some ⟨1, .employee, Sample.bob, "FRAUD", 100, Sample.alice, true⟩ ∧
      ¬ PrivilegedKept i w.payroll (next w i).payroll := by
  intro w i
  refine ⟨reachable_runFrom, ?_, by decide +kernel, by decide +kernel, fun hkept => ?_⟩
  · rintro ⟨addrs, haddrs, hauth⟩
    obtain rfl : Sample.addrs = addrs := Option.some.inj haddrs
    revert hauth
    decide +kernel
  · rcases hkept (.complianceHold 1) (by decide +kernel) with hsame | ⟨hnone, -⟩
    · exact absurd hsame (by decide +kernel)
    · exact absurd hnone (by decide +kernel)

end ZkPayroll.Payroll
