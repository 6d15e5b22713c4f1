import ZkPayroll.Host.Sha256
import ZkPayroll.SalaryCommitment.Values
import ZkPayroll.AuditModule.Cascade

/-!
# Openings of a commitment

The two hash views of the salary commitment contract, and the recomputation
the audit module makes of the same opening. The one hashes the salary as a
`u64`, the other as an `i128`: the strings have different lengths, so the
commitments of one opening agree exactly when the two strings collide.
-/

namespace ZkPayroll.SalaryCommitmentContract

open Host
open AuditModule (toLeBytes)

def commitmentPreimage (salary : UInt64) (blindingFactor : BytesN 32) : List UInt8 :=
  toLeBytes 8 salary.toNat ++ blindingFactor.toList

def computeCommitment (e : Env) (salary : UInt64) (blindingFactor : BytesN 32) : BytesN 32 :=
  e.crypto.sha256 (commitmentPreimage salary blindingFactor)

def verifyCommitment (e : Env) (s : Storage) (employee : Address) (claimedSalary : UInt64)
    (blindingFactor : BytesN 32) : Result Bool := do
  let stored ← getCommitment s employee
  let computed := computeCommitment e claimedSalary blindingFactor
  return decide (stored.commitment = computed) && !stored.revoked

end ZkPayroll.SalaryCommitmentContract

namespace ZkPayroll.AuditModule

open Host

def commitmentPreimage (amount : Int) (blinding : BytesN 32) : List UInt8 :=
  toLeBytes 16 (amount % 2 ^ 128).toNat ++ blinding.toList

@[simp] theorem length_toLeBytes (n value : Nat) : (toLeBytes n value).length = n := by
  induction n generalizing value with
  | zero => rfl
  | succ n ih => simp [toLeBytes, ih]

section
variable {e : LedgerEnv} {s s' : Storage} {salary : UInt64} {blinding : BytesN 32}

theorem preimages_ne (salary : UInt64) (blinding : BytesN 32) :
    SalaryCommitmentContract.commitmentPreimage salary blinding ≠
      commitmentPreimage salary.toNat blinding := by
  intro h
  have hlength := congrArg List.length h
  simp [SalaryCommitmentContract.commitmentPreimage, commitmentPreimage] at hlength

def keyedPreimage (viewKey commitment : BytesN 32) : List UInt8 :=
  viewKey.toList ++ commitment.toList

theorem keyedPreimage_inj : keyedPreimage viewKey c = keyedPreimage viewKey c' ↔ c = c' := by
  unfold keyedPreimage
  constructor
  · intro h
    exact List.Vector.toList_injective (List.append_cancel_left h)
  · rintro rfl
    rfl

theorem verifyCommitmentInner_true {viewKey : BytesN 32} :
    verifyCommitmentInner e viewKey stored amount blinding = true ↔
      stored = computeCommitment e amount blinding ∨
        Collision e.crypto.sha256 (keyedPreimage viewKey stored)
          (keyedPreimage viewKey (computeCommitment e amount blinding)) := by
  unfold verifyCommitmentInner
  rw [decide_eq_true_iff]
  constructor
  · intro h
    by_cases heq : stored = computeCommitment e amount blinding
    · exact .inl heq
    · exact .inr ⟨fun h' => heq (keyedPreimage_inj.mp h'), h.symm⟩
  · rintro (rfl | ⟨-, hhash⟩)
    · rfl
    · exact hhash.symm

theorem computeCommitment_ne
    (hplain : ¬ Collision e.crypto.sha256
      (SalaryCommitmentContract.commitmentPreimage salary blinding)
      (commitmentPreimage salary.toNat blinding)) :
    SalaryCommitmentContract.computeCommitment e.toEnv salary blinding ≠
      computeCommitment e salary.toNat blinding :=
  hash_ne_of_not_collision hplain (preimages_ne salary blinding)

theorem verifyCommitmentWithKey_mismatch (hsigned : auditor ∈ e.auths)
    (haccepted : Accepted e.sequence s auditor record) (hscope : scope ≠ .aggregateOnly)
    (hroom : LogHasRoom s)
    (hmatched : verifyCommitmentInner e record.keyBytes stored amount blinding = false) :
    verifyCommitmentWithKey e auditor stored amount blinding scope s =
      .error (.code .commitmentMismatch) := by
  simp only [verifyCommitmentWithKey, bind_code, authorizeAuditor_ok, check_code,
    verifyScopeForCommitment_ok, orPanic_ok, recordAuditLog_ok]
  refine .inr ⟨record, ⟨hsigned, haccepted⟩, .inr ⟨(), hscope, .inr ⟨_, ⟨hroom, rfl⟩, .inl ?_⟩⟩⟩
  simp [hmatched]

/-- The two schemes never agree, whatever the opening: the audit module answers
the true opening of a commitment with a mismatch. Of the hash it is only asked
that the strings at hand do not collide. -/
theorem true_opening_never_verifies (e : LedgerEnv) (salary : UInt64) (blinding : BytesN 32)
    (hplain : ¬ Collision e.crypto.sha256
      (SalaryCommitmentContract.commitmentPreimage salary blinding)
      (commitmentPreimage salary.toNat blinding)) :
    SalaryCommitmentContract.computeCommitment e.toEnv salary blinding ≠
        computeCommitment e salary.toNat blinding ∧
      ∀ s auditor scope record, auditor ∈ e.auths → Accepted e.sequence s auditor record →
        ¬ Collision e.crypto.sha256
          (keyedPreimage record.keyBytes
            (SalaryCommitmentContract.computeCommitment e.toEnv salary blinding))
          (keyedPreimage record.keyBytes (computeCommitment e salary.toNat blinding)) →
        (∀ s', verifyCommitmentWithKey e auditor
          (SalaryCommitmentContract.computeCommitment e.toEnv salary blinding) salary.toNat blinding
          scope s ≠ .ok (true, s')) ∧
        (scope ≠ .aggregateOnly → LogHasRoom s →
          verifyCommitmentWithKey e auditor
            (SalaryCommitmentContract.computeCommitment e.toEnv salary blinding) salary.toNat
            blinding scope s = .error (.code .commitmentMismatch)) := by
  have hne := computeCommitment_ne hplain
  refine ⟨hne, fun s auditor scope record hsigned haccepted hkeyed => ?_⟩
  have hmatched : verifyCommitmentInner e record.keyBytes
      (SalaryCommitmentContract.computeCommitment e.toEnv salary blinding) salary.toNat blinding =
        false := by
    rw [Bool.eq_false_iff, Ne, verifyCommitmentInner_true, not_or]
    exact ⟨hne, hkeyed⟩
  constructor
  · intro s' hok
    obtain ⟨found, ⟨-, hfound⟩, -, -, htrue, -, -⟩ := verifyCommitmentWithKey_ok.mp hok
    obtain rfl := Store.get_inj haccepted.stored hfound.stored
    rw [hmatched] at htrue
    cases htrue
  · intro hscope hroom
    exact verifyCommitmentWithKey_mismatch hsigned haccepted hscope hroom hmatched

end

-- ---------------------------------------------------------------------------
-- A sample opening
-- ---------------------------------------------------------------------------

def Sample.hashing (auths : List Address) : LedgerEnv :=
  { Sample.env auths with crypto := { (Sample.env auths).crypto with sha256 := sha256 } }

def Sample.rootKey : Storage :=
  next Store.empty ⟨Sample.hashing [], 0, .generateViewKey Sample.alice 100⟩

def Sample.salary : UInt64 := 500000

def Sample.blinding : BytesN 32 := List.Vector.replicate 32 0xAB

theorem Sample.rootKey_accepted (auths : List Address) :
    Accepted (Sample.hashing auths).sequence Sample.rootKey Sample.alice
      (rootRecord (Sample.hashing []) Sample.alice 100) :=
  ⟨rfl, Nat.le_of_ble_eq_true rfl, by simp [rootRecord]⟩

theorem Sample.rootKey_room : LogHasRoom Sample.rootKey := by
  unfold LogHasRoom
  decide +kernel

theorem true_opening_mismatch :
    let e := Sample.hashing [Sample.alice]
    ¬ Collision e.crypto.sha256
        (SalaryCommitmentContract.commitmentPreimage Sample.salary Sample.blinding)
        (commitmentPreimage Sample.salary.toNat Sample.blinding) ∧
      verifyCommitmentWithKey e Sample.alice
        (SalaryCommitmentContract.computeCommitment e.toEnv Sample.salary Sample.blinding)
        Sample.salary.toNat Sample.blinding .fullCompany Sample.rootKey =
          .error (.code .commitmentMismatch) := by
  intro e
  have hplain : ¬ Collision e.crypto.sha256
      (SalaryCommitmentContract.commitmentPreimage Sample.salary Sample.blinding)
      (commitmentPreimage Sample.salary.toNat Sample.blinding) := by
    unfold Collision
    decide +kernel
  refine ⟨hplain, ?_⟩
  refine ((true_opening_never_verifies e Sample.salary Sample.blinding hplain).2 Sample.rootKey
    Sample.alice .fullCompany _ (by decide) (Sample.rootKey_accepted _) ?_).2 (by decide)
    Sample.rootKey_room
  unfold Collision
  decide +kernel

def Sample.committed : SalaryCommitmentContract.Storage :=
  let e := (Sample.hashing [Sample.carol]).toEnv
  runFrom SalaryCommitmentContract.next Store.empty
    [⟨e, .initCommitmentAdmin Sample.carol⟩,
      ⟨e, .storeCommitment Sample.bob
        (SalaryCommitmentContract.computeCommitment e Sample.salary Sample.blinding)⟩]

/-- The salary contract accepts the opening of Bob's commitment, and the audit
module rejects it, submitted by an auditor with a valid key. -/
theorem stored_opening_rejected :
    let e := Sample.hashing [Sample.alice]
    let stored := SalaryCommitmentContract.computeCommitment e.toEnv Sample.salary Sample.blinding
    (Sample.committed.get (.commitment Sample.bob)).map (·.commitment) = some stored ∧
      SalaryCommitmentContract.verifyCommitment e.toEnv Sample.committed Sample.bob Sample.salary
        Sample.blinding = .ok true ∧
      verifyAccess e Sample.rootKey Sample.alice = true ∧
      stored ≠ computeCommitment e Sample.salary.toNat Sample.blinding ∧
      verifyCommitmentWithKey e Sample.alice stored Sample.salary.toNat Sample.blinding
        .fullCompany Sample.rootKey = .error (.code .commitmentMismatch) := by
  intro e stored
  have hstored : (Sample.committed.get (.commitment Sample.bob)).map (·.commitment) =
      some stored := by decide +kernel
  have hsalary : SalaryCommitmentContract.verifyCommitment e.toEnv Sample.committed Sample.bob
      Sample.salary Sample.blinding = .ok true := by decide +kernel
  have hdiffer : stored ≠ computeCommitment e Sample.salary.toNat Sample.blinding := by
    decide +kernel
  refine ⟨hstored, hsalary, by decide +kernel, hdiffer, ?_⟩
  refine verifyCommitmentWithKey_mismatch (by decide) (Sample.rootKey_accepted _) (by decide)
    Sample.rootKey_room ?_
  decide +kernel

end ZkPayroll.AuditModule
