import ZkPayroll.PaymentExecutor.Laws

/-!
# What one transaction can do to the payments

`acceptedPayments` reads off a step the payments it carried out, one for
`execute_payment` and those of the whole batch for `execute_batch_payroll`.
`next_ledger` says everything a transaction can do to the executor's ledger:
it carries out payments, or it leaves payments, nullifiers, totals and counts
alone.
-/

namespace ZkPayroll.PaymentExecutor

open Host

abbrev Reached (w : System) : Prop := Reachable next System.genesis w

-- ---------------------------------------------------------------------------
-- Accepted payments
-- ---------------------------------------------------------------------------

def acceptedPayments (st : Step System Input) : List PaymentRequest :=
  match st.input.message, deliver st.input.env st.input.message st.pre with
  | .executor (.executePayment p), .ok _ => [p]
  | .executor (.executeBatchPayroll b), .ok _ => b.requests
  | _, _ => []

def payments (hist : List (Step System Input)) : List PaymentRequest :=
  hist.flatMap acceptedPayments

theorem payments_snoc (hist : List (Step System Input)) (st : Step System Input) :
    payments (hist ++ [st]) = payments hist ++ acceptedPayments st := by
  simp [payments]

theorem mem_payments {hist : List (Step System Input)} :
    p ∈ payments hist ↔ ∃ st ∈ hist, p ∈ acceptedPayments st := List.mem_flatMap

-- ---------------------------------------------------------------------------
-- The ledger
-- ---------------------------------------------------------------------------

def paymentCount (s : Storage) (companyId period : Nat) : Nat :=
  (s.get (.period companyId period)).elim 0 (·.paymentCount)

structure LedgerKept (s s' : Storage) : Prop where
  payments : ∀ employee period, s'.get (.payment employee period) = s.get (.payment employee period)
  nullifiers : ∀ nullifier, s'.get (.nullifier nullifier) = s.get (.nullifier nullifier)
  totals : ∀ companyId, s'.get (.totalPaid companyId) = s.get (.totalPaid companyId)
  counts : ∀ companyId period, paymentCount s' companyId period = paymentCount s companyId period

section
variable {e : LedgerEnv} {s s' : Storage} {w w' : System} {i : Input}

theorem LedgerKept.refl (s : Storage) : LedgerKept s s :=
  ⟨fun _ _ => rfl, fun _ => rfl, fun _ => rfl, fun _ _ => rfl⟩

theorem LedgerKept.of_frame (h : Store.Frame (fun k => k.isConfig = true) s s') :
    LedgerKept s s' where
  payments employee period := h (.payment employee period) (by simp [DataKey.isConfig])
  nullifiers nullifier := h (.nullifier nullifier) (by simp [DataKey.isConfig])
  totals companyId := h (.totalPaid companyId) (by simp [DataKey.isConfig])
  counts companyId period := by
    rw [paymentCount, h (.period companyId period) (by simp [DataKey.isConfig])]
    rfl

theorem LedgerKept.set_period (h : paymentCount s companyId period = new.paymentCount) :
    LedgerKept s (s.set (.period companyId period) new) where
  payments employee period := by simp
  nullifiers nullifier := by simp
  totals companyId := by simp
  counts otherId other := by
    by_cases hsame : otherId = companyId ∧ other = period
    · obtain ⟨rfl, rfl⟩ := hsame
      rw [h]
      simp [paymentCount]
    · have hne : DataKey.period otherId other ≠ .period companyId period := by simpa using hsame
      simp [paymentCount, hne]

theorem LedgerKept.set_sequence (h : LedgerKept s s') :
    LedgerKept s (s'.set (.periodSequence companyId) nextId) where
  payments employee period := by simpa using h.payments employee period
  nullifiers nullifier := by simpa using h.nullifiers nullifier
  totals companyId := by simpa using h.totals companyId
  counts companyId period := by simpa [paymentCount] using h.counts companyId period

theorem onStorage_ok : onStorage f w = .ok (ret, w') ↔
    ∃ s, f w.executor = .ok s ∧ ret = .unit ∧ w' = { w with executor := s } := by
  simp only [onStorage, bind_ok, orPanic_ok, pure_ok, Prod.mk.injEq]

theorem exec_executePayment_ok : exec e (.executePayment p) w = .ok (ret, w') ↔
    ∃ r, Payable e p w r ∧ ret = .records [p.record e] ∧ w' = w.paid e p r := by
  simp only [exec, bind_ok, Prod.exists, executePayment_ok, pure_ok, Prod.mk.injEq]
  constructor
  · rintro ⟨_, _, ⟨r, hpayable, rfl, rfl⟩, rfl, rfl⟩
    exact ⟨r, hpayable, rfl, rfl⟩
  · rintro ⟨r, hpayable, rfl, rfl⟩
    exact ⟨_, _, ⟨r, hpayable, rfl, rfl⟩, rfl, rfl⟩

theorem exec_executeBatchPayroll_ok : exec e (.executeBatchPayroll b) w = .ok (ret, w') ↔
    b.ShapeOk ∧ Pays e b.requests w w' ∧
      ret = .records (b.requests.map (PaymentRequest.record · e)) := by
  simp only [exec, bind_ok, Prod.exists, executeBatchPayroll_ok, pure_ok, Prod.mk.injEq]
  constructor
  · rintro ⟨_, _, ⟨hshape, hpays, rfl⟩, rfl, rfl⟩
    exact ⟨hshape, hpays, rfl⟩
  · rintro ⟨hshape, hpays, rfl⟩
    exact ⟨_, _, ⟨hshape, hpays, rfl⟩, rfl, rfl⟩

-- ---------------------------------------------------------------------------
-- Inversion
-- ---------------------------------------------------------------------------

theorem next_ok (h : deliver i.env i.message w = .ok (ret, w')) : next w i = w' := by
  simp [next, h]

theorem next_failed (h : deliver i.env i.message w = .error err) : next w i = w := by
  simp [next, h]

theorem exec_ledger (hm : i.message = .executor call) (hok : exec i.env call w = .ok (ret, w')) :
    Pays i.env (acceptedPayments ⟨w, i, w'⟩) w w' ∨
      acceptedPayments ⟨w, i, w'⟩ = [] ∧ LedgerKept w.executor w'.executor ∧
        w' = { w with executor := w'.executor } := by
  have hd : deliver i.env i.message w = .ok (ret, w') := by
    rw [hm]
    exact hok
  cases call with
  | executePayment p =>
    obtain ⟨r, hpayable, -, rfl⟩ := exec_executePayment_ok.mp hok
    have haccepted : acceptedPayments ⟨w, i, w.paid i.env p r⟩ = [p] := by
      simp [acceptedPayments, hm, hm ▸ hd]
    rw [haccepted]
    exact .inl (.cons p r hpayable (.nil _))
  | executeBatchPayroll b =>
    obtain ⟨-, hpays, -⟩ := exec_executeBatchPayroll_ok.mp hok
    have haccepted : acceptedPayments ⟨w, i, w'⟩ = b.requests := by
      simp [acceptedPayments, hm, hm ▸ hd]
    rw [haccepted]
    exact .inl hpays
  | createPeriod companyId =>
    simp only [exec, bind_ok, Prod.exists, createPeriod_ok, pure_ok, Prod.mk.injEq] at hok
    obtain ⟨_, _, ⟨-, hfree, -, -, -, rfl⟩, -, rfl⟩ := hok
    refine .inr ⟨by simp [acceptedPayments, hm], ?_, rfl⟩
    have hcount : paymentCount w.executor companyId (nextPeriodId w.executor companyId) =
        (newPeriod i.env companyId (nextPeriodId w.executor companyId)).paymentCount := by
      simp [paymentCount, hfree, newPeriod]
    exact (LedgerKept.set_period hcount).set_sequence
  | closePeriod companyId periodId =>
    simp only [exec, bind_ok, Prod.exists, closePeriod_ok, pure_ok, Prod.mk.injEq] at hok
    obtain ⟨_, _, ⟨-, stored, hstored, -, -, rfl⟩, -, rfl⟩ := hok
    refine .inr ⟨by simp [acceptedPayments, hm], ?_, rfl⟩
    exact LedgerKept.set_period (by simp [paymentCount, hstored, PayrollPeriod.ended])
  | initializeExecutor =>
    obtain ⟨s, hf, -, rfl⟩ := onStorage_ok.mp hok
    exact .inr ⟨by simp [acceptedPayments, hm], .of_frame (initializeExecutor_frame hf), rfl⟩
  | setExecutorAdmin =>
    obtain ⟨s, hf, -, rfl⟩ := onStorage_ok.mp hok
    exact .inr ⟨by simp [acceptedPayments, hm], .of_frame (setExecutorAdmin_frame hf), rfl⟩
  | setPauseManager =>
    obtain ⟨s, hf, -, rfl⟩ := onStorage_ok.mp hok
    exact .inr ⟨by simp [acceptedPayments, hm], .of_frame (setPauseManager_frame hf), rfl⟩
  | setAssetAllowed =>
    obtain ⟨s, hf, -, rfl⟩ := onStorage_ok.mp hok
    exact .inr ⟨by simp [acceptedPayments, hm], .of_frame (setAssetAllowed_frame hf), rfl⟩
  | setAssetDecimals =>
    obtain ⟨s, hf, -, rfl⟩ := onStorage_ok.mp hok
    exact .inr ⟨by simp [acceptedPayments, hm], .of_frame (setAssetDecimals_frame hf), rfl⟩

/-- A transaction carries out payments, or leaves the ledger alone. -/
theorem next_ledger (w : System) (i : Input) :
    Pays i.env (acceptedPayments ⟨w, i, next w i⟩) w (next w i) ∨
      acceptedPayments ⟨w, i, next w i⟩ = [] ∧ LedgerKept w.executor (next w i).executor ∧
        (next w i).transfers = w.transfers := by
  cases hd : deliver i.env i.message w with
  | error err =>
    rw [next_failed hd]
    exact .inr ⟨by simp [acceptedPayments, hd], .refl _, rfl⟩
  | ok result =>
    obtain ⟨ret, w'⟩ := result
    rw [next_ok hd]
    cases hm : i.message with
    | executor call =>
      rw [hm] at hd
      rcases exec_ledger hm hd with hpays | ⟨hnone, hkept, hsame⟩
      · exact .inl hpays
      · exact .inr ⟨hnone, hkept, by rw [hsame]⟩
    | registry id call | commitment id call | token id call =>
      simp only [hm, deliver, bind_ok, orPanic_ok, pure_ok, Prod.mk.injEq] at hd
      obtain ⟨_, -, -, rfl⟩ := hd
      exact .inr ⟨by simp [acceptedPayments, hm], .refl _, rfl⟩

-- ---------------------------------------------------------------------------
-- Submitted payments
-- ---------------------------------------------------------------------------

/-- The transaction submits the payment, alone or in a batch, and every guard
of what it submits is met. -/
inductive Submits (st : Step System Input) (p : PaymentRequest) : Prop
  | single (hm : st.input.message = .executor (.executePayment p)) (r : Reads)
      (hp : Payable st.input.env p st.pre r)
  | batch (b : BatchRequest) (hm : st.input.message = .executor (.executeBatchPayroll b))
      (hshape : b.ShapeOk) (after : System) (hpays : Pays st.input.env b.requests st.pre after)
      (hp : p ∈ b.requests)

theorem mem_acceptedPayments {st : Step System Input} :
    p ∈ acceptedPayments st ↔ Submits st p := by
  constructor
  · intro h
    unfold acceptedPayments at h
    split at h
    next q _ hm hd =>
      rw [hm] at hd
      obtain ⟨r, hpayable, -⟩ := exec_executePayment_ok.mp hd
      obtain rfl := List.mem_singleton.mp h
      exact .single hm r hpayable
    next b _ hm hd =>
      rw [hm] at hd
      obtain ⟨hshape, hpays, -⟩ := exec_executeBatchPayroll_ok.mp hd
      exact .batch b hm hshape _ hpays h
    next => cases h
  · intro h
    cases h with
    | single hm r hp =>
      have hd : deliver st.input.env (.executor (.executePayment p)) st.pre = .ok _ :=
        exec_executePayment_ok.mpr ⟨r, hp, rfl, rfl⟩
      simp [acceptedPayments, hm, hd]
    | batch b hm hshape after hpays hp =>
      have hd : deliver st.input.env (.executor (.executeBatchPayroll b)) st.pre = .ok _ :=
        exec_executeBatchPayroll_ok.mpr ⟨hshape, hpays, rfl⟩
      simpa [acceptedPayments, hm, hd] using hp

theorem mem_requests {b : BatchRequest} (h : p ∈ b.requests) :
    p.companyId = b.companyId ∧ p.period = b.period := by
  obtain ⟨_, -, rfl⟩ := List.mem_map.mp h
  exact ⟨rfl, rfl⟩

theorem Submits.companyId_eq {st : Step System Input} (h : Submits st p) (h' : Submits st q) :
    p.companyId = q.companyId := by
  cases h with
  | single hm _ _ =>
    cases h' with
    | single hm' _ _ =>
      rw [hm] at hm'
      cases hm'
      rfl
    | batch b hm' _ _ _ _ => simp [hm] at hm'
  | batch b hm _ _ _ hp =>
    cases h' with
    | single hm' _ _ => simp [hm] at hm'
    | batch b' hm' _ _ _ hq =>
      rw [hm] at hm'
      cases hm'
      rw [(mem_requests hp).1, (mem_requests hq).1]

end

-- ---------------------------------------------------------------------------
-- A small deployment
-- ---------------------------------------------------------------------------

/-!
Two companies with a treasury each, one employee with a commitment, and an
open first period for both companies.
-/

namespace Sample

def registry : Address := ⟨1⟩
def commitment : Address := ⟨2⟩
def verifier : Address := ⟨3⟩
def token : Address := ⟨4⟩
def owner : Address := ⟨5⟩
def executor : Address := ⟨6⟩
def alice : Address := ⟨7⟩

def addresses : ContractAddresses := ⟨registry, commitment, verifier, token⟩

def hr (companyId : Nat) : Address := ⟨10 + companyId⟩

def treasury (companyId : Nat) : Address := ⟨20 + companyId⟩

def digest (n : UInt8) : BytesN 32 := List.Vector.cons n BytesN.zero

def proof : Groth16Proof := ⟨BytesN.zero, BytesN.zero, BytesN.zero⟩

def env (auths : List Address) : LedgerEnv where
  crypto := ⟨fun _ => BytesN.zero, fun _ => [], fun _ => [], fun _ => []⟩
  contract := executor
  timestamp := 100
  auths := auths
  isPaused _ := false
  verifyPaymentProof _ _ _ := true
  sequence := 1
  addressFromString _ := alice

def companyCall (companyId : Nat) (c : Call) : Input :=
  ⟨env [hr companyId, treasury companyId], .executor c⟩

def payment (companyId : Nat) (nullifier : UInt8) (period : Nat) : PaymentRequest :=
  ⟨companyId, alice, 100, proof, digest nullifier, period⟩

def deployed : List Input :=
  [⟨env [], .executor (.initializeExecutor addresses)⟩,
    ⟨env [owner], .executor (.setExecutorAdmin owner)⟩,
    ⟨env [owner], .executor (.setAssetDecimals token 7)⟩,
    ⟨env [hr 0], .registry registry (.registerCompany (hr 0) (treasury 0))⟩,
    ⟨env [hr 1], .registry registry (.registerCompany (hr 1) (treasury 1))⟩,
    ⟨env [], .commitment commitment (.initCommitmentAdmin owner)⟩,
    ⟨env [owner], .commitment commitment (.storeCommitment alice (digest 1))⟩,
    ⟨env [], .token token (.mint (treasury 0) 1000)⟩,
    ⟨env [], .token token (.mint (treasury 1) 1000)⟩,
    companyCall 0 (.createPeriod 0),
    companyCall 1 (.createPeriod 1)]

end Sample

end ZkPayroll.PaymentExecutor
