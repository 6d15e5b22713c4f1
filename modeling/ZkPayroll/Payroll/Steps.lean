import ZkPayroll.Payroll.Footprint

/-!
# What one transaction can do

`next_cases` says everything a transaction can do to the world: a payroll
call went through, a token or commitment call went through, or nothing
happened. Invariants of the payroll storage are carried along runs by
`payroll_invariant`, which leaves only the successful payroll calls to check.
What the calls of a token or commitment contract keep, every transaction
keeps (`next_token`, `next_commitment`).
-/

namespace ZkPayroll.Payroll

open Host

abbrev Reached (w : World) : Prop := Reachable next World.genesis w

section
variable {e : Env} {w w' : World} {i : Input}

-- ---------------------------------------------------------------------------
-- Inversion
-- ---------------------------------------------------------------------------

theorem next_ok (h : deliver i.env i.message w = .ok (ret, w')) : next w i = w' := by
  simp [next, h]

theorem next_abort (h : deliver i.env i.message w = .error msg) : next w i = w := by
  simp [next, h]

def Executes (i : Input) (w : World) (call : Call) (ret : Ret) (w' : World) : Prop :=
  i.message = .payroll call ∧ exec i.env call w = .ok (ret, w')

def Rejected (e : Env) (call : Call) (w : World) : Prop :=
  ∀ ret w', exec e call w ≠ .ok (ret, w')

theorem Executes.deliver (h : Executes i w call ret w') :
    deliver i.env i.message w = .ok (ret, w') := by
  rw [h.1]
  exact h.2

theorem Executes.next_eq (h : Executes i w call ret w') : next w i = w' := next_ok h.deliver

theorem next_stores (hm : i.message = .payroll call) (hcall : exec i.env call = onStorage f)
    (hf : f w.payroll = .ok s) : (next w i).payroll = s := by
  have hok : exec i.env call w = .ok (.unit, { w with payroll := s }) := by
    rw [hcall]
    exact onStorage_ok.mpr ⟨s, hf, rfl, rfl⟩
  have hx : Executes i w call .unit { w with payroll := s } := ⟨hm, hok⟩
  rw [hx.next_eq]

theorem next_returns {f : Storage → Result (α × Storage)} (hm : i.message = .payroll call)
    (hcall : exec i.env call = onStorageRet toRet f) (hf : f w.payroll = .ok (a, s)) :
    (next w i).payroll = s := by
  have hok : exec i.env call w = .ok (toRet a, { w with payroll := s }) := by
    rw [hcall]
    exact onStorageRet_ok.mpr ⟨a, s, hf, rfl, rfl⟩
  have hx : Executes i w call (toRet a) { w with payroll := s } := ⟨hm, hok⟩
  rw [hx.next_eq]

theorem next_cases (w : World) (i : Input) :
    (∃ call ret, Executes i w call ret (next w i)) ∨
    (∃ asset call balances, i.message = .token asset call ∧
      Token.exec (w.tokens asset) call = .ok balances ∧
      next w i = { w with tokens := Function.update w.tokens asset balances }) ∨
    (∃ id call c, i.message = .commitment id call ∧
      SalaryCommitmentContract.exec i.env (w.commitments id) call = .ok c ∧
      next w i = { w with commitments := Function.update w.commitments id c }) ∨
    (∃ msg, deliver i.env i.message w = .error msg) ∧ next w i = w := by
  cases h : deliver i.env i.message w with
  | error msg => exact .inr (.inr (.inr ⟨⟨msg, rfl⟩, next_abort h⟩))
  | ok result =>
    obtain ⟨ret, w'⟩ := result
    rw [next_ok h]
    cases hm : i.message with
    | payroll call =>
      rw [hm] at h
      exact .inl ⟨call, ret, hm, h⟩
    | token asset call =>
      simp only [hm, deliver, bind_ok, pure_ok, Prod.mk.injEq] at h
      obtain ⟨balances, hexec, -, rfl⟩ := h
      exact .inr (.inl ⟨asset, call, balances, rfl, hexec, rfl⟩)
    | commitment id call =>
      simp only [hm, deliver, bind_ok, pure_ok, Prod.mk.injEq] at h
      obtain ⟨c, hexec, -, rfl⟩ := h
      exact .inr (.inr (.inl ⟨id, call, c, rfl, hexec, rfl⟩))

theorem next_call (hm : i.message = .payroll call) :
    (∃ ret, Executes i w call ret (next w i)) ∨ next w i = w := by
  rcases next_cases w i with ⟨call', ret, h⟩ | ⟨_, _, _, hm', -⟩ | ⟨_, _, _, hm', -⟩ | ⟨-, hsame⟩
  · obtain rfl : call' = call := by simpa [hm] using h.1.symm
    exact .inl ⟨ret, h⟩
  · simp [hm] at hm'
  · simp [hm] at hm'
  · exact .inr hsame

theorem next_rejected (hm : i.message = .payroll call) (h : Rejected i.env call w) :
    next w i = w := by
  rcases next_call (w := w) hm with ⟨ret, hx⟩ | hsame
  · exact absurd hx.2 (h ret _)
  · exact hsame

/-- The payroll call a step carried out, and what it returned. -/
def performed (st : Step World Input) : Option (Call × Ret) :=
  match st.input.message, deliver st.input.env st.input.message st.pre with
  | .payroll call, .ok (ret, _) => some (call, ret)
  | _, _ => none

theorem performed_executes (h : Executes i w call ret w') :
    performed ⟨w, i, post⟩ = some (call, ret) := by
  have hd := h.deliver
  rw [h.1] at hd
  simp [performed, h.1, hd]

theorem executes_performed {st : Step World Input} (h : performed st = some (call, ret)) :
    ∃ w', Executes st.input st.pre call ret w' := by
  unfold performed at h
  split at h
  · rename_i call' ret' w' hm hd
    obtain ⟨rfl, rfl⟩ : call' = call ∧ ret' = ret := by simpa using h
    rw [hm] at hd
    exact ⟨w', hm, hd⟩
  · cases h

theorem performed_step {st : Step World Input} (hst : st ∈ steps next start inputs)
    (h : performed st = some (call, ret)) : Executes st.input st.pre call ret st.post := by
  obtain ⟨w', hx⟩ := executes_performed h
  rw [steps_post hst, hx.next_eq]
  exact hx

theorem performed_other (hm : ∀ call, i.message ≠ .payroll call) :
    performed ⟨w, i, post⟩ = none := by
  unfold performed
  split
  · rename_i h _
    exact absurd h (hm _)
  · rfl

/-- Only the contract's own calls write its storage or its transfer log. -/
theorem next_payroll (w : World) (i : Input) :
    (∃ call ret, Executes i w call ret (next w i) ∧
      performed ⟨w, i, next w i⟩ = some (call, ret)) ∨
    (next w i).payroll = w.payroll ∧ (next w i).transfers = w.transfers ∧
      performed ⟨w, i, next w i⟩ = none := by
  rcases next_cases w i with ⟨call, ret, h⟩ | ⟨_, _, _, hm, -, h⟩ | ⟨_, _, _, hm, -, h⟩ | ⟨⟨_, hd⟩, h⟩
  · exact .inl ⟨call, ret, h, performed_executes h⟩
  · exact .inr ⟨by rw [h], by rw [h], performed_other (by simp [hm])⟩
  · exact .inr ⟨by rw [h], by rw [h], performed_other (by simp [hm])⟩
  · exact .inr ⟨by rw [h], by rw [h], by simp [performed, hd]⟩

-- ---------------------------------------------------------------------------
-- Invariants
-- ---------------------------------------------------------------------------

/-- What holds of an empty storage and is kept by every payroll call made in
a reachable world holds of every reachable payroll storage. -/
theorem payroll_invariant {I : Storage → Prop} (hempty : I .empty)
    (hexec : ∀ {e call w ret w'}, Reached w → exec e call w = .ok (ret, w') →
      I w.payroll → I w'.payroll)
    (h : Reached w) : I w.payroll := by
  have hboth : Reached w ∧ I w.payroll := by
    refine run_invariant (I := fun w => Reached w ∧ I w.payroll) ⟨reachable_start, hempty⟩ ?_ h
    rintro w i ⟨hw, hI⟩
    refine ⟨reachable_next hw i, ?_⟩
    rcases next_payroll w i with ⟨call, ret, ⟨-, hok⟩, -⟩ | ⟨hsame, -⟩
    · exact hexec hw hok hI
    · rw [hsame]
      exact hI
  exact hboth.2

theorem exec_addresses (h : exec e call w = .ok (ret, w'))
    (haddrs : w.payroll.get .addresses = some addrs) :
    ∃ admin owner, w'.payroll.get .addresses =
      some { addrs with admin := admin, treasuryOwner := owner } := by
  cases call with
  | initializePayroll =>
    obtain ⟨_, hf, -, -⟩ := onStorage_ok.mp h
    obtain ⟨hnone, -⟩ := initializePayroll_ok.mp hf
    simp [hnone] at haddrs
  | acceptAdminRotation newAdmin =>
    obtain ⟨_, hf, -, rfl⟩ := onStorage_ok.mp h
    obtain ⟨-, _, -, -, -, -, addrs', haddrs', rfl⟩ := acceptAdminRotation_ok.mp hf
    obtain rfl : addrs = addrs' := Store.get_inj haddrs haddrs'
    exact ⟨newAdmin, addrs.treasuryOwner, by simp⟩
  | acceptTreasuryRotation newOwner =>
    obtain ⟨_, hf, -, rfl⟩ := onStorage_ok.mp h
    obtain ⟨-, _, -, -, -, -, -, addrs', haddrs', rfl⟩ := acceptTreasuryRotation_ok.mp hf
    obtain rfl : addrs = addrs' := Store.get_inj haddrs haddrs'
    exact ⟨addrs.admin, newOwner, by simp⟩
  | acceptAdminHandover pendingAdmin =>
    obtain ⟨_, hf, -, rfl⟩ := onStorage_ok.mp h
    obtain ⟨-, _, -, -, -, addrs', haddrs', rfl⟩ := acceptAdminHandover_ok.mp hf
    obtain rfl : addrs = addrs' := Store.get_inj haddrs haddrs'
    exact ⟨pendingAdmin, addrs.treasuryOwner, by simp⟩
  | _ =>
    refine ⟨addrs.admin, addrs.treasuryOwner, ?_⟩
    rw [exec_keeps h rfl]
    exact haddrs

theorem exec_uninitialized (h : exec e call w = .ok (ret, w'))
    (hnone : w'.payroll.get .addresses = none) : w.payroll.get .addresses = none := by
  cases haddrs : w.payroll.get .addresses with
  | none => rfl
  | some addrs =>
    obtain ⟨_, _, haddrs'⟩ := exec_addresses h haddrs
    simp [hnone] at haddrs'

-- ---------------------------------------------------------------------------
-- The other contracts
-- ---------------------------------------------------------------------------

theorem update_kept {f : Address → σ} {I : σ → Prop} (h : I (f a)) (hkept : I (f b) → I x) :
    I (Function.update f b x a) := by
  by_cases hsame : a = b
  · subst hsame
    simpa using hkept h
  · simpa [hsame] using h

theorem settleTokens_kept {I : Token.Storage → Prop}
    (hkept : ∀ {t k t'}, Token.exec t k = .ok t' → I t → I t')
    (h : settleTokens treasury payments t = .ok t') (ht : I t) : I t' := by
  induction payments generalizing t with
  | nil =>
    simp only [settleTokens, pure_ok] at h
    exact h ▸ ht
  | cons p rest ih =>
    obtain ⟨proof, amount, employee⟩ := p
    simp only [settleTokens, bind_ok] at h
    obtain ⟨t₁, htransfer, hrest⟩ := h
    exact ih hrest (hkept (k := .transfer treasury employee amount) htransfer ht)

theorem settleCommitments_kept {I : SalaryCommitmentContract.Storage → Prop}
    (hkept : ∀ {e c k c'}, SalaryCommitmentContract.exec e c k = .ok c' → I c → I c')
    (h : settleCommitments e verifier first payments c = .ok c') (hc : I c) : I c' := by
  induction payments generalizing first c with
  | nil =>
    simp only [settleCommitments, pure_ok] at h
    exact h ▸ hc
  | cons p rest ih =>
    obtain ⟨proof, amount, employee⟩ := p
    simp only [settleCommitments, bind_ok] at h
    obtain ⟨_, -, _, -, c₁, hrecord, c₂, hlock, hrest⟩ := h
    have hc₁ : I c₁ := hkept (k := .recordNullifier _) hrecord hc
    exact ih hrest (hkept (k := .lockCommitmentUpdates employee) hlock hc₁)

theorem next_token {I : Token.Storage → Prop}
    (hkept : ∀ {t k t'}, Token.exec t k = .ok t' → I t → I t')
    (asset : Address) (h : I (w.tokens asset)) : I ((next w i).tokens asset) := by
  have htransfer : ∀ {t source dest amount t'}, Token.transfer t source dest amount = .ok t' →
      I t → I t' := fun {_ source dest amount _} => hkept (k := .transfer source dest amount)
  rcases next_cases w i with ⟨call, ret, -, hok⟩ | ⟨_, _, _, -, hexec, hnext⟩ |
    ⟨_, _, _, -, -, hnext⟩ | ⟨-, hnext⟩
  · cases call with
    | batchProcessPayroll =>
      obtain ⟨_, hf, -⟩ := exec_batchProcessPayroll_ok.mp hok
      obtain ⟨-, _, -, -, -, -, -, -, -, _, ht, _, -, -, hw⟩ := batchProcessPayroll_ok.mp hf
      rw [hw]
      exact update_kept h (settleTokens_kept hkept ht)
    | deposit =>
      obtain ⟨-, -, -, -, _, -, _, -, -, -, _, ht, -, hw⟩ := deposit_ok.mp (onWorld_ok.mp hok).1
      rw [hw]
      exact update_kept h (htransfer ht)
    | approveEmergencyWithdrawal =>
      obtain ⟨-, _, -, -, -, _, -, -, _, ht, hw⟩ :=
        approveEmergencyWithdrawal_ok.mp (onWorld_ok.mp hok).1
      rw [hw]
      exact update_kept h (htransfer ht)
    | _ =>
      rw [exec_inside hok (by simp [Call.reachesOut])]
      exact h
  · rw [hnext]
    exact update_kept h (hkept hexec)
  · rw [hnext]
    exact h
  · rw [hnext]
    exact h

theorem next_commitment {I : SalaryCommitmentContract.Storage → Prop}
    (hkept : ∀ {e c k c'}, SalaryCommitmentContract.exec e c k = .ok c' → I c → I c')
    (id : Address) (h : I (w.commitments id)) : I ((next w i).commitments id) := by
  rcases next_cases w i with ⟨call, ret, -, hok⟩ | ⟨_, _, _, -, -, hnext⟩ |
    ⟨_, _, _, -, hexec, hnext⟩ | ⟨-, hnext⟩
  · cases call with
    | batchProcessPayroll =>
      obtain ⟨_, hf, -⟩ := exec_batchProcessPayroll_ok.mp hok
      obtain ⟨-, _, -, -, -, -, -, -, -, _, -, _, hc, -, hw⟩ := batchProcessPayroll_ok.mp hf
      rw [hw]
      exact update_kept h (settleCommitments_kept hkept hc)
    | deposit =>
      obtain ⟨-, -, -, -, _, -, _, -, -, -, _, -, -, hw⟩ := deposit_ok.mp (onWorld_ok.mp hok).1
      rw [hw]
      exact h
    | approveEmergencyWithdrawal =>
      obtain ⟨-, _, -, -, -, _, -, -, _, -, hw⟩ :=
        approveEmergencyWithdrawal_ok.mp (onWorld_ok.mp hok).1
      rw [hw]
      exact h
    | _ =>
      rw [exec_inside hok (by simp [Call.reachesOut])]
      exact h
  · rw [hnext]
    exact h
  · rw [hnext]
    exact update_kept h (hkept hexec)
  · rw [hnext]
    exact h

end

-- ---------------------------------------------------------------------------
-- A small deployment
-- ---------------------------------------------------------------------------

/-!
Addresses, an environment and batches of one payment for the concrete runs
that later modules evaluate.
-/

namespace Sample

def admin : Address := ⟨1⟩
def token : Address := ⟨2⟩
def verifier : Address := ⟨3⟩
def commitment : Address := ⟨4⟩
def treasury : Address := ⟨5⟩
def owner : Address := ⟨6⟩
def payroll : Address := ⟨7⟩
def alice : Address := ⟨8⟩
def bob : Address := ⟨9⟩

def addrs : ContractAddresses := ⟨admin, token, verifier, commitment, treasury, owner⟩

def digest (n : UInt8) : BytesN 32 := ⟨n :: List.replicate 31 0, rfl⟩

def env (auths : List Address) : Env where
  crypto := ⟨fun _ => BytesN.zero, fun _ => [], fun _ => [], fun _ => []⟩
  contract := payroll
  timestamp := 100
  auths := auths
  isPaused _ := false
  verifyPaymentProof _ _ _ := true

def batch (n : UInt8) (employee : Address) (amount : Int) : Batch where
  proofs := [BytesN.zero]
  amounts := [amount]
  employees := [employee]
  expectedTotalSpend := amount
  nonce := digest n
  draftHash := none

def call (auths : List Address) (c : Call) : Input := ⟨env auths, .payroll c⟩

def deploy : Input := call [] (.initializePayroll addrs)

def funded (amount : Int) : List Input :=
  [deploy, ⟨env [], .token token (.mint treasury amount)⟩]

/-- The commitment contract ready for payouts: payroll is its operator and
both employees have a commitment. -/
def enrolled : List Input :=
  [⟨env [], .commitment commitment (.initCommitmentAdmin admin)⟩,
    ⟨env [admin], .commitment commitment (.setPayrollOperator payroll)⟩,
    ⟨env [admin], .commitment commitment (.storeCommitment alice (digest 1))⟩,
    ⟨env [admin], .commitment commitment (.storeCommitment bob (digest 2))⟩]

def onePending : List Input :=
  funded 1000 ++ [call [admin] (.preparePayrollRun (batch 1 alice 100))]

end Sample

end ZkPayroll.Payroll
