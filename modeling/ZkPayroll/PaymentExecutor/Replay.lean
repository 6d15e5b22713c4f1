import ZkPayroll.PaymentExecutor.Ledger

/-!
# Proofs submitted again

The verifier is asked about the proof, the commitment and the amount. The
nullifier that marks a proof as used is an argument of its own: it is not
among the public inputs, although the payment circuit lists it there, so a
proof goes through again under a new nullifier. Proofs pay once exactly where
the callers tie the nullifier to the proof themselves.
-/

namespace ZkPayroll.PaymentExecutor

open Host

structure Proven where
  proof : Groth16Proof
  commitment : Option (BytesN 32)
  amount : Int
  deriving DecidableEq

def storedCommitment (w : System) (employee : Address) : Option (BytesN 32) := do
  let addresses ← w.executor.get .addresses
  let stored ← (w.commitments addresses.commitment).get (.commitment employee)
  return stored.commitment

def proven (w : System) (p : PaymentRequest) : Proven :=
  ⟨p.proof, storedCommitment w p.employee, p.amount⟩

/-- What was proved for each payment carried out, with its nullifier, oldest
first. -/
def submissions (hist : List (Step System Input)) : List (Proven × BytesN 32) :=
  hist.flatMap fun st => (acceptedPayments st).map fun p => (proven st.pre p, p.nullifier)

section
variable {e : LedgerEnv} {w w' : System} {hist : List (Step System Input)}

theorem proven_of_payable (h : Payable e p w r) :
    proven w p = ⟨p.proof, some r.stored.commitment, p.amount⟩ := by
  simp [proven, storedCommitment, h.configured, h.committed]

theorem paid_proven (q : PaymentRequest) : proven (w.paid e p r) q = proven w q := by
  have haddresses : (w.paid e p r).executor.get .addresses = w.executor.get .addresses := by
    simp [System.paid, paidStorage]
  simp only [proven, storedCommitment, haddresses]
  rfl

/-- Within a batch every payment is proved against the commitments from before
the batch. -/
theorem Pays.verified (hp : Pays e ps w w') (hq : q ∈ ps) :
    ∃ verifier commitment amountInput, (proven w q).commitment = some commitment ∧
      amountToPublicInput q.amount = .ok amountInput ∧
      verify e verifier q.proof [commitment, amountInput] = true := by
  induction hp with
  | nil => cases hq
  | cons p r hpayable _ ih =>
    rcases List.mem_cons.mp hq with rfl | hq
    · obtain ⟨amountInput, hinput, hproof⟩ := hpayable.proven
      exact ⟨_, _, amountInput, by rw [proven_of_payable hpayable], hinput, hproof⟩
    · obtain ⟨verifier, commitment, amountInput, hcommitment, hrest⟩ := ih hq
      rw [paid_proven] at hcommitment
      exact ⟨verifier, commitment, amountInput, hcommitment, hrest⟩

theorem Submits.verified {st : Step System Input} (h : Submits st p) :
    ∃ verifier commitment amountInput, (proven st.pre p).commitment = some commitment ∧
      amountToPublicInput p.amount = .ok amountInput ∧
      verify st.input.env verifier p.proof [commitment, amountInput] = true := by
  cases h with
  | single _ r hp => exact Pays.verified (.cons p r hp (.nil _)) List.mem_cons_self
  | batch b _ _ after hpays hp => exact hpays.verified hp

theorem mem_submissions : x ∈ submissions hist ↔
    ∃ st ∈ hist, ∃ p, Submits st p ∧ (proven st.pre p, p.nullifier) = x := by
  simp only [submissions, List.mem_flatMap, List.mem_map, mem_acceptedPayments]

theorem submissions_nullifiers :
    (submissions hist).map (·.2) = (payments hist).map (·.nullifier) := by
  simp [submissions, payments, List.map_flatMap, Function.comp_def]

theorem nodup_map_iff_determines {l : List α} {f : α → β} {g : α → γ} (hg : (l.map g).Nodup) :
    (l.map f).Nodup ↔ ∀ x ∈ l, ∀ y ∈ l, f x = f y → g x = g y := by
  rw [List.nodup_map_iff_inj_on hg.of_map]
  constructor
  · intro h x hx y hy hf
    rw [h x hx y hy hf]
  · intro h x hx y hy hf
    exact List.inj_on_of_nodup_map hg hx hy (h x hx y hy hf)

/-- In a run no proof pays twice for one commitment and amount exactly when
two submissions of it, with their guards met, always name the same
nullifier. -/
theorem proof_pays_once_iff (inputs : List Input) :
    ((submissions (steps next System.genesis inputs)).map (·.1)).Nodup ↔
      ∀ st ∈ steps next System.genesis inputs, ∀ st' ∈ steps next System.genesis inputs,
        ∀ p p', Submits st p → Submits st' p' → proven st.pre p = proven st'.pre p' →
          p.nullifier = p'.nullifier := by
  have hnullifiers : ((submissions (steps next System.genesis inputs)).map (·.2)).Nodup := by
    rw [submissions_nullifiers]
    exact (consistent_run inputs).nullifiers
  rw [nodup_map_iff_determines hnullifiers]
  constructor
  · intro h st hst st' hst' p p' hp hp' hsame
    exact h _ (mem_submissions.mpr ⟨st, hst, p, hp, rfl⟩) _
      (mem_submissions.mpr ⟨st', hst', p', hp', rfl⟩) hsame
  · intro h x hx y hy hsame
    obtain ⟨st, hst, p, hp, rfl⟩ := mem_submissions.mp hx
    obtain ⟨st', hst', p', hp', rfl⟩ := mem_submissions.mp hy
    exact h st hst st' hst' p p' hp hp' hsame

end

/-- One proof pays the employee in two periods, under two nullifiers. -/
theorem proof_pays_twice :
    let inputs := Sample.deployed ++
      [Sample.companyCall 0 (.executePayment (Sample.payment 0 1 1)),
        Sample.companyCall 0 (.closePeriod 0 1), Sample.companyCall 0 (.createPeriod 0),
        Sample.companyCall 0 (.executePayment (Sample.payment 0 2 2))]
    let once : Proven := ⟨Sample.proof, some (Sample.digest 1), 100⟩
    submissions (steps next System.genesis inputs) =
        [(once, Sample.digest 1), (once, Sample.digest 2)] ∧
      ¬ ((submissions (steps next System.genesis inputs)).map (·.1)).Nodup := by
  intro inputs once
  have hboth : submissions (steps next System.genesis inputs) =
      [(once, Sample.digest 1), (once, Sample.digest 2)] := by decide +kernel
  refine ⟨hboth, ?_⟩
  rw [hboth]
  simp

end ZkPayroll.PaymentExecutor
