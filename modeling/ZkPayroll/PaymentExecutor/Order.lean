import ZkPayroll.Host.Reorder
import ZkPayroll.PaymentExecutor.Ledger

/-!
# The order of payments in a batch

A batch pays one company's employees in one period out of one treasury. Two of
its payments can be exchanged: they have different employees and nullifiers, the
count and the total only add up, and as no employee is the treasury the balances
do too. So can the whole batch be put into another order, and it is accepted in
the one exactly when it is in the other.
-/

namespace ZkPayroll.PaymentExecutor

open Host

/-- The two systems have the same storages and balances. Only the log of the
transfers, which no function reads, may be different. -/
structure SameLedger (w w' : System) : Prop where
  executor : w.executor = w'.executor
  registries : w.registries = w'.registries
  commitments : w.commitments = w'.commitments
  tokens : w.tokens = w'.tokens

/-- One payment goes through. -/
def PaysOne (e : LedgerEnv) (p : PaymentRequest) (w w' : System) : Prop :=
  ∃ r, Payable e p w r ∧ w' = w.paid e p r

def ApartFromTreasury (w : System) (companyId : Nat) (employee : Address) : Prop :=
  ∀ addresses company, w.executor.get .addresses = some addresses →
    (w.registries addresses.registry).get (.company companyId) = some company →
    employee ≠ company.treasury

structure Bounded (w : System) : Prop where
  sane : ∀ asset, Token.Sane (w.tokens asset)
  totals : ∀ companyId, InI128 (getTotalPaid w.executor companyId)

/-- What the payments rely on when they are exchanged. -/
structure Orderly (ps : List PaymentRequest) (w : System) : Prop extends Bounded w where
  apart : ∀ p ∈ ps, ApartFromTreasury w p.companyId p.employee

def OneBatch (ps : List PaymentRequest) : Prop :=
  ∀ p ∈ ps, ∀ q ∈ ps, p.companyId = q.companyId ∧ p.period = q.period

/-- The batch with the six arrays rearranged in the same way. -/
def BatchRequest.permuted (b : BatchRequest) (σ : Equiv.Perm (Fin b.employees.length)) :
    BatchRequest where
  companyId := b.companyId
  employees := rearranged σ b.employees
  amounts := rearranged σ b.amounts
  proofsA := rearranged σ b.proofsA
  proofsB := rearranged σ b.proofsB
  proofsC := rearranged σ b.proofsC
  nullifiers := rearranged σ b.nullifiers
  period := b.period

section
variable {e : LedgerEnv} {s : Storage} {w w' : System} {p q : PaymentRequest} {r r' : Reads}
  {ps : List PaymentRequest}

theorem SameLedger.equivalence : Equivalence SameLedger where
  refl _ := ⟨rfl, rfl, rfl, rfl⟩
  symm h := ⟨h.executor.symm, h.registries.symm, h.commitments.symm, h.tokens.symm⟩
  trans h h' := ⟨h.executor.trans h'.executor, h.registries.trans h'.registries,
    h.commitments.trans h'.commitments, h.tokens.trans h'.tokens⟩

theorem pays_iff_acts : Pays e ps w w' ↔ Acts (PaysOne e) ps w w' := by
  constructor
  · intro h
    induction h with
    | nil w => exact .nil w
    | cons p r hpayable _ ih => exact .cons ⟨r, hpayable, rfl⟩ ih
  · intro h
    induction h with
    | nil w => exact .nil w
    | cons first _ ih =>
      obtain ⟨r, hpayable, rfl⟩ := first
      exact .cons _ r hpayable ih

-- ---------------------------------------------------------------------------
-- One payment in another place
-- ---------------------------------------------------------------------------

theorem paidStorage_config (hk : DataKey.isConfig k = true) :
    (paidStorage e p period s).get k = s.get k := by
  cases k <;> simp_all [paidStorage, DataKey.isConfig]

/-- A payment can be made in another system when what it reads and does not
write is the same there, and the rest has room for it. -/
theorem Payable.move (h : Payable e p w r)
    (hconfig : ∀ k, DataKey.isConfig k = true → w'.executor.get k = w.executor.get k)
    (hregistries : w'.registries = w.registries) (hcommitments : w'.commitments = w.commitments)
    (hperiod : w'.executor.get (.period p.companyId p.period) =
      some { r.period with paymentCount := count })
    (hunspent : w'.executor.get (.nullifier p.nullifier) = none)
    (hunpaid : w'.executor.get (.payment p.employee p.period) = none)
    (htransfer : Token.transfer (w'.tokens r.addresses.token) r.company.treasury p.employee
      p.amount = .ok balances)
    (hcount : count + 1 ≤ u32Max)
    (htotal : InI128 (getTotalPaid w'.executor p.companyId + p.amount)) :
    Payable e p w' ⟨r.addresses, { r.period with paymentCount := count }, r.stored, r.company,
      balances⟩ where
  configured := (hconfig _ rfl).trans h.configured
  unpaused := by
    rw [Paused, hconfig _ rfl]
    exact h.unpaused
  inPeriod := hperiod
  periodOpen := h.periodOpen
  unexpired := h.unexpired
  unspent := hunspent
  unpaid := hunpaid
  committed := by
    rw [hcommitments]
    exact h.committed
  registered := by
    rw [hregistries]
    exact h.registered
  adminAuth := h.adminAuth
  treasuryAuth := h.treasuryAuth
  proven := h.proven
  allowed := by
    rw [isAssetAllowed, hconfig _ rfl]
    exact h.allowed
  decimals := by
    rw [getAssetDecimals, hconfig _ rfl]
    exact h.decimals
  nonneg := h.nonneg
  normalised := by
    rw [getAssetDecimals, hconfig _ rfl]
    exact h.normalised
  transferred := htransfer
  counted := hcount
  totalFits := htotal

theorem PaysOne.respects (hsame : SameLedger w w') (h : PaysOne e p w u) :
    ∃ u', PaysOne e p w' u' ∧ SameLedger u u' := by
  obtain ⟨r, hp, rfl⟩ := h
  refine ⟨w'.paid e p r, ⟨r, ?_, rfl⟩, ?_⟩
  · refine hp.move (fun k _ => by rw [hsame.executor]) hsame.registries.symm hsame.commitments.symm
      ?_ ?_ ?_ ?_ hp.counted ?_
    · rw [← hsame.executor]
      exact hp.inPeriod
    · rw [← hsame.executor]
      exact hp.unspent
    · rw [← hsame.executor]
      exact hp.unpaid
    · rw [← hsame.tokens]
      exact hp.transferred
    · rw [← hsame.executor]
      exact hp.totalFits
  · constructor
    · rw [paid_executor, paid_executor, hsame.executor]
    · exact hsame.registries
    · exact hsame.commitments
    · simp [System.paid, hsame.tokens]

theorem Bounded.pay (h : Bounded w) (hp : Payable e p w r) : Bounded (w.paid e p r) where
  sane asset := by
    by_cases hasset : asset = r.addresses.token
    · subst hasset
      simpa [System.paid] using Token.transfer_sane (h.sane _) hp.transferred
    · simpa [System.paid, hasset] using h.sane asset
  totals companyId := by
    rw [paid_executor, paidStorage_total]
    split_ifs with hcompany
    · subst hcompany
      exact hp.totalFits
    · simpa using h.totals companyId

theorem Bounded.pays (h : Bounded w) (hp : Pays e ps w w') : Bounded w' := by
  induction hp with
  | nil => exact h
  | cons p r hpayable _ ih => exact ih (h.pay hpayable)

theorem Orderly.pay (h : Orderly ps w) (hp : Payable e p w r) : Orderly ps (w.paid e p r) where
  toBounded := h.toBounded.pay hp
  apart q hq addresses company haddresses := by
    rw [paid_executor, paidStorage_config rfl] at haddresses
    exact h.apart q hq addresses company haddresses

-- ---------------------------------------------------------------------------
-- Two payments
-- ---------------------------------------------------------------------------

def PayrollPeriod.counted (period : PayrollPeriod) : PayrollPeriod :=
  { period with paymentCount := period.paymentCount + 1 }

theorem paidStorage_period (hcompany : q.companyId = p.companyId) (hperiod : q.period = p.period) :
    (paidStorage e p period s).get (.period q.companyId q.period) = some period.counted := by
  rw [hcompany, hperiod]
  simp [paidStorage, PayrollPeriod.counted]

theorem paidStorage_swap (hcompany : q.companyId = p.companyId) (hperiod : q.period = p.period)
    (hemployee : q.employee ≠ p.employee) (hnullifier : q.nullifier ≠ p.nullifier) :
    paidStorage e q period.counted (paidStorage e p period s) =
      paidStorage e p period.counted (paidStorage e q period s) := by
  refine Store.ext_get fun k => ?_
  cases k with
  | payment employee number =>
    simp only [paidStorage_payment, hperiod]
    by_cases h : employee = p.employee
    · subst h
      simp [Ne.symm hemployee]
    · simp [h]
  | nullifier n =>
    simp only [paidStorage_nullifier]
    by_cases h : n = p.nullifier
    · subst h
      simp [Ne.symm hnullifier]
    · simp [h]
  | period companyId number =>
    unfold paidStorage
    rw [hcompany, hperiod]
    by_cases h : DataKey.period companyId number = .period p.companyId p.period
    · rw [h]
      simp
    · simp [h]
  | totalPaid companyId =>
    unfold paidStorage
    rw [hcompany]
    by_cases h : companyId = p.companyId
    · subst h
      simp [getTotalPaid, add_right_comm]
    · simp [h]
  | periodSequence companyId => simp [paidStorage]
  | _ => rw [paidStorage_config rfl, paidStorage_config rfl, paidStorage_config rfl,
      paidStorage_config rfl]

theorem second_reads (hcompany : q.companyId = p.companyId) (hperiod : q.period = p.period)
    (hp : Payable e p w r) (hq : Payable e q (w.paid e p r) r') :
    r'.addresses = r.addresses ∧ r'.company = r.company ∧ r'.period = r.period.counted := by
  have haddresses : r'.addresses = r.addresses := by
    have h := hq.configured
    rw [paid_executor, paidStorage_config rfl] at h
    exact Store.get_inj h hp.configured
  refine ⟨haddresses, ?_, ?_⟩
  · have h := hq.registered
    rw [haddresses, hcompany] at h
    exact Store.get_inj h hp.registered
  · have h := hq.inPeriod
    rw [paid_executor, paidStorage_period hcompany hperiod] at h
    exact (Option.some.inj h).symm

theorem second_apart (hperiod : q.period = p.period) (hq : Payable e q (w.paid e p r) r') :
    (q.employee ≠ p.employee ∧ w.executor.get (.payment q.employee q.period) = none) ∧
      q.nullifier ≠ p.nullifier ∧ w.executor.get (.nullifier q.nullifier) = none := by
  have hunpaid := hq.unpaid
  have hunspent := hq.unspent
  rw [paid_executor, paidStorage_payment] at hunpaid
  rw [paid_executor, paidStorage_nullifier] at hunspent
  refine ⟨⟨?_, ?_⟩, ?_, ?_⟩
  · intro hsame
    simp [hsame, hperiod] at hunpaid
  · split_ifs at hunpaid
    exact hunpaid
  · intro hsame
    simp [hsame] at hunspent
  · split_ifs at hunspent
    exact hunspent

theorem Payable.before (hs : Orderly ps w) (hpmem : p ∈ ps) (hqmem : q ∈ ps)
    (hcompany : q.companyId = p.companyId) (hperiod : q.period = p.period)
    (hp : Payable e p w r) (hq : Payable e q (w.paid e p r) r') :
    ∃ balances, Payable e q w ⟨r.addresses, r.period, r'.stored, r.company, balances⟩ ∧
      Token.transfer balances r.company.treasury p.employee p.amount = .ok r'.balances := by
  obtain ⟨haddresses, hcompanies, hperiods⟩ := second_reads hcompany hperiod hp hq
  obtain ⟨⟨hemployee, hunpaid⟩, -, hunspent⟩ := second_apart hperiod hq
  have htreasury := hs.apart p hpmem r.addresses r.company hp.configured hp.registered
  have htreasury' : q.employee ≠ r.company.treasury := by
    refine hs.apart q hqmem r.addresses r.company hp.configured ?_
    rw [hcompany]
    exact hp.registered
  have htransfer : Token.transfer r.balances r.company.treasury q.employee q.amount =
      .ok r'.balances := by
    have h := hq.transferred
    rw [haddresses, hcompanies] at h
    simpa [System.paid] using h
  obtain ⟨balances, hfirst, hsecond⟩ := Token.transfer_swap (hs.sane r.addresses.token)
    htreasury htreasury' (Ne.symm hemployee) hp.transferred htransfer
  refine ⟨balances, ?_, hsecond⟩
  -- without the first payment the count and the total are no larger
  have htotal := hs.totals p.companyId
  have hsum := hq.totalFits
  have hnonneg := hp.nonneg
  have hnonneg' := hq.nonneg
  rw [paid_executor, paidStorage_total, if_pos hcompany.symm, hcompany] at hsum
  have hmoved : Payable e q w ⟨r.addresses,
      { r'.period with paymentCount := r.period.paymentCount }, r'.stored, r.company, balances⟩ := by
    rw [← haddresses, ← hcompanies]
    refine hq.move (fun k hk => (paidStorage_config hk).symm) rfl rfl ?_ hunspent hunpaid ?_ ?_ ?_
    · rw [hcompany, hperiod, hperiods]
      exact hp.inPeriod
    · rw [haddresses, hcompanies]
      exact hfirst
    · exact hp.counted
    · rw [hcompany]
      exact ⟨by have := htotal.1; omega, by have := hsum.2; omega⟩
  rw [hperiods] at hmoved
  exact hmoved

theorem PaysOne.swap (hs : Orderly ps w) (hpmem : p ∈ ps) (hqmem : q ∈ ps)
    (hcompany : q.companyId = p.companyId) (hperiod : q.period = p.period)
    (h : PaysOne e p w t) (h' : PaysOne e q t u) :
    ∃ t' u', PaysOne e q w t' ∧ PaysOne e p t' u' ∧ SameLedger u u' := by
  obtain ⟨r, hp, rfl⟩ := h
  obtain ⟨r', hq, rfl⟩ := h'
  obtain ⟨haddresses, -, hperiods⟩ := second_reads hcompany hperiod hp hq
  obtain ⟨⟨hemployee, -⟩, hnullifier, -⟩ := second_apart hperiod hq
  obtain ⟨balances, hfirst, htransfer⟩ := hp.before hs hpmem hqmem hcompany hperiod hq
  have hcount := hq.counted
  have hsum := hq.totalFits
  rw [hperiods] at hcount
  rw [paid_executor, paidStorage_total, if_pos hcompany.symm, hcompany] at hsum
  have hsecond : Payable e p (w.paid e q ⟨r.addresses, r.period, r'.stored, r.company, balances⟩)
      ⟨r.addresses, r.period.counted, r.stored, r.company, r'.balances⟩ := by
    refine hp.move (fun k hk => paidStorage_config hk) rfl rfl ?_ ?_ ?_ ?_ ?_ ?_
    · exact paidStorage_period hcompany.symm hperiod.symm
    · rw [paid_executor, paidStorage_nullifier, if_neg (Ne.symm hnullifier)]
      exact hp.unspent
    · rw [paid_executor, paidStorage_payment, if_neg fun h => hemployee h.1.symm]
      exact hp.unpaid
    · simpa [System.paid] using htransfer
    · exact hcount
    · rw [paid_executor, paidStorage_total, if_pos hcompany, add_right_comm]
      exact hsum
  refine ⟨_, _, ⟨_, hfirst, rfl⟩, ⟨_, hsecond, rfl⟩, ?_, rfl, rfl, ?_⟩
  · rw [paid_executor, paid_executor, paid_executor, paid_executor, hperiods]
    exact paidStorage_swap hcompany hperiod hemployee hnullifier
  · simp [System.paid, haddresses]

theorem OneBatch.exchangeable (hbatch : OneBatch ps) :
    Exchangeable (PaysOne e) SameLedger (Orderly ps) (· ∈ ps) where
  equivalence := SameLedger.equivalence
  keeps _ h := by
    rintro ⟨r, hp, rfl⟩
    exact h.pay hp
  respects := PaysOne.respects
  swap hp hq hs h h' :=
    PaysOne.swap hs hp hq (hbatch _ hq _ hp).1 (hbatch _ hq _ hp).2 h h'

-- ---------------------------------------------------------------------------
-- The permuted batch
-- ---------------------------------------------------------------------------

variable {b : BatchRequest} {σ : Equiv.Perm (Fin b.employees.length)}

theorem permuted_shapeOk : (b.permuted σ).ShapeOk ↔ b.ShapeOk := by
  simp [BatchRequest.ShapeOk, BatchRequest.permuted]

theorem permuted_requests (h : b.ShapeOk) :
    (b.permuted σ).requests = rearranged σ b.requests := by
  obtain ⟨hamounts, hA, hB, hC, hnullifiers, -⟩ := h
  simp only [BatchRequest.requests, BatchRequest.permuted]
  rw [rearranged_map _ (by simp [hamounts, hA, hB, hC, hnullifiers]),
    rearranged_zip rfl (by simp [hamounts, hA, hB, hC, hnullifiers]),
    rearranged_zip hamounts (by simp [hA, hB, hC, hnullifiers]),
    rearranged_zip hA (by simp [hB, hC, hnullifiers]),
    rearranged_zip hB (by simp [hC, hnullifiers]), rearranged_zip hC hnullifiers]

theorem requests_oneBatch (b : BatchRequest) : OneBatch b.requests := by
  intro p hp q hq
  rw [(mem_requests hp).1, (mem_requests hp).2, (mem_requests hq).1, (mem_requests hq).2]
  exact ⟨rfl, rfl⟩

theorem requests_employee (h : p ∈ b.requests) : p.employee ∈ b.employees := by
  obtain ⟨entry, hentry, rfl⟩ := List.mem_map.mp h
  exact (List.of_mem_zip hentry).1

-- ---------------------------------------------------------------------------
-- Reached systems
-- ---------------------------------------------------------------------------

theorem next_sane (hm : ∀ call, i.message ≠ .executor call)
    (h : ∀ asset, Token.Sane (w.tokens asset)) (asset : Address) :
    Token.Sane ((next w i).tokens asset) := by
  cases hd : deliver i.env i.message w with
  | error err =>
    rw [next_failed hd]
    exact h asset
  | ok result =>
    obtain ⟨ret, w'⟩ := result
    rw [next_ok hd]
    cases hmessage : i.message with
    | executor call => exact absurd hmessage (hm call)
    | registry id call | commitment id call =>
      simp only [hmessage, deliver, bind_ok, orPanic_ok, pure_ok, Prod.mk.injEq] at hd
      obtain ⟨_, -, -, rfl⟩ := hd
      exact h asset
    | token id call =>
      simp only [hmessage, deliver, bind_ok, orPanic_ok, pure_ok, Prod.mk.injEq] at hd
      obtain ⟨balances, hexec, -, rfl⟩ := hd
      by_cases hasset : asset = id
      · subst hasset
        simpa using Token.exec_sane (h asset) hexec
      · simpa [hasset] using h asset

theorem next_bounded (w : System) (i : Input) (h : Bounded w) : Bounded (next w i) := by
  rcases next_ledger w i with hpays | ⟨hnone, hkept, -⟩
  · exact h.pays hpays
  refine ⟨?_, fun companyId => ?_⟩
  · by_cases hm : ∃ call, i.message = .executor call
    · obtain ⟨call, hm⟩ := hm
      rw [next_unpaid_tokens hm hnone]
      exact h.sane
    · exact next_sane (fun call hcall => hm ⟨call, hcall⟩) h.sane
  · rw [getTotalPaid, hkept.totals]
    exact h.totals companyId

theorem reached_bounded (h : Reached w) : Bounded w := by
  refine run_invariant ?_ next_bounded h
  refine ⟨fun _ => Token.sane_empty, fun companyId => ?_⟩
  simp [System.genesis, getTotalPaid, InI128, i128Min, i128Max]

/-- The batch goes through in every order when it does in one, to the same
storages and balances. -/
theorem Pays.perm (hw : Orderly ps w) (hbatch : OneBatch ps) (hperm : ps.Perm ps')
    (h : Pays e ps w w') : ∃ u, Pays e ps' w u ∧ SameLedger w' u := by
  obtain ⟨u, hacts, hsame⟩ := hbatch.exchangeable.acts_perm hperm (fun _ => id) hw
    (pays_iff_acts.mp h)
  exact ⟨u, pays_iff_acts.mpr hacts, hsame⟩

theorem batch_perm (hw : Orderly b.requests w) (hperm : b.requests.Perm b'.requests)
    (hshape : b'.ShapeOk) (h : executeBatchPayroll e b w = .ok (records, after)) :
    ∃ records' after', executeBatchPayroll e b' w = .ok (records', after') ∧
      SameLedger after after' ∧ records.Perm records' := by
  obtain ⟨-, hpays, rfl⟩ := executeBatchPayroll_ok.mp h
  obtain ⟨after', hpays', hsame⟩ := hpays.perm hw (requests_oneBatch b) hperm
  exact ⟨_, after', executeBatchPayroll_ok.mpr ⟨hshape, hpays', rfl⟩, hsame, hperm.map _⟩

/-- Whatever the order of the entries of a batch, in which no employee is the
treasury, it is accepted in the one order when it is in the other. Then the
storages and the balances are the same after both, and so are the records up to
their order. -/
theorem batch_order_irrelevant (hw : Reached w) (e : LedgerEnv) (b : BatchRequest)
    (hapart : ∀ employee ∈ b.employees, ApartFromTreasury w b.companyId employee)
    (σ : Equiv.Perm (Fin b.employees.length)) :
    ((∃ records after, executeBatchPayroll e b w = .ok (records, after)) ↔
      ∃ records after, executeBatchPayroll e (b.permuted σ) w = .ok (records, after)) ∧
    ∀ records after records' after', executeBatchPayroll e b w = .ok (records, after) →
      executeBatchPayroll e (b.permuted σ) w = .ok (records', after') →
      SameLedger after after' ∧ records.Perm records' := by
  have horderly : Orderly b.requests w := by
    refine ⟨reached_bounded hw, fun p hp => ?_⟩
    rw [(mem_requests hp).1]
    exact hapart p.employee (requests_employee hp)
  have hperm : b.ShapeOk → b.requests.Perm (b.permuted σ).requests := by
    intro hshape
    rw [permuted_requests hshape]
    exact (rearranged_perm σ b.requests).symm
  refine ⟨⟨?_, ?_⟩, ?_⟩
  · rintro ⟨records, after, h⟩
    have hshape := (executeBatchPayroll_ok.mp h).1
    obtain ⟨records', after', h', -⟩ :=
      batch_perm horderly (hperm hshape) (permuted_shapeOk.mpr hshape) h
    exact ⟨records', after', h'⟩
  · rintro ⟨records, after, h⟩
    have hshape := permuted_shapeOk.mp (executeBatchPayroll_ok.mp h).1
    have horderly' : Orderly (b.permuted σ).requests w :=
      ⟨horderly.toBounded, fun p hp => horderly.apart p ((hperm hshape).mem_iff.mpr hp)⟩
    obtain ⟨records', after', h', -⟩ := batch_perm horderly' (hperm hshape).symm hshape h
    exact ⟨records', after', h'⟩
  · intro records after records' after' h h'
    have hshape := (executeBatchPayroll_ok.mp h).1
    obtain ⟨other, there, hother, hsame, hrecords⟩ :=
      batch_perm horderly (hperm hshape) (permuted_shapeOk.mpr hshape) h
    rw [hother] at h'
    cases h'
    exact ⟨hsame, hrecords⟩

theorem batch_swapped :
    let bob : Address := ⟨8⟩
    let w := runFrom next System.genesis (Sample.deployed ++ [⟨Sample.env [Sample.owner],
      .commitment Sample.commitment (.storeCommitment bob (Sample.digest 2))⟩])
    let e := Sample.env [Sample.hr 0, Sample.treasury 0]
    let b : BatchRequest := ⟨0, [Sample.alice, bob], [100, 200], [BytesN.zero, BytesN.zero],
      [BytesN.zero, BytesN.zero], [BytesN.zero, BytesN.zero], [Sample.digest 1, Sample.digest 2], 1⟩
    let swapped := b.permuted (Equiv.swap ⟨0, by decide⟩ ⟨1, by decide⟩)
    swapped.employees = [bob, Sample.alice] ∧ swapped.amounts = [200, 100] ∧
      ∃ records after records' after', executeBatchPayroll e b w = .ok (records, after) ∧
        executeBatchPayroll e swapped w = .ok (records', after') ∧ SameLedger after after' ∧
        records.Perm records' := by
  intro bob w e b swapped
  have hapart : ∀ employee ∈ b.employees, ApartFromTreasury w b.companyId employee := by
    intro employee hemployee addresses company haddresses hcompany
    have haddresses' : w.executor.get .addresses = some Sample.addresses := by decide +kernel
    obtain rfl := Store.get_inj haddresses haddresses'
    have htreasury : ((w.registries Sample.addresses.registry).get (.company b.companyId)).map
        (·.treasury) = some (Sample.treasury 0) := by decide +kernel
    rw [hcompany] at htreasury
    have hsame : company.treasury = Sample.treasury 0 := Option.some.inj htreasury
    rw [hsame]
    revert employee
    decide
  obtain ⟨hiff, hsame⟩ := batch_order_irrelevant ⟨_, rfl⟩ e b hapart
    (Equiv.swap ⟨0, by decide⟩ ⟨1, by decide⟩)
  have hok : ∃ records after, executeBatchPayroll e b w = .ok (records, after) := by
    have hpaid : (executeBatchPayroll e b w).isOk = true := by decide +kernel
    cases h : executeBatchPayroll e b w with
    | error err =>
      rw [h] at hpaid
      cases hpaid
    | ok result => exact ⟨result.1, result.2, rfl⟩
  obtain ⟨records, after, h⟩ := hok
  obtain ⟨records', after', h'⟩ := hiff.mp ⟨records, after, h⟩
  obtain ⟨hledger, hrecords⟩ := hsame records after records' after' h h'
  exact ⟨by decide, by decide, records, after, records', after', h, h', hledger, hrecords⟩

end

end ZkPayroll.PaymentExecutor
