import ZkPayroll.PaymentExecutor.Steps

/-!
# The executor's ledger

A payment moves five entries at once: the record under employee and period,
the nullifier, the count of the period, the total of the company and the
token balances. The invariant compares each of them with the list of payments
carried out so far, so that they agree with one another in every reachable
system, over any number of companies, periods and batches.
-/

namespace ZkPayroll.PaymentExecutor

open Host

-- ---------------------------------------------------------------------------
-- Amounts, records and transfers
-- ---------------------------------------------------------------------------

def paidBy (companyId : Nat) (ps : List PaymentRequest) : Int :=
  ((ps.filter fun p => p.companyId = companyId).map (·.amount)).sum

def transferredFor (companyId : Nat) (ts : List Transfer) : Int :=
  ((ts.filter fun t => t.companyId = companyId).map (·.amount)).sum

def recordWeight (companyId period : Nat) : (k : DataKey) → k.Val → Nat
  | .payment _ other, record => if other = period ∧ record.companyId = companyId then 1 else 0
  | _, _ => 0

def recordsIn (s : Storage) (companyId period : Nat) : Nat :=
  s.total (recordWeight companyId period)

def sent (asset a : Address) (ts : List Transfer) : Int :=
  ((ts.filter fun t => t.asset = asset ∧ t.source = a).map (·.amount)).sum

def received (asset a : Address) (ts : List Transfer) : Int :=
  ((ts.filter fun t => t.asset = asset ∧ t.dest = a).map (·.amount)).sum

/-- Every balance of every token changed by what the transfers moved. -/
def Moved (w w' : System) (ts : List Transfer) : Prop :=
  ∀ asset a, Token.balance (w'.tokens asset) a =
    Token.balance (w.tokens asset) a - sent asset a ts + received asset a ts

/-- Every transfer comes out of the treasury the registry has for its
company. -/
def FromTreasuries (w : System) (ts : List Transfer) : Prop :=
  ∀ t ∈ ts, ∃ addresses company, w.executor.get .addresses = some addresses ∧
    (w.registries addresses.registry).get (.company t.companyId) = some company ∧
    t.source = company.treasury ∧ t.asset = addresses.token

/-- The ledger agrees with the payments carried out. -/
structure Consistent (paid : List PaymentRequest) (w : System) : Prop where
  totals : ∀ companyId, getTotalPaid w.executor companyId = paidBy companyId paid
  log : ∀ companyId, transferredFor companyId w.transfers = paidBy companyId paid
  counts : ∀ companyId period,
    paymentCount w.executor companyId period = recordsIn w.executor companyId period
  stored : ∀ employee period record, w.executor.get (.payment employee period) = some record →
    ∃ p ∈ paid, p.employee = employee ∧ p.period = period ∧ p.companyId = record.companyId ∧
      p.nullifier = record.proofHash
  recorded : ∀ p ∈ paid, ∃ record, w.executor.get (.payment p.employee p.period) = some record ∧
    record.companyId = p.companyId
  spent : ∀ p ∈ paid, w.executor.get (.nullifier p.nullifier) = some true
  nullifiers : (paid.map (·.nullifier)).Nodup

section
variable {e : LedgerEnv} {s s' : Storage} {w w' : System} {i : Input} {paid ps : List PaymentRequest}

theorem paidBy_append (companyId : Nat) (first second : List PaymentRequest) :
    paidBy companyId (first ++ second) = paidBy companyId first + paidBy companyId second := by
  simp [paidBy]

theorem paidBy_singleton (companyId : Nat) (p : PaymentRequest) :
    paidBy companyId [p] = if p.companyId = companyId then p.amount else 0 := by
  unfold paidBy
  split_ifs with h <;> simp [h]

theorem transferredFor_cons (companyId : Nat) (t : Transfer) (ts : List Transfer) :
    transferredFor companyId (t :: ts) =
      (if t.companyId = companyId then t.amount else 0) + transferredFor companyId ts := by
  unfold transferredFor
  split_ifs with h <;> simp [h]

theorem sent_append (asset a : Address) (first second : List Transfer) :
    sent asset a (first ++ second) = sent asset a first + sent asset a second := by
  simp [sent]

theorem received_append (asset a : Address) (first second : List Transfer) :
    received asset a (first ++ second) = received asset a first + received asset a second := by
  simp [received]

theorem sent_singleton (asset a : Address) (t : Transfer) :
    sent asset a [t] = if t.asset = asset ∧ t.source = a then t.amount else 0 := by
  unfold sent
  split_ifs with h <;> simp [h]

theorem received_singleton (asset a : Address) (t : Transfer) :
    received asset a [t] = if t.asset = asset ∧ t.dest = a then t.amount else 0 := by
  unfold received
  split_ifs with h <;> simp [h]

theorem recordWeight_other {k : DataKey} (hk : ∀ employee other, k ≠ .payment employee other) :
    Store.weightAt (recordWeight companyId period) s k = 0 := by
  unfold Store.weightAt
  cases s.get k with
  | none => rfl
  | some value =>
    cases k with
    | payment employee other => exact absurd rfl (hk employee other)
    | _ => rfl

theorem recordsIn_congr (h : ∀ employee period, s'.get (.payment employee period) =
    s.get (.payment employee period)) (companyId period : Nat) :
    recordsIn s' companyId period = recordsIn s companyId period := by
  refine Store.total_congr fun k => ?_
  cases k with
  | payment employee other => simp [Store.weightAt, h]
  | _ => rw [recordWeight_other (by simp), recordWeight_other (by simp)]

-- ---------------------------------------------------------------------------
-- One payment
-- ---------------------------------------------------------------------------

theorem paidStorage_payment (employee : Address) (period' : Nat) :
    (paidStorage e p period s).get (.payment employee period') =
      if employee = p.employee ∧ period' = p.period then some (p.record e)
      else s.get (.payment employee period') := by
  unfold paidStorage
  split_ifs with h
  · obtain ⟨rfl, rfl⟩ := h
    simp
  · have hne : DataKey.payment employee period' ≠ .payment p.employee p.period := by simpa using h
    simp [hne]

theorem paidStorage_nullifier (nullifier : BytesN 32) :
    (paidStorage e p period s).get (.nullifier nullifier) =
      if nullifier = p.nullifier then some true else s.get (.nullifier nullifier) := by
  unfold paidStorage
  split_ifs with h
  · subst h
    simp
  · simp [h]

theorem paidStorage_total (companyId : Nat) :
    getTotalPaid (paidStorage e p period s) companyId =
      getTotalPaid s companyId + if p.companyId = companyId then p.amount else 0 := by
  unfold paidStorage
  split_ifs with h
  · subst h
    simp [getTotalPaid]
  · simp [getTotalPaid, Ne.symm h]

theorem paidStorage_count (hperiod : s.get (.period p.companyId p.period) = some period)
    (companyId period' : Nat) :
    paymentCount (paidStorage e p period s) companyId period' =
      paymentCount s companyId period' +
        if period' = p.period ∧ companyId = p.companyId then 1 else 0 := by
  unfold paidStorage
  split_ifs with h
  · obtain ⟨rfl, rfl⟩ := h
    simp [paymentCount, hperiod]
  · have hne : DataKey.period companyId period' ≠ .period p.companyId p.period := by
      simp only [ne_eq, DataKey.period.injEq]
      tauto
    simp [paymentCount, hne]

theorem paidStorage_records (hunpaid : s.get (.payment p.employee p.period) = none)
    (companyId period' : Nat) :
    recordsIn (paidStorage e p period s) companyId period' =
      recordsIn s companyId period' +
        if period' = p.period ∧ companyId = p.companyId then 1 else 0 := by
  have hpayments : ∀ employee other, (paidStorage e p period s).get (.payment employee other) =
      (s.set (.payment p.employee p.period) (p.record e)).get (.payment employee other) := by
    intro employee other
    simp [paidStorage]
  rw [recordsIn_congr hpayments, recordsIn, Store.total_set_new hunpaid]
  simp [recordWeight, recordsIn, PaymentRequest.record, eq_comm]

theorem Consistent.pay (h : Consistent paid w) (hp : Payable e p w r) :
    Consistent (paid ++ [p]) (w.paid e p r) where
  totals companyId := by
    rw [paidBy_append, paidBy_singleton, ← h.totals companyId, paid_executor, paidStorage_total]
  log companyId := by
    rw [paidBy_append, paidBy_singleton, ← h.log companyId, add_comm]
    exact transferredFor_cons companyId _ _
  counts companyId period := by
    have hcount := paidStorage_count (e := e) hp.inPeriod companyId period
    rw [h.counts companyId period, ← paidStorage_records hp.unpaid] at hcount
    exact hcount
  stored employee period record hget := by
    rw [paid_executor, paidStorage_payment] at hget
    split_ifs at hget with hsame
    · obtain rfl := Option.some.inj hget
      exact ⟨p, by simp, hsame.1.symm, hsame.2.symm, rfl, rfl⟩
    · obtain ⟨q, hq, hrest⟩ := h.stored employee period record hget
      exact ⟨q, by simp [hq], hrest⟩
  recorded q hq := by
    rw [paid_executor, paidStorage_payment]
    rcases List.mem_append.mp hq with hold | hnew
    · obtain ⟨record, hrecord, hcompany⟩ := h.recorded q hold
      have hne : ¬ (q.employee = p.employee ∧ q.period = p.period) := by
        rintro ⟨hemployee, hperiod⟩
        have hunpaid := hp.unpaid
        rw [← hemployee, ← hperiod, hrecord] at hunpaid
        cases hunpaid
      rw [if_neg hne]
      exact ⟨record, hrecord, hcompany⟩
    · obtain rfl := List.mem_singleton.mp hnew
      rw [if_pos ⟨rfl, rfl⟩]
      exact ⟨q.record e, rfl, rfl⟩
  spent q hq := by
    rw [paid_executor, paidStorage_nullifier]
    rcases List.mem_append.mp hq with hold | hnew
    · split_ifs
      · rfl
      · exact h.spent q hold
    · obtain rfl := List.mem_singleton.mp hnew
      rw [if_pos rfl]
  nullifiers := by
    rw [List.map_append, List.nodup_append]
    refine ⟨h.nullifiers, by simp, ?_⟩
    rintro _ hold _ hnew rfl
    -- a nullifier of an earlier payment is marked, and this one was not
    obtain ⟨q, hq, hsame⟩ := List.mem_map.mp hold
    have hspent := h.spent q hq
    have hthis := List.mem_singleton.mp hnew
    rw [hsame, hthis, hp.unspent] at hspent
    cases hspent

theorem Consistent.pays (h : Consistent paid w) (hp : Pays e ps w w') :
    Consistent (paid ++ ps) w' := by
  induction hp generalizing paid with
  | nil => simpa using h
  | cons p r hpayable _ ih => simpa using ih (h.pay hpayable)

theorem Consistent.kept (h : Consistent paid w) (hkept : LedgerKept w.executor w'.executor)
    (hlog : w'.transfers = w.transfers) : Consistent paid w' where
  totals companyId := by
    rw [getTotalPaid, hkept.totals]
    exact h.totals companyId
  log companyId := by
    rw [hlog]
    exact h.log companyId
  counts companyId period := by
    rw [hkept.counts, recordsIn_congr hkept.payments]
    exact h.counts companyId period
  stored employee period record hget := by
    rw [hkept.payments] at hget
    exact h.stored employee period record hget
  recorded p hp := by
    rw [hkept.payments]
    exact h.recorded p hp
  spent p hp := by
    rw [hkept.nullifiers]
    exact h.spent p hp
  nullifiers := h.nullifiers

theorem consistent_run (inputs : List Input) :
    Consistent (payments (steps next System.genesis inputs)) (runFrom next System.genesis inputs) := by
  refine history_invariant (I := fun hist w => Consistent (payments hist) w) ?_ ?_ inputs
  · exact ⟨fun _ => rfl, fun _ => rfl, fun _ _ => rfl, by simp [System.genesis], by simp [payments],
      by simp [payments], by simp [payments]⟩
  · intro hist w i h
    rw [payments_snoc]
    rcases next_ledger w i with hpays | ⟨hnone, hkept, hlog⟩
    · exact h.pays hpays
    · rw [hnone, List.append_nil]
      exact h.kept hkept hlog

-- ---------------------------------------------------------------------------
-- Stored records
-- ---------------------------------------------------------------------------

theorem Pays.record_kept (hp : Pays e ps w w')
    (h : w.executor.get (.payment employee period) = some record) :
    w'.executor.get (.payment employee period) = some record := by
  induction hp with
  | nil => exact h
  | cons p r hpayable _ ih =>
    refine ih ?_
    have hne : ¬ (employee = p.employee ∧ period = p.period) := by
      rintro ⟨rfl, rfl⟩
      have hunpaid := hpayable.unpaid
      rw [h] at hunpaid
      cases hunpaid
    rw [paid_executor, paidStorage_payment, if_neg hne]
    exact h

theorem next_record_kept (h : w.executor.get (.payment employee period) = some record) :
    (next w i).executor.get (.payment employee period) = some record := by
  rcases next_ledger w i with hpays | ⟨-, hkept, -⟩
  · exact hpays.record_kept h
  · rw [hkept.payments]
    exact h

theorem run_record_kept (h : w.executor.get (.payment employee period) = some record)
    (later : List Input) :
    (runFrom next w later).executor.get (.payment employee period) = some record := by
  induction later generalizing w with
  | nil => exact h
  | cons i later ih => exact ih (next_record_kept h)

-- ---------------------------------------------------------------------------
-- Transfers
-- ---------------------------------------------------------------------------

theorem paid_moved (hp : Payable e p w r) : Moved w (w.paid e p r) [p.transfer r] := by
  obtain ⟨-, -, hbalance⟩ := Token.transfer_ok hp.transferred
  intro asset a
  rw [sent_singleton, received_singleton]
  by_cases hasset : asset = r.addresses.token
  · subst hasset
    have htokens : (w.paid e p r).tokens r.addresses.token = r.balances := by
      simp [System.paid]
    rw [htokens, hbalance]
    simp [PaymentRequest.transfer, eq_comm]
  · have htokens : (w.paid e p r).tokens asset = w.tokens asset := by
      simp [System.paid, hasset]
    rw [htokens]
    simp [PaymentRequest.transfer, Ne.symm hasset]

theorem Moved.trans {first second : List Transfer} (h : Moved w w₁ first) (h' : Moved w₁ w' second) :
    Moved w w' (second ++ first) := by
  intro asset a
  rw [h' asset a, h asset a, sent_append, received_append]
  omega

theorem Pays.transfers (hp : Pays e ps w w') :
    ∃ new, w'.transfers = new ++ w.transfers ∧ FromTreasuries w new ∧ Moved w w' new := by
  induction hp with
  | nil before => exact ⟨[], rfl, by simp [FromTreasuries], fun _ _ => by simp [sent, received]⟩
  | cons p r hpayable _ ih =>
    obtain ⟨new, hlog, hsource, hmoved⟩ := ih
    refine ⟨new ++ [p.transfer r], by simp [hlog, System.paid], ?_,
      (paid_moved hpayable).trans hmoved⟩
    intro t ht
    rcases List.mem_append.mp ht with hlater | hfirst
    · obtain ⟨addresses, company, haddresses, hrest⟩ := hsource t hlater
      exact ⟨addresses, company, by simpa [System.paid, paidStorage] using haddresses, hrest⟩
    · obtain rfl := List.mem_singleton.mp hfirst
      exact ⟨r.addresses, r.company, hpayable.configured, hpayable.registered, rfl, rfl⟩

theorem next_unpaid_tokens (hm : i.message = .executor call)
    (hnone : acceptedPayments ⟨w, i, next w i⟩ = []) : (next w i).tokens = w.tokens := by
  cases hd : deliver i.env i.message w with
  | error err => rw [next_failed hd]
  | ok result =>
    obtain ⟨ret, w'⟩ := result
    rw [next_ok hd] at hnone ⊢
    rw [hm] at hd
    rcases exec_ledger hm hd with hpays | ⟨-, -, hsame⟩
    · rw [hnone] at hpays
      cases hpays
      rfl
    · rw [hsame]

/-- What a transaction logs, it moved out of the treasuries; and an executor
call moves nothing else. -/
theorem next_transfers (w : System) (i : Input) :
    ∃ new, (next w i).transfers = new ++ w.transfers ∧ FromTreasuries w new ∧
      ((∃ call, i.message = .executor call) → Moved w (next w i) new) := by
  rcases next_ledger w i with hpays | ⟨hnone, -, hlog⟩
  · obtain ⟨new, hlog, hsource, hmoved⟩ := hpays.transfers
    exact ⟨new, hlog, hsource, fun _ => hmoved⟩
  · refine ⟨[], by simpa using hlog, by simp [FromTreasuries], ?_⟩
    rintro ⟨call, hm⟩
    intro asset a
    rw [next_unpaid_tokens hm hnone]
    simp [sent, received]

/-- In every run, over any number of companies: the total of a company is the
sum of its payments, and so is what was moved for it out of its treasuries;
a period's count is the number of records of its company in it; and a stored
record stays as it is, with its own nullifier marked. -/
theorem executor_ledger_consistent (inputs : List Input) :
    (∀ companyId,
      getTotalPaid (runFrom next System.genesis inputs).executor companyId =
          paidBy companyId (payments (steps next System.genesis inputs)) ∧
        transferredFor companyId (runFrom next System.genesis inputs).transfers =
          paidBy companyId (payments (steps next System.genesis inputs))) ∧
    (∀ st ∈ steps next System.genesis inputs, ∃ new,
      st.post.transfers = new ++ st.pre.transfers ∧ FromTreasuries st.pre new ∧
        ((∃ call, st.input.message = .executor call) → Moved st.pre st.post new)) ∧
    (∀ companyId period stored,
      (runFrom next System.genesis inputs).executor.get (.period companyId period) = some stored →
      stored.paymentCount =
        recordsIn (runFrom next System.genesis inputs).executor companyId period) ∧
    (∀ before after, inputs = before ++ after → ∀ employee period record,
      (runFrom next System.genesis before).executor.get (.payment employee period) = some record →
      (runFrom next System.genesis inputs).executor.get (.payment employee period) = some record) ∧
    (∀ employee period record,
      (runFrom next System.genesis inputs).executor.get (.payment employee period) = some record →
      (runFrom next System.genesis inputs).executor.get (.nullifier record.proofHash) = some true) ∧
    (∀ employee period record employee' period' record',
      (runFrom next System.genesis inputs).executor.get (.payment employee period) = some record →
      (runFrom next System.genesis inputs).executor.get (.payment employee' period') =
        some record' →
      record.proofHash = record'.proofHash → employee = employee' ∧ period = period') := by
  have h := consistent_run inputs
  refine ⟨fun companyId => ⟨h.totals companyId, h.log companyId⟩, ?_, ?_, ?_, ?_, ?_⟩
  · intro st hst
    rw [steps_post hst]
    exact next_transfers st.pre st.input
  · intro companyId period stored hstored
    rw [← h.counts, paymentCount, hstored]
    rfl
  · rintro before after rfl employee period record hget
    have hkept := run_record_kept hget after
    rwa [← runFrom_append] at hkept
  · intro employee period record hget
    obtain ⟨p, hp, -, -, -, hnullifier⟩ := h.stored employee period record hget
    rw [← hnullifier]
    exact h.spent p hp
  · intro employee period record employee' period' record' hget hget' hsame
    obtain ⟨p, hp, hemployee, hperiod, -, hnullifier⟩ := h.stored employee period record hget
    obtain ⟨q, hq, hemployee', hperiod', -, hnullifier'⟩ :=
      h.stored employee' period' record' hget'
    obtain rfl : p = q := List.inj_on_of_nodup_map h.nullifiers hp hq
      (by rw [hnullifier, hsame, hnullifier'])
    exact ⟨hemployee.symm.trans hemployee', hperiod.symm.trans hperiod'⟩

end

end ZkPayroll.PaymentExecutor
