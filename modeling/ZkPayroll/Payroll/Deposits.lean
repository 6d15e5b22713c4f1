import ZkPayroll.Payroll.Steps

/-!
# Deposits

A deposit moves tokens to the treasury, adds to the account of the depositor
and uses up an id that all depositors share. The accounts are what the
deposits made so far add up to.
-/

namespace ZkPayroll.Payroll

open Host

structure Deposit where
  depositor : Address
  amount : Int
  depositId : BytesN 32

def depositMade (st : Step World Input) : Option Deposit :=
  match performed st with
  | some (.deposit depositor amount depositId, _) => some ⟨depositor, amount, depositId⟩
  | _ => none

def deposits (hist : List (Step World Input)) : List Deposit := hist.filterMap depositMade

def depositedBy (d : Address) (hist : List (Step World Input)) : Int :=
  (((deposits hist).filter fun x => x.depositor = d).map Deposit.amount).sum

/-- The step took the amount from the depositor and gave it to the treasury,
unless they are the same, and touched no other balance. -/
def MovesDeposit (st : Step World Input) (x : Deposit) : Prop :=
  ∃ addrs, st.pre.payroll.get .addresses = some addrs ∧
    (x.depositor ≠ addrs.treasury →
      st.post.tokenBalance addrs.token x.depositor =
        st.pre.tokenBalance addrs.token x.depositor - x.amount ∧
      st.post.tokenBalance addrs.token addrs.treasury =
        st.pre.tokenBalance addrs.token addrs.treasury + x.amount ∧
      ∀ asset a, asset ≠ addrs.token ∨ (a ≠ x.depositor ∧ a ≠ addrs.treasury) →
        st.post.tokenBalance asset a = st.pre.tokenBalance asset a)

/-- The accounts are the sums of the deposits, whose ids are used up. -/
structure DepositsRecorded (hist : List (Step World Input)) (s : Storage) : Prop where
  accounted : ∀ d, (s.get (.companyBalance d)).getD 0 = depositedBy d hist
  wellFormed : ∀ x ∈ deposits hist, 0 < x.amount ∧ x.depositId ≠ BytesN.zero
  used : ∀ x ∈ deposits hist, s.get (.depositNonce x.depositId) ≠ none
  distinct : ((deposits hist).map Deposit.depositId).Nodup

section
variable {e : Env} {s s' : Storage} {w w' : World} {i : Input} {hist : List (Step World Input)}
  {st : Step World Input}

-- ---------------------------------------------------------------------------
-- One step
-- ---------------------------------------------------------------------------

theorem deposits_snoc (st : Step World Input) :
    deposits (hist ++ [st]) = deposits hist ++ (depositMade st).toList := by
  cases h : depositMade st <;> simp [deposits, h]

theorem depositedBy_snoc (st : Step World Input) (h : depositMade st = some x) (d : Address) :
    depositedBy d (hist ++ [st]) =
      depositedBy d hist + if x.depositor = d then x.amount else 0 := by
  simp only [depositedBy, deposits_snoc, h, Option.toList_some, List.filter_append, List.map_append,
    List.sum_append]
  split <;> simp_all

theorem DepositsRecorded.kept (h : DepositsRecorded hist s) (hnone : depositMade st = none)
    (haccounts : ∀ d, s'.get (.companyBalance d) = s.get (.companyBalance d))
    (hids : ∀ id, s'.get (.depositNonce id) = s.get (.depositNonce id)) :
    DepositsRecorded (hist ++ [st]) s' := by
  have hsame : deposits (hist ++ [st]) = deposits hist := by simp [deposits_snoc, hnone]
  refine ⟨fun d => ?_, ?_, ?_, ?_⟩
  · rw [haccounts, depositedBy, hsame]
    exact h.accounted d
  · rw [hsame]
    exact h.wellFormed
  · rw [hsame]
    intro x hx
    rw [hids]
    exact h.used x hx
  · rw [hsame]
    exact h.distinct

theorem DepositsRecorded.deposit (h : DepositsRecorded hist s) (hmade : depositMade st = some x)
    (hpos : 0 < x.amount) (hid : x.depositId ≠ BytesN.zero)
    (hfresh : s.get (.depositNonce x.depositId) = none) :
    DepositsRecorded (hist ++ [st]) ((s.set (.depositNonce x.depositId) true).set
      (.companyBalance x.depositor) ((s.get (.companyBalance x.depositor)).getD 0 + x.amount)) := by
  have hlist : deposits (hist ++ [st]) = deposits hist ++ [x] := by simp [deposits_snoc, hmade]
  refine ⟨fun d => ?_, ?_, ?_, ?_⟩
  · rw [depositedBy_snoc st hmade, ← h.accounted d]
    by_cases hd : d = x.depositor
    · subst hd
      simp
    · simp [hd, Ne.symm hd]
  · rw [hlist]
    intro y hy
    rcases List.mem_append.mp hy with hy | hy
    · exact h.wellFormed y hy
    · obtain rfl := List.mem_singleton.mp hy
      exact ⟨hpos, hid⟩
  · rw [hlist]
    intro y hy
    by_cases hsame : y.depositId = x.depositId
    · rw [hsame]
      simp
    · have hold : y ∈ deposits hist := by
        rcases List.mem_append.mp hy with hy | hy
        · exact hy
        · obtain rfl := List.mem_singleton.mp hy
          exact absurd rfl hsame
      simpa [hsame] using h.used y hold
  · rw [hlist, List.map_append]
    refine List.Nodup.append h.distinct (List.nodup_singleton _) ?_
    simp only [List.map_cons, List.map_nil, List.disjoint_singleton, List.mem_map, not_exists,
      not_and]
    intro y hy hsame
    exact h.used y hy (by rw [hsame]; exact hfresh)

theorem exec_depositsRecorded (hx : Executes i w call ret w')
    (h : DepositsRecorded hist w.payroll) :
    DepositsRecorded (hist ++ [⟨w, i, w'⟩]) w'.payroll := by
  have hperformed : performed ⟨w, i, w'⟩ = some (call, ret) := performed_executes hx
  obtain ⟨-, hok⟩ := hx
  cases call with
  | deposit depositor amount depositId =>
    have hmade : depositMade ⟨w, i, w'⟩ = some ⟨depositor, amount, depositId⟩ := by
      simp [depositMade, hperformed]
    obtain ⟨-, hid, hpos, hfresh, _, -, _, -, -, -, _, -, -, hw⟩ :=
      deposit_ok.mp (onWorld_ok.mp hok).1
    have hpayroll := congrArg World.payroll hw
    rw [hpayroll]
    exact h.deposit hmade hpos hid hfresh
  | _ =>
    exact h.kept (by simp [depositMade, hperformed]) (fun _ => exec_keeps hok rfl)
      (fun _ => exec_keeps hok rfl)

theorem next_depositsRecorded (hist : List (Step World Input)) (w : World) (i : Input)
    (h : DepositsRecorded hist w.payroll) :
    DepositsRecorded (hist ++ [⟨w, i, next w i⟩]) (next w i).payroll := by
  rcases next_payroll w i with ⟨call, ret, hx, -⟩ | ⟨hsame, -, hnone⟩
  · exact exec_depositsRecorded hx h
  · exact h.kept (by simp [depositMade, hnone]) (fun _ => by rw [hsame]) (fun _ => by rw [hsame])

theorem depositMade_some (h : depositMade st = some x) :
    ∃ ret, performed st = some (.deposit x.depositor x.amount x.depositId, ret) := by
  unfold depositMade at h
  split at h
  · rename_i ret hperformed
    obtain rfl := Option.some.inj h
    exact ⟨ret, hperformed⟩
  · cases h

theorem deposit_moves (hst : st ∈ steps next World.genesis inputs) (h : depositMade st = some x) :
    MovesDeposit st x := by
  obtain ⟨ret, hperformed⟩ := depositMade_some h
  obtain ⟨-, hok⟩ := performed_step hst hperformed
  obtain ⟨-, -, -, -, addrs, haddrs, _, -, -, -, balances, ht, -, hw⟩ :=
    deposit_ok.mp (onWorld_ok.mp hok).1
  have htokens : st.post.tokens = Function.update st.pre.tokens addrs.token balances := by
    rw [hw]
  obtain ⟨-, -, hbalance⟩ := Token.transfer_ok ht
  refine ⟨addrs, haddrs, fun hne => ⟨?_, ?_, fun asset a hother => ?_⟩⟩
  · simp [World.tokenBalance, htokens, hbalance, hne]
  · simp [World.tokenBalance, htokens, hbalance, Ne.symm hne]
  · by_cases hasset : asset = addrs.token
    · subst hasset
      obtain ⟨ha, ha'⟩ := hother.resolve_left (fun h => h rfl)
      simp [World.tokenBalance, htokens, hbalance, ha, ha']
    · simp [World.tokenBalance, htokens, hasset]

-- ---------------------------------------------------------------------------
-- Runs
-- ---------------------------------------------------------------------------

/-- In every run the account of an address is the sum of its deposits, all of
them positive; no two deposits share an id and none has the zero id; and each
moved its amount from the depositor to the treasury. -/
theorem deposits_accounted (inputs : List Input) :
    (∀ e d, answer e (runFrom next World.genesis inputs) (.getTreasuryBalance d) =
      .ok (depositedBy d (steps next World.genesis inputs))) ∧
    (∀ x ∈ deposits (steps next World.genesis inputs),
      0 < x.amount ∧ x.depositId ≠ BytesN.zero) ∧
    ((deposits (steps next World.genesis inputs)).map Deposit.depositId).Nodup ∧
    ∀ st ∈ steps next World.genesis inputs, ∀ x, depositMade st = some x → MovesDeposit st x := by
  have hempty : DepositsRecorded [] World.genesis.payroll :=
    ⟨fun _ => rfl, by simp [deposits], by simp [deposits], List.nodup_nil⟩
  have hrec := history_invariant (I := fun hist w => DepositsRecorded hist w.payroll) hempty
    next_depositsRecorded inputs
  refine ⟨fun e d => ?_, hrec.wellFormed, hrec.distinct, fun st hst x hx => deposit_moves hst hx⟩
  rw [← hrec.accounted d]
  rfl

end

theorem deposits_of_alice :
    let inputs := [Sample.deploy, ⟨Sample.env [], .token Sample.token (.mint Sample.alice 500)⟩,
      Sample.call [Sample.alice, Sample.owner] (.deposit Sample.alice 100 (Sample.digest 1)),
      Sample.call [Sample.alice, Sample.owner] (.deposit Sample.alice 50 (Sample.digest 1)),
      Sample.call [Sample.alice, Sample.owner] (.deposit Sample.alice 200 (Sample.digest 2))]
    answer (Sample.env []) (runFrom next World.genesis inputs) (.getTreasuryBalance Sample.alice) =
      .ok (300 : Int) := by
  intro inputs
  exact (deposits_accounted inputs).1 (Sample.env []) Sample.alice

end ZkPayroll.Payroll
