import ZkPayroll.Payroll.Steps

/-!
# Quorum approvals

A quorum approval is consumed once. The caller names both the signers and the
number of them that is required, and an empty list meets a requirement of
none: nobody has to authorise such a call, and it uses up the approval.
-/

namespace ZkPayroll.Payroll

open Host

/-- The input consumes the hash with no signer at all, for the stored admin
and token. -/
def BurnsQuorum (addrs : ContractAddresses) (s : Storage) (quorumHash : BytesN 32) (i : Input) :
    Prop :=
  ∃ payload, i.message = .payroll (.verifyAndConsumeQuorum payload [] 0) ∧
    payload.employer = addrs.admin ∧ payload.asset = addrs.token ∧
    hashQuorumPayload i.env payload = quorumHash ∧ ¬ Paused i.env s

section
variable {e : Env} {s s' : Storage} {w w' : World} {i : Input} {addrs : ContractAddresses}
  {quorumHash : BytesN 32}

theorem exec_unauthorised (hok : exec e call w = .ok (ret, w')) (hnobody : e.auths = [])
    (haddrs : w.payroll.get .addresses = some addrs) :
    w'.payroll.get .addresses = some addrs ∧
      w'.payroll.get .pauseManager = w.payroll.get .pauseManager := by
  have hauth : ∀ a, a ∉ e.auths := by simp [hnobody]
  cases call with
  | initializePayroll =>
    obtain ⟨_, hf, -, -⟩ := onStorage_ok.mp hok
    obtain ⟨hnone, -⟩ := initializePayroll_ok.mp hf
    simp [hnone] at haddrs
  | setPauseManager =>
    obtain ⟨_, hf, -, -⟩ := onStorage_ok.mp hok
    obtain ⟨⟨_, -, hsigned⟩, -⟩ := setPauseManager_ok.mp hf
    exact absurd hsigned (hauth _)
  | acceptAdminRotation =>
    obtain ⟨_, hf, -, -⟩ := onStorage_ok.mp hok
    obtain ⟨-, _, -, -, hsigned, -⟩ := acceptAdminRotation_ok.mp hf
    exact absurd hsigned (hauth _)
  | acceptTreasuryRotation =>
    obtain ⟨_, hf, -, -⟩ := onStorage_ok.mp hok
    obtain ⟨-, _, -, -, hsigned, -⟩ := acceptTreasuryRotation_ok.mp hf
    exact absurd hsigned (hauth _)
  | acceptAdminHandover =>
    obtain ⟨_, hf, -, -⟩ := onStorage_ok.mp hok
    obtain ⟨-, _, -, -, hsigned, -⟩ := acceptAdminHandover_ok.mp hf
    exact absurd hsigned (hauth _)
  | _ => exact ⟨(exec_keeps hok rfl).trans haddrs, exec_keeps hok rfl⟩

theorem next_unauthorised (hnobody : i.env.auths = [])
    (haddrs : w.payroll.get .addresses = some addrs) :
    (next w i).payroll.get .addresses = some addrs ∧
      (next w i).payroll.get .pauseManager = w.payroll.get .pauseManager := by
  rcases next_payroll w i with ⟨call, ret, ⟨-, hok⟩, -⟩ | ⟨hsame, -⟩
  · exact exec_unauthorised hok hnobody haddrs
  · rw [hsame]
    exact ⟨haddrs, rfl⟩

theorem burnsQuorum_congr (hsame : s'.get .pauseManager = s.get .pauseManager) :
    BurnsQuorum addrs s' quorumHash i ↔ BurnsQuorum addrs s quorumHash i := by
  simp only [BurnsQuorum, Paused, hsame]

theorem exec_consumed (hx : Executes i w call ret w') (hnobody : i.env.auths = [])
    (haddrs : w.payroll.get .addresses = some addrs)
    (hconsumed : isQuorumConsumed w'.payroll quorumHash = true)
    (hfree : isQuorumConsumed w.payroll quorumHash = false) :
    BurnsQuorum addrs w.payroll quorumHash i := by
  obtain ⟨hm, hok⟩ := hx
  cases call with
  | verifyAndConsumeQuorum payload signers requiredQuorum =>
    obtain ⟨_, _, hf, -, rfl⟩ := onStorageRet_ok.mp hok
    obtain ⟨hunpaused, hquorum, hsigned, ⟨addrs', haddrs', hemployer, hasset⟩, -, -, rfl⟩ :=
      verifyAndConsumeQuorum_ok.mp hf
    obtain rfl : addrs = addrs' := Store.get_inj haddrs haddrs'
    obtain rfl : signers = [] := by
      refine List.eq_nil_iff_forall_not_mem.mpr fun signer hmem => ?_
      have hauth := hsigned signer hmem
      rw [hnobody] at hauth
      cases hauth
    obtain rfl : requiredQuorum = 0 := Nat.le_zero.mp hquorum
    have hhash : hashQuorumPayload i.env payload = quorumHash := by
      by_contra hne
      have hsame : isQuorumConsumed (w.payroll.set
          (.consumedQuorum (hashQuorumPayload i.env payload)) i.env.timestamp) quorumHash =
          isQuorumConsumed w.payroll quorumHash := by
        simp [isQuorumConsumed, Store.has, Ne.symm hne]
      rw [hsame, hfree] at hconsumed
      cases hconsumed
    exact ⟨payload, hm, hemployer, hasset, hhash, hunpaused⟩
  | _ =>
    rw [isQuorumConsumed, Store.has, exec_keeps hok rfl] at hconsumed
    rw [isQuorumConsumed, Store.has, hconsumed] at hfree
    cases hfree

theorem next_consumed_kept (h : isQuorumConsumed w.payroll quorumHash = true) :
    isQuorumConsumed (next w i).payroll quorumHash = true := by
  rcases next_payroll w i with ⟨call, ret, ⟨-, hok⟩, -⟩ | ⟨hsame, -⟩
  · cases call with
    | verifyAndConsumeQuorum payload signers requiredQuorum =>
      obtain ⟨_, _, hf, -, hw⟩ := onStorageRet_ok.mp hok
      obtain ⟨-, -, -, -, -, -, rfl⟩ := verifyAndConsumeQuorum_ok.mp hf
      rw [hw]
      by_cases hsame : quorumHash = hashQuorumPayload i.env payload
      · simp [isQuorumConsumed, hsame]
      · simpa [isQuorumConsumed, hsame] using h
    | _ =>
      rw [isQuorumConsumed, Store.has, exec_keeps hok rfl]
      exact h
  · rw [hsame]
    exact h

theorem next_consumed_iff (hnobody : i.env.auths = [])
    (haddrs : w.payroll.get .addresses = some addrs) :
    isQuorumConsumed (next w i).payroll quorumHash = true ↔
      isQuorumConsumed w.payroll quorumHash = true ∨ BurnsQuorum addrs w.payroll quorumHash i := by
  cases hfree : isQuorumConsumed w.payroll quorumHash with
  | true => exact iff_of_true (next_consumed_kept hfree) (.inl rfl)
  | false =>
    constructor
    · intro hconsumed
      rcases next_payroll w i with ⟨call, ret, hx, -⟩ | ⟨hsame, -⟩
      · exact .inr (exec_consumed hx hnobody haddrs hconsumed hfree)
      · rw [hsame, hfree] at hconsumed
        cases hconsumed
    · rintro (hconsumed | ⟨payload, hm, hemployer, hasset, hhash, hunpaused⟩)
      · cases hconsumed
      · subst hhash
        have hnone : w.payroll.get (.consumedQuorum (hashQuorumPayload i.env payload)) = none := by
          simpa [isQuorumConsumed] using hfree
        rw [next_returns hm rfl (verifyAndConsumeQuorum_ok.mpr ⟨hunpaused, le_rfl, by simp,
          ⟨addrs, haddrs, hemployer, hasset⟩, hnone, rfl, rfl⟩)]
        simp [isQuorumConsumed]

/-- The same over a sequence of unauthorised steps. -/
theorem consumed_later_iff (haddrs : w.payroll.get .addresses = some addrs) (later : List Input)
    (hnobody : ∀ i ∈ later, i.env.auths = []) :
    isQuorumConsumed (runFrom next w later).payroll quorumHash = true ↔
      isQuorumConsumed w.payroll quorumHash = true ∨
        ∃ i ∈ later, BurnsQuorum addrs w.payroll quorumHash i := by
  induction later generalizing w with
  | nil => simp [runFrom]
  | cons i later ih =>
    obtain ⟨hi, hlater⟩ := List.forall_mem_cons.mp hnobody
    obtain ⟨haddrs', hpause⟩ := next_unauthorised hi haddrs
    have hrun : runFrom next w (i :: later) = runFrom next (next w i) later := rfl
    rw [hrun, ih haddrs' hlater, next_consumed_iff hi haddrs]
    simp only [burnsQuorum_congr hpause, List.exists_mem_cons_iff, or_assoc]

/-- After a sequence of calls that nobody authorises, a fresh quorum approval
is still unconsumed exactly when none of the calls names it, for the stored
admin and token and while the contract is not paused, with an empty list of
signers and a required quorum of zero. -/
theorem quorum_unconsumed_iff (haddrs : w.payroll.get .addresses = some addrs)
    (payload : QuorumApprovalPayload)
    (hfree : isQuorumConsumed w.payroll (hashQuorumPayload e payload) = false)
    (later : List Input) (hnobody : ∀ i ∈ later, i.env.auths = []) :
    isQuorumConsumed (runFrom next w later).payroll (hashQuorumPayload e payload) = false ↔
      ∀ i ∈ later, ¬ BurnsQuorum addrs w.payroll (hashQuorumPayload e payload) i := by
  rw [← Bool.not_eq_true, consumed_later_iff haddrs later hnobody, hfree]
  simp

end

namespace Sample

def approval : QuorumApprovalPayload := ⟨digest 1, admin, "august", token, digest 2, 1⟩

end Sample

theorem quorum_kept_from_stranger :
    let w := runFrom next World.genesis [Sample.deploy]
    let i := Sample.call [] (.verifyAndConsumeQuorum Sample.approval [] 1)
    isQuorumConsumed (runFrom next w [i]).payroll
      (hashQuorumPayload (Sample.env []) Sample.approval) = false := by
  intro w i
  have haddrs : w.payroll.get .addresses = some Sample.addrs := rfl
  refine (quorum_unconsumed_iff haddrs Sample.approval rfl [i] ?_).mpr ?_
  · intro j hj
    obtain rfl := List.mem_singleton.mp hj
    rfl
  · rintro j hj ⟨payload, hm, -⟩
    obtain rfl := List.mem_singleton.mp hj
    simp [i, Sample.call] at hm

/-- With no signers and a required quorum of zero a stranger uses up the
approval of the admin. -/
theorem quorum_burned_by_stranger :
    let w := runFrom next World.genesis [Sample.deploy]
    let i := Sample.call [] (.verifyAndConsumeQuorum Sample.approval [] 0)
    Reached w ∧ (w.payroll.get .addresses).map (·.admin) = some Sample.approval.employer ∧
      isQuorumConsumed w.payroll (hashQuorumPayload (Sample.env []) Sample.approval) = false ∧
      i.env.auths = [] ∧
      isQuorumConsumed (runFrom next w [i]).payroll
        (hashQuorumPayload (Sample.env []) Sample.approval) = true :=
  ⟨reachable_runFrom, rfl, rfl, rfl, rfl⟩

end ZkPayroll.Payroll
