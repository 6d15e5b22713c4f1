import ZkPayroll.Payroll.Solvency

/-!
# Emergency withdrawals

The treasury owner requests, the admin approves, either of them cancels. One
request is stored at a time; cancelling and paying both remove it. So a payout
pays the last request made before it, which nothing settled in between, and no
request is paid twice.
-/

namespace ZkPayroll.Payroll

open Host

/-- The step asked for a withdrawal, and the treasury owner of the time signed
it. -/
def RequestsWithdrawal (st : Step World Input) (amount : Int) (recipient : Address) : Prop :=
  ∃ owner ret, performed st = some (.requestEmergencyWithdrawal owner amount recipient, ret) ∧
    st.pre.payroll.get .treasuryOwner = some owner ∧ owner ∈ st.input.env.auths

/-- The step approved the withdrawal, the admin of the time signed it, and the
token moved the amount from the treasury to the recipient. -/
def PaysWithdrawal (st : Step World Input) (amount : Int) (recipient : Address) : Prop :=
  ∃ addrs ret, performed st = some (.approveEmergencyWithdrawal addrs.admin, ret) ∧
    st.pre.payroll.get .addresses = some addrs ∧ addrs.admin ∈ st.input.env.auths ∧
    Token.transfer (st.pre.tokens addrs.token) addrs.treasury recipient amount =
      .ok (st.post.tokens addrs.token) ∧
    st.post.transfers =
      ⟨.emergency, addrs.token, addrs.treasury, recipient, amount⟩ :: st.pre.transfers

def SettlesRequest (st : Step World Input) : Prop :=
  ∃ caller ret, performed st = some (.cancelEmergencyWithdrawal caller, ret) ∨
    performed st = some (.approveEmergencyWithdrawal caller, ret)

/-- The `n`-th step pays what the `m`-th asked for, and no step between them
settled it. -/
def PaysRequest (inputs : List Input) (m n : Nat) : Prop :=
  ∃ requested paid amount recipient, m < n ∧
    (steps next World.genesis inputs)[m]? = some requested ∧
    (steps next World.genesis inputs)[n]? = some paid ∧
    RequestsWithdrawal requested amount recipient ∧ PaysWithdrawal paid amount recipient ∧
    ∀ k st, m < k → k < n → (steps next World.genesis inputs)[k]? = some st → ¬ SettlesRequest st

section
variable {e : Env} {w w' : World} {inputs : List Input} {st : Step World Input}

-- ---------------------------------------------------------------------------
-- One step
-- ---------------------------------------------------------------------------

def WritesRequest (st : Step World Input) : Prop :=
  (∃ amount recipient, RequestsWithdrawal st amount recipient) ∨ SettlesRequest st

theorem exec_request_kept (hx : Executes i w call ret w')
    (hnot : ¬ WritesRequest ⟨w, i, w'⟩) :
    w'.payroll.get .emergencyRequest = w.payroll.get .emergencyRequest := by
  have hperformed : performed ⟨w, i, w'⟩ = some (call, ret) := performed_executes hx
  obtain ⟨-, hok⟩ := hx
  cases call with
  | requestEmergencyWithdrawal owner amount recipient =>
    obtain ⟨-, -, howner, hauth, -⟩ := requestEmergencyWithdrawal_ok.mp (onWorld_ok.mp hok).1
    exact absurd (.inl ⟨amount, recipient, owner, ret, hperformed, howner, hauth⟩) hnot
  | approveEmergencyWithdrawal admin => exact absurd (.inr ⟨admin, ret, .inr hperformed⟩) hnot
  | cancelEmergencyWithdrawal caller => exact absurd (.inr ⟨caller, ret, .inl hperformed⟩) hnot
  | _ => exact exec_keeps hok rfl

theorem next_request_kept (w : World) (i : Input) (hnot : ¬ WritesRequest ⟨w, i, next w i⟩) :
    (next w i).payroll.get .emergencyRequest = w.payroll.get .emergencyRequest := by
  rcases next_payroll w i with ⟨call, ret, hx, -⟩ | ⟨hsame, -⟩
  · exact exec_request_kept hx hnot
  · rw [hsame]

theorem written_request (hst : st ∈ steps next World.genesis inputs) (hwrites : WritesRequest st)
    (hstored : st.post.payroll.get .emergencyRequest = some request) :
    RequestsWithdrawal st request.amount request.recipient := by
  rcases hwrites with ⟨amount, recipient, hrequests⟩ | ⟨caller, ret, hsettles⟩
  · obtain ⟨owner, ret, hperformed, -⟩ := id hrequests
    obtain ⟨-, hok⟩ := performed_step hst hperformed
    obtain ⟨-, -, -, -, -, -, hw⟩ := requestEmergencyWithdrawal_ok.mp (onWorld_ok.mp hok).1
    rw [hw, Store.get_set_self] at hstored
    obtain rfl := Option.some.inj hstored
    exact hrequests
  · rcases hsettles with hperformed | hperformed
    · obtain ⟨-, hok⟩ := performed_step hst hperformed
      obtain ⟨_, hf, -, hw⟩ := onStorage_ok.mp hok
      obtain ⟨-, -, -, -, hs⟩ := cancelEmergencyWithdrawal_ok.mp hf
      rw [hw, hs, Store.get_remove_self] at hstored
      cases hstored
    · obtain ⟨-, hok⟩ := performed_step hst hperformed
      obtain ⟨-, _, -, -, -, _, -, -, _, -, hw⟩ :=
        approveEmergencyWithdrawal_ok.mp (onWorld_ok.mp hok).1
      rw [hw, Store.get_remove_self] at hstored
      cases hstored

/-- A payout pays the stored request. -/
theorem approval_pays (hst : st ∈ steps next World.genesis inputs)
    (hperformed : performed st = some (.approveEmergencyWithdrawal admin, ret)) :
    ∃ request, st.pre.payroll.get .emergencyRequest = some request ∧
      PaysWithdrawal st request.amount request.recipient := by
  obtain ⟨-, hok⟩ := performed_step hst hperformed
  obtain ⟨-, addrs, haddrs, rfl, hauth, request, hrequest, -, balances, ht, hw⟩ :=
    approveEmergencyWithdrawal_ok.mp (onWorld_ok.mp hok).1
  refine ⟨request, hrequest, addrs, ret, hperformed, haddrs, hauth, ?_, ?_⟩
  · simpa [hw] using ht
  · rw [hw]

theorem approval_leaves_reserved (hst : st ∈ steps next World.genesis inputs)
    (hperformed : performed st = some (.approveEmergencyWithdrawal admin, ret))
    (haddrs : st.pre.payroll.get .addresses = some addrs) :
    getLockedFunds st.post.payroll addrs.token = getLockedFunds st.pre.payroll addrs.token ∧
      Covered addrs st.post := by
  have hx := performed_step hst hperformed
  have hok := (onWorld_ok.mp hx.2).1
  have hcovered : Covered addrs st.pre := by
    obtain ⟨-, addrs', haddrs', -, -, request, hrequest, hle, -⟩ :=
      approveEmergencyWithdrawal_ok.mp hok
    obtain rfl : addrs = addrs' := Store.get_inj haddrs haddrs'
    have hpos := request_pos (steps_reachable hst) hrequest
    have hroom := le_unreserved hpos hle
    unfold Covered
    omega
  refine ⟨?_, emergency_covered (steps_reachable hst) haddrs hcovered hok⟩
  rw [getLockedFunds, getLockedFunds, exec_keeps hx.2 rfl]

-- ---------------------------------------------------------------------------
-- Runs
-- ---------------------------------------------------------------------------

theorem approval_has_request (hst : (steps next World.genesis inputs)[n]? = some st)
    (hperformed : performed st = some (.approveEmergencyWithdrawal admin, ret)) :
    ∃ m, PaysRequest inputs m n := by
  obtain ⟨request, hstored, hpays⟩ := approval_pays (List.mem_of_getElem? hst) hperformed
  obtain ⟨m, requested, hmn, hrequested, hwrites, hvalue, hbetween⟩ :=
    last_write (fun w : World => w.payroll.get .emergencyRequest) WritesRequest
      (v := some request) (by simp [World.genesis]) next_request_kept hst hstored
  refine ⟨m, requested, st, request.amount, request.recipient, hmn, hrequested, hst,
    written_request (List.mem_of_getElem? hrequested) hwrites hvalue, hpays, ?_⟩
  intro k st' hmk hkn hk hsettles
  exact hbetween k st' hmk hkn hk (.inr hsettles)

theorem PaysRequest.settles (h : PaysRequest inputs m n) :
    ∃ paid, (steps next World.genesis inputs)[n]? = some paid ∧ SettlesRequest paid := by
  obtain ⟨_, paid, _, _, -, -, hpaid, -, ⟨addrs, ret, hperformed, -⟩, -⟩ := h
  exact ⟨paid, hpaid, addrs.admin, ret, .inr hperformed⟩

theorem PaysRequest.not_later (h : PaysRequest inputs m n) (h' : PaysRequest inputs m n') :
    n' ≤ n := by
  obtain ⟨paid, hpaid, hsettles⟩ := h.settles
  obtain ⟨_, _, _, _, hmn, -⟩ := h
  obtain ⟨_, _, _, _, -, -, -, -, -, hbetween⟩ := h'
  by_contra hlater
  exact hbetween n paid hmn (Nat.lt_of_not_le hlater) hpaid hsettles

/-- In every run each approved withdrawal is signed by the admin of the time
and pays exactly what one earlier step asked for, signed by the treasury owner
of the time and neither cancelled nor paid since; no request is paid twice;
and a payout leaves the reserved funds in the treasury. -/
theorem withdrawals_two_party (inputs : List Input) :
    (∀ n st admin ret, (steps next World.genesis inputs)[n]? = some st →
      performed st = some (.approveEmergencyWithdrawal admin, ret) →
      (∃ m, PaysRequest inputs m n) ∧
      ∀ addrs, st.pre.payroll.get .addresses = some addrs →
        getLockedFunds st.post.payroll addrs.token = getLockedFunds st.pre.payroll addrs.token ∧
          Covered addrs st.post) ∧
    ∀ m n n', PaysRequest inputs m n → PaysRequest inputs m n' → n = n' := by
  refine ⟨?_, ?_⟩
  · intro n st admin ret hst hperformed
    refine ⟨approval_has_request hst hperformed, fun addrs haddrs => ?_⟩
    exact approval_leaves_reserved (List.mem_of_getElem? hst) hperformed haddrs
  · intro m n n' h h'
    exact le_antisymm (h'.not_later h) (h.not_later h')

end

theorem withdrawal_beside_reservation :
    let inputs := Sample.reserved600 ++
      [Sample.call [Sample.owner] (.requestEmergencyWithdrawal Sample.owner 400 Sample.bob),
        Sample.call [Sample.admin] (.approveEmergencyWithdrawal Sample.admin)]
    (∃ m, PaysRequest inputs m 8) ∧ Covered Sample.addrs (runFrom next World.genesis inputs) := by
  intro inputs
  obtain ⟨hpays, hcovered⟩ := (withdrawals_two_party inputs).1 8 _ Sample.admin .unit rfl rfl
  exact ⟨hpays, (hcovered Sample.addrs rfl).2⟩

end ZkPayroll.Payroll
