import ZkPayroll.Payroll.Steps

/-!
# The configuration lock

While a run is pending the admin, the treasury owner, the asset flags and the
company state must stay as they are. Four entry points ask for an unlocked
configuration; the second way to change the admin, `accept_admin_handover`,
does not, and is the only leak.
-/

namespace ZkPayroll.Payroll

open Host

/-- The locked part of the configuration is the same in both storages. -/
structure SameConfig (s s' : Storage) : Prop where
  admin : (s'.get .addresses).map (·.admin) = (s.get .addresses).map (·.admin)
  ownerAddress : (s'.get .addresses).map (·.treasuryOwner) = (s.get .addresses).map (·.treasuryOwner)
  owner : s'.get .treasuryOwner = s.get .treasuryOwner
  assets : ∀ asset, s'.get (.allowedAsset asset) = s.get (.allowedAsset asset)
  company : s'.get .companyState = s.get .companyState

/-- The input accepts a pending handover to someone who is not the admin. -/
def HandsOver (i : Input) (s : Storage) : Prop :=
  ∃ pendingAdmin, i.message = .payroll (.acceptAdminHandover pendingAdmin) ∧ ¬ Paused i.env s ∧
    (∃ handover, s.get .pendingAdminHandover = some handover ∧
      pendingAdmin = handover.pendingAdmin) ∧ pendingAdmin ∈ i.env.auths ∧
    ∃ addrs, s.get .addresses = some addrs ∧ pendingAdmin ≠ addrs.admin

section
variable {e : Env} {s s' : Storage} {w w' : World} {i : Input}

theorem SameConfig.refl (s : Storage) : SameConfig s s := ⟨rfl, rfl, rfl, fun _ => rfl, rfl⟩

theorem SameConfig.of_agree (h : Agree kinds s s')
    (hkinds : ∀ kind ∈ [Kind.addresses, .treasuryOwner, .allowedAsset, .companyState], kind ∉ kinds) :
    SameConfig s s' := by
  simp only [List.forall_mem_cons, List.not_mem_nil, false_imp_iff, implies_true, and_true] at hkinds
  obtain ⟨haddrs, howner, hassets, hcompany⟩ := hkinds
  exact ⟨by rw [h .addresses haddrs], by rw [h .addresses haddrs], h .treasuryOwner howner,
    fun asset => h (.allowedAsset asset) hassets, h .companyState hcompany⟩

theorem no_pending_uninitialized (h : Reached w) :
    w.payroll.get .addresses = none → pendingPayrollRunCount w.payroll = 0 := by
  refine payroll_invariant
    (I := fun s => s.get .addresses = none → pendingPayrollRunCount s = 0) (fun _ => rfl) ?_ h
  intro e call w ret w' _ hok ih hnone
  have hbefore := exec_uninitialized hok hnone
  cases call with
  | preparePayrollRun =>
    obtain ⟨_, _, hf, -, -⟩ := onStorageRet_ok.mp hok
    obtain ⟨-, -, -, -, -, -, _, haddrs, -⟩ := preparePayrollRun_ok.mp hf
    simp [hbefore] at haddrs
  | finalizePayrollRun =>
    obtain ⟨_, hf, -, -⟩ := onStorage_ok.mp hok
    obtain ⟨-, -, _, haddrs, -⟩ := finalizePayrollRun_ok.mp hf
    simp [hbefore] at haddrs
  | cancelPayrollRunWithReason | cancelPayrollRun =>
    obtain ⟨_, hf, -, -⟩ := onStorage_ok.mp hok
    obtain ⟨-, -, _, haddrs, -⟩ := cancelPayrollRunWithReason_ok.mp hf
    simp [hbefore] at haddrs
  | _ =>
    rw [pendingPayrollRunCount, exec_keeps hok rfl]
    exact ih hbefore

/-- A call that goes through while a run is pending keeps the configuration,
or hands the admin over. -/
theorem exec_locked (hw : Reached w) (hpending : 0 < pendingPayrollRunCount w.payroll)
    (hx : Executes i w call ret w') :
    SameConfig w.payroll w'.payroll ∨ HandsOver i w.payroll := by
  obtain ⟨hm, hok⟩ := hx
  cases call with
  | initializePayroll =>
    obtain ⟨_, hf, -, -⟩ := onStorage_ok.mp hok
    have := no_pending_uninitialized hw (initializePayroll_ok.mp hf).1
    omega
  | setAssetAllowed =>
    obtain ⟨_, hf, -, -⟩ := onStorage_ok.mp hok
    obtain ⟨_, -, -, hfree, -⟩ := setAssetAllowed_ok.mp hf
    omega
  | setCompanyState =>
    obtain ⟨_, hf, -, -⟩ := onStorage_ok.mp hok
    obtain ⟨-, hfree, -⟩ := setCompanyState_ok.mp hf
    omega
  | acceptAdminRotation =>
    obtain ⟨_, hf, -, -⟩ := onStorage_ok.mp hok
    obtain ⟨-, _, -, -, -, hfree, -⟩ := acceptAdminRotation_ok.mp hf
    omega
  | acceptTreasuryRotation =>
    obtain ⟨_, hf, -, -⟩ := onStorage_ok.mp hok
    obtain ⟨-, _, -, -, -, hfree, -⟩ := acceptTreasuryRotation_ok.mp hf
    omega
  | acceptAdminHandover pendingAdmin =>
    obtain ⟨_, hf, -, rfl⟩ := onStorage_ok.mp hok
    obtain ⟨hpaused, handover, hhandover, hnamed, hauth, addrs, haddrs, rfl⟩ :=
      acceptAdminHandover_ok.mp hf
    by_cases hsame : pendingAdmin = addrs.admin
    · subst hsame
      exact .inl ⟨by simp [haddrs], by simp [haddrs], by simp, by simp, by simp⟩
    · exact .inr ⟨pendingAdmin, hm, hpaused, ⟨handover, hhandover, hnamed⟩, hauth, addrs, haddrs,
        hsame⟩
  | _ => exact .inl (.of_agree (exec_frame hok) (of_decide_eq_true rfl))

theorem handsOver_changes (h : HandsOver i w.payroll) :
    ¬ SameConfig w.payroll (next w i).payroll := by
  obtain ⟨pendingAdmin, hm, hpaused, ⟨handover, hhandover, hnamed⟩, hauth, addrs, haddrs, hne⟩ := h
  have hf := acceptAdminHandover_ok.mpr
    ⟨hpaused, handover, hhandover, hnamed, hauth, addrs, haddrs, rfl⟩
  intro hsame
  have hadmin := hsame.admin
  rw [next_stores hm rfl hf] at hadmin
  simp [haddrs] at hadmin
  exact hne hadmin

/-- While a run is pending, a transaction keeps the configuration exactly
when it does not hand the admin over. -/
theorem config_locked_iff (hw : Reached w) (hpending : 0 < pendingPayrollRunCount w.payroll)
    (i : Input) : SameConfig w.payroll (next w i).payroll ↔ ¬ HandsOver i w.payroll := by
  constructor
  · intro hsame hover
    exact handsOver_changes hover hsame
  · intro hnot
    rcases next_payroll w i with ⟨call, ret, hx, -⟩ | ⟨hsame, -⟩
    · exact (exec_locked hw hpending hx).resolve_right hnot
    · rw [hsame]
      exact .refl _

end

theorem config_locked_against_company_state :
    let w := runFrom next World.genesis Sample.onePending
    SameConfig w.payroll
      (next w (Sample.call [Sample.admin] (.setCompanyState Sample.admin .archived))).payroll := by
  intro w
  refine (config_locked_iff reachable_runFrom (by decide +kernel) _).mpr ?_
  rintro ⟨_, hm, -⟩
  simp [Sample.call] at hm

/-- With one run pending, a handover requested and accepted replaces the
admin. -/
theorem handover_ignores_lock :
    let w := runFrom next World.genesis (Sample.onePending ++
      [Sample.call [Sample.admin] (.requestAdminHandover Sample.admin Sample.bob)])
    let i := Sample.call [Sample.bob] (.acceptAdminHandover Sample.bob)
    Reached w ∧ 0 < pendingPayrollRunCount w.payroll ∧
      (w.payroll.get .addresses).map (·.admin) = some Sample.admin ∧
      ((next w i).payroll.get .addresses).map (·.admin) = some Sample.bob ∧
      ¬ SameConfig w.payroll (next w i).payroll := by
  intro w i
  refine ⟨reachable_runFrom, by decide +kernel, rfl, rfl, fun h => ?_⟩
  exact absurd h.admin (by decide +kernel)

end ZkPayroll.Payroll
