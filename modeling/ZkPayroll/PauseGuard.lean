import ZkPayroll.PauseManager
import ZkPayroll.PayrollRegistry.Thresholds
import ZkPayroll.AuditModule.Fates

/-!
# What a pause protects

The registry and the audit module beside the pause managers they ask. Each
contract looks up which manager to ask in a pointer that `set_pause_manager`
writes, and that function accepts any address that signs for itself: unlike in
the other contracts, the caller is not compared with an admin.

As long as the pointer stays and the manager says paused, the registry cannot
change. In the audit module the calls behind the pause have no effect either,
but delegations and extensions are not behind it: they can write over a key, give
a new one to an auditor whose key was revoked, and move the end of a refreshed
one.
-/

namespace ZkPayroll

open Host

-- ---------------------------------------------------------------------------
-- The registry
-- ---------------------------------------------------------------------------

namespace PayrollRegistry

section
variable {e : LedgerEnv} {s s' : Storage}

theorem Effect.of_paused (h : Effect e s s' call) (hpaused : Paused e s) :
    ∃ admin pauseManager, call = .setPauseManager admin pauseManager ∧ admin ∈ e.auths ∧
      s' = s.set .pauseManager pauseManager := by
  cases h with
  | pauseManager hsigned hafter => exact ⟨_, _, rfl, hsigned, hafter⟩
  | employment _ hunpaused | rotation _ hunpaused | acceptTreasury hunpaused =>
    exact absurd hpaused hunpaused
  | register hcan | acceptAdmin hcan | setInitial hcan => exact absurd hpaused hcan.unpaused
  | proposeThreshold hcalls | activateThreshold hcalls | cancelThreshold hcalls =>
    exact absurd hpaused hcalls.unpaused

def Repoints (pm : Address) (i : Input) : Prop :=
  ∃ admin other, i.call = .setPauseManager admin other ∧ admin ∈ i.env.auths ∧ other ≠ pm

theorem next_paused (i : Input) (hpointer : s.get .pauseManager = some pm)
    (hpaused : i.env.isPaused pm = true) (hstays : ¬ Repoints pm i) (k : DataKey) :
    (next s i).get k = s.get k := by
  rcases next_cases s i with hsame | hok
  · rw [hsame]
  obtain ⟨admin, other, hcall, hsigned, hafter⟩ :=
    (exec_effect hok).of_paused ⟨pm, hpointer, hpaused⟩
  have hother : other = pm := by
    by_contra hne
    exact hstays ⟨admin, other, hcall, hsigned, hne⟩
  subst hother
  rw [hafter]
  exact Store.get_set_stored hpointer k

end

end PayrollRegistry

-- ---------------------------------------------------------------------------
-- The audit module
-- ---------------------------------------------------------------------------

namespace AuditModule

def ViewKeyRecord.policy (record : ViewKeyRecord) : Bool × AuditScope × Nat :=
  (record.allowDelegation, record.maxScope, record.maxExpirationLedger)

def Call.isGuarded : Call → Bool
  | .generateViewKey .. | .revokeViewKey .. | .refreshViewKey .. | .setDelegationPolicy ..
  | .approveDelegation .. => true
  | _ => false

/-- Every key is still there with its policy, the generated and the refreshed
keys are the same ones as they were, and the auditors whose keys were revoked
have got none. -/
structure Undisturbed (refreshed revoked : Address → Prop) (s t : Storage) : Prop where
  policies : ∀ auditor record, s.get (.auditorKey auditor) = some record →
    ∃ record', t.get (.auditorKey auditor) = some record' ∧ record'.policy = record.policy
  generated : ∀ auditor record, record.parentAuditor = none →
    (t.get (.auditorKey auditor) = some record ↔ s.get (.auditorKey auditor) = some record)
  refreshes : ∀ auditor record, refreshed auditor → s.get (.auditorKey auditor) = some record →
    t.get (.auditorKey auditor) = some record
  revocations : ∀ auditor, revoked auditor → t.get (.auditorKey auditor) = none

def Repoints (pm : Address) (i : Input) : Prop :=
  ∃ admin other, i.call = .setPauseManager admin other ∧ admin ∈ i.env.auths ∧ other ≠ pm

/-- The delegation `record` gives does not leave the key it replaces as it was:
that one was generated, or refreshed, or has another policy. -/
def Replaces (refreshed : Address → Prop) (delegate : Address) (record old : ViewKeyRecord) :
    Prop :=
  old.parentAuditor = none ∨ old.policy ≠ record.policy ∨ refreshed delegate ∧ old ≠ record

/-- The calls behind no pause that disturb a key: a delegation over one, a
delegation to an auditor whose key was revoked, and the extension of a
refreshed key. All three are listed with their guards. -/
inductive Disturbs (refreshed revoked : Address → Prop) (s : Storage) (i : Input) : Prop
  | overwrites (hcall : i.call.canonical = .delegateViewKey auditor delegate scope expirationLedger)
      (hcan : CanDelegate i.env auditor scope expirationLedger parent s)
      (hstored : s.get (.auditorKey delegate) = some old)
      (hreplaces : Replaces refreshed delegate
        (delegatedRecord i.env auditor delegate parent scope expirationLedger) old)
  | reissues (hcall : i.call.canonical = .delegateViewKey auditor delegate scope expirationLedger)
      (hcan : CanDelegate i.env auditor scope expirationLedger parent s)
      (hrevoked : revoked delegate)
  | prolongs
      (hcall : i.call.canonical = .extendDelegatedAccess auditor delegate newExpirationLedger)
      (hcan : CanExtend i.env auditor delegate newExpirationLedger record s)
      (hrefreshed : refreshed delegate)

section
variable {e : LedgerEnv} {s s' t : Storage} {refreshed revoked : Address → Prop}

theorem undisturbed_of_keys
    (hs : ∀ auditor, revoked auditor → s.get (.auditorKey auditor) = none)
    (h : ∀ auditor, t.get (.auditorKey auditor) = s.get (.auditorKey auditor)) :
    Undisturbed refreshed revoked s t where
  policies auditor record hget := ⟨record, by rw [h, hget], rfl⟩
  generated auditor record _ := by rw [h]
  refreshes auditor record _ hget := by rw [h, hget]
  revocations auditor hrevoked := by rw [h, hs auditor hrevoked]

theorem Undisturbed.refl
    (hs : ∀ auditor, revoked auditor → s.get (.auditorKey auditor) = none) :
    Undisturbed refreshed revoked s s :=
  undisturbed_of_keys hs fun _ => rfl

theorem Undisturbed.trans (h : Undisturbed refreshed revoked s s')
    (h' : Undisturbed refreshed revoked s' t) : Undisturbed refreshed revoked s t where
  policies auditor record hget := by
    obtain ⟨record', hget', hpolicy⟩ := h.policies auditor record hget
    obtain ⟨record'', hget'', hpolicy'⟩ := h'.policies auditor record' hget'
    exact ⟨record'', hget'', hpolicy'.trans hpolicy⟩
  generated auditor record hroot :=
    (h'.generated auditor record hroot).trans (h.generated auditor record hroot)
  refreshes auditor record hrefreshed hget :=
    h'.refreshes auditor record hrefreshed (h.refreshes auditor record hrefreshed hget)
  revocations auditor hrevoked := h'.revocations auditor hrevoked

theorem undisturbed_of_key {written : ViewKeyRecord}
    (hs : ∀ auditor, revoked auditor → s.get (.auditorKey auditor) = none)
    (hparent : written.parentAuditor ≠ none)
    (hafter : ∀ x, s'.get (.auditorKey x) =
      if x = auditor then some written else s.get (.auditorKey x))
    (hbefore : ∀ old, s.get (.auditorKey auditor) = some old →
      ¬ Replaces refreshed auditor written old)
    (hrevoked : ¬ revoked auditor) :
    Undisturbed refreshed revoked s s' := by
  have hself : s'.get (.auditorKey auditor) = some written := by simp [hafter]
  have hother : ∀ x, x ≠ auditor → s'.get (.auditorKey x) = s.get (.auditorKey x) := by
    intro x hx
    simp [hafter, hx]
  have hkept : ∀ old, s.get (.auditorKey auditor) = some old → old.parentAuditor ≠ none ∧
      old.policy = written.policy ∧ (refreshed auditor → old = written) := by
    intro old hget
    simpa only [Replaces, not_or, not_and, not_not] using hbefore old hget
  constructor
  · intro x old hget
    by_cases hx : x = auditor
    · subst hx
      obtain ⟨-, hpolicy, -⟩ := hkept old hget
      exact ⟨written, hself, hpolicy.symm⟩
    · exact ⟨old, by rw [hother x hx, hget], rfl⟩
  · intro x record hroot
    by_cases hx : x = auditor
    · subst hx
      rw [hself]
      constructor
      · intro h
        obtain rfl := Option.some.inj h
        exact absurd hroot hparent
      · intro h
        exact absurd hroot (hkept record h).1
    · rw [hother x hx]
  · intro x old hrefreshed hget
    by_cases hx : x = auditor
    · subst hx
      rw [hself, (hkept old hget).2.2 hrefreshed]
    · rw [hother x hx, hget]
  · intro x hx
    have hne : x ≠ auditor := by
      rintro rfl
      exact hrevoked hx
    rw [hother x hne, hs x hx]

theorem guarded_fails (hcall : call.isGuarded = true) (hpaused : Paused e s) :
    exec e budget s call ≠ .ok (r, s') := by
  intro h
  cases call with
  | generateViewKey =>
    simp only [exec, returning_ok, orPanic_ok, generateViewKey_ok] at h
    obtain ⟨_, ⟨hunpaused, -⟩, -⟩ := h
    exact hunpaused hpaused
  | revokeViewKey =>
    obtain ⟨_, _, hcalls, -⟩ := revokeViewKey_ok.mp (returningUnit_ok.mp h).1
    exact hcalls.unpaused hpaused
  | refreshViewKey =>
    obtain ⟨_, h, -⟩ := returning_ok.mp h
    obtain ⟨_, hcalls, -⟩ := refreshViewKey_ok.mp h
    exact hcalls.unpaused hpaused
  | setDelegationPolicy | approveDelegation =>
    obtain ⟨_, hcalls, -⟩ := setDelegationPolicy_ok.mp (returningUnit_ok.mp h).1
    exact hcalls.unpaused hpaused
  | _ => cases hcall

theorem logged_pauseManager : (logged e auditor scope matched s).get .pauseManager =
    s.get .pauseManager := by
  simp [logged]

theorem pointer_of_paused (h : exec e budget s call = .ok (r, s')) (hpaused : Paused e s) :
    (∃ admin pauseManager, call = .setPauseManager admin pauseManager ∧ admin ∈ e.auths ∧
      s' = s.set .pauseManager pauseManager) ∨ s'.get .pauseManager = s.get .pauseManager := by
  cases call with
  | setPauseManager admin pauseManager =>
    simp only [exec, returningUnit_ok, orPanic_ok, setPauseManager, bind_ok, requireAuth_ok,
      pure_ok, exists_const] at h
    exact .inl ⟨admin, pauseManager, rfl, h.1⟩
  | generateViewKey | revokeViewKey | refreshViewKey | setDelegationPolicy | approveDelegation =>
    exact absurd h (guarded_fails rfl hpaused)
  | delegateViewKey | grantDelegatedAccess =>
    obtain ⟨_, h, -⟩ := returning_ok.mp h
    obtain ⟨_, -, -, rfl⟩ := delegateViewKey_ok.mp h
    exact .inr (by simp [delegated])
  | extendDelegatedAccess =>
    obtain ⟨_, h, -⟩ := returning_ok.mp h
    obtain ⟨_, -, -, rfl⟩ := extendDelegatedAccess_ok.mp h
    exact .inr (by simp)
  | verifyCommitmentWithKey =>
    simp only [exec, returning_ok, verifyCommitmentWithKey_ok] at h
    obtain ⟨_, ⟨_, -, -, -, -, -, rfl⟩, -⟩ := h
    exact .inr logged_pauseManager
  | verifyCommitmentWithViewKey =>
    simp only [exec, returning_ok, verifyCommitmentWithViewKey_ok] at h
    obtain ⟨_, ⟨_, -, -, -, -, -, -, rfl⟩, -⟩ := h
    exact .inr logged_pauseManager
  | verifyPayrollMetadata =>
    simp only [exec, returning_ok, verifyPayrollMetadata_ok] at h
    obtain ⟨_, ⟨-, -, -, -, -, rfl⟩, -⟩ := h
    exact .inr logged_pauseManager
  | generateAggregateReport =>
    simp only [exec, returning_ok, generateAggregateReport, bind_ok, orPanic_ok, recordAuditLog_ok,
      pure_ok, Prod.mk.injEq] at h
    obtain ⟨_, ⟨_, -, _, ⟨-, rfl⟩, -, rfl⟩, -⟩ := h
    exact .inr logged_pauseManager
  | exportAuditSummary =>
    simp only [exec, bind_ok, pure_ok, Prod.mk.injEq] at h
    obtain ⟨_, -, -, rfl⟩ := h
    exact .inr rfl

theorem next_undisturbed (i : Input)
    (hs : ∀ auditor, revoked auditor → s.get (.auditorKey auditor) = none)
    (hpointer : s.get .pauseManager = some pm)
    (hpaused : i.env.isPaused pm = true) (hstays : ¬ Repoints pm i)
    (hkeeps : ¬ Disturbs refreshed revoked s i) :
    (next s i).get .pauseManager = some pm ∧ Undisturbed refreshed revoked s (next s i) := by
  have hpaused : Paused i.env s := ⟨pm, hpointer, hpaused⟩
  rcases next_cases s i with ⟨-, hsame⟩ | ⟨r, hok⟩
  · rw [hsame]
    exact ⟨hpointer, .refl hs⟩
  constructor
  · rcases pointer_of_paused hok hpaused with ⟨admin, other, hcall, hsigned, hafter⟩ | hkept
    · by_cases hne : other = pm
      · rw [hafter, hne, Store.get_set_self]
      · exact absurd ⟨admin, other, hcall, hsigned, hne⟩ hstays
    · rw [hkept, hpointer]
  · have heffect := exec_effect hok
    generalize hname : i.call.canonical = call at heffect
    generalize next s i = s' at heffect ⊢
    cases heffect with
    | none hkept => exact undisturbed_of_keys hs hkept.key
    | generate hunpaused => exact absurd hpaused hunpaused
    | revoke hcalls | refresh hcalls | policy hcalls => exact absurd hpaused hcalls.unpaused
    | delegate hcan hafter =>
      subst hafter
      exact undisturbed_of_key hs (by simp [delegatedRecord]) key_delegated
        (fun old hget hreplaces => hkeeps (.overwrites hname hcan hget hreplaces))
        fun hrevoked => hkeeps (.reissues hname hcan hrevoked)
    | @extend _ delegate _ record hcan hafter =>
      subst hafter
      have hparent : record.parentAuditor ≠ none := by simp [hcan.parent]
      refine undisturbed_of_key hs ?_ (fun x => key_set _ x) (fun old hget hreplaces => ?_)
        fun hrevoked => ?_
      · exact hparent
      · obtain rfl := Store.get_inj hcan.stored hget
        rcases hreplaces with hroot | hpolicy | ⟨hrefreshed, -⟩
        · exact hparent hroot
        · exact hpolicy rfl
        · exact hkeeps (.prolongs hname hcan hrefreshed)
      · have hnone := hs delegate hrevoked
        rw [hcan.stored] at hnone
        cases hnone

theorem Disturbs.not_undisturbed (h : Disturbs refreshed revoked s i) :
    ¬ Undisturbed refreshed revoked s (next s i) := by
  intro hkept
  cases h with
  | @overwrites auditor delegate scope expirationLedger parent old hcall hcan hstored hreplaces =>
    rw [next_ok (exec_delegate hcall hcan)] at hkept
    have hnew : (delegated i.env auditor delegate parent scope expirationLedger s).get
        (.auditorKey delegate) =
          some (delegatedRecord i.env auditor delegate parent scope expirationLedger) := by
      rw [key_delegated, if_pos rfl]
    rcases hreplaces with hroot | hpolicy | ⟨hrefreshed, hne⟩
    · have hsame := (hkept.generated delegate old hroot).mpr hstored
      obtain rfl := Store.get_inj hnew hsame
      cases hroot
    · obtain ⟨new, hget, hsame⟩ := hkept.policies delegate old hstored
      obtain rfl := Store.get_inj hnew hget
      exact hpolicy hsame.symm
    · exact hne (Store.get_inj (hkept.refreshes delegate old hrefreshed hstored) hnew)
  | reissues hcall hcan hrevoked =>
    rw [next_ok (exec_delegate hcall hcan)] at hkept
    have hnone := hkept.revocations _ hrevoked
    rw [key_delegated, if_pos rfl] at hnone
    cases hnone
  | @prolongs _ delegate _ record hcall hcan hrefreshed =>
    have hok := (exec_extend hcan : exec i.env i.budget s _ = _)
    rw [← hcall, exec_canonical] at hok
    rw [next_ok hok] at hkept
    have hsame := hkept.refreshes delegate record hrefreshed hcan.stored
    rw [key_set, if_pos rfl] at hsame
    have hlater := congrArg ViewKeyRecord.expirationLedger (Option.some.inj hsame)
    exact absurd hlater.symm (Nat.ne_of_lt hcan.later)

end

end AuditModule

-- ---------------------------------------------------------------------------
-- The contracts together
-- ---------------------------------------------------------------------------

/-- The registry and the audit module, with a pause manager at every address.
One that nobody initialised is not paused. -/
structure Site where
  managers : Address → PauseManager.Storage
  registry : PayrollRegistry.Storage
  audit : AuditModule.Storage

namespace Site

inductive Call
  | manager (address : Address) (call : PauseManager.Call)
  | registry (call : PayrollRegistry.Call)
  | audit (budget : Nat) (call : AuditModule.Call)

structure Input where
  env : LedgerEnv
  call : Call

def start : Site := ⟨fun _ => Store.empty, Store.empty, Store.empty⟩

def isPaused (w : Site) (pm : Address) : Bool := PauseManager.isPaused (w.managers pm)

/-- `is_paused` is answered by the managers. -/
def asked (w : Site) (e : LedgerEnv) : LedgerEnv := { e with isPaused := w.isPaused }

def next (w : Site) (i : Input) : Site :=
  match i.call with
  | .manager address call =>
    let after := PauseManager.next (w.managers address) ⟨i.env.toEnv, call⟩
    { w with managers := Function.update w.managers address after }
  | .registry call => { w with registry := PayrollRegistry.next w.registry ⟨w.asked i.env, call⟩ }
  | .audit budget call =>
    { w with audit := AuditModule.next w.audit ⟨w.asked i.env, budget, call⟩ }

def run (inputs : List Input) : Site := runFrom next start inputs

/-- The step sets the pause manager of the registry to another address than
`pm`. Any address can sign for it. -/
def RepointsRegistry (pm : Address) (st : Step Site Input) : Prop :=
  ∃ call, st.input.call = .registry call ∧ PayrollRegistry.Repoints pm ⟨st.input.env, call⟩

def RepointsAudit (pm : Address) (st : Step Site Input) : Prop :=
  ∃ budget call, st.input.call = .audit budget call ∧
    AuditModule.Repoints pm ⟨st.input.env, budget, call⟩

def auditStep? (st : Step Site Input) : Option (Step AuditModule.Storage AuditModule.Input) :=
  match st.input.call with
  | .audit budget call =>
    some ⟨st.pre.audit, ⟨st.pre.asked st.input.env, budget, call⟩, st.post.audit⟩
  | _ => none

/-- What became of the auditor's key in a run of the site. -/
def keyFate (inputs : List Input) (auditor : Address) : AuditModule.KeyFate :=
  AuditModule.keyFate ((steps next start inputs).filterMap auditStep?) auditor

def Refreshed (inputs : List Input) (auditor : Address) : Prop :=
  keyFate inputs auditor = .refreshed

def Revoked (inputs : List Input) (auditor : Address) : Prop := keyFate inputs auditor = .revoked

def DisturbsKey (before : List Input) (st : Step Site Input) : Prop :=
  ∃ audit, auditStep? st = some audit ∧
    AuditModule.Disturbs (Refreshed before) (Revoked before) audit.pre audit.input

def KeysHeld (before : List Input) (s t : AuditModule.Storage) : Prop :=
  AuditModule.Undisturbed (Refreshed before) (Revoked before) s t

section
variable {w : Site}

theorem next_registry_kept (i : Input) (hpointer : w.registry.get .pauseManager = some pm)
    (hpaused : w.isPaused pm = true) (hstays : ¬ RepointsRegistry pm ⟨w, i, next w i⟩)
    (k : PayrollRegistry.DataKey) : (next w i).registry.get k = w.registry.get k := by
  cases hcall : i.call with
  | manager => simp [next, hcall]
  | audit => simp [next, hcall]
  | registry call =>
    have hnext : (next w i).registry = PayrollRegistry.next w.registry ⟨w.asked i.env, call⟩ := by
      simp [next, hcall]
    rw [hnext]
    exact PayrollRegistry.next_paused ⟨w.asked i.env, call⟩ hpointer hpaused
      (fun h => hstays ⟨call, hcall, h⟩) k

theorem auditStep_cases (w : Site) (i : Input) :
    (∃ budget call, i.call = .audit budget call ∧
      auditStep? ⟨w, i, next w i⟩ = some ⟨w.audit, ⟨w.asked i.env, budget, call⟩,
        AuditModule.next w.audit ⟨w.asked i.env, budget, call⟩⟩ ∧
      (next w i).audit = AuditModule.next w.audit ⟨w.asked i.env, budget, call⟩) ∨
    auditStep? ⟨w, i, next w i⟩ = none ∧ (next w i).audit = w.audit := by
  cases hcall : i.call with
  | manager | registry => exact .inr (by simp [auditStep?, next, hcall])
  | audit budget call => exact .inl ⟨budget, call, rfl, by simp [auditStep?, next, hcall]⟩

/-- The fates of a run tell which keys there are after it. -/
theorem keyFate_stored (inputs : List Input) (auditor : Address) :
    (keyFate inputs auditor).stored = (run inputs).audit.has (.auditorKey auditor) := by
  refine history_invariant (I := fun hist (w : Site) =>
    (AuditModule.keyFate (hist.filterMap auditStep?) auditor).stored =
      w.audit.has (.auditorKey auditor)) rfl (fun hist w i h => ?_) inputs
  rcases auditStep_cases w i with ⟨budget, call, -, hstep, hafter⟩ | ⟨hstep, hsame⟩
  · rw [hafter, List.filterMap_append, AuditModule.keyFate, List.foldl_append]
    simp only [List.filterMap_cons, hstep, List.filterMap_nil, List.foldl_cons, List.foldl_nil]
    exact AuditModule.noteFate_stored _ h
  · rw [hsame, List.filterMap_append]
    simpa [hstep] using h

theorem revoked_absent (h : Revoked before auditor) :
    (run before).audit.get (.auditorKey auditor) = none := by
  have hstored := keyFate_stored before auditor
  rw [show keyFate before auditor = .revoked from h] at hstored
  exact Store.has_eq_false.mp hstored.symm

def AuditHeld (before : List Input) (pm : Address) (w : Site) : Prop :=
  w.audit.get .pauseManager = some pm ∧ KeysHeld before (run before).audit w.audit

theorem next_auditHeld (i : Input) (h : AuditHeld before pm w)
    (hkeeps : w.isPaused pm = true ∧ ¬ RepointsAudit pm ⟨w, i, next w i⟩ ∧
      ¬ DisturbsKey before ⟨w, i, next w i⟩) : AuditHeld before pm (next w i) := by
  obtain ⟨hpaused, hstays, hkeeps⟩ := hkeeps
  obtain ⟨hpointer, hheld⟩ := h
  rcases auditStep_cases w i with ⟨budget, call, hcall, hstep, hafter⟩ | ⟨-, hsame⟩
  · obtain ⟨hpointer, hnext⟩ := AuditModule.next_undisturbed ⟨w.asked i.env, budget, call⟩
      hheld.revocations hpointer hpaused (fun h => hstays ⟨budget, call, hcall, h⟩)
      fun h => hkeeps ⟨_, hstep, h⟩
    rw [AuditHeld, hafter]
    exact ⟨hpointer, hheld.trans hnext⟩
  · rw [AuditHeld, hsame]
    exact ⟨hpointer, hheld⟩

theorem disturbsKey_seen {st : Step Site Input} (hst : st ∈ steps next w inputs)
    (h : DisturbsKey before st) : ¬ KeysHeld before st.pre.audit st.post.audit := by
  obtain ⟨audit, hstep, hdisturbs⟩ := h
  rw [steps_eq hst] at hstep
  rcases auditStep_cases st.pre st.input with ⟨budget, call, -, hstep', hafter⟩ | ⟨hnone, -⟩
  · obtain rfl := Option.some.inj (hstep'.symm.trans hstep)
    rw [steps_post hst, hafter]
    exact hdisturbs.not_undisturbed
  · rw [hnone] at hstep
    cases hstep

/-- A pause holds against everybody as long as nobody repoints the contract. In
the audit module nobody may disturb a key either, by one of the calls that do
not look at the pause; each such call does change a key. -/
theorem pause_holds_unless_repointed (before after : List Input) (pm : Address)
    (hpaused : ∀ st ∈ steps next (run before) after, st.pre.isPaused pm = true) :
    ((run before).registry.get .pauseManager = some pm →
      (∀ st ∈ steps next (run before) after, ¬ RepointsRegistry pm st) →
      ∀ k, (run (before ++ after)).registry.get k = (run before).registry.get k) ∧
    ((run before).audit.get .pauseManager = some pm →
      (∀ st ∈ steps next (run before) after, ¬ RepointsAudit pm st ∧ ¬ DisturbsKey before st) →
      KeysHeld before (run before).audit (run (before ++ after)).audit ∧
      ∀ st ∈ steps next (run before) after, ∀ budget call, st.input.call = .audit budget call →
        call.isGuarded = true → ∀ r s',
          AuditModule.exec (st.pre.asked st.input.env) budget st.pre.audit call ≠ .ok (r, s')) ∧
    ∀ st ∈ steps next (run before) after, DisturbsKey before st →
      ¬ KeysHeld before st.pre.audit st.post.audit := by
  have hrun : run (before ++ after) = runFrom next (run before) after := runFrom_append before after
  rw [hrun]
  refine ⟨?_, ?_, fun st hst => disturbsKey_seen hst⟩
  · intro hpointer hstays
    refine steps_invariant
      (I := fun w : Site => ∀ k, w.registry.get k = (run before).registry.get k)
      (C := fun st => st.pre.isPaused pm = true ∧ ¬ RepointsRegistry pm st) (fun _ => rfl) ?_
      fun st hst => ⟨hpaused st hst, hstays st hst⟩
    rintro w i hw ⟨hpause, hstay⟩ k
    have hpointer : w.registry.get .pauseManager = some pm := (hw _).trans hpointer
    exact (next_registry_kept i hpointer hpause hstay k).trans (hw k)
  · intro hpointer hkeeps
    have hstart : AuditHeld before pm (run before) :=
      ⟨hpointer, .refl fun auditor => revoked_absent⟩
    have hall : ∀ st ∈ steps next (run before) after, st.pre.isPaused pm = true ∧
        ¬ RepointsAudit pm st ∧ ¬ DisturbsKey before st :=
      fun st hst => ⟨hpaused st hst, hkeeps st hst⟩
    refine ⟨(steps_invariant hstart (fun _ i => next_auditHeld i) hall).2, ?_⟩
    intro st hst budget call hcall hguarded r s'
    have hpre := steps_invariant_pre hstart (fun _ i => next_auditHeld i) hall hst
    exact AuditModule.guarded_fails hguarded ⟨pm, hpre.1, hpaused st hst⟩

end

-- ---------------------------------------------------------------------------
-- Sample runs
-- ---------------------------------------------------------------------------

namespace Sample

def olga : Address := ⟨2⟩
def alice : Address := ⟨3⟩
def mallory : Address := ⟨4⟩
def treasury : Address := ⟨5⟩
def bob : Address := ⟨6⟩
def carol : Address := ⟨7⟩
def manager : Address := ⟨20⟩
def decoy : Address := ⟨21⟩

def call (auths : List Address) (c : Call) : Input := ⟨AuditModule.Sample.env auths, c⟩

/-- Alice has a company and a view key. She has delegated to Bob, and refreshed
his key, and to Carol, and revoked hers. The manager she has configured is
operated by Olga and paused. -/
def paused : List Input :=
  [call [] (.manager manager (.initializeManager olga)),
    call [alice] (.registry (.registerCompany alice treasury)),
    call [] (.audit 10 (.generateViewKey alice 100)),
    call [AuditModule.Sample.contract] (.audit 10
      (.setDelegationPolicy AuditModule.Sample.contract alice true .fullCompany 100)),
    call [alice] (.audit 10 (.delegateViewKey alice bob .fullCompany 50)),
    call [alice] (.audit 10 (.refreshViewKey alice bob 60)),
    call [alice] (.audit 10 (.delegateViewKey alice carol .fullCompany 50)),
    call [alice] (.audit 10 (.revokeViewKey alice carol)),
    call [alice] (.registry (.setPauseManager alice manager)),
    call [alice] (.audit 10 (.setPauseManager alice manager)),
    call [olga] (.manager manager .pause)]

def attempts : List Input :=
  [call [mallory] (.registry (.registerCompany mallory treasury)),
    call [mallory] (.audit 10 (.generateViewKey alice 5))]

def repointed : List Input :=
  [call [mallory] (.registry (.setPauseManager mallory decoy)),
    call [mallory] (.audit 10 (.setPauseManager mallory decoy))]

def extension : Input := call [mallory] (.audit 10 (.extendDelegatedAccess alice bob 90))

end Sample

theorem paused_attempts_fail :
    Refreshed Sample.paused Sample.bob ∧ Revoked Sample.paused Sample.carol ∧
      (∀ st ∈ steps next (run Sample.paused) Sample.attempts,
        st.pre.isPaused Sample.manager = true) ∧
      (∀ k, (run (Sample.paused ++ Sample.attempts)).registry.get k =
        (run Sample.paused).registry.get k) ∧
      KeysHeld Sample.paused (run Sample.paused).audit
        (run (Sample.paused ++ Sample.attempts)).audit := by
  have hpaused : ∀ st ∈ steps next (run Sample.paused) Sample.attempts,
      st.pre.isPaused Sample.manager = true := by decide +kernel
  have hregistry : (run Sample.paused).registry.get .pauseManager = some Sample.manager := by
    decide +kernel
  have haudit : (run Sample.paused).audit.get .pauseManager = some Sample.manager := by
    decide +kernel
  obtain ⟨hkept, hheld, -⟩ :=
    pause_holds_unless_repointed Sample.paused Sample.attempts Sample.manager hpaused
  have hcalls : ∀ st ∈ steps next (run Sample.paused) Sample.attempts,
      st.input = Sample.call [Sample.mallory]
          (.registry (.registerCompany Sample.mallory Sample.treasury)) ∨
        st.input = Sample.call [Sample.mallory] (.audit 10 (.generateViewKey Sample.alice 5)) := by
    intro st hst
    simp only [Sample.attempts, steps, List.mem_cons, List.not_mem_nil, or_false] at hst
    rcases hst with rfl | rfl
    · exact .inl rfl
    · exact .inr rfl
  have hrefreshed : keyFate Sample.paused Sample.bob = .refreshed := by decide +kernel
  have hrevoked : keyFate Sample.paused Sample.carol = .revoked := by decide +kernel
  refine ⟨hrefreshed, hrevoked, hpaused, hkept hregistry fun st hst => ?_,
    (hheld haudit fun st hst => ⟨?_, ?_⟩).1⟩
  · rintro ⟨call, hcall, _, _, hset, -⟩
    rcases hcalls st hst with hst | hst <;> rw [hst] at hcall <;> cases hcall
    cases hset
  · rintro ⟨_, call, hcall, _, _, hset, -⟩
    rcases hcalls st hst with hst | hst <;> rw [hst] at hcall <;> cases hcall
    cases hset
  · rintro ⟨audit, hstep, hdisturbs⟩
    rcases hcalls st hst with hst | hst
    · simp [auditStep?, hst, Sample.call] at hstep
    · simp only [auditStep?, hst, Sample.call, Option.some.injEq] at hstep
      subst hstep
      cases hdisturbs with
      | overwrites hcall | reissues hcall | prolongs hcall => cases hcall

/-- Mallory, who neither operates the paused manager nor configured it, points
both contracts to another one and writes to them. Bob's refreshed key is
extended without that. -/
theorem stranger_lifts_pause :
    let w := run Sample.paused
    let attack := Sample.repointed ++ Sample.attempts
    (w.registry.get .pauseManager = some Sample.manager ∧
      w.audit.get .pauseManager = some Sample.manager ∧
      (w.managers Sample.manager).get .operator = some Sample.olga) ∧
      (∀ i ∈ attack, i.env.auths = [Sample.mallory]) ∧
      (∀ st ∈ steps next w attack,
        st.pre.isPaused Sample.manager = true ∧ st.post.isPaused Sample.manager = true) ∧
      w.registry.get (.company 1) = none ∧
      (run (Sample.paused ++ attack)).registry.get (.company 1) =
        some ⟨Sample.mallory, Sample.treasury⟩ ∧
      (w.audit.get (.auditorKey Sample.alice)).map (·.expirationLedger) = some 100 ∧
      ((run (Sample.paused ++ attack)).audit.get (.auditorKey Sample.alice)).map
        (·.expirationLedger) = some 5 ∧
      Refreshed Sample.paused Sample.bob ∧
      (w.audit.get (.auditorKey Sample.bob)).map (·.expirationLedger) = some 60 ∧
      ((run (Sample.paused ++ [Sample.extension])).audit.get (.auditorKey Sample.bob)).map
        (·.expirationLedger) = some 90 := by
  intro w attack
  have hrefreshed : keyFate Sample.paused Sample.bob = .refreshed := by decide +kernel
  refine ⟨⟨by decide +kernel, by decide +kernel, by decide +kernel⟩, by decide +kernel,
    by decide +kernel, by decide +kernel, by decide +kernel, by decide +kernel, by decide +kernel,
    hrefreshed, by decide +kernel, by decide +kernel⟩

end Site

end ZkPayroll
