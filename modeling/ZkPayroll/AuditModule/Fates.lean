import ZkPayroll.AuditModule.Revocation

/-!
# What became of a key

The storage shows the record of a key and not which call left it there. The
fate of an auditor's key is read off the calls of a run instead: the key was
issued, by the contract or by another auditor, or refreshed, or revoked, with
the key itself or in the cascade of one above it.
-/

namespace ZkPayroll.AuditModule

open Host

inductive KeyFate
  | never
  | issued
  | refreshed
  | revoked
  deriving DecidableEq

def KeyFate.stored : KeyFate → Bool
  | .issued | .refreshed => true
  | .never | .revoked => false

/-- The fate of the auditor's key after a call that went through from `s` to
`s'`. An extension or a new policy leaves it. -/
def KeyFate.after (fate : KeyFate) (auditor : Address) (s s' : Storage) : Call → KeyFate
  | .generateViewKey owner _ => if owner = auditor then .issued else fate
  | .delegateViewKey _ owner _ _ => if owner = auditor then .issued else fate
  | .refreshViewKey _ owner _ => if owner = auditor then .refreshed else fate
  | .revokeViewKey .. =>
    if s.has (.auditorKey auditor) && !s'.has (.auditorKey auditor) then .revoked else fate
  | _ => fate

def noteFate (auditor : Address) (fate : KeyFate) (st : Step Storage Input) : KeyFate :=
  match exec st.input.env st.input.budget st.pre st.input.call with
  | .ok _ => fate.after auditor st.pre st.post st.input.call.canonical
  | .error _ => fate

/-- The fate of the auditor's key in a run that took these steps. -/
def keyFate (hist : List (Step Storage Input)) (auditor : Address) : KeyFate :=
  hist.foldl (noteFate auditor) .never

section
variable {e : LedgerEnv} {s s' : Storage} {fate : KeyFate}

theorem has_set_key (record : ViewKeyRecord) :
    (s.set (.auditorKey owner) record).has (.auditorKey auditor) =
      (decide (owner = auditor) || s.has (.auditorKey auditor)) := by
  rw [Store.has, key_set]
  by_cases h : auditor = owner
  · simp [h]
  · simp [h, Ne.symm h, Store.has]

theorem has_delegated :
    (delegated e grantor owner parent scope expirationLedger s).has (.auditorKey auditor) =
      (decide (owner = auditor) || s.has (.auditorKey auditor)) := by
  rw [Store.has, key_delegated]
  by_cases h : auditor = owner
  · simp [h]
  · simp [h, Ne.symm h, Store.has]

theorem has_rewritten {record : ViewKeyRecord} (h : s.get (.auditorKey owner) = some record)
    (written : ViewKeyRecord) : (s.set (.auditorKey owner) written).has (.auditorKey auditor) =
      s.has (.auditorKey auditor) := by
  rw [has_set_key]
  by_cases hsame : owner = auditor
  · subst hsame
    simp [Store.has, h]
  · simp [hsame]

theorem has_of_revoked {t : Storage} (h : revokeDescendants budget owner s = .ok t)
    (hhas : (t.remove (.auditorKey owner)).has (.auditorKey auditor) = true) :
    s.has (.auditorKey auditor) = true := by
  obtain ⟨record, hget⟩ := Store.has_eq_true.mp hhas
  obtain ⟨-, hbefore⟩ := (revokeDescendants_ok h).2.key_remove hget
  exact Store.has_eq_true.mpr ⟨record, hbefore⟩

theorem stored_written {written : KeyFate} (hwritten : written.stored = true)
    (h : fate.stored = s.has (.auditorKey auditor)) :
    (if owner = auditor then written else fate).stored =
      (decide (owner = auditor) || s.has (.auditorKey auditor)) := by
  by_cases hsame : owner = auditor
  · simp [hsame, hwritten]
  · simp [hsame, h]

theorem after_stored (hok : exec e budget s call = .ok (r, s'))
    (h : fate.stored = s.has (.auditorKey auditor)) :
    (fate.after auditor s s' call.canonical).stored = s'.has (.auditorKey auditor) := by
  cases call with
  | generateViewKey owner expirationLedger =>
    simp only [exec, returning_ok, orPanic_ok, generateViewKey_ok] at hok
    obtain ⟨_, ⟨-, -, rfl⟩, -⟩ := hok
    rw [has_set_key]
    exact stored_written rfl h
  | delegateViewKey grantor owner | grantDelegatedAccess grantor owner =>
    obtain ⟨_, hok, -⟩ := returning_ok.mp hok
    obtain ⟨parent, -, -, rfl⟩ := delegateViewKey_ok.mp hok
    rw [has_delegated]
    exact stored_written rfl h
  | refreshViewKey admin owner =>
    obtain ⟨_, hok, -⟩ := returning_ok.mp hok
    obtain ⟨record, hcalls, -, -, rfl⟩ := refreshViewKey_ok.mp hok
    rw [has_set_key]
    exact stored_written rfl h
  | revokeViewKey admin owner =>
    obtain ⟨record, t, -, hcascade, rfl⟩ := revokeViewKey_ok.mp (returningUnit_ok.mp hok).1
    simp only [Call.canonical, KeyFate.after]
    cases hpost : (t.remove (.auditorKey owner)).has (.auditorKey auditor) with
    | true => simp [h, has_of_revoked hcascade hpost]
    | false =>
      cases hpre : s.has (.auditorKey auditor) with
      | true => rfl
      | false => simp [h, hpre]
  | setDelegationPolicy | approveDelegation =>
    obtain ⟨record, hcalls, rfl⟩ := setDelegationPolicy_ok.mp (returningUnit_ok.mp hok).1
    rw [has_rewritten hcalls.stored]
    exact h
  | extendDelegatedAccess =>
    obtain ⟨_, hok, -⟩ := returning_ok.mp hok
    obtain ⟨record, hcan, -, rfl⟩ := extendDelegatedAccess_ok.mp hok
    rw [has_rewritten hcan.stored]
    exact h
  | _ =>
    obtain ⟨hkept⟩ := exec_effect hok
    rw [Store.has, hkept.key]
    exact h

theorem noteFate_stored (i : Input) (h : fate.stored = s.has (.auditorKey auditor)) :
    (noteFate auditor fate ⟨s, i, next s i⟩).stored = (next s i).has (.auditorKey auditor) := by
  unfold noteFate
  rcases next_cases s i with ⟨⟨err, herr⟩, hsame⟩ | ⟨r, hok⟩
  · simp only [herr, hsame]
    exact h
  · simp only [hok]
    exact after_stored hok h

end

end ZkPayroll.AuditModule
