import ZkPayroll.AuditModule.Cascade

/-!
# Parents, lists and what a revocation takes along

The record of a key names its parent; the list of the parent has every
delegate it ever had. The two agree in one direction in every state of every
run (`Listed`): a key under a parent is in the parent's list, and the parent
has a key. So a revocation leaves nothing below the auditor it revokes.

They do not agree in the other direction, since nothing takes a delegate off a
list when it gets a key from elsewhere. A revocation then drops that key too.
-/

namespace ZkPayroll.AuditModule

open Host Relation

def parentLink (s : Storage) (auditor parent : Address) : Prop :=
  ∃ record, s.get (.auditorKey auditor) = some record ∧ record.parentAuditor = some parent

/-- Every key under a parent is in the list of the parent, which has a key. -/
structure Listed (s : Storage) : Prop where
  listed : ∀ x parent, parentLink s x parent → child s parent x
  stored : ∀ x parent, parentLink s x parent →
    ∃ record, s.get (.auditorKey parent) = some record

section
variable {e : LedgerEnv} {s s' t : Storage} {auditor x y : Address}

theorem KeysKept.parentLink (h : KeysKept s s') : parentLink s' = parentLink s := by
  funext x y
  rw [AuditModule.parentLink, h.key, AuditModule.parentLink]

theorem Listed.kept (hs : Listed s) (h : KeysKept s s') : Listed s' := by
  constructor
  · rw [h.parentLink, h.child]
    exact hs.listed
  · rw [h.parentLink]
    intro x parent hlink
    rw [h.key]
    exact hs.stored x parent hlink

theorem Listed.set_key (hs : Listed s)
    (hparent : ∀ p, record.parentAuditor = some p → parentLink s auditor p) :
    Listed (s.set (.auditorKey auditor) record) := by
  have hold : ∀ x p, parentLink (s.set (.auditorKey auditor) record) x p → parentLink s x p := by
    rintro x p ⟨found, hget, hp⟩
    rw [key_set] at hget
    split at hget
    · rename_i hx
      obtain rfl := Option.some.inj hget
      rw [hx]
      exact hparent p hp
    · exact ⟨found, hget, hp⟩
  constructor
  · intro x p hlink
    rw [child_set_key]
    exact hs.listed x p (hold x p hlink)
  · intro x p hlink
    rw [key_set]
    split
    · exact ⟨record, rfl⟩
    · exact hs.stored x p (hold x p hlink)

theorem Listed.delegated (hs : Listed s)
    (hcan : CanDelegate e auditor scope expirationLedger parent s) :
    Listed (delegated e auditor delegate parent scope expirationLedger s) := by
  have hlinks : ∀ x p,
      parentLink (AuditModule.delegated e auditor delegate parent scope expirationLedger s) x p →
        (x = delegate ∧ p = auditor) ∨ parentLink s x p := by
    rintro x p ⟨found, hget, hp⟩
    rw [key_delegated] at hget
    split at hget
    · rename_i hx
      obtain rfl := Option.some.inj hget
      exact .inl ⟨hx, (Option.some.inj hp).symm⟩
    · exact .inr ⟨found, hget, hp⟩
  constructor
  · intro x p hlink
    rw [child_delegated]
    rcases hlinks x p hlink with ⟨rfl, rfl⟩ | hlink
    · exact .inr ⟨rfl, rfl⟩
    · exact .inl (hs.listed x p hlink)
  · intro x p hlink
    rw [key_delegated]
    split
    · exact ⟨_, rfl⟩
    · rcases hlinks x p hlink with ⟨-, rfl⟩ | hlink
      · exact ⟨parent, hcan.accepted.stored⟩
      · exact hs.stored x p hlink

theorem Erased.key_remove (h : Erased auditor s t)
    (hget : (t.remove (.auditorKey auditor)).get (.auditorKey x) = some record) :
    ¬ ReflTransGen (child s) auditor x ∧ s.get (.auditorKey x) = some record := by
  have hx : x ≠ auditor := by
    rintro rfl
    simp at hget
  have hget : t.get (.auditorKey x) = some record := by simpa [hx] using hget
  have hbelow : ¬ TransGen (child s) auditor x := by
    intro hbelow
    rw [h.dropped x hbelow] at hget
    cases hget
  rw [h.keys x hbelow] at hget
  refine ⟨fun hreach => ?_, hget⟩
  rcases reflTransGen_iff_eq_or_transGen.mp hreach with rfl | hreach
  · exact hx rfl
  · exact hbelow hreach

theorem Listed.revoked (hs : Listed s) (h : Erased auditor s t) :
    Listed (t.remove (.auditorKey auditor)) := by
  have hlinks : ∀ x p, parentLink (t.remove (.auditorKey auditor)) x p →
      parentLink s x p ∧ ¬ ReflTransGen (child s) auditor p := by
    rintro x p ⟨record, hget, hp⟩
    obtain ⟨hx, hget⟩ := h.key_remove hget
    have hlink : parentLink s x p := ⟨record, hget, hp⟩
    -- a parent at or below the auditor would have taken `x` along
    exact ⟨hlink, fun hreach => hx (hreach.tail (hs.listed x p hlink))⟩
  constructor
  · intro x p hlink
    obtain ⟨hlink, hp⟩ := hlinks x p hlink
    rw [child, delegates_remove_key, h.lists p hp]
    exact hs.listed x p hlink
  · intro x p hlink
    obtain ⟨hlink, hp⟩ := hlinks x p hlink
    have hne : p ≠ auditor := fun heq => hp (heq ▸ .refl)
    obtain ⟨record, hget⟩ := hs.stored x p hlink
    refine ⟨record, ?_⟩
    rw [Store.get_remove_ne _ (by simpa using hne), h.keys p fun hbelow => hp hbelow.to_reflTransGen]
    exact hget

theorem next_listed (i : Input) (hs : Listed s) : Listed (next s i) := by
  have heffect := next_effect s i
  generalize i.call.canonical = call at heffect
  cases heffect with
  | none hkept => exact hs.kept hkept
  | generate _ hafter =>
    rw [hafter]
    exact hs.set_key fun p hp => nomatch hp
  | revoke _ hcascade hafter =>
    rw [hafter]
    exact hs.revoked (revokeDescendants_ok hcascade).2
  | refresh hcalls _ hafter =>
    rw [hafter]
    exact hs.set_key fun p hp => ⟨_, hcalls.stored, hp⟩
  | policy hcalls hafter =>
    rw [hafter]
    exact hs.set_key fun p hp => ⟨_, hcalls.stored, hp⟩
  | delegate hcan hafter =>
    rw [hafter]
    exact hs.delegated hcan
  | extend hcan hafter =>
    rw [hafter]
    exact hs.set_key fun p hp => ⟨_, hcan.stored, hp⟩

theorem reached_listed (h : Reached s) : Listed s := by
  refine run_invariant ⟨?_, ?_⟩ (fun _ i hs => next_listed i hs) h
  · rintro x p ⟨record, hget, -⟩
    simp at hget
  · rintro x p ⟨record, hget, -⟩
    simp at hget

/-- After a revocation that completes, the revoked auditor is on no key's chain
of parents. -/
def RevocationClears (s : Storage) : Prop :=
  ∀ e budget admin auditor s', revokeViewKey e budget admin auditor s = .ok s' →
    ∀ x, ¬ TransGen (parentLink s') x auditor

theorem Listed.revocationClears (hs : Listed s) : RevocationClears s := by
  intro e budget admin auditor s' h x hchain
  obtain ⟨record, t, -, hcascade, rfl⟩ := revokeViewKey_ok.mp h
  obtain ⟨y, -, hlink⟩ := TransGen.tail'_iff.mp hchain
  obtain ⟨record, hget⟩ := (hs.revoked (revokeDescendants_ok hcascade).2).stored y auditor hlink
  simp at hget

/-- In every run, no delegate outlives its grantor. -/
theorem delegates_listed_and_cleared (inputs : List Input) :
    Listed (runFrom next Store.empty inputs) ∧
      RevocationClears (runFrom next Store.empty inputs) :=
  ⟨reached_listed reachable_runFrom, (reached_listed reachable_runFrom).revocationClears⟩

-- ---------------------------------------------------------------------------
-- Collateral
-- ---------------------------------------------------------------------------

/-- A revocation that succeeds keeps the key of everyone else who is not below
the auditor by the current chain of parents. -/
def NoCollateral (st : Step Storage Input) : Prop :=
  ∀ admin auditor, st.input.call = .revokeViewKey admin auditor →
    (∃ out, exec st.input.env st.input.budget st.pre st.input.call = .ok out) →
      ∀ x, x ≠ auditor → ¬ TransGen (parentLink st.pre) x auditor →
        st.post.get (.auditorKey x) = st.pre.get (.auditorKey x)

/-- The step revokes an auditor, with the guards met and within the budget,
while the lists lead from there to the key of another auditor who is not below
by the current chain of parents. -/
def RevokesStale (st : Step Storage Input) : Prop :=
  ∃ admin auditor record, st.input.call = .revokeViewKey admin auditor ∧
    GrantorCalls st.input.env admin auditor record st.pre ∧
    (∃ t, revokeDescendants st.input.budget auditor st.pre = .ok t) ∧
    ∃ x, x ≠ auditor ∧ st.pre.has (.auditorKey x) = true ∧
      TransGen (child st.pre) auditor x ∧ ¬ TransGen (parentLink st.pre) x auditor

theorem Erased.key_changed (h : Erased auditor s t) (hx : x ≠ auditor) :
    (t.remove (.auditorKey auditor)).get (.auditorKey x) = s.get (.auditorKey x) ↔
      ¬ (s.has (.auditorKey x) = true ∧ TransGen (child s) auditor x) := by
  rw [Store.get_remove_ne _ (by simpa using hx)]
  by_cases hbelow : TransGen (child s) auditor x
  · rw [h.dropped x hbelow]
    cases hget : s.get (.auditorKey x) <;> simp [Store.has, hget, hbelow]
  · simp [h.keys x hbelow, hbelow]

theorem noCollateral_iff (s : Storage) (i : Input) :
    NoCollateral ⟨s, i, next s i⟩ ↔ ¬ RevokesStale ⟨s, i, next s i⟩ := by
  constructor
  · rintro h ⟨admin, auditor, record, hcall, hcalls, ⟨t, hcascade⟩, x, hx, hstored, hbelow, hchain⟩
    have hok := exec_revoke hcalls hcascade
    rw [← hcall] at hok
    have hkept := h admin auditor hcall ⟨_, hok⟩ x hx hchain
    rw [next_ok hok] at hkept
    exact ((revokeDescendants_ok hcascade).2.key_changed hx).mp hkept ⟨hstored, hbelow⟩
  · rintro h admin auditor hcall ⟨⟨r, s'⟩, hok⟩ x hx hchain
    rw [next_ok hok]
    rw [hcall] at hok
    obtain ⟨hrevoke, -⟩ := returningUnit_ok.mp hok
    obtain ⟨record, t, hcalls, hcascade, rfl⟩ := revokeViewKey_ok.mp hrevoke
    refine ((revokeDescendants_ok hcascade).2.key_changed hx).mpr ?_
    rintro ⟨hstored, hbelow⟩
    exact h ⟨admin, auditor, record, hcall, hcalls, ⟨t, hcascade⟩, x, hx, hstored, hbelow, hchain⟩

/-- The revocations of a run have no collateral exactly when none of them finds
a key of someone else in the lists below. -/
theorem no_collateral_iff_lists_current (inputs : List Input) :
    (∀ st ∈ steps next Store.empty inputs, NoCollateral st) ↔
      ∀ st ∈ steps next Store.empty inputs, ¬ RevokesStale st := by
  refine forall₂_congr fun st hst => ?_
  rw [steps_eq hst]
  exact noCollateral_iff st.pre st.input

end

/-- Alice delegates to Bob, Bob gets a key of his own, and revoking Alice's key
takes Bob's away. -/
theorem independent_key_revoked :
    let before := Sample.delegatedToBob ++ [Sample.call [] (.generateViewKey Sample.bob 200)]
    let revoke := Sample.call [Sample.contract] (.revokeViewKey Sample.contract Sample.alice)
    let s := runFrom next Store.empty before
    s.get (.auditorKey Sample.bob) = some (rootRecord (Sample.env []) Sample.bob 200) ∧
      (∀ p, ¬ parentLink s Sample.bob p) ∧
      exec revoke.env revoke.budget s revoke.call = .ok (.unit, next s revoke) ∧
      (next s revoke).get (.auditorKey Sample.bob) = none ∧
      ¬ ∀ st ∈ steps next Store.empty (before ++ [revoke]), NoCollateral st := by
  intro before revoke s
  have hkey : s.get (.auditorKey Sample.bob) = some (rootRecord (Sample.env []) Sample.bob 200) := by
    decide +kernel
  have hroot : ∀ p, ¬ parentLink s Sample.bob p := by
    rintro p ⟨record, hget, hp⟩
    obtain rfl := Store.get_inj hkey hget
    cases hp
  have hok : exec revoke.env revoke.budget s revoke.call = .ok (.unit, next s revoke) := rfl
  have hgone : (next s revoke).get (.auditorKey Sample.bob) = none := by decide +kernel
  refine ⟨hkey, hroot, hok, hgone, fun h => ?_⟩
  have hchain : ¬ TransGen (parentLink s) Sample.bob Sample.alice := by
    intro hchain
    obtain ⟨p, hlink, -⟩ := TransGen.head'_iff.mp hchain
    exact hroot p hlink
  have hkept := h _ (last_mem_steps revoke) Sample.contract Sample.alice rfl ⟨_, hok⟩ Sample.bob
    (by decide) hchain
  exact nomatch hgone.symm.trans (hkept.trans hkey)

end ZkPayroll.AuditModule
