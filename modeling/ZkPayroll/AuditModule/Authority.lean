import ZkPayroll.AuditModule.Revocation

/-!
# Delegated authority along the chain of parents

A key is checked against the key of its parent and no further up. That is
enough where the policies and expirations along the chain are nested: each
within the one above. A delegation starts out so, but `set_delegation_policy`,
`refresh_view_key`, and a new key over an old one look neither at the parent
nor at the delegates of the key they write. In the runs where these writes keep
what they write between the two, whatever is accepted is bounded by every key
above.
-/

namespace ZkPayroll.AuditModule

open Host Relation

/-- The key of `above` is unexpired, its policy covers the scope of the record,
and it lasts as long. -/
def BoundedBy (sequence : Nat) (s : Storage) (record : ViewKeyRecord) (above : Address) : Prop :=
  ∃ limit, s.get (.auditorKey above) = some limit ∧ sequence ≤ limit.expirationLedger ∧
    scopeIsWithin limit.maxScope record.scope = true ∧
    record.expirationLedger ≤ limit.expirationLedger

/-- Whoever is accepted, at any ledger sequence, is bounded by everyone on the
chain of parents. -/
def AuthorityBounded (s : Storage) : Prop :=
  ∀ (e : LedgerEnv) (auditor : Address),
    (verifyAccess e s auditor = true ∨ ∃ record, authorizeAuditor e auditor s = .ok record) →
      ∃ record, s.get (.auditorKey auditor) = some record ∧
        ∀ above, TransGen (parentLink s) auditor above → BoundedBy e.sequence s record above

def parentRecord (s : Storage) (auditor : Address) : Option ViewKeyRecord :=
  ((s.get (.auditorKey auditor)).bind (·.parentAuditor)).bind fun p => s.get (.auditorKey p)

def currentDelegates (s : Storage) (auditor : Address) : List ViewKeyRecord :=
  (delegates s auditor).filterMap fun d =>
    (s.get (.auditorKey d)).filter (·.parentAuditor = some auditor)

/-- The call, where it meets its guards, writes a key within the policy and the
expiration of its parent, and not below those of its current delegates. The
guards of a delegation and of an extension see to the parent, and the
expiration only grows in a refresh and in an extension. -/
def Orderly (e : LedgerEnv) (s : Storage) : Call → Prop
  | .generateViewKey auditor expirationLedger =>
    ¬ Paused e s → ∀ d ∈ currentDelegates s auditor, d.expirationLedger ≤ expirationLedger
  | .refreshViewKey admin auditor newExpirationLedger =>
    (∃ record, GrantorCalls e admin auditor record s) →
      ∀ p ∈ parentRecord s auditor, newExpirationLedger ≤ p.expirationLedger
  | .setDelegationPolicy admin auditor _ maxScope _ =>
    (∃ record, GrantorCalls e admin auditor record s) →
      (∀ p ∈ parentRecord s auditor, scopeIsWithin p.maxScope maxScope = true) ∧
        ∀ d ∈ currentDelegates s auditor, scopeIsWithin maxScope d.maxScope = true
  | .delegateViewKey auditor delegate scope expirationLedger =>
    (∃ parent, CanDelegate e auditor scope expirationLedger parent s) →
      ∀ d ∈ currentDelegates s delegate,
        scopeIsWithin scope d.maxScope = true ∧ d.expirationLedger ≤ expirationLedger
  | _ => True

section
variable {e : LedgerEnv} {s s' : Storage} {auditor x : Address} {sequence : Nat}

-- ---------------------------------------------------------------------------
-- Scopes
-- ---------------------------------------------------------------------------

theorem scopeIsWithin_iff : scopeIsWithin a b = true ↔ b.rank ≤ a.rank := by
  simp [scopeIsWithin]

@[simp] theorem scopeIsWithin_refl (a : AuditScope) : scopeIsWithin a a = true := by
  simp [scopeIsWithin]

theorem scopeIsWithin_trans (hab : scopeIsWithin a b = true) (hbc : scopeIsWithin b c = true) :
    scopeIsWithin a c = true := by
  rw [scopeIsWithin_iff] at *
  exact Nat.le_trans hbc hab

theorem scopeIsWithin_fullCompany (a : AuditScope) : scopeIsWithin .fullCompany a = true := by
  cases a <;> rfl

-- ---------------------------------------------------------------------------
-- Nested keys
-- ---------------------------------------------------------------------------

/-- The policy and the expiration of `record` are within those of `limit`. -/
def Within (limit record : ViewKeyRecord) : Prop :=
  scopeIsWithin limit.maxScope record.maxScope = true ∧
    record.expirationLedger ≤ limit.expirationLedger

def Nested (s : Storage) : Prop :=
  ∀ x record parent limit, s.get (.auditorKey x) = some record →
    record.parentAuditor = some parent → s.get (.auditorKey parent) = some limit →
      Within limit record

/-- What is accepted against its parent is bounded by the whole chain. -/
theorem Nested.bounded (hs : Nested s) (hlisted : Listed s)
    (haccepted : Accepted sequence s auditor record)
    (hchain : TransGen (parentLink s) auditor above) : BoundedBy sequence s record above := by
  induction hchain with
  | single hlink =>
    obtain ⟨found, hget, hp⟩ := hlink
    obtain rfl := Store.get_inj haccepted.stored hget
    obtain ⟨limit, hlimit, hexp, hscope, -, hlast⟩ := haccepted.parent _ hp
    exact ⟨limit, hlimit, hexp, hscope, hlast⟩
  | tail _ hlink ih =>
    obtain ⟨limit, hlimit, hexp, hscope, hlast⟩ := ih
    obtain ⟨higher, hhigher⟩ := hlisted.stored _ _ hlink
    obtain ⟨found, hget, hp⟩ := hlink
    obtain rfl := Store.get_inj hlimit hget
    obtain ⟨hpolicy, hlonger⟩ := hs _ _ _ _ hget hp hhigher
    exact ⟨higher, hhigher, hexp.trans hlonger, scopeIsWithin_trans hpolicy hscope,
      hlast.trans hlonger⟩

theorem Nested.authorityBounded (hs : Nested s) (hlisted : Listed s) : AuthorityBounded s := by
  intro e auditor h
  have haccepted : ∃ record, Accepted e.sequence s auditor record := by
    rcases h with h | ⟨record, h⟩
    · exact verifyAccess_iff.mp h
    · exact ⟨record, (authorizeAuditor_ok.mp h).2⟩
  obtain ⟨record, haccepted⟩ := haccepted
  exact ⟨record, haccepted.stored, fun above hchain => hs.bounded hlisted haccepted hchain⟩

theorem Nested.mono (hs : Nested s)
    (hkeys : ∀ x record, s'.get (.auditorKey x) = some record →
      s.get (.auditorKey x) = some record) : Nested s' := by
  intro x record parent limit hget hp hlimit
  exact hs x record parent limit (hkeys x record hget) hp (hkeys parent limit hlimit)

theorem Nested.set_key (hs : Nested s)
    (hparent : ∀ p limit, record.parentAuditor = some p → p ≠ auditor →
      s.get (.auditorKey p) = some limit → Within limit record)
    (hdelegates : ∀ d delegate, s.get (.auditorKey d) = some delegate →
      delegate.parentAuditor = some auditor → Within record delegate) :
    Nested (s.set (.auditorKey auditor) record) := by
  intro x found p limit hget hp hlimit
  rw [key_set] at hget hlimit
  split at hget
  · obtain rfl := Option.some.inj hget
    split at hlimit
    · obtain rfl := Option.some.inj hlimit
      exact ⟨scopeIsWithin_refl _, le_refl _⟩
    · rename_i hne
      exact hparent p limit hp hne hlimit
  · split at hlimit
    · rename_i heq
      obtain rfl := Option.some.inj hlimit
      exact hdelegates x found hget (heq ▸ hp)
    · exact hs x found p limit hget hp hlimit

theorem Nested.delegated (hs : Nested s)
    (hcan : CanDelegate e auditor scope expirationLedger parent s)
    (hdelegates : ∀ d record, s.get (.auditorKey d) = some record →
      record.parentAuditor = some delegate →
        scopeIsWithin scope record.maxScope = true ∧ record.expirationLedger ≤ expirationLedger) :
    Nested (delegated e auditor delegate parent scope expirationLedger s) := by
  have hkeys : Nested (s.set (.auditorKey delegate)
      (delegatedRecord e auditor delegate parent scope expirationLedger)) := by
    refine hs.set_key (fun p limit hp _ hlimit => ?_) hdelegates
    obtain rfl := Option.some.inj hp
    obtain rfl := Store.get_inj hcan.accepted.stored hlimit
    exact ⟨hcan.scope, hcan.expiry.2⟩
  refine hkeys.mono fun x record hget => ?_
  rw [key_delegated] at hget
  rwa [key_set]

theorem mem_currentDelegates (hlisted : Listed s) (hget : s.get (.auditorKey x) = some record)
    (hp : record.parentAuditor = some auditor) : record ∈ currentDelegates s auditor := by
  refine List.mem_filterMap.mpr ⟨x, hlisted.listed x auditor ⟨record, hget, hp⟩, ?_⟩
  rw [hget, Option.filter_some, if_pos (by simpa using hp)]

theorem mem_parentRecord (hget : s.get (.auditorKey x) = some record)
    (hp : record.parentAuditor = some auditor) (hlimit : s.get (.auditorKey auditor) = some limit) :
    limit ∈ parentRecord s x := by
  simp [parentRecord, hget, hp, hlimit]

-- ---------------------------------------------------------------------------
-- Orderly steps
-- ---------------------------------------------------------------------------

theorem Effect.nested (h : Effect e budget s s' call) (hs : Nested s) (hlisted : Listed s)
    (hcall : Orderly e s call) : Nested s' := by
  cases h with
  | none hkept =>
    refine hs.mono fun x record hget => ?_
    rwa [hkept.key] at hget
  | generate hunpaused hafter =>
    rw [hafter]
    refine hs.set_key (fun p limit hp => nomatch hp) fun d delegate hget hp => ?_
    exact ⟨scopeIsWithin_fullCompany _, hcall hunpaused _ (mem_currentDelegates hlisted hget hp)⟩
  | revoke _ hcascade hafter =>
    rw [hafter]
    exact hs.mono fun x record hget => ((revokeDescendants_ok hcascade).2.key_remove hget).2
  | refresh hcalls hlater hafter =>
    rw [hafter]
    refine hs.set_key (fun p limit hp _ hlimit => ?_) fun d delegate hget hp => ?_
    · exact ⟨(hs _ _ _ _ hcalls.stored hp hlimit).1,
        hcall ⟨_, hcalls⟩ _ (mem_parentRecord hcalls.stored hp hlimit)⟩
    · obtain ⟨hpolicy, hexp⟩ := hs _ _ _ _ hget hp hcalls.stored
      exact ⟨hpolicy, hexp.trans hlater.le⟩
  | policy hcalls hafter =>
    rw [hafter]
    obtain ⟨hparent, hdelegates⟩ := hcall ⟨_, hcalls⟩
    refine hs.set_key (fun p limit hp _ hlimit => ?_) fun d delegate hget hp => ?_
    · exact ⟨hparent _ (mem_parentRecord hcalls.stored hp hlimit),
        (hs _ _ _ _ hcalls.stored hp hlimit).2⟩
    · exact ⟨hdelegates _ (mem_currentDelegates hlisted hget hp),
        (hs _ _ _ _ hget hp hcalls.stored).2⟩
  | delegate hcan hafter =>
    rw [hafter]
    refine hs.delegated hcan fun d record hget hp => ?_
    exact hcall ⟨_, hcan⟩ _ (mem_currentDelegates hlisted hget hp)
  | extend hcan hafter =>
    rw [hafter]
    refine hs.set_key (fun p limit hp _ hlimit => ?_) fun d delegate hget hp => ?_
    · obtain ⟨parent, hstored, -, -, hlast, -⟩ := hcan.policy
      obtain rfl := Option.some.inj (hcan.parent.symm.trans hp)
      obtain rfl := Store.get_inj hstored hlimit
      exact ⟨(hs _ _ _ _ hcan.stored hp hlimit).1, hlast⟩
    · obtain ⟨hpolicy, hexp⟩ := hs _ _ _ _ hget hp hcan.stored
      exact ⟨hpolicy, hexp.trans hcan.later.le⟩

theorem next_nested (i : Input) (hs : Nested s ∧ Listed s)
    (hcall : Orderly i.env s i.call.canonical) : Nested (next s i) ∧ Listed (next s i) :=
  ⟨(next_effect s i).nested hs.1 hs.2 hcall, next_listed i hs.2⟩

theorem empty_nested : Nested Store.empty ∧ Listed Store.empty := by
  refine ⟨fun x record parent limit hget => ?_, reached_listed reachable_start⟩
  simp at hget

/-- In a run of orderly steps, whatever is accepted in any state is bounded by
everyone above. -/
theorem authority_bounded_of_orderly (inputs : List Input)
    (h : ∀ st ∈ steps next Store.empty inputs, Orderly st.input.env st.pre st.input.call.canonical) :
    ∀ st ∈ steps next Store.empty inputs, AuthorityBounded st.post := by
  intro st hst
  have hpre := steps_invariant_pre (I := fun s => Nested s ∧ Listed s)
    (C := fun st => Orderly st.input.env st.pre st.input.call.canonical) empty_nested
    (fun s i hs hcall => next_nested i hs hcall) h hst
  obtain ⟨hnested, hlisted⟩ := next_nested st.input hpre (h st hst)
  rw [steps_post hst]
  exact hnested.authorityBounded hlisted

end

-- ---------------------------------------------------------------------------
-- Sample runs
-- ---------------------------------------------------------------------------

/-- A nested delegation, each step narrower than the one before. -/
def Sample.nested : List Input :=
  Sample.enabled ++
    [Sample.call [Sample.alice] (.delegateViewKey Sample.alice Sample.bob .employeeList 80),
      Sample.call [Sample.alice] (.setDelegationPolicy Sample.alice Sample.bob true .employeeList 80),
      Sample.call [Sample.bob] (.delegateViewKey Sample.bob Sample.carol .aggregateOnly 60)]

/-- Alice may delegate employee lists only. Once she has delegated one to Bob,
she opens his policy to the full company, and he delegates that. -/
def Sample.widened : List Input :=
  [Sample.call [] (.generateViewKey Sample.alice 100),
    Sample.call [Sample.contract]
      (.setDelegationPolicy Sample.contract Sample.alice true .employeeList 100),
    Sample.call [Sample.alice] (.delegateViewKey Sample.alice Sample.bob .employeeList 100),
    Sample.call [Sample.alice] (.setDelegationPolicy Sample.alice Sample.bob true .fullCompany 100),
    Sample.call [Sample.bob] (.delegateViewKey Sample.bob Sample.carol .fullCompany 100)]

theorem parentLink_of_get {s : Storage}
    (h : (s.get (.auditorKey auditor)).bind (·.parentAuditor) = some parent) :
    parentLink s auditor parent := by
  obtain ⟨record, hget, hp⟩ := Option.bind_eq_some_iff.mp h
  exact ⟨record, hget, hp⟩

theorem nested_delegation_bounded :
    (∀ st ∈ steps next Store.empty Sample.nested,
        Orderly st.input.env st.pre st.input.call.canonical) ∧
      verifyAccess (Sample.env []) (runFrom next Store.empty Sample.nested) Sample.carol = true ∧
      ∀ st ∈ steps next Store.empty Sample.nested, AuthorityBounded st.post := by
  have horderly : ∀ st ∈ steps next Store.empty Sample.nested,
      Orderly st.input.env st.pre st.input.call.canonical := by
    intro st hst
    simp only [Sample.nested, Sample.enabled, List.cons_append, List.nil_append, steps,
      List.mem_cons, List.not_mem_nil, or_false] at hst
    rcases hst with rfl | rfl | rfl | rfl | rfl
    · exact fun _ => by decide +kernel
    · exact fun _ => by decide +kernel
    · exact fun _ => by decide +kernel
    · exact fun _ => by decide +kernel
    · exact fun _ => by decide +kernel
  exact ⟨horderly, by decide +kernel, authority_bounded_of_orderly Sample.nested horderly⟩

/-- Carol is accepted for the full company, while Alice, from whom her key
comes, may not delegate more than employee lists. -/
theorem delegate_exceeds_grandparent :
    let s := runFrom next Store.empty Sample.widened
    verifyAccess (Sample.env []) s Sample.carol = true ∧
      TransGen (parentLink s) Sample.carol Sample.alice ∧
      (s.get (.auditorKey Sample.carol)).map (·.scope) = some .fullCompany ∧
      (s.get (.auditorKey Sample.alice)).map (·.maxScope) = some .employeeList ∧
      ¬ AuthorityBounded s := by
  intro s
  have haccepted : verifyAccess (Sample.env []) s Sample.carol = true := by decide +kernel
  have hchain : TransGen (parentLink s) Sample.carol Sample.alice :=
    (TransGen.single
      (parentLink_of_get (by decide +kernel) : parentLink s Sample.carol Sample.bob)).tail
      (parentLink_of_get (by decide +kernel))
  have hscope : (s.get (.auditorKey Sample.carol)).map (·.scope) = some .fullCompany := by
    decide +kernel
  have hpolicy : (s.get (.auditorKey Sample.alice)).map (·.maxScope) = some .employeeList := by
    decide +kernel
  refine ⟨haccepted, hchain, hscope, hpolicy, fun h => ?_⟩
  obtain ⟨record, hrecord, hbounded⟩ := h (Sample.env []) Sample.carol (.inl haccepted)
  obtain ⟨limit, hlimit, -, hwithin, -⟩ := hbounded Sample.alice hchain
  rw [hrecord] at hscope
  rw [hlimit] at hpolicy
  rw [show record.scope = .fullCompany from Option.some.inj hscope,
    show limit.maxScope = .employeeList from Option.some.inj hpolicy] at hwithin
  cases hwithin

end ZkPayroll.AuditModule
