import ZkPayroll.PayrollRegistry.Steps

/-!
# The index from admins to companies

`CompanyAdmin` is kept beside the companies: a registration adds an entry, and
a rotation of the admin removes one and adds one. The rotation does not ask
whether the new admin has a company already, and overwrites its entry then.
Apart from that the index is exact.
-/

namespace ZkPayroll.PayrollRegistry

open Host

/-- The index names the company of each admin, and nothing else. -/
def IndexExact (s : Storage) : Prop :=
  ∀ admin companyId, s.get (.companyAdmin admin) = some companyId ↔ AdminOf s companyId admin

/-- What an exact index is for: no address has two companies, and registration
turns away exactly the admins there are. -/
structure Indexed (s : Storage) : Prop where
  index : IndexExact s
  unique : ∀ admin c c', AdminOf s c admin → AdminOf s c' admin → c = c'
  rejects : ∀ e admin treasury, ¬ Paused e s → admin ∈ e.auths →
    (registerCompany e admin treasury s = .error "Company already registered" ↔
      ∃ companyId, AdminOf s companyId admin)

def Numbered (s : Storage) : Prop :=
  ∀ companyId admin, AdminOf s companyId admin → companyId < getCompanySequence s

/-- The step accepts a rotation to an address that is already the admin of
another company. -/
def Collides (st : Step Storage Input) : Prop :=
  ∃ companyId newAdmin info, st.input.call = .acceptAdminRotation companyId newAdmin ∧
    CanAcceptAdmin st.input.env companyId newAdmin info st.pre ∧
    ∃ other, other ≠ companyId ∧ AdminOf st.pre other newAdmin

section
variable {e : LedgerEnv} {s s' : Storage}

-- ---------------------------------------------------------------------------
-- What an exact index gives
-- ---------------------------------------------------------------------------

/-- Registration of a signing address aborts with this message exactly when the
index has an entry for it. -/
theorem registerCompany_rejects (hunpaused : ¬ Paused e s) (hsigned : admin ∈ e.auths) :
    registerCompany e admin treasury s = .error "Company already registered" ↔
      ∃ companyId, s.get (.companyAdmin admin) = some companyId := by
  have hpause : requireNotPaused e s = .ok () := requireNotPaused_ok.mpr hunpaused
  have hauth : requireAuth e.toEnv admin = .ok () := requireAuth_ok.mpr hsigned
  simp only [registerCompany, hpause, hauth, bind, Except.bind]
  cases hget : s.get (.companyAdmin admin) with
  | some companyId =>
    have hhas : s.has (.companyAdmin admin) = true := Store.has_eq_true.mpr ⟨companyId, hget⟩
    simp [ensure, hhas, throw, throwThe, MonadExceptOf.throw]
  | none =>
    have hhas : s.has (.companyAdmin admin) = false := Store.has_eq_false.mpr hget
    by_cases hroom : getCompanySequence s + 1 ≤ u64Max
    · simp [ensure, hhas, hroom, addUpTo, pure, Except.pure, bind, Except.bind]
    · simp [ensure, hhas, hroom, addUpTo, pure, Except.pure, bind, Except.bind, throw, throwThe,
        MonadExceptOf.throw]

theorem IndexExact.indexed (h : IndexExact s) : Indexed s := by
  refine ⟨h, ?_, ?_⟩
  · intro admin c c' hc hc'
    have hget := (h admin c).mpr hc
    rw [(h admin c').mpr hc'] at hget
    exact (Option.some.inj hget).symm
  · intro e admin treasury hunpaused hsigned
    rw [registerCompany_rejects hunpaused hsigned]
    exact exists_congr fun companyId => h admin companyId

-- ---------------------------------------------------------------------------
-- What the calls do to it
-- ---------------------------------------------------------------------------

structure RegisterKept (s s' : Storage) : Prop where
  index : ∀ admin, s'.get (.companyAdmin admin) = s.get (.companyAdmin admin)
  admins : ∀ companyId admin, AdminOf s' companyId admin ↔ AdminOf s companyId admin
  sequence : getCompanySequence s' = getCompanySequence s

theorem RegisterKept.of_frame {W : DataKey → Prop} (h : Store.Frame W s s')
    (hcompany : ∀ c, ¬ W (.company c)) (hindex : ∀ a, ¬ W (.companyAdmin a))
    (hsequence : ¬ W .companySequence) : RegisterKept s s' := by
  refine ⟨fun admin => h _ (hindex admin), fun companyId admin => ?_, ?_⟩
  · rw [AdminOf, AdminOf, h _ (hcompany companyId)]
  · rw [getCompanySequence, getCompanySequence, h _ hsequence]

theorem adminOf_set (s : Storage) (companyId c : Nat) (admin : Address) (info : CompanyInfo) :
    AdminOf (s.set (.company companyId) info) c admin ↔
      if c = companyId then admin = info.admin else AdminOf s c admin := by
  unfold AdminOf
  by_cases hc : c = companyId
  · subst hc
    simp [eq_comm]
  · simp [hc]

theorem registerKept_treasury (hstored : s.get (.company companyId) = some info) :
    RegisterKept s ((s.set (.company companyId) { info with treasury := newTreasury }).remove
      (.pendingTreasuryRotation companyId)) := by
  refine ⟨fun admin => by simp, fun c admin => ?_, by simp [getCompanySequence]⟩
  have hset := adminOf_set s companyId c admin
    { info with treasury := newTreasury }
  rw [AdminOf, Store.get_remove_ne _ (by simp), ← AdminOf, hset]
  split_ifs with hc
  · subst hc
    simp [AdminOf, hstored, eq_comm]
  · rfl

/-- Registration and the rotation of an admin are the only calls that change
who is the admin of what. -/
inductive RegisterEffect (e : LedgerEnv) (s s' : Storage) : Call → Prop
  | kept (hkept : RegisterKept s s') : RegisterEffect e s s' call
  | register (hcan : CanRegister e admin s) (hafter : s' = registered admin treasury s) :
      RegisterEffect e s s' (.registerCompany admin treasury)
  | rotate (hcan : CanAcceptAdmin e companyId newAdmin info s)
      (hafter : s' = adminRotated companyId newAdmin info s) :
      RegisterEffect e s s' (.acceptAdminRotation companyId newAdmin)

theorem Effect.registerEffect (h : Effect e s s' call) : RegisterEffect e s s' call := by
  cases h with
  | employment _ _ hkept =>
    exact .kept (.of_frame hkept (by simp [DataKey.isEmployment]) (by simp [DataKey.isEmployment])
      (by simp [DataKey.isEmployment]))
  | rotation _ _ hkept =>
    exact .kept (.of_frame hkept (by simp [DataKey.isRotation]) (by simp [DataKey.isRotation])
      (by simp [DataKey.isRotation]))
  | register hcan hafter => exact .register hcan hafter
  | acceptAdmin hcan hafter => exact .rotate hcan hafter
  | acceptTreasury _ hstored hafter =>
    subst hafter
    exact .kept (registerKept_treasury hstored)
  | pauseManager _ hafter | proposeThreshold _ _ hafter | activateThreshold _ _ _ hafter
  | cancelThreshold _ hafter | setInitial _ hafter =>
    subst hafter
    exact .kept ⟨by simp, by simp [AdminOf], by simp [getCompanySequence]⟩

theorem adminOf_registered : AdminOf (registered admin treasury s) c a ↔
    if c = getCompanySequence s then a = admin else AdminOf s c a := by
  have hset := adminOf_set (s.set .companySequence (getCompanySequence s + 1))
    (getCompanySequence s) c a ⟨admin, treasury⟩
  rw [registered, AdminOf, Store.get_set_ne _ _ (by simp), ← AdminOf, hset]
  simp [AdminOf]

theorem index_registered : (registered admin treasury s).get (.companyAdmin a) =
    if a = admin then some (getCompanySequence s) else s.get (.companyAdmin a) := by
  by_cases ha : a = admin
  · subst ha
    simp [registered]
  · simp [registered, ha]

theorem adminOf_adminRotated : AdminOf (adminRotated companyId newAdmin info s) c a ↔
    if c = companyId then a = newAdmin else AdminOf s c a := by
  have hset := adminOf_set s companyId c a
    { info with admin := newAdmin }
  rw [adminRotated, AdminOf, Store.get_set_ne _ _ (by simp), Store.get_remove_ne _ (by simp),
    Store.get_remove_ne _ (by simp), ← AdminOf, hset]

theorem index_adminRotated : (adminRotated companyId newAdmin info s).get (.companyAdmin a) =
    if a = newAdmin then some companyId
    else if a = info.admin then none else s.get (.companyAdmin a) := by
  by_cases ha : a = newAdmin
  · subst ha
    simp [adminRotated]
  · by_cases hold : a = info.admin
    · subst hold
      simp [adminRotated, ha]
    · simp [adminRotated, ha, hold]

-- ---------------------------------------------------------------------------
-- One transaction
-- ---------------------------------------------------------------------------

theorem registered_numbered (h : Numbered s) : Numbered (registered admin treasury s) := by
  have hsequence : getCompanySequence (registered admin treasury s) = getCompanySequence s + 1 := by
    simp [getCompanySequence, registered]
  intro c a ha
  rw [hsequence]
  rw [adminOf_registered] at ha
  split_ifs at ha with hc
  · omega
  · exact Nat.lt_succ_of_lt (h c a ha)

theorem adminRotated_numbered (hstored : s.get (.company companyId) = some info)
    (h : Numbered s) : Numbered (adminRotated companyId newAdmin info s) := by
  have hsequence : getCompanySequence (adminRotated companyId newAdmin info s) =
      getCompanySequence s := by
    simp [getCompanySequence, adminRotated]
  intro c a ha
  rw [hsequence]
  rw [adminOf_adminRotated] at ha
  split_ifs at ha with hc
  · subst hc
    exact h c info.admin ⟨info, hstored, rfl⟩
  · exact h c a ha

theorem registered_indexExact (hfree : s.get (.companyAdmin admin) = none) (hnumbered : Numbered s)
    (h : IndexExact s) : IndexExact (registered admin treasury s) := by
  intro a c
  rw [index_registered, adminOf_registered]
  by_cases ha : a = admin <;> by_cases hc : c = getCompanySequence s
  · simp [ha, hc]
  · subst ha
    simp only [if_pos, if_neg hc, Option.some.injEq]
    constructor
    · intro hc'
      exact absurd hc'.symm hc
    · intro hadmin
      rw [← h, hfree] at hadmin
      cases hadmin
  · subst hc
    simp only [ha, if_false, if_pos, iff_false]
    intro hget
    exact Nat.lt_irrefl _ (hnumbered _ _ ((h a _).mp hget))
  · simp only [if_neg ha, if_neg hc]
    exact h a c

theorem adminRotated_indexExact (hstored : s.get (.company companyId) = some info)
    (hapart : ∀ other, other ≠ companyId → ¬ AdminOf s other newAdmin) (h : IndexExact s) :
    IndexExact (adminRotated companyId newAdmin info s) := by
  have hown : s.get (.companyAdmin info.admin) = some companyId :=
    (h info.admin companyId).mpr ⟨info, hstored, rfl⟩
  intro a c
  rw [index_adminRotated, adminOf_adminRotated]
  by_cases ha : a = newAdmin <;> by_cases hc : c = companyId
  · simp [ha, hc]
  · subst ha
    simp only [if_pos, if_neg hc, Option.some.injEq]
    exact ⟨fun hc' => absurd hc'.symm hc, fun hadmin => absurd hadmin (hapart c hc)⟩
  · subst hc
    simp only [ha, if_false, if_pos, iff_false]
    by_cases hold : a = info.admin
    · simp [hold]
    · rw [if_neg hold, h a c]
      rintro ⟨info', hstored', hadmin⟩
      obtain rfl := Store.get_inj hstored hstored'
      exact hold hadmin.symm
  · simp only [if_neg ha, if_neg hc]
    by_cases hold : a = info.admin
    · subst hold
      rw [← h, hown]
      simpa [eq_comm] using hc
    · rw [if_neg hold]
      exact h a c

theorem next_indexExact (i : Input) (h : IndexExact s ∧ Numbered s)
    (hcollides : ¬ Collides ⟨s, i, next s i⟩) :
    IndexExact (next s i) ∧ Numbered (next s i) := by
  obtain ⟨hexact, hnumbered⟩ := h
  rcases next_cases s i with hsame | hok
  · rw [hsame]
    exact ⟨hexact, hnumbered⟩
  generalize next s i = s' at hok hcollides ⊢
  have heffect := (exec_effect hok).registerEffect
  generalize hcall : i.call = call at heffect
  cases heffect with
  | kept hkept =>
    refine ⟨fun a c => ?_, fun c a ha => ?_⟩
    · rw [hkept.index, hkept.admins]
      exact hexact a c
    · rw [hkept.sequence]
      exact hnumbered c a ((hkept.admins c a).mp ha)
  | register hcan hafter =>
    subst hafter
    exact ⟨registered_indexExact hcan.free hnumbered hexact, registered_numbered hnumbered⟩
  | rotate hcan hafter =>
    subst hafter
    refine ⟨adminRotated_indexExact hcan.stored ?_ hexact, adminRotated_numbered hcan.stored hnumbered⟩
    intro other hother hadmin
    exact hcollides ⟨_, _, _, hcall, hcan, other, hother, hadmin⟩

theorem empty_indexExact : IndexExact Store.empty ∧ Numbered Store.empty := by
  constructor
  · intro admin companyId
    simp [AdminOf]
  · rintro companyId admin ⟨info, hget, -⟩
    simp at hget

theorem Collides.not_unique {st : Step Storage Input} (h : Collides st)
    (hpost : st.post = next st.pre st.input) : ¬ Indexed st.post := by
  obtain ⟨companyId, newAdmin, info, hcall, hcan, other, hother, hadmin⟩ := h
  have hok : exec st.input.env st.pre st.input.call =
      .ok (adminRotated companyId newAdmin info st.pre) := by
    rw [hcall]
    exact acceptAdminRotation_ok.mpr ⟨info, hcan, rfl⟩
  rw [hpost, next_ok hok]
  intro hindexed
  refine hother (hindexed.unique newAdmin other companyId ?_ ?_)
  · rw [adminOf_adminRotated, if_neg hother]
    exact hadmin
  · rw [adminOf_adminRotated, if_pos rfl]

-- ---------------------------------------------------------------------------
-- Runs
-- ---------------------------------------------------------------------------

/-- The index is exact throughout a run exactly when no rotation of the run
goes to the admin of another company. -/
theorem indexed_iff_no_collision (inputs : List Input) :
    (∀ st ∈ steps next Store.empty inputs, Indexed st.post) ↔
      ∀ st ∈ steps next Store.empty inputs, ¬ Collides st := by
  constructor
  · intro h st hst hcollides
    exact hcollides.not_unique (steps_post hst) (h st hst)
  · intro h st hst
    have hpre := steps_invariant_pre (I := fun s => IndexExact s ∧ Numbered s) empty_indexExact
      (fun s i hs hC => next_indexExact i hs hC) h hst
    have hstep : ¬ Collides ⟨st.pre, st.input, next st.pre st.input⟩ := by
      rw [← steps_eq hst]
      exact h st hst
    rw [steps_post hst]
    exact (next_indexExact st.input hpre hstep).1.indexed

end

-- ---------------------------------------------------------------------------
-- Sample runs
-- ---------------------------------------------------------------------------

namespace Sample

def alice : Address := ⟨2⟩
def bob : Address := ⟨3⟩
def mallory : Address := ⟨4⟩
def treasury : Address := ⟨5⟩

def env (timestamp : Nat) (auths : List Address) : LedgerEnv where
  crypto := ⟨fun _ => BytesN.zero, fun _ => [], fun _ => [], fun _ => []⟩
  contract := ⟨1⟩
  timestamp := timestamp
  auths := auths
  isPaused _ := false
  verifyPaymentProof _ _ _ := true
  sequence := 10
  addressFromString _ := alice

def call (auths : List Address) (c : Call) : Input := ⟨env 100 auths, c⟩

def companies : List Input :=
  [call [alice] (.registerCompany alice treasury), call [bob] (.registerCompany bob treasury)]

end Sample

/-- Bob hands company 1 to Alice, who has company 0: she is the admin of both,
and the index names one. -/
theorem rotation_overwrites_index :
    let inputs := Sample.companies ++
      [Sample.call [Sample.bob] (.proposeAdminRotation 1 Sample.bob Sample.alice),
        Sample.call [Sample.alice] (.acceptAdminRotation 1 Sample.alice)]
    let s := runFrom next Store.empty inputs
    (s.get (.company 0)).map (·.admin) = some Sample.alice ∧
      (s.get (.company 1)).map (·.admin) = some Sample.alice ∧
      s.get (.companyAdmin Sample.alice) = some 1 ∧
      ¬ ∀ st ∈ steps next Store.empty inputs, Indexed st.post := by
  intro inputs s
  have hfirst : (s.get (.company 0)).map (·.admin) = some Sample.alice := by decide +kernel
  have hsecond : (s.get (.company 1)).map (·.admin) = some Sample.alice := by decide +kernel
  refine ⟨hfirst, hsecond, by decide +kernel, fun h => ?_⟩
  have hadmin {c : Nat} (hc : (s.get (.company c)).map (·.admin) = some Sample.alice) :
      AdminOf s c Sample.alice := Option.map_eq_some_iff.mp hc
  have hindexed : Indexed s := h _ (@last_mem_steps _ _ next Store.empty (Sample.companies ++
    [Sample.call [Sample.bob] (.proposeAdminRotation 1 Sample.bob Sample.alice)]) _)
  exact absurd (hindexed.unique _ 0 1 (hadmin hfirst) (hadmin hsecond)) (by decide)

end ZkPayroll.PayrollRegistry
