import ZkPayroll.SalaryCommitmentLaws
import ZkPayroll.Host.Runs

/-!
# Commitment values and locks

The contract as a machine over its storage. `exec_effect` says everything a
successful call does to the commitments: it leaves them alone, or it binds one
fresh value to one employee, in place of nothing, of a value it forgets
(`store_commitment`) or of a value it archives.

From that, no value is ever held twice, and a lock keeps the commitment of its
employee against every call except `store_commitment`, which does not look at
locks.
-/

namespace ZkPayroll.SalaryCommitmentContract

open Host

-- ---------------------------------------------------------------------------
-- The machine
-- ---------------------------------------------------------------------------

structure Input where
  env : Env
  call : Call

def next (s : Storage) (i : Input) : Storage :=
  match exec i.env s i.call with
  | .ok s' => s'
  | .error _ => s

abbrev Reached (s : Storage) : Prop := Reachable next Store.empty s

-- ---------------------------------------------------------------------------
-- What a call does to the commitments
-- ---------------------------------------------------------------------------

abbrev Apart (k : DataKey) : Prop :=
  (∀ employee, k ≠ .commitment employee) ∧
    (∀ employee index, k ≠ .commitmentHistory employee index) ∧
    ∀ commitment, k ≠ .commitmentIndex commitment

def CommitmentsKept (s s' : Storage) : Prop := Store.Frame Apart s s'

structure Binds (employee : Address) (record : SalaryCommitment) (s s' : Storage) : Prop where
  fresh : s.get (.commitmentIndex record.commitment) = none
  index : ∀ v, s'.get (.commitmentIndex v) =
    if v = record.commitment then some true else s.get (.commitmentIndex v)
  active : ∀ other, s'.get (.commitment other) =
    if other = employee then some record else s.get (.commitment other)

def HistoryKept (s s' : Storage) : Prop :=
  ∀ employee index,
    s'.get (.commitmentHistory employee index) = s.get (.commitmentHistory employee index)

structure Archives (employee : Address) (old : SalaryCommitment) (s s' : Storage) : Prop where
  stored : s.get (.commitment employee) = some old
  unlocked : s.get (.commitmentLock employee) = none
  history : ∃ index archivedAt, FirstFree s employee index ∧ index ≤ u32Max ∧
    ∀ other j, s'.get (.commitmentHistory other j) =
      if other = employee ∧ j = index then some ⟨old.commitment, old.version, archivedAt⟩
      else s.get (.commitmentHistory other j)

/-- What each call does to the commitments when it succeeds. -/
inductive Effect (s s' : Storage) : Call → Prop
  | none (hbinds : ∀ employee c, call ≠ .storeCommitment employee c ∧
      call ≠ .updateCommitment employee c ∧ call ≠ .rotateCommitment employee c)
      (hkept : CommitmentsKept s s') : Effect s s' call
  | store (hbind : Binds employee record s s') (hkept : HistoryKept s s')
      (hversion : record.version = 1) : Effect s s' (.storeCommitment employee record.commitment)
  | update (hbind : Binds employee record s s') (harchive : Archives employee old s s')
      (hversion : record.version = old.version + 1) (hroom : record.version ≤ u32Max) :
      Effect s s' (.updateCommitment employee record.commitment)
  | rotate (hbind : Binds employee record s s') (harchive : Archives employee old s s')
      (hversion : record.version = 1) :
      Effect s s' (.rotateCommitment employee record.commitment)

section
variable {e : Env} {s s' : Storage}

theorem get_set_commitment (record : SalaryCommitment) (other : Address) :
    (s.set (.commitment employee) record).get (.commitment other) =
      if other = employee then some record else s.get (.commitment other) := by
  by_cases h : other = employee
  · subst h
    simp
  · simp [h]

theorem get_set_index (v : BytesN 32) :
    (s.set (.commitmentIndex commitment) true).get (.commitmentIndex v) =
      if v = commitment then some true else s.get (.commitmentIndex v) := by
  by_cases h : v = commitment
  · subst h
    simp
  · simp [h]

theorem get_set_history (snapshot : CommitmentSnapshot) (other : Address) (j : Nat) :
    (s.set (.commitmentHistory employee index) snapshot).get (.commitmentHistory other j) =
      if other = employee ∧ j = index then some snapshot
      else s.get (.commitmentHistory other j) := by
  by_cases hslot : other = employee ∧ j = index
  · obtain ⟨rfl, rfl⟩ := hslot
    simp
  · have hne : DataKey.commitmentHistory other j ≠ .commitmentHistory employee index := by
      simpa using hslot
    simp [hne, hslot]

theorem storeCommitment_effect (h : storeCommitment e employee commitment s = .ok s') :
    Effect s s' (.storeCommitment employee commitment) := by
  obtain ⟨⟨-, -, hfresh⟩, hafter⟩ := storeCommitment_ok.mp h
  have hbind : Binds employee ⟨commitment, e.timestamp, e.timestamp, 1, false⟩ s s' := by
    refine ⟨hfresh, fun v => ?_, fun other => ?_⟩
    · simp [hafter, get_set_index]
    · simp [hafter, get_set_commitment]
  exact .store hbind (fun other j => by simp [hafter]) rfl

theorem updateCommitment_effect (h : updateCommitment e employee commitment s = .ok s') :
    Effect s s' (.updateCommitment employee commitment) := by
  obtain ⟨old, index, ⟨⟨-, -, hfresh⟩, hlock, hold, hfree, hle⟩, hroom, hafter⟩ :=
    updateCommitment_ok.mp h
  have hbind : Binds employee ⟨commitment, old.createdAt, e.timestamp, old.version + 1, false⟩
      s s' := by
    refine ⟨hfresh, fun v => ?_, fun other => ?_⟩
    · simp [hafter, get_set_index]
    · simp [hafter, get_set_commitment]
  have harchive : Archives employee old s s' := by
    refine ⟨hold, hlock, index, e.timestamp, hfree, hle, fun other j => ?_⟩
    simp [hafter, get_set_history]
  exact .update hbind harchive rfl hroom

theorem rotateCommitment_effect (h : rotateCommitment e employee commitment s = .ok s') :
    Effect s s' (.rotateCommitment employee commitment) := by
  obtain ⟨old, index, ⟨⟨-, -, hfresh⟩, hlock, hold, hfree, hle⟩, hafter⟩ :=
    rotateCommitment_ok.mp h
  have hbind : Binds employee ⟨commitment, e.timestamp, e.timestamp, 1, false⟩ s s' := by
    refine ⟨hfresh, fun v => ?_, fun other => ?_⟩
    · simp [hafter, get_set_index]
    · -- the old record is written back as revoked first
      by_cases hother : other = employee <;> simp [hafter, get_set_commitment, hother]
  have harchive : Archives employee old s s' := by
    refine ⟨hold, hlock, index, e.timestamp, hfree, hle, fun other j => ?_⟩
    simp [hafter, get_set_history]
  exact .rotate hbind harchive rfl

/-- Everything a call can do to the commitments. -/
theorem exec_effect (h : exec e s call = .ok s') : Effect s s' call := by
  cases call with
  | storeCommitment => exact storeCommitment_effect h
  | updateCommitment => exact updateCommitment_effect h
  | rotateCommitment => exact rotateCommitment_effect h
  | _ =>
    refine .none (by simp) ((exec_frame h).mono fun k hk => ?_)
    cases k <;> simp_all [Call.Writes, Apart]

theorem next_ok (h : exec i.env s i.call = .ok s') : next s i = s' := by
  rw [next, h]

theorem next_cases (s : Storage) (i : Input) :
    (∃ msg, exec i.env s i.call = .error msg ∧ next s i = s) ∨
      exec i.env s i.call = .ok (next s i) := by
  unfold next
  cases h : exec i.env s i.call with
  | error msg => exact .inl ⟨msg, rfl, rfl⟩
  | ok s' => exact .inr rfl

-- ---------------------------------------------------------------------------
-- Values are never reused
-- ---------------------------------------------------------------------------

inductive Slot
  | active (employee : Address)
  | archived (employee : Address) (index : Nat)
  deriving DecidableEq

def valueAt (s : Storage) : Slot → Option (BytesN 32)
  | .active employee => (s.get (.commitment employee)).map (·.commitment)
  | .archived employee index => (s.get (.commitmentHistory employee index)).map (·.commitment)

/-- No two slots hold one value, and every value held is marked as used. -/
structure ValuesUnique (s : Storage) : Prop where
  distinct : ∀ a b v, valueAt s a = some v → valueAt s b = some v → a = b
  marked : ∀ a v, valueAt s a = some v → s.get (.commitmentIndex v) = some true

theorem ValuesUnique.kept (hs : ValuesUnique s) (h : CommitmentsKept s s') : ValuesUnique s' := by
  have hvalue : ∀ a, valueAt s' a = valueAt s a := by
    intro a
    cases a with
    | active employee => rw [valueAt, h _ (by simp [Apart]), valueAt]
    | archived employee index => rw [valueAt, h _ (by simp [Apart]), valueAt]
  constructor
  · intro a b v ha hb
    exact hs.distinct a b v (hvalue a ▸ ha) (hvalue b ▸ hb)
  · intro a v ha
    rw [h _ (by simp [Apart])]
    exact hs.marked a v (hvalue a ▸ ha)

theorem ValuesUnique.bind (hs : ValuesUnique s) (hbind : Binds employee record s s')
    (origin : Slot → Slot)
    (hinj : ∀ a b, a ≠ .active employee → b ≠ .active employee → origin a = origin b → a = b)
    (hvalue : ∀ a, a ≠ .active employee → valueAt s' a = valueAt s (origin a)) :
    ValuesUnique s' := by
  have hactive : valueAt s' (.active employee) = some record.commitment := by
    rw [valueAt, hbind.active, if_pos rfl]
    rfl
  -- a value that was there before is marked, so it is not the fresh one
  have hold : ∀ a v, a ≠ .active employee → valueAt s' a = some v →
      valueAt s (origin a) = some v ∧ v ≠ record.commitment := by
    intro a v hne ha
    rw [hvalue a hne] at ha
    refine ⟨ha, ?_⟩
    rintro rfl
    have hmarked := hs.marked _ _ ha
    rw [hbind.fresh] at hmarked
    cases hmarked
  constructor
  · intro a b v ha hb
    by_cases hna : a = .active employee
    · subst hna
      by_contra hne
      obtain ⟨-, hfresh⟩ := hold b v (Ne.symm hne) hb
      exact hfresh (Option.some.inj (ha.symm.trans hactive))
    · obtain ⟨ha, hfresh⟩ := hold a v hna ha
      have hnb : b ≠ .active employee := by
        rintro rfl
        exact hfresh (Option.some.inj (hb.symm.trans hactive))
      exact hinj a b hna hnb (hs.distinct _ _ v ha (hold b v hnb hb).1)
  · intro a v ha
    rw [hbind.index]
    split
    · rfl
    · rename_i hne
      by_cases hna : a = .active employee
      · subst hna
        exact absurd (Option.some.inj (ha.symm.trans hactive)) hne
      · exact hs.marked _ v (hold a v hna ha).1

theorem ValuesUnique.bind_over (hs : ValuesUnique s) (hbind : Binds employee record s s')
    (hkept : HistoryKept s s') : ValuesUnique s' := by
  refine hs.bind hbind id (fun a b _ _ h => h) fun a hne => ?_
  cases a with
  | active other =>
    have hother : other ≠ employee := fun h => hne (h ▸ rfl)
    rw [valueAt, hbind.active, if_neg hother, id, valueAt]
  | archived other j => rw [valueAt, hkept, id, valueAt]

theorem ValuesUnique.bind_archived (hs : ValuesUnique s) (hbind : Binds employee record s s')
    (harchive : Archives employee old s s') : ValuesUnique s' := by
  obtain ⟨hold, -, index, archivedAt, -, -, hhistory⟩ := harchive
  refine hs.bind hbind
    (fun a => if a = .archived employee index then .active employee else a) ?_ fun a hne => ?_
  · intro a b ha hb h
    by_cases ha' : a = .archived employee index <;> by_cases hb' : b = .archived employee index
    · rw [ha', hb']
    · simp only [ha', hb', if_true, if_false] at h
      exact absurd h.symm hb
    · simp only [ha', hb', if_true, if_false] at h
      exact absurd h ha
    · simpa [ha', hb'] using h
  · cases a with
    | active other =>
      have hother : other ≠ employee := fun h => hne (h ▸ rfl)
      simp [valueAt, hbind.active, hother]
    | archived other j =>
      simp only [valueAt, hhistory, Slot.archived.injEq]
      by_cases hslot : other = employee ∧ j = index
      · simp [hslot, hold]
      · simp [hslot]

theorem next_valuesUnique (i : Input) (hs : ValuesUnique s) : ValuesUnique (next s i) := by
  rcases next_cases s i with ⟨_, -, hsame⟩ | hok
  · rw [hsame]
    exact hs
  · have heffect := exec_effect hok
    generalize i.call = call at heffect
    cases heffect with
    | none _ hkept => exact hs.kept hkept
    | store hbind hkept _ => exact hs.bind_over hbind hkept
    | update hbind harchive _ _ => exact hs.bind_archived hbind harchive
    | rotate hbind harchive _ => exact hs.bind_archived hbind harchive

theorem reached_valuesUnique (hs : Reached s) : ValuesUnique s := by
  refine run_invariant ?_ (fun _ i h => next_valuesUnique i h) hs
  constructor
  · intro a b v ha
    cases a <;> simp [valueAt] at ha
  · intro a v ha
    cases a <;> simp [valueAt] at ha

/-- In every run, commitment values are never reused. -/
theorem commitment_values_unique (inputs : List Input) :
    ValuesUnique (runFrom next Store.empty inputs) :=
  reached_valuesUnique reachable_runFrom

-- ---------------------------------------------------------------------------
-- Locks
-- ---------------------------------------------------------------------------

/-- A step other than an unlock leaves a locked employee's commitment alone. -/
def LockRespected (employee : Address) (st : Step Storage Input) : Prop :=
  isCommitmentLocked st.pre employee = true →
    st.input.call ≠ .unlockCommitmentUpdates employee →
      st.post.get (.commitment employee) = st.pre.get (.commitment employee)

/-- The step is a `store_commitment` for a locked employee that meets the
guards of that function, none of which is the lock. -/
def StoresOverLock (employee : Address) (st : Step Storage Input) : Prop :=
  isCommitmentLocked st.pre employee = true ∧
    ∃ commitment, st.input.call = .storeCommitment employee commitment ∧
      CanStore st.input.env commitment st.pre

theorem Binds.changes (hbind : Binds employee record s s') (hs : ValuesUnique s) :
    s'.get (.commitment employee) ≠ s.get (.commitment employee) := by
  intro h
  rw [hbind.active, if_pos rfl] at h
  have hvalue : valueAt s (.active employee) = some record.commitment := by
    rw [valueAt, ← h]
    rfl
  have hmarked := hs.marked _ _ hvalue
  rw [hbind.fresh] at hmarked
  cases hmarked

theorem Archives.not_locked (harchive : Archives employee old s s') :
    isCommitmentLocked s employee = false :=
  Store.has_eq_false.mpr harchive.unlocked

theorem lockRespected_iff (hs : ValuesUnique s) (i : Input) :
    LockRespected employee ⟨s, i, next s i⟩ ↔ ¬ StoresOverLock employee ⟨s, i, next s i⟩ := by
  constructor
  · rintro h ⟨hlock, commitment, hcall, hcan⟩
    have hok : exec i.env s (.storeCommitment employee commitment) = .ok _ :=
      storeCommitment_ok.mpr ⟨hcan, rfl⟩
    rw [← hcall] at hok
    rw [← next_ok hok, hcall] at hok
    have hkept := h hlock fun hunlock => nomatch hcall.symm.trans hunlock
    cases exec_effect hok with
    | none hbinds _ => exact (hbinds employee commitment).1 rfl
    | store hbind _ _ => exact hbind.changes hs hkept
  · intro h hlock hcall
    rcases next_cases s i with ⟨_, -, hsame⟩ | hok
    · exact congrArg (·.get (.commitment employee)) hsame
    · have hother : ∀ {record other}, Binds other record s (next s i) → employee ≠ other →
          (next s i).get (.commitment employee) = s.get (.commitment employee) := by
        intro record other hbind hne
        rw [hbind.active, if_neg hne]
      generalize hc : i.call = call at hok
      cases exec_effect hok with
      | none _ hkept => exact hkept _ (by simp [Apart])
      | store hbind _ _ =>
        refine hother hbind ?_
        rintro rfl
        exact h ⟨hlock, _, hc, (storeCommitment_ok.mp hok).1⟩
      | update hbind harchive _ _ =>
        refine hother hbind ?_
        rintro rfl
        simp [harchive.not_locked] at hlock
      | rotate hbind harchive _ =>
        refine hother hbind ?_
        rintro rfl
        simp [harchive.not_locked] at hlock

/-- A run respects the locks of an employee exactly when no step of it stores a
commitment for the employee while they are locked. -/
theorem locks_respected_iff_no_store (inputs : List Input) (employee : Address) :
    (∀ st ∈ steps next Store.empty inputs, LockRespected employee st) ↔
      ∀ st ∈ steps next Store.empty inputs, ¬ StoresOverLock employee st := by
  refine forall₂_congr fun st hst => ?_
  rw [steps_eq hst]
  exact lockRespected_iff (reached_valuesUnique (steps_reachable hst)) st.input

end

-- ---------------------------------------------------------------------------
-- A run that stores over a lock
-- ---------------------------------------------------------------------------

namespace Sample

def hr : Address := ⟨1⟩
def alice : Address := ⟨2⟩

def digest (n : UInt8) : BytesN 32 := List.Vector.cons n BytesN.zero

def env : Env where
  crypto := ⟨fun _ => BytesN.zero, fun _ => [], fun _ => [], fun _ => []⟩
  contract := ⟨0⟩
  timestamp := 100
  auths := [hr]
  isPaused _ := false
  verifyPaymentProof _ _ _ := true

def hired : List Input :=
  [⟨env, .initCommitmentAdmin hr⟩, ⟨env, .storeCommitment alice (digest 1)⟩]

end Sample

/-- The commitment is locked and `store_commitment` replaces it. -/
theorem locked_commitment_replaced :
    let locked := Sample.hired ++ [⟨Sample.env, .lockCommitmentUpdates Sample.alice⟩]
    let i : Input := ⟨Sample.env, .storeCommitment Sample.alice (Sample.digest 2)⟩
    let s := runFrom next Store.empty locked
    isCommitmentLocked s Sample.alice = true ∧
      s.get (.commitment Sample.alice) = some ⟨Sample.digest 1, 100, 100, 1, false⟩ ∧
      (next s i).get (.commitment Sample.alice) = some ⟨Sample.digest 2, 100, 100, 1, false⟩ ∧
      ¬ ∀ st ∈ steps next Store.empty (locked ++ [i]), LockRespected Sample.alice st := by
  intro locked i s
  have hlock : isCommitmentLocked s Sample.alice = true := by decide +kernel
  have hbefore : s.get (.commitment Sample.alice) = some ⟨Sample.digest 1, 100, 100, 1, false⟩ := by
    decide +kernel
  have hafter : (next s i).get (.commitment Sample.alice) =
      some ⟨Sample.digest 2, 100, 100, 1, false⟩ := by
    decide +kernel
  refine ⟨hlock, hbefore, hafter, fun h => ?_⟩
  have hkept := h _ (last_mem_steps i) hlock (by simp [i])
  rw [hafter, hbefore] at hkept
  revert hkept
  decide

end ZkPayroll.SalaryCommitmentContract
