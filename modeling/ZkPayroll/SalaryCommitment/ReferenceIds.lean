import ZkPayroll.SalaryCommitment.Values

/-!
# Reference ids

Each employee has at most one external id, kept in two maps: from the employee
to the id and back. Only `set_employee_reference_id` writes them, and it keeps
each the inverse of the other: the id it sets is free or the employee's own,
and the one it replaces stops resolving.
-/

namespace ZkPayroll.SalaryCommitmentContract

open Host

abbrev ApartFromIds (k : DataKey) : Prop :=
  (∀ employee, k ≠ .employeeReferenceId employee) ∧ ∀ referenceId, k ≠ .referenceIdIndex referenceId

def IdsKept (s s' : Storage) : Prop := Store.Frame ApartFromIds s s'

def IdSized (referenceId : String) : Prop :=
  ¬ (referenceId.utf8ByteSize = 0 ∨ 256 < referenceId.utf8ByteSize)

def withReferenceId (employee : Address) (referenceId : String) (s : Storage) : Storage :=
  ((dropOldReferenceId employee referenceId s).set (.employeeReferenceId employee) referenceId).set
    (.referenceIdIndex referenceId) employee

/-- The two maps are inverse to each other, and hold ids of a proper length. -/
structure IdsPaired (s : Storage) : Prop where
  paired : ∀ employee referenceId, s.get (.employeeReferenceId employee) = some referenceId ↔
    s.get (.referenceIdIndex referenceId) = some employee
  sized : ∀ referenceId employee, s.get (.referenceIdIndex referenceId) = some employee →
    IdSized referenceId

section
variable {e : Env} {s s' : Storage}

theorem requireReferenceIdFree_ok : requireReferenceIdFree employee referenceId s = .ok u ↔
    ∀ other, s.get (.referenceIdIndex referenceId) = some other → other = employee := by
  unfold requireReferenceIdFree
  cases s.get (.referenceIdIndex referenceId) <;> simp [ensure_ok, pure_ok]

theorem setEmployeeReferenceId_ok : setEmployeeReferenceId e employee referenceId s = .ok s' ↔
    ¬ Paused e s ∧ (∃ admin, s.get .admin = some admin ∧ admin ∈ e.auths) ∧ IdSized referenceId ∧
      (∀ other, s.get (.referenceIdIndex referenceId) = some other → other = employee) ∧
      s' = withReferenceId employee referenceId s := by
  simp only [setEmployeeReferenceId, bind_ok, requireNotPaused_ok, requireAdmin_ok, ensure_ok,
    requireReferenceIdFree_ok, pure_ok, exists_const, IdSized, withReferenceId]

theorem exec_ids (h : exec e s call = .ok s') :
    IdsKept s s' ∨ ∃ employee referenceId, IdSized referenceId ∧
      (∀ other, s.get (.referenceIdIndex referenceId) = some other → other = employee) ∧
      s' = withReferenceId employee referenceId s := by
  cases call with
  | setEmployeeReferenceId employee referenceId =>
    obtain ⟨-, -, hsized, hfree, rfl⟩ := setEmployeeReferenceId_ok.mp h
    exact .inr ⟨employee, referenceId, hsized, hfree, rfl⟩
  | _ =>
    refine .inl ((exec_frame h).mono fun k hk => ?_)
    cases k <;> simp_all [Call.Writes, ApartFromIds]

-- ---------------------------------------------------------------------------
-- The two maps
-- ---------------------------------------------------------------------------

theorem dropOldReferenceId_forward (s : Storage) (employee other : Address) (referenceId : String) :
    (dropOldReferenceId employee referenceId s).get (.employeeReferenceId other) =
      s.get (.employeeReferenceId other) := by
  unfold dropOldReferenceId
  split
  · split <;> simp
  · rfl

theorem withReferenceId_forward (s : Storage) (employee other : Address) (referenceId : String) :
    (withReferenceId employee referenceId s).get (.employeeReferenceId other) =
      if other = employee then some referenceId else s.get (.employeeReferenceId other) := by
  rw [withReferenceId, Store.get_set_ne _ _ (by simp)]
  by_cases h : other = employee
  · subst h
    simp
  · rw [if_neg h, Store.get_set_ne _ _ (by simpa using h)]
    exact dropOldReferenceId_forward s employee other referenceId

theorem dropOldReferenceId_index (s : Storage) (employee : Address) (referenceId r : String) :
    (dropOldReferenceId employee referenceId s).get (.referenceIdIndex r) =
      if s.get (.employeeReferenceId employee) = some r ∧ r ≠ referenceId then none
      else s.get (.referenceIdIndex r) := by
  unfold dropOldReferenceId
  cases hold : s.get (.employeeReferenceId employee) with
  | none => simp
  | some old =>
    by_cases hr : old = r
    · subst hr
      by_cases hsame : old = referenceId <;> simp [hsame]
    · have hkey : DataKey.referenceIdIndex r ≠ .referenceIdIndex old := by simpa using Ne.symm hr
      have hother : ¬ (some old = some r ∧ r ≠ referenceId) := by simp [hr]
      rw [if_neg hother]
      by_cases hsame : old = referenceId <;> simp [hsame, hkey]

theorem withReferenceId_index (s : Storage) (employee : Address) (referenceId r : String) :
    (withReferenceId employee referenceId s).get (.referenceIdIndex r) =
      if r = referenceId then some employee
      else if s.get (.employeeReferenceId employee) = some r then none
      else s.get (.referenceIdIndex r) := by
  by_cases h : r = referenceId
  · subst h
    simp [withReferenceId]
  · rw [withReferenceId, Store.get_set_ne _ _ (by simpa using h), Store.get_set_ne _ _ (by simp),
      dropOldReferenceId_index, if_neg h]
    simp [h]

theorem IdsPaired.congr (hs : IdsPaired s)
    (hforward : ∀ employee,
      s'.get (.employeeReferenceId employee) = s.get (.employeeReferenceId employee))
    (hindex : ∀ r, s'.get (.referenceIdIndex r) = s.get (.referenceIdIndex r)) : IdsPaired s' := by
  constructor
  · intro employee r
    rw [hforward, hindex]
    exact hs.paired employee r
  · intro r employee
    rw [hindex]
    exact hs.sized r employee

theorem IdsPaired.set (hs : IdsPaired s) (hsized : IdSized referenceId)
    (hfree : ∀ other, s.get (.referenceIdIndex referenceId) = some other → other = employee) :
    IdsPaired (withReferenceId employee referenceId s) := by
  constructor
  · intro other r
    rw [withReferenceId_forward, withReferenceId_index]
    by_cases hother : other = employee
    · subst hother
      by_cases hr : r = referenceId
      · simp [hr]
      · -- the employee's old id, if any, is the one that was dropped
        rw [if_pos rfl, if_neg hr]
        refine iff_of_false (fun h => hr (Option.some.inj h).symm) ?_
        split
        · exact nofun
        · rename_i hold
          exact fun h => hold ((hs.paired other r).mpr h)
    · rw [if_neg hother]
      by_cases hr : r = referenceId
      · subst hr
        rw [if_pos rfl]
        refine iff_of_false (fun h => hother (hfree other ((hs.paired other r).mp h))) ?_
        exact fun h => hother (Option.some.inj h).symm
      · rw [if_neg hr, hs.paired other r]
        split
        · rename_i hold
          have hindex := (hs.paired employee r).mp hold
          refine iff_of_false (fun h => hother ?_) nofun
          exact Option.some.inj (h.symm.trans hindex)
        · rfl
  · intro r other
    rw [withReferenceId_index]
    split
    · rename_i hr
      exact fun _ => hr ▸ hsized
    · split
      · exact nofun
      · exact hs.sized r other

theorem exec_idsPaired (h : exec e s call = .ok s') (hs : IdsPaired s) : IdsPaired s' := by
  rcases exec_ids h with hkept | ⟨employee, referenceId, hsized, hfree, rfl⟩
  · exact hs.congr (fun _ => hkept _ (by simp [ApartFromIds]))
      fun _ => hkept _ (by simp [ApartFromIds])
  · exact hs.set hsized hfree

theorem reached_idsPaired (hs : Reached s) : IdsPaired s := by
  refine run_invariant ⟨fun _ _ => by simp, fun _ _ h => ?_⟩ (fun s i hs => ?_) hs
  · simp at h
  · rcases next_cases s i with ⟨_, -, hsame⟩ | hok
    · rw [hsame]
      exact hs
    · exact exec_idsPaired hok hs

/-- In every reachable state the two maps of reference ids are inverse to each
other, and so are the two getters; no two employees have one id. -/
theorem reference_ids_bijective (hs : Reached s) :
    (∀ employee referenceId, s.get (.employeeReferenceId employee) = some referenceId ↔
      s.get (.referenceIdIndex referenceId) = some employee) ∧
    (∀ employee referenceId, getEmployeeReferenceId s employee = some referenceId ↔
      getEmployeeByReferenceId s referenceId = some employee) ∧
    ∀ employee other referenceId, getEmployeeReferenceId s employee = some referenceId →
      getEmployeeReferenceId s other = some referenceId → employee = other := by
  have hpaired := reached_idsPaired hs
  refine ⟨hpaired.paired, fun employee r => ?_, fun employee other r h h' => ?_⟩
  · rw [getEmployeeReferenceId, hpaired.paired, getEmployeeByReferenceId]
    split
    · rename_i hsize
      exact iff_of_false (fun h => hpaired.sized r employee h hsize) nofun
    · rfl
  · have hindex := (hpaired.paired employee r).mp h
    have hindex' := (hpaired.paired other r).mp h'
    exact Option.some.inj (hindex.symm.trans hindex')

end

namespace Sample

def bob : Address := ⟨3⟩

def idHandedOn : List Input :=
  hired ++ [⟨env, .setEmployeeReferenceId alice "EMP1"⟩,
    ⟨env, .setEmployeeReferenceId alice "EMP2"⟩, ⟨env, .setEmployeeReferenceId bob "EMP1"⟩]

end Sample

theorem reference_id_handed_on :
    let s := runFrom next Store.empty Sample.idHandedOn
    getEmployeeReferenceId s Sample.bob = some "EMP1" ∧
      getEmployeeByReferenceId s "EMP1" = some Sample.bob ∧
      getEmployeeReferenceId s Sample.alice = some "EMP2" := by
  intro s
  have hbob : getEmployeeReferenceId s Sample.bob = some "EMP1" := by decide +kernel
  exact ⟨hbob, ((reference_ids_bijective ⟨_, rfl⟩).2.1 Sample.bob "EMP1").mp hbob,
    by decide +kernel⟩

end ZkPayroll.SalaryCommitmentContract
