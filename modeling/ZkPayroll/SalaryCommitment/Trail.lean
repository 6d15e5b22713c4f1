import ZkPayroll.SalaryCommitment.Values

/-!
# The trail of an employee's commitments

`get_commitment_history` followed by the active commitment, as a list of
values with their versions. `next_trail` says what one step does to that list:
nothing, one more entry with the next version, one more entry that starts
again at version 1 (`rotate_commitment`), or a new last entry in place of the
old one (`store_commitment` over a commitment). Along a run the list is
compared with the values the employee was bound to.
-/

namespace ZkPayroll.SalaryCommitmentContract

open Host

abbrev Entry := BytesN 32 × Nat

def CommitmentSnapshot.entry (snapshot : CommitmentSnapshot) : Entry :=
  (snapshot.commitment, snapshot.version)

def SalaryCommitment.entry (record : SalaryCommitment) : Entry :=
  (record.commitment, record.version)

def trail (s : Storage) (employee : Address) : Result (List Entry) := do
  let history ← getCommitmentHistory s employee
  return history.map (·.entry) ++ (s.get (.commitment employee)).toList.map (·.entry)

def Call.binds : Call → Option (Address × BytesN 32)
  | .storeCommitment employee c => some (employee, c)
  | .updateCommitment employee c => some (employee, c)
  | .rotateCommitment employee c => some (employee, c)
  | _ => none

def boundValue (employee : Address) (st : Step Storage Input) : List (BytesN 32) :=
  match exec st.input.env st.pre st.input.call, st.input.call.binds with
  | .ok _, some (other, c) => if other = employee then [c] else []
  | _, _ => []

def boundValues (employee : Address) (hist : List (Step Storage Input)) : List (BytesN 32) :=
  hist.flatMap (boundValue employee)

/-- At the end of the run the trail has exactly the bound values, in order,
under increasing versions. -/
def TrailComplete (inputs : List Input) (employee : Address) : Prop :=
  ∃ entries, trail (runFrom next Store.empty inputs) employee = .ok entries ∧
    entries.map (·.1) = boundValues employee (steps next Store.empty inputs) ∧
    (entries.map (·.2)).Pairwise (· < ·)

/-- The step is a `store_commitment` over a commitment the employee has, with
the guards of that function met. -/
def Overwrites (employee : Address) (st : Step Storage Input) : Prop :=
  ∃ commitment, st.input.call = .storeCommitment employee commitment ∧
    CanStore st.input.env commitment st.pre ∧ ∃ old, st.pre.get (.commitment employee) = some old

def Rotates (employee : Address) (st : Step Storage Input) : Prop :=
  ∃ commitment, st.input.call = .rotateCommitment employee commitment ∧
    ∃ old index, CanReplace st.input.env employee commitment old index st.pre

section
variable {e : Env} {s s' : Storage} {i : Input}

-- ---------------------------------------------------------------------------
-- Reading the archive
-- ---------------------------------------------------------------------------

theorem historyFrom_ok
    (h : ∀ j, s.get (.commitmentHistory employee (start + j)) = history[j]?) :
    historyFrom s employee fuel start = .ok found ↔ history.length < fuel ∧ found = history := by
  induction fuel generalizing start history found with
  | zero => simp [historyFrom]
  | succ fuel ih =>
    unfold historyFrom
    cases history with
    | nil =>
      rw [show s.get (.commitmentHistory employee start) = none from h 0]
      simp [pure_ok]
    | cons snapshot rest =>
      have hrest : ∀ j, s.get (.commitmentHistory employee (start + 1 + j)) = rest[j]? := by
        intro j
        rw [Nat.add_assoc, Nat.add_comm 1 j, h (j + 1)]
        rfl
      rw [show s.get (.commitmentHistory employee start) = some snapshot from h 0]
      simp only [bind_ok, pure_ok, ih hrest, List.length_cons, Nat.add_lt_add_iff_right]
      constructor
      · rintro ⟨_, ⟨hlt, rfl⟩, rfl⟩
        exact ⟨hlt, rfl⟩
      · rintro ⟨hlt, rfl⟩
        exact ⟨rest, ⟨hlt, rfl⟩, rfl⟩

def Shows (s : Storage) (employee : Address) (entries : List Entry) : Prop :=
  ∃ history : List CommitmentSnapshot,
    (∀ j, s.get (.commitmentHistory employee j) = history[j]?) ∧
    (s.get (.commitment employee) = none → history = []) ∧
    entries = history.map (·.entry) ++ (s.get (.commitment employee)).toList.map (·.entry)

theorem getCommitmentHistory_ok (h : ∀ j, s.get (.commitmentHistory employee j) = history[j]?) :
    getCommitmentHistory s employee = .ok found ↔
      history.length < u32Max + 1 ∧ found = history := by
  refine historyFrom_ok fun j => ?_
  rw [Nat.zero_add]
  exact h j

theorem Shows.trail_ok (h : Shows s employee entries) (hroom : entries.length ≤ u32Max) :
    trail s employee = .ok entries := by
  obtain ⟨history, hhistory, -, rfl⟩ := h
  rw [List.length_append, List.length_map] at hroom
  simp only [trail, bind_ok, pure_ok]
  exact ⟨history, (getCommitmentHistory_ok hhistory).mpr ⟨by omega, rfl⟩, rfl⟩

theorem Shows.trail_eq (h : Shows s employee entries) (hok : trail s employee = .ok found) :
    found = entries := by
  obtain ⟨history, hhistory, -, rfl⟩ := h
  simp only [trail, bind_ok, pure_ok, getCommitmentHistory_ok hhistory] at hok
  obtain ⟨_, ⟨-, rfl⟩, rfl⟩ := hok
  rfl

theorem Shows.congr (h : Shows s employee entries)
    (hactive : s'.get (.commitment employee) = s.get (.commitment employee))
    (hhistory : ∀ j, s'.get (.commitmentHistory employee j) = s.get (.commitmentHistory employee j)) :
    Shows s' employee entries := by
  obtain ⟨history, harchive, hnone, rfl⟩ := h
  refine ⟨history, fun j => (hhistory j).trans (harchive j), ?_, ?_⟩
  · rw [hactive]
    exact hnone
  · rw [hactive]

-- ---------------------------------------------------------------------------
-- One step
-- ---------------------------------------------------------------------------

theorem FirstFree.eq_length {history : List CommitmentSnapshot} (h : FirstFree s employee index)
    (harchive : ∀ j, s.get (.commitmentHistory employee j) = history[j]?) :
    index = history.length := by
  obtain ⟨hfree, hbelow⟩ := h
  rw [harchive, List.getElem?_eq_none_iff] at hfree
  refine Nat.le_antisymm ?_ hfree
  by_contra hlt
  apply hbelow history.length (by omega)
  rw [harchive, List.getElem?_eq_none_iff]

theorem Shows.archived (h : Shows s employee entries) (hbind : Binds employee record s s')
    (harchive : Archives employee old s s') :
    ∃ front, entries = front ++ [old.entry] ∧ Shows s' employee (entries ++ [record.entry]) := by
  obtain ⟨history, hhistory, -, rfl⟩ := h
  obtain ⟨hold, -, index, archivedAt, hfree, -, hafter⟩ := harchive
  obtain rfl := hfree.eq_length hhistory
  refine ⟨history.map (·.entry), by simp [hold],
    history ++ [⟨old.commitment, old.version, archivedAt⟩], fun j => ?_, ?_, ?_⟩
  · rw [hafter, getElem?_snoc, hhistory]
    simp
  · simp [hbind.active]
  · simp [hbind.active, hold, SalaryCommitment.entry, CommitmentSnapshot.entry]

/-- What a step does to the trail of an employee, with the value it binds. -/
inductive Change (employee : Address) (st : Step Storage Input) : List Entry → List Entry → Prop
  | kept (hbound : boundValue employee st = []) : Change employee st entries entries
  | first (hbound : boundValue employee st = [c]) (hover : ¬ Overwrites employee st)
      (hrotate : ¬ Rotates employee st) : Change employee st [] [(c, 1)]
  | updated (hbound : boundValue employee st = [c]) (hover : ¬ Overwrites employee st)
      (hrotate : ¬ Rotates employee st) (hroom : version + 1 ≤ u32Max) :
      Change employee st (front ++ [(old, version)])
        (front ++ [(old, version)] ++ [(c, version + 1)])
  | rotated (hbound : boundValue employee st = [c]) (hover : ¬ Overwrites employee st)
      (hrotate : Rotates employee st) :
      Change employee st (front ++ [last]) (front ++ [last] ++ [(c, 1)])
  | overwritten (hbound : boundValue employee st = [c]) (hover : Overwrites employee st) :
      Change employee st (front ++ [last]) (front ++ [(c, 1)])

theorem boundValue_error (h : exec i.env s i.call = .error msg) :
    boundValue employee ⟨s, i, s'⟩ = [] := by
  simp [boundValue, h]

theorem boundValue_ok (h : exec i.env s i.call = .ok t)
    (hbinds : i.call.binds = some (other, c)) :
    boundValue employee ⟨s, i, s'⟩ = if other = employee then [c] else [] := by
  simp [boundValue, h, hbinds]

theorem Overwrites.bound {st : Step Storage Input} (h : Overwrites employee st) :
    boundValue employee st ≠ [] := by
  obtain ⟨c, hcall, hcan, -⟩ := h
  have hok : exec st.input.env st.pre (.storeCommitment employee c) = .ok _ :=
    storeCommitment_ok.mpr ⟨hcan, rfl⟩
  rw [← hcall] at hok
  rw [boundValue_ok hok (by rw [hcall]; rfl), if_pos rfl]
  simp

theorem Rotates.bound {st : Step Storage Input} (h : Rotates employee st) :
    boundValue employee st ≠ [] := by
  obtain ⟨c, hcall, old, index, hcan⟩ := h
  have hok : exec st.input.env st.pre (.rotateCommitment employee c) = .ok _ :=
    rotateCommitment_ok.mpr ⟨old, index, hcan, rfl⟩
  rw [← hcall] at hok
  rw [boundValue_ok hok (by rw [hcall]; rfl), if_pos rfl]
  simp

theorem Archives.other_kept (h : Archives other old s s') (hne : employee ≠ other) (j : Nat) :
    s'.get (.commitmentHistory employee j) = s.get (.commitmentHistory employee j) := by
  obtain ⟨-, -, index, archivedAt, -, -, hafter⟩ := h
  rw [hafter, if_neg fun hslot => hne hslot.1]

theorem not_overwrites (hcall : ∀ c, i.call ≠ .storeCommitment employee c) :
    ¬ Overwrites employee ⟨s, i, s'⟩ := by
  rintro ⟨c, hc, -⟩
  exact hcall c hc

theorem not_rotates (hcall : ∀ c, i.call ≠ .rotateCommitment employee c) :
    ¬ Rotates employee ⟨s, i, s'⟩ := by
  rintro ⟨c, hc, -⟩
  exact hcall c hc

theorem store_trail (h : Shows s employee entries) (hbind : Binds employee record s s')
    (hkept : HistoryKept s s') (hversion : record.version = 1)
    (hcall : i.call = .storeCommitment employee record.commitment)
    (hok : exec i.env s i.call = .ok s') :
    ∃ entries', Shows s' employee entries' ∧ Change employee ⟨s, i, s'⟩ entries entries' := by
  have hbound : boundValue employee ⟨s, i, s'⟩ = [record.commitment] := by
    rw [boundValue_ok hok (by rw [hcall]; rfl), if_pos rfl]
  have hentry : record.entry = (record.commitment, 1) := by
    rw [SalaryCommitment.entry, hversion]
  obtain ⟨history, hhistory, hnone, rfl⟩ := h
  have hshows : Shows s' employee (history.map (·.entry) ++ [record.entry]) := by
    refine ⟨history, fun j => (hkept employee j).trans (hhistory j), ?_, ?_⟩
    · simp [hbind.active]
    · simp [hbind.active]
  rw [hentry] at hshows
  refine ⟨_, hshows, ?_⟩
  cases hold : s.get (.commitment employee) with
  | none =>
    rw [hnone hold]
    refine Change.first hbound ?_ (not_rotates fun c => ?_)
    · rintro ⟨_, -, -, old, hget⟩
      rw [hold] at hget
      cases hget
    · rw [hcall]
      simp
  | some old =>
    refine Change.overwritten hbound ⟨_, hcall, ?_, old, hold⟩
    rw [hcall] at hok
    exact (storeCommitment_ok.mp hok).1

theorem update_trail (h : Shows s employee entries) (hbind : Binds employee record s s')
    (harchive : Archives employee old s s') (hversion : record.version = old.version + 1)
    (hroom : record.version ≤ u32Max)
    (hcall : i.call = .updateCommitment employee record.commitment)
    (hok : exec i.env s i.call = .ok s') :
    ∃ entries', Shows s' employee entries' ∧ Change employee ⟨s, i, s'⟩ entries entries' := by
  have hbound : boundValue employee ⟨s, i, s'⟩ = [record.commitment] := by
    rw [boundValue_ok hok (by rw [hcall]; rfl), if_pos rfl]
  obtain ⟨front, rfl, hshows⟩ := h.archived hbind harchive
  refine ⟨_, hshows, ?_⟩
  rw [SalaryCommitment.entry, SalaryCommitment.entry, hversion]
  refine Change.updated hbound (not_overwrites fun c => ?_) (not_rotates fun c => ?_)
    (hversion ▸ hroom)
  · rw [hcall]
    simp
  · rw [hcall]
    simp

theorem rotate_trail (h : Shows s employee entries) (hbind : Binds employee record s s')
    (harchive : Archives employee old s s') (hversion : record.version = 1)
    (hcall : i.call = .rotateCommitment employee record.commitment)
    (hok : exec i.env s i.call = .ok s') :
    ∃ entries', Shows s' employee entries' ∧ Change employee ⟨s, i, s'⟩ entries entries' := by
  have hbound : boundValue employee ⟨s, i, s'⟩ = [record.commitment] := by
    rw [boundValue_ok hok (by rw [hcall]; rfl), if_pos rfl]
  obtain ⟨front, rfl, hshows⟩ := h.archived hbind harchive
  refine ⟨_, hshows, ?_⟩
  have hentry : record.entry = (record.commitment, 1) := by
    rw [SalaryCommitment.entry, hversion]
  rw [hentry]
  refine Change.rotated hbound (not_overwrites fun c => ?_) ⟨_, hcall, ?_⟩
  · rw [hcall]
    simp
  · rw [hcall] at hok
    obtain ⟨old, index, hcan, -⟩ := rotateCommitment_ok.mp hok
    exact ⟨old, index, hcan⟩

theorem binds_eq_none {call : Call} (h : ∀ employee c, call ≠ .storeCommitment employee c ∧
    call ≠ .updateCommitment employee c ∧ call ≠ .rotateCommitment employee c) :
    call.binds = none := by
  cases call with
  | storeCommitment employee c => exact absurd rfl (h employee c).1
  | updateCommitment employee c => exact absurd rfl (h employee c).2.1
  | rotateCommitment employee c => exact absurd rfl (h employee c).2.2
  | _ => rfl

theorem other_trail (h : Shows s employee entries) (hbind : Binds other record s s')
    (hother : other ≠ employee)
    (hhistory : ∀ j, s'.get (.commitmentHistory employee j) = s.get (.commitmentHistory employee j))
    (hok : exec i.env s i.call = .ok s')
    (hcall : i.call.binds = some (other, record.commitment)) :
    ∃ entries', Shows s' employee entries' ∧ Change employee ⟨s, i, s'⟩ entries entries' := by
  refine ⟨entries, h.congr ?_ hhistory, .kept ?_⟩
  · rw [hbind.active, if_neg (Ne.symm hother)]
  · rw [boundValue_ok hok hcall, if_neg hother]

theorem next_trail (i : Input) (h : Shows s employee entries) :
    ∃ entries', Shows (next s i) employee entries' ∧
      Change employee ⟨s, i, next s i⟩ entries entries' := by
  rcases next_cases s i with ⟨msg, herr, hsame⟩ | hok
  · rw [hsame]
    exact ⟨entries, h, .kept (boundValue_error herr)⟩
  · have heffect := exec_effect hok
    generalize hcall : i.call = call at heffect
    cases heffect with
    | none hbinds hkept =>
      refine ⟨entries, h.congr (hkept _ (by simp [Apart])) fun j => hkept _ (by simp [Apart]),
        .kept ?_⟩
      simp [boundValue, hcall, binds_eq_none hbinds]
    | @store other record hbind hkept hversion =>
      by_cases hsame : other = employee
      · subst hsame
        exact store_trail h hbind hkept hversion hcall hok
      · exact other_trail h hbind hsame (hkept employee) hok (by rw [hcall]; rfl)
    | @update other record old hbind harchive hversion hroom =>
      by_cases hsame : other = employee
      · subst hsame
        exact update_trail h hbind harchive hversion hroom hcall hok
      · exact other_trail h hbind hsame (harchive.other_kept (Ne.symm hsame)) hok (by rw [hcall]; rfl)
    | @rotate other record old hbind harchive hversion =>
      by_cases hsame : other = employee
      · subst hsame
        exact rotate_trail h hbind harchive hversion hcall hok
      · exact other_trail h hbind hsame (harchive.other_kept (Ne.symm hsame)) hok (by rw [hcall]; rfl)

-- ---------------------------------------------------------------------------
-- Whole runs
-- ---------------------------------------------------------------------------

/-- The trail against the steps that led to it. -/
structure Account (employee : Address) (hist : List (Step Storage Input)) (entries : List Entry) :
    Prop where
  positive : ∀ entry ∈ entries, 1 ≤ entry.2
  values : (∀ st ∈ hist, ¬ Overwrites employee st) →
    entries.map (·.1) = boundValues employee hist
  lost : (∃ st ∈ hist, Overwrites employee st) →
    entries.length < (boundValues employee hist).length
  versions : (∀ st ∈ hist, ¬ Overwrites employee st ∧ ¬ Rotates employee st) →
    entries.map (·.2) = List.range' 1 entries.length ∧ entries.length ≤ u32Max
  restarted : (∀ st ∈ hist, ¬ Overwrites employee st) → (∃ st ∈ hist, Rotates employee st) →
    ¬ (entries.map (·.2)).Pairwise (· < ·)

theorem boundValues_snoc (hist : List (Step Storage Input)) (st : Step Storage Input) :
    boundValues employee (hist ++ [st]) = boundValues employee hist ++ boundValue employee st := by
  simp [boundValues]

theorem Account.length_le (h : Account employee hist entries) :
    entries.length ≤ (boundValues employee hist).length := by
  by_cases hlost : ∃ st ∈ hist, Overwrites employee st
  · exact (h.lost hlost).le
  · rw [← h.values fun st hst hover => hlost ⟨st, hst, hover⟩, List.length_map]

theorem Account.keep (h : Account employee hist entries) (hbound : boundValue employee st = []) :
    Account employee (hist ++ [st]) entries := by
  have hover : ¬ Overwrites employee st := fun hover => hover.bound hbound
  have hrotate : ¬ Rotates employee st := fun hrotate => hrotate.bound hbound
  have hvalues : boundValues employee (hist ++ [st]) = boundValues employee hist := by
    rw [boundValues_snoc, hbound, List.append_nil]
  have hsome {P : Step Storage Input → Prop} (hst : ¬ P st) :
      (∃ st' ∈ hist ++ [st], P st') → ∃ st' ∈ hist, P st' := by
    rintro ⟨st', hmem, hP⟩
    rcases List.mem_append.mp hmem with hmem | hmem
    · exact ⟨st', hmem, hP⟩
    · obtain rfl := List.mem_singleton.mp hmem
      exact absurd hP hst
  refine ⟨h.positive, ?_, ?_, fun hgood => h.versions (List.forall_mem_append.mp hgood).1,
    fun hgood hbad => h.restarted (List.forall_mem_append.mp hgood).1 (hsome hrotate hbad)⟩
  · rw [hvalues]
    exact fun hgood => h.values (List.forall_mem_append.mp hgood).1
  · rw [hvalues]
    exact fun hbad => h.lost (hsome hover hbad)

/-- A further entry: the version follows the trail, or the step rotates and
starts again at 1. -/
theorem Account.append (h : Account employee hist entries)
    (hbound : boundValue employee st = [c]) (hover : ¬ Overwrites employee st) (hpos : 1 ≤ version)
    (hfollows : entries.map (·.2) = List.range' 1 entries.length → ¬ Rotates employee st →
      version = entries.length + 1 ∧ version ≤ u32Max)
    (hrestarts : Rotates employee st → version = 1 ∧ entries ≠ []) :
    Account employee (hist ++ [st]) (entries ++ [(c, version)]) := by
  have hlast : st ∈ hist ++ [st] := List.mem_append_right _ List.mem_cons_self
  constructor
  · intro entry hentry
    rcases List.mem_append.mp hentry with hentry | hentry
    · exact h.positive entry hentry
    · obtain rfl := List.mem_singleton.mp hentry
      exact hpos
  · intro hgood
    rw [boundValues_snoc, hbound, List.map_append, h.values (List.forall_mem_append.mp hgood).1]
    rfl
  · rintro ⟨st', hmem, hbad⟩
    rw [boundValues_snoc, hbound, List.length_append, List.length_append]
    rcases List.mem_append.mp hmem with hmem | hmem
    · have := h.lost ⟨st', hmem, hbad⟩
      simpa using this
    · obtain rfl := List.mem_singleton.mp hmem
      exact absurd hbad hover
  · intro hgood
    obtain ⟨hrange, -⟩ := h.versions (List.forall_mem_append.mp hgood).1
    obtain ⟨rfl, hroom⟩ := hfollows hrange (hgood st hlast).2
    rw [List.map_append, hrange, List.length_append, List.length_singleton, List.range'_1_concat,
      Nat.add_comm 1]
    exact ⟨rfl, hroom⟩
  · rintro hgood ⟨st', hmem, hrotate⟩ hsorted
    rw [List.map_append, List.pairwise_append] at hsorted
    rcases List.mem_append.mp hmem with hmem | hmem
    · exact h.restarted (List.forall_mem_append.mp hgood).1 ⟨st', hmem, hrotate⟩ hsorted.1
    · -- an entry before the last has a version below 1
      obtain rfl := List.mem_singleton.mp hmem
      obtain ⟨rfl, hne⟩ := hrestarts hrotate
      obtain ⟨entry, hentry⟩ := List.exists_mem_of_ne_nil entries hne
      have hlt := hsorted.2.2 entry.2 (List.mem_map_of_mem hentry) 1 (by simp)
      have := h.positive entry hentry
      omega

theorem Account.replace (h : Account employee hist (front ++ [last]))
    (hbound : boundValue employee st = [c]) (hover : Overwrites employee st) :
    Account employee (hist ++ [st]) (front ++ [(c, 1)]) := by
  have hlast : st ∈ hist ++ [st] := List.mem_append_right _ List.mem_cons_self
  refine ⟨fun entry hentry => ?_, fun hgood => absurd hover (hgood st hlast), fun _ => ?_,
    fun hgood => absurd hover (hgood st hlast).1, fun hgood => absurd hover (hgood st hlast)⟩
  · rcases List.mem_append.mp hentry with hentry | hentry
    · exact h.positive entry (List.mem_append_left _ hentry)
    · obtain rfl := List.mem_singleton.mp hentry
      exact le_refl 1
  · have hle := h.length_le
    rw [boundValues_snoc, hbound]
    simp only [List.length_append, List.length_singleton] at hle ⊢
    omega

theorem Account.change (h : Account employee hist entries)
    (hchange : Change employee st entries entries') :
    Account employee (hist ++ [st]) entries' := by
  cases hchange with
  | kept hbound => exact h.keep hbound
  | first hbound hover hrotate =>
    refine h.append hbound hover (le_refl 1) (fun _ _ => ⟨rfl, by decide⟩) ?_
    exact fun hbad => absurd hbad hrotate
  | @updated _ version front old hbound hover hrotate hroom =>
    refine h.append hbound hover (by omega) (fun hrange _ => ⟨?_, hroom⟩)
      fun hbad => absurd hbad hrotate
    -- the last of the consecutive versions
    rw [List.map_append, List.length_append, List.length_singleton, List.range'_1_concat] at hrange
    have hlast := (List.append_inj' hrange rfl).2
    have : version = 1 + front.length := by simpa using hlast
    rw [List.length_append, List.length_singleton]
    omega
  | rotated hbound hover hrotate =>
    exact h.append hbound hover (le_refl 1) (fun _ hnot => absurd hrotate hnot)
      fun _ => ⟨rfl, by simp⟩
  | overwritten hbound hover => exact h.replace hbound hover

theorem account_run (inputs : List Input) (employee : Address) :
    ∃ entries, Shows (runFrom next Store.empty inputs) employee entries ∧
      Account employee (steps next Store.empty inputs) entries := by
  refine history_invariant (I := fun hist s =>
    ∃ entries, Shows s employee entries ∧ Account employee hist entries) ?_ ?_ inputs
  · refine ⟨[], ⟨[], by simp, fun _ => rfl, by simp⟩, ?_⟩
    constructor <;> simp [boundValues]
  · rintro hist s i ⟨entries, hshows, haccount⟩
    obtain ⟨entries', hshows', hchange⟩ := next_trail i hshows
    exact ⟨entries', hshows', haccount.change hchange⟩

/-- The trail of an employee is complete and versioned at the end of a run
exactly when no step of the run stores over a commitment of the employee or
rotates one. -/
theorem trailComplete_iff (inputs : List Input) (employee : Address) :
    TrailComplete inputs employee ↔
      ∀ st ∈ steps next Store.empty inputs, ¬ Overwrites employee st ∧ ¬ Rotates employee st := by
  obtain ⟨entries, hshows, haccount⟩ := account_run inputs employee
  constructor
  · rintro ⟨found, hfound, hvalues, hversions⟩
    obtain rfl := hshows.trail_eq hfound
    have hover : ∀ st ∈ steps next Store.empty inputs, ¬ Overwrites employee st := by
      intro st hst hover
      have hlost := haccount.lost ⟨st, hst, hover⟩
      rw [← hvalues, List.length_map] at hlost
      omega
    exact fun st hst => ⟨hover st hst, fun hrotate =>
      haccount.restarted hover ⟨st, hst, hrotate⟩ hversions⟩
  · intro hgood
    obtain ⟨hrange, hroom⟩ := haccount.versions hgood
    refine ⟨entries, hshows.trail_ok hroom, haccount.values fun st hst => (hgood st hst).1, ?_⟩
    rw [hrange]
    exact List.pairwise_lt_range'

end

section
set_option maxRecDepth 2000

/-- Alice's first commitment is stored over, and nothing on chain has it any
more; a rotated one is in the history, under the same version as its
replacement. -/
theorem trail_incomplete :
    let overwritten := Sample.hired ++ [⟨Sample.env, .storeCommitment Sample.alice (Sample.digest 2)⟩]
    let rotated := Sample.hired ++ [⟨Sample.env, .rotateCommitment Sample.alice (Sample.digest 2)⟩]
    boundValues Sample.alice (steps next Store.empty overwritten) =
        [Sample.digest 1, Sample.digest 2] ∧
      trail (runFrom next Store.empty overwritten) Sample.alice = .ok [(Sample.digest 2, 1)] ∧
      trail (runFrom next Store.empty rotated) Sample.alice =
        .ok [(Sample.digest 1, 1), (Sample.digest 2, 1)] ∧
      ¬ TrailComplete overwritten Sample.alice ∧ ¬ TrailComplete rotated Sample.alice := by
  intro overwritten rotated
  have hbound : boundValues Sample.alice (steps next Store.empty overwritten) =
      [Sample.digest 1, Sample.digest 2] := by decide +kernel
  have hover : trail (runFrom next Store.empty overwritten) Sample.alice =
      .ok [(Sample.digest 2, 1)] := by rfl
  have hrotate : trail (runFrom next Store.empty rotated) Sample.alice =
      .ok [(Sample.digest 1, 1), (Sample.digest 2, 1)] := by rfl
  refine ⟨hbound, hover, hrotate, ?_, ?_⟩
  · rintro ⟨entries, hentries, hvalues, -⟩
    obtain rfl := Except.ok.inj (hover.symm.trans hentries)
    rw [hbound] at hvalues
    simp at hvalues
  · rintro ⟨entries, hentries, -, hversions⟩
    obtain rfl := Except.ok.inj (hrotate.symm.trans hentries)
    simp at hversions

end

end ZkPayroll.SalaryCommitmentContract
