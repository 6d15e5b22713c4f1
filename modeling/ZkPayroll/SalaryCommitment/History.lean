import ZkPayroll.SalaryCommitment.Trail
import ZkPayroll.Host.Numerals

/-!
# The archive of an employee

The archive has no stored length: `archive_commitment` looks for the first free
slot, and `get_commitment_history` reads up to it. Both are right because the
taken slots of an employee are always the first ones, with the snapshots in the
order in which they were archived. Both count in `u32`, so both abort once all
`2^32` slots are taken.
-/

namespace ZkPayroll.SalaryCommitmentContract

open Host

def archivedBy (employee : Address) (st : Step Storage Input) : List CommitmentSnapshot :=
  match exec st.input.env st.pre st.input.call, st.input.call with
  | .ok _, .updateCommitment other _ | .ok _, .rotateCommitment other _ =>
    if other = employee then
      (st.pre.get (.commitment employee)).toList.map fun old =>
        ⟨old.commitment, old.version, st.input.env.timestamp⟩
    else []
  | _, _ => []

def archivedSnapshots (employee : Address) (hist : List (Step Storage Input)) :
    List CommitmentSnapshot :=
  hist.flatMap (archivedBy employee)

def ArchiveHolds (hist : List (Step Storage Input)) (s : Storage) : Prop :=
  ∀ employee, (archivedSnapshots employee hist).length ≤ u32Max + 1 ∧
    ∀ j, s.get (.commitmentHistory employee j) = (archivedSnapshots employee hist)[j]?

/-- The archive of the employee can be read and added to: its slots are the
first ones, the read returns them all, and the scan ends right after them. -/
def ArchiveUsable (s : Storage) (employee : Address) : Prop :=
  ∃ history, (∀ j, s.get (.commitmentHistory employee j) = history[j]?) ∧
    getCommitmentHistory s employee = .ok history ∧
    freeHistorySlot s employee (u32Max + 1) 0 = .ok history.length

/-- What the archive of an employee promises, given the steps that led to it. -/
structure ArchiveIntact (hist : List (Step Storage Input)) (s : Storage) (employee : Address) :
    Prop where
  bounded : (archivedSnapshots employee hist).length ≤ u32Max + 1
  contiguous : ∀ j, s.has (.commitmentHistory employee j) = true ↔
    j < (archivedSnapshots employee hist).length
  inOrder : ∀ j, s.get (.commitmentHistory employee j) = (archivedSnapshots employee hist)[j]?
  read : (archivedSnapshots employee hist).length ≤ u32Max →
    getCommitmentHistory s employee = .ok (archivedSnapshots employee hist)
  added : (archivedSnapshots employee hist).length ≤ u32Max → ∀ e commitment version,
    archiveCommitment e employee commitment version s =
      .ok (s.set (.commitmentHistory employee (archivedSnapshots employee hist).length)
        ⟨commitment, version, e.timestamp⟩)
  full : (archivedSnapshots employee hist).length = u32Max + 1 →
    getCommitmentHistory s employee = .error "attempt to add with overflow" ∧
      ∀ e commitment version, archiveCommitment e employee commitment version s =
        .error "attempt to add with overflow"
  kept : ∀ later j snapshot, s.get (.commitmentHistory employee j) = some snapshot →
    (runFrom next s later).get (.commitmentHistory employee j) = some snapshot

section
variable {e : Env} {s s' : Storage} {i : Input} {hist : List (Step Storage Input)}
  {st : Step Storage Input}

-- ---------------------------------------------------------------------------
-- What a step archives
-- ---------------------------------------------------------------------------

inductive ArchiveEffect (e : Env) (s s' : Storage) (call : Call) : Prop
  | kept (hcall : ∀ other c, call ≠ .updateCommitment other c ∧ call ≠ .rotateCommitment other c)
      (hkept : HistoryKept s s')
  | archived (other : Address) (c : BytesN 32) (old : SalaryCommitment) (index : Nat)
      (hcall : call = .updateCommitment other c ∨ call = .rotateCommitment other c)
      (hold : s.get (.commitment other) = some old) (hfree : FirstFree s other index)
      (hle : index ≤ u32Max)
      (hafter : ∀ employee j, s'.get (.commitmentHistory employee j) =
        if employee = other ∧ j = index then some ⟨old.commitment, old.version, e.timestamp⟩
        else s.get (.commitmentHistory employee j))

theorem exec_archiveEffect (h : exec e s call = .ok s') : ArchiveEffect e s s' call := by
  have heffect := exec_effect h
  cases heffect with
  | none hbinds hkept =>
    refine .kept (fun other c => (hbinds other c).2) fun employee j => ?_
    exact hkept _ (by simp [Apart])
  | store _ hkept _ => exact .kept (by simp) hkept
  | @update other record _ _ _ _ _ =>
    obtain ⟨old, index, ⟨-, -, hold, hfree, hle⟩, -, rfl⟩ := updateCommitment_ok.mp h
    refine .archived other record.commitment old index (.inl rfl) hold hfree hle ?_
    intro employee j
    simp [get_set_history]
  | @rotate other record _ _ _ _ =>
    obtain ⟨old, index, ⟨-, -, hold, hfree, hle⟩, rfl⟩ := rotateCommitment_ok.mp h
    refine .archived other record.commitment old index (.inr rfl) hold hfree hle ?_
    intro employee j
    simp [get_set_history]

theorem archivedBy_error (h : exec i.env s i.call = .error msg) :
    archivedBy employee ⟨s, i, s'⟩ = [] := by
  simp [archivedBy, h]

theorem archivedBy_kept
    (h : ∀ other c, i.call ≠ .updateCommitment other c ∧ i.call ≠ .rotateCommitment other c) :
    archivedBy employee ⟨s, i, s'⟩ = [] := by
  unfold archivedBy
  split
  · rename_i hcall
    exact absurd hcall (h _ _).1
  · rename_i hcall
    exact absurd hcall (h _ _).2
  · rfl

theorem archivedBy_archived (hok : exec i.env s i.call = .ok t)
    (hcall : i.call = .updateCommitment other c ∨ i.call = .rotateCommitment other c)
    (hold : s.get (.commitment other) = some old) :
    archivedBy employee ⟨s, i, s'⟩ =
      if other = employee then [⟨old.commitment, old.version, i.env.timestamp⟩] else [] := by
  unfold archivedBy
  simp only [hok]
  rcases hcall with hcall | hcall
  · simp only [hcall]
    split
    · rename_i hsame
      subst hsame
      simp [hold]
    · rfl
  · simp only [hcall]
    split
    · rename_i hsame
      subst hsame
      simp [hold]
    · rfl

theorem archivedSnapshots_snoc (employee : Address) :
    archivedSnapshots employee (hist ++ [st]) =
      archivedSnapshots employee hist ++ archivedBy employee st := by
  simp [archivedSnapshots]

theorem archivedSnapshots_append (employee : Address) (inputs later : List Input) :
    archivedSnapshots employee (steps next Store.empty inputs) <+:
      archivedSnapshots employee (steps next Store.empty (inputs ++ later)) := by
  rw [steps_append, archivedSnapshots, archivedSnapshots, List.flatMap_append]
  exact List.prefix_append _ _

theorem ArchiveHolds.kept (h : ArchiveHolds hist s)
    (hst : ∀ employee, archivedBy employee st = []) (hkept : HistoryKept s s') :
    ArchiveHolds (hist ++ [st]) s' := by
  intro employee
  rw [archivedSnapshots_snoc, hst, List.append_nil]
  exact ⟨(h employee).1, fun j => (hkept employee j).trans ((h employee).2 j)⟩

theorem ArchiveHolds.next (h : ArchiveHolds hist s) (i : Input) :
    ArchiveHolds (hist ++ [⟨s, i, next s i⟩]) (next s i) := by
  rcases next_cases s i with ⟨msg, herr, hsame⟩ | hok
  · rw [hsame]
    exact h.kept (fun _ => archivedBy_error herr) fun _ _ => rfl
  · cases exec_archiveEffect hok with
    | kept hcall hkept => exact h.kept (fun _ => archivedBy_kept hcall) hkept
    | archived other c old index hcall hold hfree hle hafter =>
      -- the free slot is the one after the snapshots archived so far
      obtain rfl := hfree.eq_length (h other).2
      intro employee
      rw [archivedSnapshots_snoc, archivedBy_archived hok hcall hold]
      by_cases hsame : other = employee
      · subst hsame
        rw [if_pos rfl]
        refine ⟨by simp; omega, fun j => ?_⟩
        rw [hafter, getElem?_snoc, (h other).2]
        simp
      · rw [if_neg hsame, List.append_nil]
        refine ⟨(h employee).1, fun j => ?_⟩
        rw [hafter, if_neg fun hslot => hsame hslot.1.symm]
        exact (h employee).2 j

theorem archive_holds (inputs : List Input) :
    ArchiveHolds (steps next Store.empty inputs) (runFrom next Store.empty inputs) := by
  refine history_invariant (I := ArchiveHolds) ?_ (fun _ _ i h => h.next i) inputs
  exact fun employee => ⟨Nat.zero_le _, fun j => by simp [archivedSnapshots]⟩

-- ---------------------------------------------------------------------------
-- The two scans
-- ---------------------------------------------------------------------------

theorem has_history {history : List CommitmentSnapshot}
    (h : ∀ j, s.get (.commitmentHistory employee j) = history[j]?) (j : Nat) :
    s.has (.commitmentHistory employee j) = true ↔ j < history.length := by
  rw [Store.has, h]
  simp

theorem freeHistorySlot_full
    (h : ∀ j, j < start + fuel → s.has (.commitmentHistory employee j) = true) :
    freeHistorySlot s employee fuel start = .error "attempt to add with overflow" := by
  induction fuel generalizing start with
  | zero => rfl
  | succ fuel ih =>
    rw [freeHistorySlot, if_pos (h start (by omega))]
    exact ih fun j hj => h j (by omega)

theorem historyFrom_full
    (h : ∀ j, j < start + fuel → s.has (.commitmentHistory employee j) = true) :
    historyFrom s employee fuel start = .error "attempt to add with overflow" := by
  induction fuel generalizing start with
  | zero => rfl
  | succ fuel ih =>
    obtain ⟨snapshot, hsnapshot⟩ := Store.has_eq_true.mp (h start (by omega))
    rw [historyFrom, hsnapshot, ih fun j hj => h j (by omega)]
    rfl

theorem getCommitmentHistory_full {history : List CommitmentSnapshot}
    (h : ∀ j, s.get (.commitmentHistory employee j) = history[j]?)
    (hfull : history.length = u32Max + 1) :
    getCommitmentHistory s employee = .error "attempt to add with overflow" := by
  refine historyFrom_full fun j hj => (has_history h j).mpr ?_
  omega

theorem archiveCommitment_full {history : List CommitmentSnapshot}
    (h : ∀ j, s.get (.commitmentHistory employee j) = history[j]?)
    (hfull : history.length = u32Max + 1) (e : Env) (commitment : BytesN 32) (version : Nat) :
    archiveCommitment e employee commitment version s = .error "attempt to add with overflow" := by
  have hscan :
      freeHistorySlot s employee (u32Max + 1) 0 = .error "attempt to add with overflow" := by
    refine freeHistorySlot_full fun j hj => (has_history h j).mpr ?_
    omega
  rw [archiveCommitment, hscan]
  rfl

theorem archiveCommitment_next {history : List CommitmentSnapshot}
    (h : ∀ j, s.get (.commitmentHistory employee j) = history[j]?)
    (hroom : history.length ≤ u32Max) (e : Env) (commitment : BytesN 32) (version : Nat) :
    archiveCommitment e employee commitment version s =
      .ok (s.set (.commitmentHistory employee history.length)
        ⟨commitment, version, e.timestamp⟩) := by
  refine archiveCommitment_ok.mpr ⟨history.length, ⟨?_, fun j hj => ?_⟩, hroom, rfl⟩
  · rw [h, List.getElem?_eq_none_iff]
  · rw [h, ne_eq, List.getElem?_eq_none_iff]
    omega

/-- In every run the taken slots of an employee are the first ones, with the
archived snapshots in order; a snapshot stays as it is whatever calls follow.
While a slot is free, the read returns all snapshots and the next one is added
after them; when all are taken, both abort. -/
theorem archive_intact (inputs : List Input) (employee : Address) :
    ArchiveIntact (steps next Store.empty inputs) (runFrom next Store.empty inputs) employee := by
  obtain ⟨hbounded, hslots⟩ := archive_holds inputs employee
  refine ⟨hbounded, has_history hslots, hslots, fun hroom => ?_, archiveCommitment_next hslots,
    fun hfull => ?_, fun later j snapshot hsnapshot => ?_⟩
  · exact (getCommitmentHistory_ok hslots).mpr ⟨by omega, rfl⟩
  · exact ⟨getCommitmentHistory_full hslots hfull, archiveCommitment_full hslots hfull⟩
  · obtain ⟨rest, hrest⟩ := archivedSnapshots_append employee inputs later
    rw [hslots] at hsnapshot
    rw [← runFrom_append, (archive_holds (inputs ++ later) employee).2, ← hrest,
      List.getElem?_append_left (List.getElem?_eq_some_iff.mp hsnapshot).1, hsnapshot]

end

-- ---------------------------------------------------------------------------
-- A full archive
-- ---------------------------------------------------------------------------

namespace Sample

/-- A different digest for every number below `2^256`. -/
def numbered (n : Nat) : BytesN 32 := ⟨valueBytes 32 n, length_valueBytes 32 n⟩

def rotations (n : Nat) : List Input :=
  [⟨env, .initCommitmentAdmin hr⟩, ⟨env, .storeCommitment alice (numbered 0)⟩] ++
    (List.range n).map fun k => ⟨env, .rotateCommitment alice (numbered (k + 1))⟩

structure Rotated (n : Nat) (s : Storage) : Prop where
  admin : s.get .admin = some hr
  pauseManager : s.get .pauseManager = none
  unlocked : s.get (.commitmentLock alice) = none
  active : ∃ record, s.get (.commitment alice) = some record
  slots : ∀ j, s.get (.commitmentHistory alice j) = none ↔ n ≤ j
  fresh : ∀ k, n < k → k < 256 ^ 32 → s.get (.commitmentIndex (numbered k)) = none

theorem toList_numbered (n : Nat) : (numbered n).toList = valueBytes 32 n := by
  rw [numbered, List.Vector.toList_mk]

theorem numbered_inj (hk : k < 256 ^ 32) (hm : m < 256 ^ 32) (h : numbered k = numbered m) :
    k = m := by
  have hbytes := congrArg List.Vector.toList h
  rw [toList_numbered, toList_numbered] at hbytes
  exact valueBytes_inj hk hm hbytes

theorem Rotated.canStore {s : Storage} (h : Rotated n s) (hk : n < k) (hlt : k < 256 ^ 32) :
    CanStore env (numbered k) s := by
  refine ⟨?_, ⟨hr, h.admin, by simp [env]⟩, h.fresh k hk hlt⟩
  rintro ⟨pm, hpm, -⟩
  rw [h.pauseManager] at hpm
  cases hpm

theorem rotated_zero : Rotated 0 (runFrom next Store.empty (rotations 0)) := by
  have hadmin : next Store.empty ⟨env, .initCommitmentAdmin hr⟩ = Store.empty.set .admin hr := rfl
  have hstore : next (Store.empty.set .admin hr) ⟨env, .storeCommitment alice (numbered 0)⟩ =
      ((Store.empty.set .admin hr).set (.commitmentIndex (numbered 0)) true).set
        (.commitment alice) ⟨numbered 0, 100, 100, 1, false⟩ := by
    refine next_ok (storeCommitment_ok.mpr ⟨⟨?_, ⟨hr, by simp, by simp [env]⟩, by simp⟩, rfl⟩)
    rintro ⟨pm, hpm, -⟩
    simp at hpm
  have hrun : runFrom next Store.empty (rotations 0) =
      ((Store.empty.set .admin hr).set (.commitmentIndex (numbered 0)) true).set
        (.commitment alice) ⟨numbered 0, 100, 100, 1, false⟩ := by
    rw [← hstore, ← hadmin]
    rfl
  rw [hrun]
  refine ⟨by simp, by simp, by simp, ⟨_, Store.get_set_self _ _ _⟩, by simp, fun k hk hlt => ?_⟩
  have hne : numbered k ≠ numbered 0 := by
    intro h
    have := numbered_inj hlt (by decide) h
    omega
  simp [hne]

theorem rotated_succ {s : Storage} (h : Rotated n s) (hn : n ≤ u32Max) :
    Rotated (n + 1) (next s ⟨env, .rotateCommitment alice (numbered (n + 1))⟩) := by
  obtain ⟨old, hold⟩ := h.active
  have hlt : n + 1 < 256 ^ 32 := by
    have : u32Max + 1 < 256 ^ 32 := by decide
    omega
  have hcan : CanReplace env alice (numbered (n + 1)) old n s := by
    refine ⟨h.canStore (Nat.lt_succ_self n) hlt, h.unlocked, hold,
      ⟨(h.slots n).mpr (le_refl n), ?_⟩, hn⟩
    intro j hj hnone
    have := (h.slots j).mp hnone
    omega
  have hok : exec env s (.rotateCommitment alice (numbered (n + 1))) = .ok _ :=
    rotateCommitment_ok.mpr ⟨old, n, hcan, rfl⟩
  have hnext : next s ⟨env, .rotateCommitment alice (numbered (n + 1))⟩ = _ := next_ok hok
  rw [hnext]
  refine ⟨by simp [h.admin], by simp [h.pauseManager], by simp [h.unlocked],
    ⟨_, Store.get_set_self _ _ _⟩, fun j => ?_, fun k hk hk' => ?_⟩
  · simp only [get_set_history, ne_eq, reduceCtorEq, not_false_eq_true, Store.get_set_ne, true_and]
    split
    · simp
      omega
    · rw [h.slots j]
      omega
  · have hne : numbered k ≠ numbered (n + 1) := by
      intro hsame
      have := numbered_inj hk' hlt hsame
      omega
    simp [hne, h.fresh k (by omega) hk']

theorem rotated_run (hn : n ≤ u32Max + 1) :
    Rotated n (runFrom next Store.empty (rotations n)) := by
  induction n with
  | zero => exact rotated_zero
  | succ n ih =>
    have hrun : rotations (n + 1) =
        rotations n ++ [⟨env, .rotateCommitment alice (numbered (n + 1))⟩] := by
      simp [rotations, List.range_succ]
    rw [hrun, runFrom_snoc]
    exact rotated_succ (ih (by omega)) (by omega)

end Sample

/-- After `2^32` rotations every slot is taken; the history can no longer be
read, and the commitment can no longer be replaced. -/
theorem archive_full :
    let s := runFrom next Store.empty (Sample.rotations (2 ^ 32))
    Reached s ∧ (∀ j, s.has (.commitmentHistory Sample.alice j) = true ↔ j < 2 ^ 32) ∧
      getCommitmentHistory s Sample.alice = .error "attempt to add with overflow" ∧
      ¬ ArchiveUsable s Sample.alice := by
  intro s
  have hrotated : Sample.Rotated (2 ^ 32) s := Sample.rotated_run (le_refl (u32Max + 1))
  have hslots : ∀ j, s.has (.commitmentHistory Sample.alice j) = true ↔ j < 2 ^ 32 := by
    intro j
    rw [← Bool.not_eq_false, Store.has_eq_false, hrotated.slots j, Nat.not_le]
  have hread : getCommitmentHistory s Sample.alice = .error "attempt to add with overflow" := by
    refine historyFrom_full fun j hj => (hslots j).mpr ?_
    rwa [Nat.zero_add] at hj
  refine ⟨⟨_, rfl⟩, hslots, hread, ?_⟩
  rintro ⟨history, -, hok, -⟩
  rw [hread] at hok
  cases hok

end ZkPayroll.SalaryCommitmentContract
