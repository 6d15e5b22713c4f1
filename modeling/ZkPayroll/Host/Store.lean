import Mathlib.Data.Finmap
import Mathlib.Algebra.Order.BigOperators.Group.Finset

/-!
# Typed persistent stores

A contract's persistent storage maps finitely many keys to values, and the
key fixes the type of the value. `get`, `has`, `set` and `remove` are the
host's four operations; `total` adds up a weight over all stored entries,
which is how counters kept beside the entries are compared with them.

Archival and time-to-live are not modelled: an entry stays until it is
removed.
-/

namespace ZkPayroll.Host

structure Store {K : Type} (V : K → Type) where
  entries : Finmap V

namespace Store

variable {K : Type} {V : K → Type}

def empty : Store V := ⟨∅⟩

variable [DecidableEq K]

def get (s : Store V) (k : K) : Option (V k) := s.entries.lookup k

def has (s : Store V) (k : K) : Bool := (s.get k).isSome

def set (s : Store V) (k : K) (v : V k) : Store V := ⟨s.entries.insert k v⟩

def remove (s : Store V) (k : K) : Store V := ⟨s.entries.erase k⟩

-- ---------------------------------------------------------------------------
-- Reading back
-- ---------------------------------------------------------------------------

@[simp] theorem get_empty (k : K) : (empty : Store V).get k = none := Finmap.lookup_empty k

@[simp] theorem get_set_self (s : Store V) (k : K) (v : V k) : (s.set k v).get k = some v :=
  Finmap.lookup_insert _

@[simp] theorem get_set_ne (s : Store V) (v : V k) (h : j ≠ k) : (s.set k v).get j = s.get j :=
  Finmap.lookup_insert_of_ne _ h

theorem get_inj {s : Store V} {v v' : V k} (h : s.get k = some v) (h' : s.get k = some v') :
    v = v' := Option.some.inj (h.symm.trans h')

theorem get_set_stored {s : Store V} {v : V k} (h : s.get k = some v) (j : K) :
    (s.set k v).get j = s.get j := by
  by_cases hj : j = k
  · subst hj
    rw [get_set_self, h]
  · exact get_set_ne s v hj

@[simp] theorem get_remove_self (s : Store V) (k : K) : (s.remove k).get k = none :=
  Finmap.lookup_erase _ _

@[simp] theorem get_remove_ne (s : Store V) (h : j ≠ k) : (s.remove k).get j = s.get j :=
  Finmap.lookup_erase_ne h

theorem ext_get {s t : Store V} (h : ∀ k, s.get k = t.get k) : s = t := by
  obtain ⟨entries⟩ := s
  obtain ⟨entries'⟩ := t
  congr
  exact Finmap.ext_lookup h

@[simp] theorem has_eq_true {s : Store V} : s.has k = true ↔ ∃ v, s.get k = some v :=
  Option.isSome_iff_exists

@[simp] theorem has_eq_false {s : Store V} : s.has k = false ↔ s.get k = none := by
  simp [has]

-- ---------------------------------------------------------------------------
-- Frames
-- ---------------------------------------------------------------------------

/-- The two stores agree on every key outside `W`. -/
def Frame (W : K → Prop) (s s' : Store V) : Prop := ∀ k, ¬ W k → s'.get k = s.get k

theorem Frame.refl (W : K → Prop) (s : Store V) : Frame W s s := fun _ _ => rfl

theorem Frame.trans {W : K → Prop} {s t u : Store V} (h : Frame W s t) (h' : Frame W t u) :
    Frame W s u := fun k hk => (h' k hk).trans (h k hk)

theorem Frame.mono {W W' : K → Prop} {s s' : Store V} (h : Frame W s s') (hw : ∀ k, W k → W' k) :
    Frame W' s s' := fun k hk => h k fun hW => hk (hw k hW)

@[simp] theorem frame_set {W : K → Prop} {s s' : Store V} {v : V k} (hk : W k) :
    Frame W s (s'.set k v) ↔ Frame W s s' := by
  have hget : ∀ j, ¬ W j → (s'.set k v).get j = s'.get j := by
    intro j hj
    refine get_set_ne s' v ?_
    rintro rfl
    exact hj hk
  exact forall₂_congr fun j hj => by rw [hget j hj]

@[simp] theorem frame_remove {W : K → Prop} {s s' : Store V} (hk : W k) :
    Frame W s (s'.remove k) ↔ Frame W s s' := by
  have hget : ∀ j, ¬ W j → (s'.remove k).get j = s'.get j := by
    intro j hj
    refine get_remove_ne s' ?_
    rintro rfl
    exact hj hk
  exact forall₂_congr fun j hj => by rw [hget j hj]

theorem Frame.set {W : K → Prop} {s s' : Store V} (h : Frame W s s') (hk : W k) (v : V k) :
    Frame W s (s'.set k v) := (frame_set hk).mpr h

theorem Frame.remove {W : K → Prop} {s s' : Store V} (h : Frame W s s') (hk : W k) :
    Frame W s (s'.remove k) := (frame_remove hk).mpr h

-- ---------------------------------------------------------------------------
-- Totals
-- ---------------------------------------------------------------------------

section
variable {M : Type} [AddCommMonoid M]

def weightAt (w : (k : K) → V k → M) (s : Store V) (k : K) : M := (s.get k).elim 0 (w k)

/-- The sum of the weight `w` over all stored entries. -/
def total (w : (k : K) → V k → M) (s : Store V) : M := ∑ k ∈ s.entries.keys, weightAt w s k

variable {w : (k : K) → V k → M}

theorem weightAt_some {s : Store V} (h : s.get k = some v) : weightAt w s k = w k v := by
  simp [weightAt, h]

theorem weightAt_none {s : Store V} (h : s.get k = none) : weightAt w s k = 0 := by
  simp [weightAt, h]

theorem weightAt_of_notMem {s : Store V} (h : k ∉ s.entries.keys) : weightAt w s k = 0 := by
  refine weightAt_none (Finmap.lookup_eq_none.mpr ?_)
  simpa [Finmap.mem_keys] using h

theorem total_eq_sum {s : Store V} {T : Finset K} (h : s.entries.keys ⊆ T) :
    total w s = ∑ k ∈ T, weightAt w s k :=
  Finset.sum_subset h fun _ _ hk => weightAt_of_notMem hk

@[simp] theorem total_empty : total w (empty : Store V) = 0 := rfl

theorem total_congr {s s' : Store V} (h : ∀ k, weightAt w s' k = weightAt w s k) :
    total w s' = total w s := by
  have hs' : s'.entries.keys ⊆ s'.entries.keys ∪ s.entries.keys := Finset.subset_union_left
  have hs : s.entries.keys ⊆ s'.entries.keys ∪ s.entries.keys := Finset.subset_union_right
  rw [total_eq_sum hs', total_eq_sum hs]
  exact Finset.sum_congr rfl fun k _ => h k

/-- Two stores that differ in one key only have totals that differ by that
key's weights. -/
theorem total_change {s s' : Store V} (k : K) (h : ∀ j, j ≠ k → s'.get j = s.get j) :
    total w s' + weightAt w s k = total w s + weightAt w s' k := by
  set T := insert k (s'.entries.keys ∪ s.entries.keys) with hT
  have hs' : s'.entries.keys ⊆ T := fun j hj => by simp [hT, hj]
  have hs : s.entries.keys ⊆ T := fun j hj => by simp [hT, hj]
  have hk : k ∈ T := by simp [hT]
  have hrest : ∑ j ∈ T.erase k, weightAt w s' j = ∑ j ∈ T.erase k, weightAt w s j := by
    refine Finset.sum_congr rfl fun j hj => ?_
    simp [weightAt, h j (Finset.ne_of_mem_erase hj)]
  rw [total_eq_sum hs', total_eq_sum hs, ← Finset.add_sum_erase _ _ hk,
    ← Finset.add_sum_erase T (weightAt w s) hk, hrest, add_comm, add_comm (weightAt w s' k),
    ← add_assoc]

theorem total_set (s : Store V) (k : K) (v : V k) :
    total w (s.set k v) + weightAt w s k = total w s + w k v := by
  rw [total_change k fun j hj => get_set_ne s v hj, weightAt_some (get_set_self s k v)]

theorem total_remove (s : Store V) (k : K) :
    total w (s.remove k) + weightAt w s k = total w s := by
  rw [total_change k fun j hj => get_remove_ne s hj, weightAt_none (get_remove_self s k), add_zero]

theorem total_frame {W : K → Prop} {s s' : Store V} (h : Frame W s s')
    (hw : ∀ k, W k → ∀ v, w k v = 0) : total w s' = total w s := by
  refine total_congr fun k => ?_
  by_cases hk : W k
  · have hzero : ∀ t : Store V, weightAt w t k = 0 := by
      intro t
      unfold weightAt
      cases t.get k <;> simp [hw k hk]
    rw [hzero, hzero]
  · simp [weightAt, h k hk]

@[simp] theorem total_set_zero (s : Store V) (v : V k) (h : ∀ v, w k v = 0) :
    total w (s.set k v) = total w s := by
  refine total_frame (W := fun j => j = k) ?_ ?_
  · exact (frame_set (W := fun j => j = k) rfl).mpr (Frame.refl _ s)
  · rintro j rfl
    exact h

@[simp] theorem total_remove_zero (s : Store V) (h : ∀ v, w k v = 0) :
    total w (s.remove k) = total w s := by
  refine total_frame (W := fun j => j = k) ?_ ?_
  · exact (frame_remove (W := fun j => j = k) rfl).mpr (Frame.refl _ s)
  · rintro j rfl
    exact h

theorem total_set_new {s : Store V} {v : V k} (h : s.get k = none) :
    total w (s.set k v) = total w s + w k v := by
  simpa [weightAt_none h] using total_set (w := w) s k v

theorem total_set_eq (s : Store V) (k : K) (v : V k) :
    total w (s.set k v) = total w (s.remove k) + w k v := by
  rw [← total_set_new (v := v) (get_remove_self s k)]
  refine total_congr fun j => ?_
  by_cases hj : j = k
  · subst hj
    simp [weightAt]
  · simp [weightAt, hj]

theorem total_set_same {s : Store V} {v v' : V k} (h : s.get k = some v) (hw : w k v' = w k v)
    [IsCancelAdd M] : total w (s.set k v') = total w s := by
  have := total_set (w := w) s k v'
  rw [weightAt_some h, hw] at this
  exact add_right_cancel this

theorem total_remove_stored {s : Store V} {v : V k} (h : s.get k = some v) :
    total w (s.remove k) + w k v = total w s := by
  simpa [weightAt_some h] using total_remove (w := w) s k

end

section
variable {M : Type} [AddCommMonoid M] [PartialOrder M]
variable {w : (k : K) → V k → M}

theorem weightAt_nonneg {s : Store V} (h : ∀ k v, s.get k = some v → 0 ≤ w k v) (k : K) :
    0 ≤ weightAt w s k := by
  cases hk : s.get k with
  | none => rw [weightAt_none hk]
  | some v => rw [weightAt_some hk]; exact h k v hk

variable [IsOrderedAddMonoid M]

theorem total_nonneg {s : Store V} (h : ∀ k v, s.get k = some v → 0 ≤ w k v) :
    0 ≤ total w s :=
  Finset.sum_nonneg fun k _ => weightAt_nonneg h k

theorem le_total {s : Store V} (h : ∀ k v, s.get k = some v → 0 ≤ w k v)
    (hk : s.get k = some v) : w k v ≤ total w s := by
  have hmem : k ∈ s.entries.keys :=
    Finmap.mem_keys.mpr (Finmap.mem_of_lookup_eq_some hk)
  rw [← weightAt_some (w := w) hk]
  exact Finset.single_le_sum (fun j _ => weightAt_nonneg h j) hmem

end

end Store

end ZkPayroll.Host
