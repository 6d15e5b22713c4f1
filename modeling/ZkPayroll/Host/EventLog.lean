import ZkPayroll.Host.Runs
import ZkPayroll.Host.Store

/-!
# Event logs

A machine publishes events as it takes its inputs, and the log of a run has
them in the order of the steps. Whoever reads the log folds it into a state of
its own. The reader is right about a run when it is right about one step
(`replay_log`).

A mirror is what a reader knows of a typed store: of every entry the part that
the events tell. A part that is never told has an empty type.
-/

namespace ZkPayroll.Host

section
variable {σ ι ε β : Type} (next : σ → ι → σ) (published : σ → ι → List ε)

/-- The events of a run. -/
def log (start : σ) (inputs : List ι) : List ε :=
  (steps next start inputs).flatMap fun st => published st.pre st.input

variable {next published} {start : σ} {inputs : List ι}

@[simp] theorem log_nil : log next published start [] = [] := rfl

theorem log_snoc (i : ι) : log next published start (inputs ++ [i]) =
    log next published start inputs ++ published (runFrom next start inputs) i := by
  simp [log, steps_snoc]

/-- A reader that follows every step follows every run. -/
theorem replay_log {read : β → ε → β} {view : σ → β}
    (hnext : ∀ s i, Reachable next start s →
      (published s i).foldl read (view s) = view (next s i)) (inputs : List ι) :
    (log next published start inputs).foldl read (view start) =
      view (runFrom next start inputs) := by
  induction inputs using List.reverseRecOn with
  | nil => rfl
  | append_singleton inputs i ih =>
    rw [log_snoc, List.foldl_append, ih, runFrom_snoc]
    exact hnext _ i reachable_runFrom

/-- The log read as a word: when every step's entries take an automaton from
what it should know before to what it should know after, every run's log is
accepted. -/
theorem accept_log {entry : ε → Option α} {advance : β → α → Option β} (phase : σ → β)
    (hnext : ∀ s i, Reachable next start s →
      ((published s i).filterMap entry).foldlM advance (phase s) = some (phase (next s i)))
    (inputs : List ι) :
    ((log next published start inputs).filterMap entry).foldlM advance (phase start) =
      some (phase (runFrom next start inputs)) := by
  induction inputs using List.reverseRecOn with
  | nil => rfl
  | append_singleton inputs i ih =>
    rw [log_snoc, List.filterMap_append, List.foldlM_append, ih, runFrom_snoc]
    exact hnext _ i reachable_runFrom

end

-- ---------------------------------------------------------------------------
-- Mirrors
-- ---------------------------------------------------------------------------

section
variable {K : Type} {V W : K → Type}

abbrev Mirror (W : K → Type) := (k : K) → Option (W k)

def Mirror.blank : Mirror W := fun _ => none

variable [DecidableEq K]

def Mirror.put (m : Mirror W) (k : K) (w : W k) : Mirror W := Function.update m k (some w)

def Mirror.drop (m : Mirror W) (k : K) : Mirror W := Function.update m k none

def Store.mirror (told : (k : K) → V k → Option (W k)) (s : Store V) : Mirror W :=
  fun k => (s.get k).bind (told k)

@[simp] theorem Mirror.put_self (m : Mirror W) (k : K) (w : W k) : m.put k w k = some w :=
  Function.update_self ..

@[simp] theorem Mirror.put_ne (m : Mirror W) (w : W k) (h : j ≠ k) : m.put k w j = m j :=
  Function.update_of_ne h _ _

@[simp] theorem Mirror.drop_self (m : Mirror W) (k : K) : m.drop k k = none :=
  Function.update_self ..

@[simp] theorem Mirror.drop_ne (m : Mirror W) (h : j ≠ k) : m.drop k j = m j :=
  Function.update_of_ne h _ _

theorem Mirror.put_comm (m : Mirror W) {j k : K} (h : j ≠ k) (v : W j) (w : W k) :
    (m.put j v).put k w = (m.put k w).put j v := Function.update_comm h _ _ _

theorem Mirror.put_drop (m : Mirror W) {j k : K} (h : j ≠ k) (v : W j) :
    (m.put j v).drop k = (m.drop k).put j v := Function.update_comm h _ _ _

variable {told : (k : K) → V k → Option (W k)}

@[simp] theorem mirror_empty : (Store.empty : Store V).mirror told = Mirror.blank := by
  funext k
  simp [Store.mirror, Mirror.blank]

theorem mirror_set (s : Store V) (k : K) (v : V k) :
    (s.set k v).mirror told = Function.update (s.mirror told) k (told k v) := by
  funext j
  by_cases hj : j = k
  · subst hj
    simp [Store.mirror]
  · simp [Store.mirror, hj]

theorem mirror_put {s : Store V} {v : V k} {w : W k} (h : told k v = some w) :
    (s.set k v).mirror told = (s.mirror told).put k w := by
  rw [mirror_set, h, Mirror.put]

theorem mirror_drop (s : Store V) (k : K) : (s.remove k).mirror told = (s.mirror told).drop k := by
  funext j
  by_cases hj : j = k
  · subst hj
    simp [Store.mirror]
  · simp [Store.mirror, hj]

theorem mirror_hidden [IsEmpty (W k)] (s : Store V) (v : V k) :
    (s.set k v).mirror told = s.mirror told := by
  have hnone : told k v = s.mirror told k := Subsingleton.elim _ _
  rw [mirror_set, hnone, Function.update_eq_self]

theorem mirror_drop_hidden [IsEmpty (W k)] (s : Store V) :
    (s.remove k).mirror told = s.mirror told := by
  have hnone : none = s.mirror told k := Subsingleton.elim _ _
  rw [mirror_drop, Mirror.drop, hnone, Function.update_eq_self]

theorem mirror_some {s : Store V} (h : s.get k = some v) : s.mirror told k = told k v := by
  simp [Store.mirror, h]

theorem mirror_map {f : V k → W k} (h : ∀ v, told k v = some (f v)) (s : Store V) :
    s.mirror told k = (s.get k).map f := by
  cases hget : s.get k <;> simp [Store.mirror, hget, h]

end

end ZkPayroll.Host
