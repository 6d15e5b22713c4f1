import Mathlib.Data.List.Induction

/-!
# Runs of a deterministic machine

A machine takes one input at a time; everything that varies between two
executions is part of the input. A run is a list of inputs, `steps` lists what
each of them did, and a state is reachable when some run ends in it.

An invariant is proved one step at a time (`run_invariant`), and where only
some steps keep it, for the runs made of those (`steps_invariant`). What a
state holds is traced back to the input that put it there (`last_writer`).
-/

namespace ZkPayroll.Host

/-- One input taken by the machine, with the states around it. -/
structure Step (σ ι : Type) where
  pre : σ
  input : ι
  post : σ

section
variable {σ ι : Type} (next : σ → ι → σ)

def runFrom (s : σ) (inputs : List ι) : σ := inputs.foldl next s

def steps : σ → List ι → List (Step σ ι)
  | _, [] => []
  | s, i :: inputs => ⟨s, i, next s i⟩ :: steps (next s i) inputs

def Reachable (start s : σ) : Prop := ∃ inputs, runFrom next start inputs = s

variable {next} {start s : σ} {inputs : List ι}

theorem runFrom_snoc (i : ι) : runFrom next s (inputs ++ [i]) = next (runFrom next s inputs) i := by
  simp [runFrom]

theorem runFrom_append (first second : List ι) :
    runFrom next s (first ++ second) = runFrom next (runFrom next s first) second := by
  simp [runFrom]

theorem steps_append (first second : List ι) :
    steps next s (first ++ second) =
      steps next s first ++ steps next (runFrom next s first) second := by
  induction first generalizing s with
  | nil => rfl
  | cons i first ih => simp [steps, ih, runFrom]

theorem steps_snoc (i : ι) :
    steps next s (inputs ++ [i]) =
      steps next s inputs ++ [⟨runFrom next s inputs, i, next (runFrom next s inputs) i⟩] := by
  simp [steps_append, steps]

theorem getElem?_snoc (l : List α) (a : α) (j : Nat) :
    (l ++ [a])[j]? = if j = l.length then some a else l[j]? := by
  split
  · rename_i hj
    simp [hj]
  · rename_i hj
    rcases Nat.lt_or_gt_of_ne hj with hlt | hgt
    · exact List.getElem?_append_left hlt
    · rw [List.getElem?_eq_none (by simp; omega), List.getElem?_eq_none (by omega)]

theorem countP_snoc (p : Step σ ι → Bool) (hist : List (Step σ ι)) (st : Step σ ι) :
    (hist ++ [st]).countP p = hist.countP p + (p st).toNat := by
  rw [List.countP_append, List.countP_singleton]
  cases p st <;> rfl

theorem length_steps : (steps next s inputs).length = inputs.length := by
  induction inputs generalizing s with
  | nil => rfl
  | cons i inputs ih => simp [steps, ih]

theorem mem_steps_append {st : Step σ ι} (h : st ∈ steps next s inputs) (later : List ι) :
    st ∈ steps next s (inputs ++ later) := by
  rw [steps_append]
  exact List.mem_append_left _ h

theorem last_mem_steps (i : ι) :
    ⟨runFrom next s inputs, i, next (runFrom next s inputs) i⟩ ∈ steps next s (inputs ++ [i]) := by
  rw [steps_snoc]
  exact List.mem_append_right _ List.mem_cons_self

theorem reachable_start : Reachable next start start := ⟨[], rfl⟩

theorem reachable_next (h : Reachable next start s) (i : ι) : Reachable next start (next s i) := by
  obtain ⟨inputs, rfl⟩ := h
  exact ⟨inputs ++ [i], runFrom_snoc i⟩

theorem reachable_runFrom : Reachable next start (runFrom next start inputs) := ⟨inputs, rfl⟩

theorem mem_steps {st : Step σ ι} (h : st ∈ steps next s inputs) :
    ∃ before after, inputs = before ++ st.input :: after ∧ st.pre = runFrom next s before ∧
      st.post = next st.pre st.input := by
  induction inputs generalizing s with
  | nil => simp [steps] at h
  | cons i inputs ih =>
    rcases List.mem_cons.mp h with rfl | h
    · exact ⟨[], inputs, rfl, rfl, rfl⟩
    · obtain ⟨before, after, rfl, hpre, hpost⟩ := ih h
      exact ⟨i :: before, after, rfl, hpre, hpost⟩

theorem mem_steps_last {st : Step σ ι} (h : st ∈ steps next s inputs) :
    ∃ before after, inputs = before ++ [st.input] ++ after ∧ st.pre = runFrom next s before ∧
      st.post = runFrom next s (before ++ [st.input]) := by
  obtain ⟨before, after, hinputs, hpre, hpost⟩ := mem_steps h
  refine ⟨before, after, by simp [hinputs], hpre, ?_⟩
  rw [hpost, hpre, runFrom_snoc]

theorem steps_at {st : Step σ ι} (h : (steps next s inputs)[n]? = some st) :
    ∃ before after, inputs = before ++ st.input :: after ∧ before.length = n ∧
      st.pre = runFrom next s before := by
  induction inputs generalizing s n with
  | nil => simp [steps] at h
  | cons i inputs ih =>
    cases n with
    | zero =>
      obtain rfl := Option.some.inj h
      exact ⟨[], inputs, rfl, rfl, rfl⟩
    | succ n =>
      obtain ⟨before, after, rfl, rfl, hpre⟩ := ih (by simpa [steps] using h)
      exact ⟨i :: before, after, rfl, rfl, hpre⟩

theorem steps_at_succ {st : Step σ ι} (h : (steps next s inputs)[n + 1]? = some st) :
    ∃ st', (steps next s inputs)[n]? = some st' ∧ st'.post = st.pre := by
  induction inputs generalizing s n with
  | nil => simp [steps] at h
  | cons i inputs ih =>
    cases n with
    | zero =>
      have hfirst : (steps next (next s i) inputs)[0]? = some st := by simpa [steps] using h
      obtain ⟨before, after, -, hlength, hpre⟩ := steps_at hfirst
      obtain rfl := List.eq_nil_of_length_eq_zero hlength
      exact ⟨_, rfl, hpre.symm⟩
    | succ n =>
      obtain ⟨st', hst', hpost⟩ := ih (by simpa [steps] using h)
      exact ⟨st', by simpa [steps] using hst', hpost⟩

theorem steps_post {st : Step σ ι} (h : st ∈ steps next s inputs) :
    st.post = next st.pre st.input := by
  obtain ⟨_, _, _, _, hpost⟩ := mem_steps h
  exact hpost

theorem steps_eq {st : Step σ ι} (h : st ∈ steps next s inputs) :
    st = ⟨st.pre, st.input, next st.pre st.input⟩ := by
  rw [← steps_post h]

theorem steps_reachable {st : Step σ ι} (h : st ∈ steps next s inputs) :
    Reachable next s st.pre := by
  obtain ⟨before, _, _, hpre, _⟩ := mem_steps h
  exact ⟨before, hpre.symm⟩

theorem steps_pre {st : Step σ ι} (h : st ∈ steps next s inputs) :
    st.pre = s ∨ ∃ st' ∈ steps next s inputs, st'.post = st.pre := by
  induction inputs generalizing s with
  | nil => simp [steps] at h
  | cons i inputs ih =>
    rcases List.mem_cons.mp h with rfl | h
    · exact .inl rfl
    · rcases ih h with hfirst | ⟨st', hst', hpost⟩
      · exact .inr ⟨⟨s, i, next s i⟩, List.mem_cons_self, hfirst.symm⟩
      · exact .inr ⟨st', List.mem_cons_of_mem _ hst', hpost⟩

/-- What holds at the start and is kept by every input holds of every
reachable state. -/
theorem run_invariant {I : σ → Prop} (hstart : I start) (hnext : ∀ s i, I s → I (next s i))
    (h : Reachable next start s) : I s := by
  obtain ⟨inputs, rfl⟩ := h
  induction inputs using List.reverseRecOn with
  | nil => exact hstart
  | append_singleton inputs i ih =>
    rw [runFrom_snoc]
    exact hnext _ _ ih

theorem history_invariant {I : List (Step σ ι) → σ → Prop} (hstart : I [] start)
    (hnext : ∀ hist s i, I hist s → I (hist ++ [⟨s, i, next s i⟩]) (next s i)) (inputs : List ι) :
    I (steps next start inputs) (runFrom next start inputs) := by
  induction inputs using List.reverseRecOn with
  | nil => exact hstart
  | append_singleton inputs i ih =>
    rw [runFrom_snoc, steps_snoc]
    exact hnext _ _ _ ih

/-- An invariant kept by the steps that meet a condition holds at the end of
every run made of such steps. -/
theorem steps_invariant {I : σ → Prop} {C : Step σ ι → Prop} (hstart : I start)
    (hnext : ∀ s i, I s → C ⟨s, i, next s i⟩ → I (next s i))
    (hall : ∀ st ∈ steps next start inputs, C st) : I (runFrom next start inputs) := by
  have hstep : ∀ hist s i, ((∀ st ∈ hist, C st) → I s) →
      (∀ st ∈ hist ++ [⟨s, i, next s i⟩], C st) → I (next s i) := by
    intro hist s i ih hC
    exact hnext s i (ih fun st hst => hC st (by simp [hst])) (hC _ (by simp))
  exact history_invariant (fun _ => hstart) hstep inputs hall

theorem steps_invariant_pre {I : σ → Prop} {C : Step σ ι → Prop} (hstart : I start)
    (hnext : ∀ s i, I s → C ⟨s, i, next s i⟩ → I (next s i))
    (hall : ∀ st ∈ steps next start inputs, C st) {st : Step σ ι}
    (hst : st ∈ steps next start inputs) : I st.pre := by
  obtain ⟨before, after, rfl, hpre, -⟩ := mem_steps hst
  rw [hpre]
  exact steps_invariant hstart hnext fun st' hst' => hall st' (mem_steps_append hst' _)

/-- Where a step keeps the invariant exactly when it meets the condition, so
does a run. -/
theorem steps_invariant_iff {I : σ → Prop} {C : Step σ ι → Prop} (hreach : Reachable next root start)
    (hstart : I start)
    (hnext : ∀ s i, Reachable next root s → I s → (I (next s i) ↔ C ⟨s, i, next s i⟩))
    (inputs : List ι) :
    (∀ st ∈ steps next start inputs, I st.post) ↔ ∀ st ∈ steps next start inputs, C st := by
  induction inputs generalizing start with
  | nil => simp [steps]
  | cons i inputs ih =>
    have hreach' := reachable_next hreach i
    have hiff := hnext start i hreach hstart
    simp only [steps, List.forall_mem_cons]
    constructor
    · rintro ⟨hfirst, hrest⟩
      exact ⟨hiff.mp hfirst, (ih hreach' hfirst).mp hrest⟩
    · rintro ⟨hfirst, hrest⟩
      have hpost := hiff.mpr hfirst
      exact ⟨hpost, (ih hreach' hpost).mpr hrest⟩

/-- What holds after a step, and is kept by the steps that meet a condition,
holds before a later one when all steps between the two meet it. -/
theorem kept_between {I : σ → Prop} {C : Step σ ι → Prop}
    (hnext : ∀ s i, I s → C ⟨s, i, next s i⟩ → I (next s i)) {st st' : Step σ ι}
    (hm : (steps next start inputs)[m]? = some st) (hI : I st.post) (hmn : m < n)
    (hn : (steps next start inputs)[n]? = some st')
    (hC : ∀ (k : Nat) (st'' : Step σ ι), m < k → k < n →
      (steps next start inputs)[k]? = some st'' → C st'') : I st'.pre := by
  induction n generalizing st' with
  | zero => exact absurd hmn (Nat.not_lt_zero m)
  | succ n ih =>
    obtain ⟨last, hlast, hpost⟩ := steps_at_succ hn
    rw [← hpost]
    rcases Nat.lt_or_eq_of_le (Nat.le_of_lt_succ hmn) with hmn | rfl
    · have hpre := ih hmn hlast fun k st'' hk hkn => hC k st'' hk (Nat.lt_succ_of_lt hkn)
      have hmeets := hC n last hmn (Nat.lt_succ_self n) hlast
      have hmem := List.mem_of_getElem? hlast
      rw [steps_post hmem]
      rw [steps_eq hmem] at hmeets
      exact hnext last.pre last.input hpre hmeets
    · obtain rfl := Option.some.inj (hm.symm.trans hlast)
      exact hI

/-- What each step does to a record that stands, a run does to it. -/
theorem record_later {R : α → α → Prop} (f : σ → Option α) (hrefl : ∀ a, R a a)
    (htrans : ∀ a b c, R a b → R b c → R a c)
    (hstep : ∀ s i a, Reachable next start s → f s = some a → ∃ b, f (next s i) = some b ∧ R a b)
    (hs : Reachable next start s) (h : f s = some a) (later : List ι) :
    ∃ b, f (runFrom next s later) = some b ∧ R a b := by
  induction later generalizing s a with
  | nil => exact ⟨a, h, hrefl a⟩
  | cons i later ih =>
    obtain ⟨b, hb, hab⟩ := hstep s i a hs h
    obtain ⟨c, hc, hbc⟩ := ih (reachable_next hs i) hb
    exact ⟨c, hc, htrans a b c hab hbc⟩

theorem last_writer (f : σ → α) (Writes : σ → ι → Prop) (hstart : f start ≠ v)
    (hkeep : ∀ s i, ¬ Writes s i → f (next s i) = f s) (hend : f (runFrom next start inputs) = v) :
    ∃ first i between, inputs = first ++ i :: between ∧ Writes (runFrom next start first) i ∧
      f (next (runFrom next start first) i) = v ∧
      ∀ st ∈ steps next (next (runFrom next start first) i) between, ¬ Writes st.pre st.input := by
  induction inputs using List.reverseRecOn with
  | nil => exact absurd hend hstart
  | append_singleton inputs i ih =>
    rw [runFrom_snoc] at hend
    by_cases hwrites : Writes (runFrom next start inputs) i
    · exact ⟨inputs, i, [], rfl, hwrites, hend, by simp [steps]⟩
    · rw [hkeep _ _ hwrites] at hend
      obtain ⟨first, j, between, rfl, hj, hvalue, hbetween⟩ := ih hend
      refine ⟨first, j, between ++ [i], by simp, hj, hvalue, ?_⟩
      intro st hst
      rw [steps_snoc] at hst
      rcases List.mem_append.mp hst with hst | hst
      · exact hbetween st hst
      · obtain rfl := List.mem_singleton.mp hst
        rwa [runFrom_append] at hwrites

/-- The same by position: what the `n`-th step finds was put there by an
earlier one, and no step between the two writes it. -/
theorem last_write (f : σ → α) (W : Step σ ι → Prop) (hstart : f start ≠ v)
    (hkeep : ∀ s i, ¬ W ⟨s, i, next s i⟩ → f (next s i) = f s) {st : Step σ ι}
    (hst : (steps next start inputs)[n]? = some st) (hv : f st.pre = v) :
    ∃ (m : Nat) (st' : Step σ ι), m < n ∧ (steps next start inputs)[m]? = some st' ∧ W st' ∧
      f st'.post = v ∧ ∀ (k : Nat) (st'' : Step σ ι), m < k → k < n →
        (steps next start inputs)[k]? = some st'' → ¬ W st'' := by
  obtain ⟨before, after, rfl, hlength, hpre⟩ := steps_at hst
  rw [hpre] at hv
  obtain ⟨first, i, between, rfl, hW, hvalue, hbetween⟩ :=
    last_writer f (fun s i => W ⟨s, i, next s i⟩) hstart hkeep hv
  have hsplit : steps next start (first ++ i :: between ++ st.input :: after) =
      steps next start first ++ ⟨runFrom next start first, i, next (runFrom next start first) i⟩ ::
        (steps next (next (runFrom next start first) i) between ++
          steps next (runFrom next (next (runFrom next start first) i) between)
            (st.input :: after)) := by
    simp [steps_append, steps, runFrom]
  rw [hsplit]
  simp only [List.length_append, List.length_cons] at hlength
  refine ⟨first.length, _, by omega, ?_, hW, hvalue, ?_⟩
  · rw [List.getElem?_append_right (Nat.le_of_eq length_steps), length_steps, Nat.sub_self,
      List.getElem?_cons_zero]
  · intro k st'' hmk hkn hk hwrites
    obtain ⟨j, rfl⟩ : ∃ j, k = first.length + 1 + j := ⟨k - (first.length + 1), by omega⟩
    have hmem : st'' ∈ steps next (next (runFrom next start first) i) between := by
      rw [List.getElem?_append_right (by simp [length_steps]; omega), length_steps,
        Nat.add_assoc, Nat.add_sub_cancel_left, Nat.add_comm 1 j, List.getElem?_cons_succ,
        List.getElem?_append_left (by rw [length_steps]; omega)] at hk
      exact List.mem_of_getElem? hk
    have hnot := hbetween st'' hmem
    rw [steps_eq hmem] at hwrites
    exact hnot hwrites

end

end ZkPayroll.Host
