import ZkPayroll.Payroll.Steps

/-!
# The life of a draft

Six calls write a draft, each the whole record. `DraftStep` says once what a
step can do to the draft with a given id; what a draft keeps, where it can go
and how it reflects the calls made on it follow from that.
-/

namespace ZkPayroll.Payroll

open Host

def draftTermsSet (d : Nat) (st : Step World Input) : Option (Int × Nat) :=
  match performed st with
  | some (.createRunDraft _ totalAmount employeeCount _, .id draftId) =>
    if draftId = d then some (totalAmount, employeeCount) else none
  | some (.amendRunDraft _ draftId newTotalAmount newEmployeeCount, _) =>
    if draftId = d then some (newTotalAmount, newEmployeeCount) else none
  | _ => none

/-- The arguments of the last call that created or amended the draft. -/
def lastDraftTerms (d : Nat) (hist : List (Step World Input)) : Option (Int × Nat) :=
  (hist.filterMap (draftTermsSet d)).getLast?

def amendsDraft (d : Nat) (st : Step World Input) : Bool :=
  match performed st with
  | some (.amendRunDraft _ draftId _ _, _) => decide (draftId = d)
  | _ => false

def draftAmendments (d : Nat) (hist : List (Step World Input)) : Nat := hist.countP (amendsDraft d)

/-- What a draft can become later on. -/
structure DraftMoves (draft later : PayrollRunDraft) : Prop where
  allowed : later.state = draft.state ∨
    isAllowedDraftStateTransitionInternal draft.state later.state = true
  draftId : later.draftId = draft.draftId
  createdAt : later.createdAt = draft.createdAt
  admin : later.admin = draft.admin
  periodLabel : later.periodLabel = draft.periodLabel
  terms : draft.state ≠ .pending →
    later.totalAmount = draft.totalAmount ∧ later.employeeCount = draft.employeeCount
  terminal : isTerminalDraftStateInternal draft.state = true → later = draft

/-- The record is the one the calls made so far add up to. -/
structure DraftFollows (d : Nat) (hist : List (Step World Input)) (draft : PayrollRunDraft) :
    Prop where
  draftId : draft.draftId = d
  terms : lastDraftTerms d hist = some (draft.totalAmount, draft.employeeCount)
  amendments : draft.amendmentCount = draftAmendments d hist

section
variable {e : Env} {s s' : Storage} {w w' : World} {i : Input} {hist : List (Step World Input)}
  {d : Nat}

-- ---------------------------------------------------------------------------
-- The transition table
-- ---------------------------------------------------------------------------

theorem draft_transition_trans {a b c : RunDraftState}
    (h : isAllowedDraftStateTransitionInternal a b = true)
    (h' : isAllowedDraftStateTransitionInternal b c = true) :
    isAllowedDraftStateTransitionInternal a c = true := by
  cases a <;> cases b <;> simp [isAllowedDraftStateTransitionInternal] at h h' ⊢
  cases c <;> simp at h' ⊢

theorem draft_transition_not_pending {a b : RunDraftState}
    (h : isAllowedDraftStateTransitionInternal a b = true) : b ≠ .pending := by
  rintro rfl
  cases a <;> cases h

theorem draft_transition_not_terminal {a b : RunDraftState}
    (h : isAllowedDraftStateTransitionInternal a b = true) :
    isTerminalDraftStateInternal a = false := by
  cases a <;> first | rfl | cases h

theorem DraftMoves.refl (draft : PayrollRunDraft) : DraftMoves draft draft where
  allowed := .inl rfl
  draftId := rfl
  createdAt := rfl
  admin := rfl
  periodLabel := rfl
  terms _ := ⟨rfl, rfl⟩
  terminal _ := rfl

theorem DraftMoves.left (h : DraftMoves a b) (ha : a.state ≠ .pending) : b.state ≠ .pending := by
  rcases h.allowed with hsame | hallowed
  · rw [hsame]
    exact ha
  · exact draft_transition_not_pending hallowed

theorem DraftMoves.trans (h : DraftMoves a b) (h' : DraftMoves b c) : DraftMoves a c where
  allowed := by
    rcases h.allowed with hab | hab
    · rw [← hab]
      exact h'.allowed
    · rcases h'.allowed with hbc | hbc
      · rw [hbc]
        exact .inr hab
      · exact .inr (draft_transition_trans hab hbc)
  draftId := h'.draftId.trans h.draftId
  createdAt := h'.createdAt.trans h.createdAt
  admin := h'.admin.trans h.admin
  periodLabel := h'.periodLabel.trans h.periodLabel
  terms ha := by
    obtain ⟨htotal, hcount⟩ := h.terms ha
    obtain ⟨htotal', hcount'⟩ := h'.terms (h.left ha)
    exact ⟨htotal'.trans htotal, hcount'.trans hcount⟩
  terminal ha := by
    obtain rfl := h.terminal ha
    exact h'.terminal ha

theorem DraftMoves.of_transition {draft : PayrollRunDraft} {target : RunDraftState}
    (h : isAllowedDraftStateTransitionInternal draft.state target = true) :
    DraftMoves draft { draft with state := target } where
  allowed := .inr h
  draftId := rfl
  createdAt := rfl
  admin := rfl
  periodLabel := rfl
  terms _ := ⟨rfl, rfl⟩
  terminal hterminal := by
    rw [draft_transition_not_terminal h] at hterminal
    cases hterminal

theorem DraftMoves.of_amend {draft : PayrollRunDraft} (h : draft.state = .pending)
    (totalAmount : Int) (employeeCount amendmentCount : Nat) :
    DraftMoves draft { draft with
      totalAmount := totalAmount
      employeeCount := employeeCount
      amendmentCount := amendmentCount } where
  allowed := .inl rfl
  draftId := rfl
  createdAt := rfl
  admin := rfl
  periodLabel := rfl
  terms hleft := absurd h hleft
  terminal hterminal := by
    rw [h] at hterminal
    cases hterminal

-- ---------------------------------------------------------------------------
-- One step
-- ---------------------------------------------------------------------------

inductive DraftStep (d : Nat) (st : Step World Input) : Option PayrollRunDraft →
    Option PayrollRunDraft → Prop
  | kept (hterms : draftTermsSet d st = none) (hamends : amendsDraft d st = false) :
    DraftStep d st stored stored
  | created (e : Env) (admin : Address) (totalAmount : Int) (employeeCount : Nat)
      (periodLabel : Symbol) (hterms : draftTermsSet d st = some (totalAmount, employeeCount))
      (hamends : amendsDraft d st = false) :
    DraftStep d st none (some (newDraft e admin totalAmount employeeCount periodLabel d))
  | amended (draft : PayrollRunDraft) (totalAmount : Int) (employeeCount : Nat)
      (hpending : draft.state = .pending)
      (hterms : draftTermsSet d st = some (totalAmount, employeeCount))
      (hamends : amendsDraft d st = true) :
    DraftStep d st (some draft) (some { draft with
      totalAmount := totalAmount
      employeeCount := employeeCount
      amendmentCount := draft.amendmentCount + 1 })
  | moved (draft : PayrollRunDraft) (target : RunDraftState)
      (hallowed : isAllowedDraftStateTransitionInternal draft.state target = true)
      (hterms : draftTermsSet d st = none) (hamends : amendsDraft d st = false) :
    DraftStep d st (some draft) (some { draft with state := target })

def DraftsNumbered (s : Storage) : Prop :=
  ∀ d, (∃ draft, s.get (.runDraft d) = some draft) ↔ 1 ≤ d ∧ d ≤ draftCount s

theorem DraftsNumbered.replace (h : DraftsNumbered s)
    (hstored : s.get (.runDraft draftId) = some draft) (new : PayrollRunDraft) :
    DraftsNumbered (s.set (.runDraft draftId) new) := by
  intro d
  have hcount : draftCount (s.set (.runDraft draftId) new) = draftCount s := by simp [draftCount]
  rw [hcount, ← h d]
  by_cases hd : d = draftId
  · subst hd
    simp [hstored]
  · simp [hd]

theorem DraftsNumbered.of_get (h : DraftsNumbered s)
    (hdrafts : ∀ d, s'.get (.runDraft d) = s.get (.runDraft d))
    (hcount : s'.get .runDraftCounter = s.get .runDraftCounter) : DraftsNumbered s' := by
  intro d
  rw [hdrafts, draftCount, hcount]
  exact h d

theorem DraftsNumbered.add (h : DraftsNumbered s) (new : PayrollRunDraft) (periodLabel : Symbol) :
    DraftsNumbered (((s.set .runDraftCounter (draftCount s + 1)).set (.runDraft (draftCount s + 1))
      new).set (.activeDraftForPeriod periodLabel) (draftCount s + 1)) := by
  intro d
  have hcount : draftCount (((s.set .runDraftCounter (draftCount s + 1)).set
      (.runDraft (draftCount s + 1)) new).set (.activeDraftForPeriod periodLabel)
        (draftCount s + 1)) = draftCount s + 1 := by simp [draftCount]
  rw [hcount]
  by_cases hlast : d = draftCount s + 1
  · subst hlast
    simp
  · have hd := h d
    simp only [ne_eq, reduceCtorEq, not_false_eq_true, Store.get_set_ne, DataKey.runDraft.injEq,
      hlast, hd]
    omega

theorem exec_draftsNumbered (hok : exec e call w = .ok (ret, w'))
    (h : DraftsNumbered w.payroll) : DraftsNumbered w'.payroll := by
  cases call with
  | createRunDraft =>
    obtain ⟨_, _, hf, -, rfl⟩ := onStorageRet_ok.mp hok
    obtain ⟨-, -, -, -, -, -, -, rfl⟩ := createRunDraft_ok.mp hf
    exact h.add _ _
  | amendRunDraft =>
    obtain ⟨_, hf, -, rfl⟩ := onStorage_ok.mp hok
    obtain ⟨-, -, -, draft, hstored, -, -, -, rfl⟩ := amendRunDraft_ok.mp hf
    exact h.replace hstored _
  | finalizeRunDraft =>
    obtain ⟨_, hf, -, rfl⟩ := onStorage_ok.mp hok
    obtain ⟨-, -, draft, hstored, -, rfl⟩ := finalizeRunDraft_ok.mp hf
    exact h.replace hstored _
  | submitRunDraft | cancelRunDraft | expireRunDraft =>
    obtain ⟨_, hf, -, rfl⟩ := onStorage_ok.mp hok
    obtain ⟨-, -, draft, hstored, -, rfl⟩ := closeRunDraft_ok.mp hf
    exact h.replace hstored _
  | _ => exact h.of_get (fun _ => exec_keeps hok rfl) (exec_keeps hok rfl)

theorem Reached.draftsNumbered (hw : Reached w) : DraftsNumbered w.payroll := by
  refine payroll_invariant ?_ (fun _ => exec_draftsNumbered) hw
  intro d
  constructor
  · rintro ⟨draft, hstored⟩
    cases hstored
  · rintro ⟨hpos, hle⟩
    have hcount : draftCount (.empty : Storage) = 0 := rfl
    omega

theorem draftStep_moved {st : Step World Input}
    (hstored : s.get (.runDraft draftId) = some draft)
    (hallowed : isAllowedDraftStateTransitionInternal draft.state target = true)
    (hterms : draftTermsSet d st = none) (hamends : amendsDraft d st = false) :
    DraftStep d st (s.get (.runDraft d))
      ((s.set (.runDraft draftId) { draft with state := target }).get (.runDraft d)) := by
  by_cases hd : d = draftId
  · subst hd
    rw [hstored, Store.get_set_self]
    exact .moved draft target hallowed hterms hamends
  · rw [Store.get_set_ne _ _ (by simpa using hd)]
    exact .kept hterms hamends

theorem exec_draftStep (hw : Reached w) (hx : Executes i w call ret w') (d : Nat) :
    DraftStep d ⟨w, i, w'⟩ (w.payroll.get (.runDraft d)) (w'.payroll.get (.runDraft d)) := by
  have hperformed : performed ⟨w, i, w'⟩ = some (call, ret) := performed_executes hx
  obtain ⟨-, hok⟩ := hx
  cases call with
  | createRunDraft admin totalAmount employeeCount periodLabel =>
    obtain ⟨_, _, hf, rfl, rfl⟩ := onStorageRet_ok.mp hok
    obtain ⟨-, -, -, -, -, -, rfl, rfl⟩ := createRunDraft_ok.mp hf
    by_cases hd : d = draftCount w.payroll + 1
    · subst hd
      have hfree : w.payroll.get (.runDraft (draftCount w.payroll + 1)) = none := by
        refine Option.eq_none_iff_forall_ne_some.mpr fun draft hstored => ?_
        have hle := ((hw.draftsNumbered _).mp ⟨draft, hstored⟩).2
        omega
      rw [hfree, Store.get_set_ne _ _ (by simp), Store.get_set_self]
      exact .created i.env admin totalAmount employeeCount periodLabel
        (by simp [draftTermsSet, hperformed]) (by simp [amendsDraft, hperformed])
    · simp only [ne_eq, reduceCtorEq, not_false_eq_true, Store.get_set_ne, DataKey.runDraft.injEq,
        hd]
      exact .kept (by simp [draftTermsSet, hperformed, Ne.symm hd])
        (by simp [amendsDraft, hperformed])
  | amendRunDraft admin draftId newTotalAmount newEmployeeCount =>
    obtain ⟨_, hf, -, rfl⟩ := onStorage_ok.mp hok
    obtain ⟨-, -, -, draft, hstored, hpending, -, -, rfl⟩ := amendRunDraft_ok.mp hf
    by_cases hd : d = draftId
    · subst hd
      rw [hstored, Store.get_set_self]
      exact .amended draft newTotalAmount newEmployeeCount hpending
        (by simp [draftTermsSet, hperformed]) (by simp [amendsDraft, hperformed])
    · rw [Store.get_set_ne _ _ (by simpa using hd)]
      exact .kept (by simp [draftTermsSet, hperformed, Ne.symm hd])
        (by simp [amendsDraft, hperformed, Ne.symm hd])
  | finalizeRunDraft =>
    obtain ⟨_, hf, -, rfl⟩ := onStorage_ok.mp hok
    obtain ⟨-, -, draft, hstored, hpending, rfl⟩ := finalizeRunDraft_ok.mp hf
    exact draftStep_moved hstored (by rw [hpending]; rfl) (by simp [draftTermsSet, hperformed])
      (by simp [amendsDraft, hperformed])
  | submitRunDraft | cancelRunDraft | expireRunDraft =>
    obtain ⟨_, hf, -, rfl⟩ := onStorage_ok.mp hok
    obtain ⟨-, -, draft, hstored, hallowed, rfl⟩ := closeRunDraft_ok.mp hf
    exact draftStep_moved hstored hallowed (by simp [draftTermsSet, hperformed])
      (by simp [amendsDraft, hperformed])
  | _ =>
    rw [exec_keeps hok rfl]
    exact .kept (by simp [draftTermsSet, hperformed]) (by simp [amendsDraft, hperformed])

theorem next_draftStep (hw : Reached w) (i : Input) (d : Nat) :
    DraftStep d ⟨w, i, next w i⟩ (w.payroll.get (.runDraft d))
      ((next w i).payroll.get (.runDraft d)) := by
  rcases next_payroll w i with ⟨call, ret, hx, -⟩ | ⟨hsame, -, hnone⟩
  · exact exec_draftStep hw hx d
  · rw [hsame]
    exact .kept (by simp [draftTermsSet, hnone]) (by simp [amendsDraft, hnone])

theorem DraftStep.moves {st : Step World Input} (h : DraftStep d st (some draft) after) :
    ∃ later, after = some later ∧ DraftMoves draft later := by
  cases h with
  | kept => exact ⟨draft, rfl, .refl draft⟩
  | amended _ totalAmount employeeCount hpending => exact ⟨_, rfl, .of_amend hpending _ _ _⟩
  | moved _ target hallowed => exact ⟨_, rfl, .of_transition hallowed⟩

-- ---------------------------------------------------------------------------
-- Runs
-- ---------------------------------------------------------------------------

theorem lastDraftTerms_snoc (st : Step World Input) :
    lastDraftTerms d (hist ++ [st]) = (draftTermsSet d st).or (lastDraftTerms d hist) := by
  unfold lastDraftTerms
  rw [List.filterMap_append, List.getLast?_append]
  cases h : draftTermsSet d st <;> simp [h]

theorem draftAmendments_snoc (st : Step World Input) :
    draftAmendments d (hist ++ [st]) = draftAmendments d hist + (amendsDraft d st).toNat :=
  countP_snoc (amendsDraft d) hist st

/-- The draft with id `d` follows the calls, and is amended only when there is
one. -/
def DraftRecorded (d : Nat) (hist : List (Step World Input)) : Option PayrollRunDraft → Prop
  | none => draftAmendments d hist = 0
  | some draft => DraftFollows d hist draft

theorem DraftStep.recorded {st : Step World Input} (h : DraftStep d st before after)
    (hrec : DraftRecorded d hist before) : DraftRecorded d (hist ++ [st]) after := by
  have hterms' : lastDraftTerms d (hist ++ [st]) = _ := lastDraftTerms_snoc st
  have hcount' : draftAmendments d (hist ++ [st]) = _ := draftAmendments_snoc st
  cases h with
  | kept hterms hamends =>
    rw [hterms, Option.none_or] at hterms'
    rw [hamends] at hcount'
    cases before with
    | none => exact hcount'.trans hrec
    | some draft =>
      exact ⟨hrec.draftId, hterms'.trans hrec.terms, hrec.amendments.trans hcount'.symm⟩
  | created _ _ _ _ _ hterms hamends =>
    rw [hterms, Option.some_or] at hterms'
    rw [hamends] at hcount'
    exact ⟨rfl, hterms', (hcount'.trans hrec).symm⟩
  | amended draft _ _ _ hterms hamends =>
    rw [hterms, Option.some_or] at hterms'
    rw [hamends] at hcount'
    refine ⟨hrec.draftId, hterms', ?_⟩
    rw [hcount', ← hrec.amendments]
    rfl
  | moved draft _ _ hterms hamends =>
    rw [hterms, Option.none_or] at hterms'
    rw [hamends] at hcount'
    exact ⟨hrec.draftId, hterms'.trans hrec.terms, hrec.amendments.trans hcount'.symm⟩

theorem draft_recorded (inputs : List Input) (d : Nat) :
    DraftRecorded d (steps next World.genesis inputs)
      ((runFrom next World.genesis inputs).payroll.get (.runDraft d)) := by
  have hstep : ∀ hist w i, (Reached w ∧ DraftRecorded d hist (w.payroll.get (.runDraft d))) →
      Reached (next w i) ∧ DraftRecorded d (hist ++ [⟨w, i, next w i⟩])
        ((next w i).payroll.get (.runDraft d)) := by
    rintro hist w i ⟨hw, hrec⟩
    exact ⟨reachable_next hw i, (next_draftStep hw i d).recorded hrec⟩
  exact (history_invariant
    (I := fun hist w => Reached w ∧ DraftRecorded d hist (w.payroll.get (.runDraft d)))
    ⟨reachable_start, rfl⟩ hstep inputs).2

theorem draft_later (hw : Reached w) (hstored : w.payroll.get (.runDraft d) = some draft)
    (later : List Input) :
    ∃ draft', (runFrom next w later).payroll.get (.runDraft d) = some draft' ∧
      DraftMoves draft draft' := by
  refine record_later (R := DraftMoves) (fun w : World => w.payroll.get (.runDraft d))
    DraftMoves.refl (fun _ _ _ => DraftMoves.trans) ?_ hw hstored later
  intro w i draft hw hstored
  have hstep := next_draftStep hw i d
  rw [hstored] at hstep
  exact hstep.moves

/-- In every run the stored drafts are those numbered up to the counter; each
is what the calls made on it add up to, and whatever follows, it only moves
along the transition table, keeps its identity, keeps its amounts once it has
left `Pending`, and does not change at all once it is in a terminal state. -/
theorem draft_lifecycle (inputs : List Input) :
    DraftsNumbered (runFrom next World.genesis inputs).payroll ∧
    ∀ d draft, (runFrom next World.genesis inputs).payroll.get (.runDraft d) = some draft →
      DraftFollows d (steps next World.genesis inputs) draft ∧
      ∀ later, ∃ draft',
        (runFrom next World.genesis (inputs ++ later)).payroll.get (.runDraft d) = some draft' ∧
          DraftMoves draft draft' := by
  have hw : Reached (runFrom next World.genesis inputs) := reachable_runFrom
  refine ⟨hw.draftsNumbered, fun d draft hstored => ⟨?_, fun later => ?_⟩⟩
  · have hrec := draft_recorded inputs d
    rw [hstored] at hrec
    exact hrec
  · rw [runFrom_append]
    exact draft_later hw hstored later

end

theorem amended_draft_submitted :
    let inputs :=
      [Sample.deploy, Sample.call [Sample.admin] (.createRunDraft Sample.admin 100 1 "june"),
        Sample.call [Sample.admin] (.amendRunDraft Sample.admin 1 250 2),
        Sample.call [Sample.admin] (.submitRunDraft Sample.admin 1)]
    DraftFollows 1 (steps next World.genesis inputs)
      ⟨1, 100, Sample.admin, 250, 2, "june", .submitted, 1⟩ := by
  intro inputs
  exact ((draft_lifecycle inputs).2 1 _ rfl).1

end ZkPayroll.Payroll
