import ZkPayroll.AuditModule.Laws

/-!
# The revocation cascade

`revoke_descendants` is an erasing walk over the delegate lists. It completes
exactly where every path through the lists ends, and then it has dropped the
keys below the auditor and the lists at and below it, and nothing else.

A delegation adds an edge from the auditor to the delegate, whoever that is,
and no other call adds one. So all revocations of a run complete exactly when
no delegation of the run goes back to an auditor above.
-/

namespace ZkPayroll.AuditModule

open Host Relation

/-- `delegate` is in the list of the auditor. -/
def child (s : Storage) (auditor delegate : Address) : Prop := delegate ∈ delegates s auditor

theorem delegates_remove_key (s : Storage) (x y : Address) :
    delegates (s.remove (.auditorKey x)) y = delegates s y := by
  simp [delegates]

theorem delegates_remove_self (s : Storage) (x : Address) :
    delegates (s.remove (.delegatedAuditors x)) x = [] := by
  simp [delegates]

theorem delegates_remove_ne (s : Storage) (x y : Address) (h : y ≠ x) :
    delegates (s.remove (.delegatedAuditors x)) y = delegates s y := by
  simp [delegates, h]

def cascade : Walk Storage Address where
  children := delegates
  enter s x := s.remove (.auditorKey x)
  leave s x := s.remove (.delegatedAuditors x)
  children_enter := delegates_remove_key
  children_leave_self := delegates_remove_self
  children_leave_ne := delegates_remove_ne

section
variable {e : LedgerEnv} {s s' t : Storage} {auditor x y : Address}

theorem revokeDescendants_eq_visit (budget : Nat) (auditor : Address) (s : Storage) :
    revokeDescendants budget auditor s =
      cascade.visit "Error(Budget, ExceededLimit)" budget auditor s := by
  induction budget generalizing auditor s with
  | zero => rfl
  | succ budget ih =>
    unfold revokeDescendants Walk.visit
    simp only [ih]
    rfl

-- ---------------------------------------------------------------------------
-- What the cascade drops
-- ---------------------------------------------------------------------------

theorem key_entered (h : .enter x ∈ trace) :
    (cascade.play s trace).get (.auditorKey x) = none := by
  refine Walk.play_reached (P := fun s : Storage => s.get (.auditorKey x) = none) h
    (fun s => Store.get_remove_self s _) fun s m hs => ?_
  cases m with
  | enter y =>
    by_cases hxy : x = y
    · subst hxy
      exact Store.get_remove_self s _
    · simpa [Walk.act, cascade, hxy] using hs
  | leave y => simpa [Walk.act, cascade] using hs

theorem key_kept (h : .enter x ∉ trace) :
    (cascade.play s trace).get (.auditorKey x) = s.get (.auditorKey x) := by
  refine Walk.play_kept (o := fun s : Storage => s.get (.auditorKey x)) fun m hm s => ?_
  cases m with
  | enter y =>
    have hxy : x ≠ y := by
      rintro rfl
      exact h hm
    simp [Walk.act, cascade, hxy]
  | leave y => simp [Walk.act, cascade]

/-- The keys below the auditor are gone, the lists at and below it too, and
the rest is as it was. -/
structure Erased (auditor : Address) (s t : Storage) : Prop where
  dropped : ∀ x, TransGen (child s) auditor x → t.get (.auditorKey x) = none
  keys : ∀ x, ¬ TransGen (child s) auditor x → t.get (.auditorKey x) = s.get (.auditorKey x)
  emptied : ∀ x, ReflTransGen (child s) auditor x → delegates t x = []
  lists : ∀ x, ¬ ReflTransGen (child s) auditor x → delegates t x = delegates s x

theorem revokeDescendants_ok (h : revokeDescendants budget auditor s = .ok t) :
    Grounded (child s) auditor ∧ Erased auditor s t := by
  rw [revokeDescendants_eq_visit] at h
  obtain ⟨hground, trace, rfl, hentered, hleft⟩ := Walk.visit_trace h
  refine ⟨hground, fun x hx => ?_, fun x hx => ?_, fun x hx => ?_, fun x hx => ?_⟩
  · exact key_entered ((hentered x).mpr hx)
  · exact key_kept fun hmem => hx ((hentered x).mp hmem)
  · exact Walk.children_left (w := cascade) ((hleft x).mpr hx)
  · exact Walk.children_kept (w := cascade) fun hmem => hx ((hleft x).mp hmem)

def Completes (s : Storage) (auditor : Address) : Prop :=
  ∃ budget t, revokeDescendants budget auditor s = .ok t

theorem completes_iff : Completes s auditor ↔ Grounded (child s) auditor := by
  constructor
  · rintro ⟨budget, t, h⟩
    exact (revokeDescendants_ok h).1
  · intro h
    obtain ⟨budget, hbudget⟩ : ∃ budget, ∀ trace, ∃ t, cascade.visit
        "Error(Budget, ExceededLimit)" budget auditor (cascade.play s trace) = .ok t :=
      Walk.visit_completes h
    obtain ⟨t, ht⟩ := hbudget []
    exact ⟨budget, t, (revokeDescendants_eq_visit budget auditor s).trans ht⟩

-- ---------------------------------------------------------------------------
-- What a call does to the lists
-- ---------------------------------------------------------------------------

@[simp] theorem delegates_set_key (record : ViewKeyRecord) :
    delegates (s.set (.auditorKey x) record) y = delegates s y := by
  simp [delegates]

theorem delegates_delegated :
    delegates (delegated e auditor delegate parent scope expirationLedger s) x =
      if x = auditor then delegates s auditor ++ [delegate] else delegates s x := by
  by_cases hx : x = auditor
  · subst hx
    simp [delegates, delegated]
  · simp [delegates, delegated, hx]

theorem child_delegated :
    child (delegated e auditor delegate parent scope expirationLedger s) =
      addEdge (child s) auditor delegate := by
  funext x y
  rw [child, delegates_delegated, addEdge, child, eq_iff_iff]
  by_cases hx : x = auditor
  · subst hx
    simp
  · simp [hx]

theorem KeysKept.child (h : KeysKept s s') : child s' = child s := by
  funext x y
  rw [AuditModule.child, h.delegates, AuditModule.child]

theorem child_set_key (record : ViewKeyRecord) :
    child (s.set (.auditorKey x) record) = child s := by
  funext y z
  rw [child, delegates_set_key, child]

theorem Erased.child_sub (h : Erased auditor s t) (hxy : child t x y) : child s x y := by
  by_cases hx : ReflTransGen (child s) auditor x
  · rw [child, h.emptied x hx] at hxy
    cases hxy
  · rwa [child, h.lists x hx] at hxy

/-- The call is a delegation that meets its guards, and a path through the
lists leads from the delegate to the auditor. -/
def ClosesCycle (e : LedgerEnv) (call : Call) (s : Storage) : Prop :=
  ∃ auditor delegate scope expirationLedger parent,
    call.canonical = .delegateViewKey auditor delegate scope expirationLedger ∧
    CanDelegate e auditor scope expirationLedger parent s ∧
    ReflTransGen (child s) delegate auditor

theorem next_grounded (i : Input) (hs : ∀ x, Grounded (child s) x)
    (hcall : ¬ ClosesCycle i.env i.call s) (x : Address) : Grounded (child (next s i)) x := by
  have heffect := next_effect s i
  generalize hname : i.call.canonical = call at heffect
  cases heffect with
  | none hkept =>
    rw [hkept.child]
    exact hs x
  | generate _ hafter =>
    rw [hafter, child_set_key]
    exact hs x
  | revoke _ hcascade hafter =>
    refine (hs x).mono fun y z hyz => ?_
    rw [hafter, child, delegates_remove_key] at hyz
    exact (revokeDescendants_ok hcascade).2.child_sub hyz
  | refresh _ _ hafter =>
    rw [hafter, child_set_key]
    exact hs x
  | policy _ hafter =>
    rw [hafter, child_set_key]
    exact hs x
  | delegate hcan hafter =>
    rw [hafter, child_delegated]
    exact addEdge_grounded hs (fun hback => hcall ⟨_, _, _, _, _, hname, hcan, hback⟩) x
  | extend _ hafter =>
    rw [hafter, child_set_key]
    exact hs x

theorem closesCycle_irrevocable (i : Input) (hcall : ClosesCycle i.env i.call s) :
    ∃ auditor record, (next s i).get (.auditorKey auditor) = some record ∧
      ¬ Completes (next s i) auditor := by
  obtain ⟨auditor, delegate, scope, expirationLedger, parent, hname, hcan, hback⟩ := hcall
  rw [next_ok (exec_delegate hname hcan)]
  have hstored : ∃ record, (delegated i.env auditor delegate parent scope expirationLedger s).get
      (.auditorKey auditor) = some record := by
    rw [key_delegated]
    split
    · exact ⟨_, rfl⟩
    · exact ⟨parent, hcan.accepted.stored⟩
  obtain ⟨record, hrecord⟩ := hstored
  refine ⟨auditor, record, hrecord, ?_⟩
  rw [completes_iff, child_delegated]
  exact addEdge_not_grounded hback

/-- The cascade from every auditor with a key completes. -/
def Revocable (s : Storage) : Prop :=
  ∀ auditor record, s.get (.auditorKey auditor) = some record → Completes s auditor

/-- Every key is revocable in every state of a run exactly when no step of the
run closes a cycle. -/
theorem revocable_iff_no_cycle (inputs : List Input) :
    (∀ st ∈ steps next Store.empty inputs, Revocable st.post) ↔
      ∀ st ∈ steps next Store.empty inputs, ¬ ClosesCycle st.input.env st.input.call st.pre := by
  constructor
  · intro h st hst hcycle
    obtain ⟨auditor, record, hrecord, hstuck⟩ := closesCycle_irrevocable st.input hcycle
    rw [← steps_post hst] at hrecord hstuck
    exact hstuck (h st hst auditor record hrecord)
  · intro h st hst auditor record _
    have hstart : ∀ x, Grounded (child Store.empty) x := by
      intro x
      refine grounded_iff.mpr fun y hy => ?_
      simp [child, delegates] at hy
    have hnext : ∀ s i, (∀ x, Grounded (child s) x) → ¬ ClosesCycle i.env i.call s →
        ∀ x, Grounded (child (next s i)) x := fun s i hs hcall => next_grounded i hs hcall
    have hpre := steps_invariant_pre
      (C := fun st => ¬ ClosesCycle st.input.env st.input.call st.pre) hstart hnext h hst
    rw [completes_iff, steps_post hst]
    exact next_grounded st.input hpre (h st hst) auditor

end

-- ---------------------------------------------------------------------------
-- Sample runs
-- ---------------------------------------------------------------------------

/-!
An auditor with a key that may be delegated, and two others.
-/

namespace Sample

def contract : Address := ⟨1⟩
def alice : Address := ⟨2⟩
def bob : Address := ⟨3⟩
def carol : Address := ⟨4⟩

/-- Nothing is paused; a hash is the first byte of what is hashed. -/
def env (auths : List Address) : LedgerEnv where
  crypto := ⟨fun bytes => List.Vector.replicate 32 (bytes.headD 0), fun a => [UInt8.ofNat a.id],
    fun _ => [], fun _ => []⟩
  contract := contract
  timestamp := 100
  auths := auths
  isPaused _ := false
  verifyPaymentProof _ _ _ := true
  sequence := 10
  addressFromString _ := alice

def call (auths : List Address) (c : Call) : Input := ⟨env auths, 10, c⟩

def enabled : List Input :=
  [call [] (.generateViewKey alice 100),
    call [contract] (.setDelegationPolicy contract alice true .fullCompany 100)]

def delegatedToBob : List Input :=
  enabled ++ [call [alice] (.delegateViewKey alice bob .fullCompany 100)]

end Sample

/-- Bob delegates back to Alice, and no budget is enough to revoke her key. -/
theorem delegated_back_irrevocable :
    let back := Sample.call [Sample.bob]
      (.delegateViewKey Sample.bob Sample.alice .fullCompany 100)
    let s := runFrom next Store.empty (Sample.delegatedToBob ++ [back])
    s.has (.auditorKey Sample.alice) = true ∧
      (∀ budget t, revokeDescendants budget Sample.alice s ≠ .ok t) ∧
      ¬ ∀ st ∈ steps next Store.empty (Sample.delegatedToBob ++ [back]), Revocable st.post := by
  intro back s
  have hstored : s.has (.auditorKey Sample.alice) = true := by decide +kernel
  have hdown : child s Sample.alice Sample.bob := by
    rw [child]
    decide +kernel
  have hup : child s Sample.bob Sample.alice := by
    rw [child]
    decide +kernel
  have hstuck : ¬ Completes s Sample.alice := by
    rw [completes_iff]
    exact fun hground => hground.no_cycle (TransGen.tail (TransGen.single hdown) hup)
  refine ⟨hstored, fun budget t h => hstuck ⟨budget, t, h⟩, fun h => ?_⟩
  obtain ⟨record, hrecord⟩ := Store.has_eq_true.mp hstored
  have hs : s = next (runFrom next Store.empty Sample.delegatedToBob) back := runFrom_snoc back
  have hrevocable : Revocable s := by
    rw [hs]
    exact h _ (last_mem_steps back)
  exact hstuck (hrevocable Sample.alice record hrecord)

end ZkPayroll.AuditModule
