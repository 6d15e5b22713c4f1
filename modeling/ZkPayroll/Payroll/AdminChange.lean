import ZkPayroll.Payroll.Steps

/-!
# Changing the admin

Rotation and handover are two separate two-step protocols for one role, each
with its own pending record. Both take a proposal of the current admin. A
proposal of one protocol survives an acceptance of the other, and can then be
accepted although its proposer is no longer the admin.
-/

namespace ZkPayroll.Payroll

open Host

/-- Every pending proposal was made by the present admin. -/
structure ProposedByAdmin (s : Storage) : Prop where
  rotation : ∀ proposal, s.get .pendingAdminRotation = some proposal →
    (s.get .addresses).map (·.admin) = some proposal.proposedBy
  handover : ∀ handover, s.get .pendingAdminHandover = some handover →
    (s.get .addresses).map (·.admin) = some handover.currentAdmin

/-- The input accepts a proposal of one protocol, to a new address, while a
proposal of the other one is pending. -/
inductive Overtakes (i : Input) (s : Storage) : Prop
  | rotation (newAdmin : Address) (message : i.message = .payroll (.acceptAdminRotation newAdmin))
      (unpaused : ¬ Paused i.env s)
      (named : ∃ proposal, s.get .pendingAdminRotation = some proposal ∧
        newAdmin = proposal.newHolder)
      (authorised : newAdmin ∈ i.env.auths) (unlocked : pendingPayrollRunCount s = 0)
      (replaces : ∃ addrs, s.get .addresses = some addrs ∧ newAdmin ≠ addrs.admin)
      (pending : ∃ handover, s.get .pendingAdminHandover = some handover)
  | handover (pendingAdmin : Address)
      (message : i.message = .payroll (.acceptAdminHandover pendingAdmin))
      (unpaused : ¬ Paused i.env s)
      (named : ∃ handover, s.get .pendingAdminHandover = some handover ∧
        pendingAdmin = handover.pendingAdmin)
      (authorised : pendingAdmin ∈ i.env.auths)
      (replaces : ∃ addrs, s.get .addresses = some addrs ∧ pendingAdmin ≠ addrs.admin)
      (pending : ∃ proposal, s.get .pendingAdminRotation = some proposal)

/-- An acceptance that goes through replaces the admin who proposed it. -/
structure ReplacesProposer (st : Step World Input) : Prop where
  rotation : ∀ newAdmin ret, performed st = some (.acceptAdminRotation newAdmin, ret) →
    ∃ proposal addrs, st.pre.payroll.get .pendingAdminRotation = some proposal ∧
      st.pre.payroll.get .addresses = some addrs ∧ proposal.proposedBy = addrs.admin
  handover : ∀ pendingAdmin ret, performed st = some (.acceptAdminHandover pendingAdmin, ret) →
    ∃ handover addrs, st.pre.payroll.get .pendingAdminHandover = some handover ∧
      st.pre.payroll.get .addresses = some addrs ∧ handover.currentAdmin = addrs.admin

section
variable {e : Env} {s s' : Storage} {w w' : World} {i : Input}

theorem proposedByAdmin_empty : ProposedByAdmin (.empty : Storage) := ⟨by simp, by simp⟩

theorem ProposedByAdmin.mono (h : ProposedByAdmin s)
    (hadmin : (s'.get .addresses).map (·.admin) = (s.get .addresses).map (·.admin))
    (hrotation : ∀ p, s'.get .pendingAdminRotation = some p → s.get .pendingAdminRotation = some p)
    (hhandover : ∀ p, s'.get .pendingAdminHandover = some p → s.get .pendingAdminHandover = some p) :
    ProposedByAdmin s' :=
  ⟨fun p hp => hadmin.trans (h.rotation p (hrotation p hp)),
    fun p hp => hadmin.trans (h.handover p (hhandover p hp))⟩

-- ---------------------------------------------------------------------------
-- Steps
-- ---------------------------------------------------------------------------

theorem ProposedByAdmin.acceptRotation (h : ProposedByAdmin s)
    (haddrs : s.get .addresses = some addrs)
    (hkeep : newAdmin = addrs.admin ∨ s.get .pendingAdminHandover = none) :
    ProposedByAdmin ((s.set .addresses { addrs with admin := newAdmin }).remove
      .pendingAdminRotation) := by
  refine ⟨by simp, fun p hp => ?_⟩
  simp only [ne_eq, reduceCtorEq, not_false_eq_true, Store.get_remove_ne, Store.get_set_ne,
    Store.get_set_self, Option.map_some] at hp ⊢
  rcases hkeep with rfl | hnone
  · simpa [haddrs] using h.handover p hp
  · simp [hnone] at hp

theorem ProposedByAdmin.acceptHandover (h : ProposedByAdmin s)
    (haddrs : s.get .addresses = some addrs)
    (hkeep : pendingAdmin = addrs.admin ∨ s.get .pendingAdminRotation = none) :
    ProposedByAdmin ((s.set .addresses { addrs with admin := pendingAdmin }).remove
      .pendingAdminHandover) := by
  refine ⟨fun p hp => ?_, by simp⟩
  simp only [ne_eq, reduceCtorEq, not_false_eq_true, Store.get_remove_ne, Store.get_set_ne,
    Store.get_set_self, Option.map_some] at hp ⊢
  rcases hkeep with rfl | hnone
  · simpa [haddrs] using h.rotation p hp
  · simp [hnone] at hp

theorem ProposedByAdmin.exec (h : ProposedByAdmin w.payroll) (hx : Executes i w call ret w')
    (hnot : ¬ Overtakes i w.payroll) : ProposedByAdmin w'.payroll := by
  obtain ⟨hm, hok⟩ := hx
  cases call with
  | initializePayroll =>
    obtain ⟨_, hf, -, -⟩ := onStorage_ok.mp hok
    have hnone := (initializePayroll_ok.mp hf).1
    -- no proposal can be pending before there is an admin
    refine ⟨fun p hp => ?_, fun p hp => ?_⟩
    · rw [exec_keeps hok rfl] at hp
      simpa [hnone] using h.rotation p hp
    · rw [exec_keeps hok rfl] at hp
      simpa [hnone] using h.handover p hp
  | proposeAdminRotation =>
    obtain ⟨_, hf, -, rfl⟩ := onStorage_ok.mp hok
    obtain ⟨-, ⟨addrs, haddrs, rfl, -⟩, -, rfl⟩ := proposeAdminRotation_ok.mp hf
    exact ⟨by simp [haddrs], by simpa using h.handover⟩
  | requestAdminHandover =>
    obtain ⟨_, hf, -, rfl⟩ := onStorage_ok.mp hok
    obtain ⟨-, ⟨addrs, haddrs, rfl, -⟩, -, rfl⟩ := requestAdminHandover_ok.mp hf
    exact ⟨by simpa using h.rotation, by simp [haddrs]⟩
  | cancelAdminRotation =>
    obtain ⟨_, hf, -, rfl⟩ := onStorage_ok.mp hok
    obtain ⟨-, -, -, rfl⟩ := cancelAdminRotation_ok.mp hf
    exact h.mono (by simp) (by simp) (by simp)
  | cancelAdminHandover =>
    obtain ⟨_, hf, -, rfl⟩ := onStorage_ok.mp hok
    obtain ⟨-, -, -, rfl⟩ := cancelAdminHandover_ok.mp hf
    exact h.mono (by simp) (by simp) (by simp)
  | acceptTreasuryRotation =>
    obtain ⟨_, hf, -, rfl⟩ := onStorage_ok.mp hok
    obtain ⟨-, _, -, -, -, -, -, addrs, haddrs, rfl⟩ := acceptTreasuryRotation_ok.mp hf
    exact h.mono (by simp [haddrs]) (by simp) (by simp)
  | acceptAdminRotation newAdmin =>
    obtain ⟨_, hf, -, rfl⟩ := onStorage_ok.mp hok
    obtain ⟨hpaused, proposal, hproposal, hnamed, hauth, hfree, addrs, haddrs, rfl⟩ :=
      acceptAdminRotation_ok.mp hf
    refine h.acceptRotation haddrs ?_
    by_contra hcon
    obtain ⟨hne, hpending⟩ := not_or.mp hcon
    exact hnot (.rotation newAdmin hm hpaused ⟨proposal, hproposal, hnamed⟩ hauth hfree
      ⟨addrs, haddrs, hne⟩ (Option.ne_none_iff_exists'.mp hpending))
  | acceptAdminHandover pendingAdmin =>
    obtain ⟨_, hf, -, rfl⟩ := onStorage_ok.mp hok
    obtain ⟨hpaused, handover, hhandover, hnamed, hauth, addrs, haddrs, rfl⟩ :=
      acceptAdminHandover_ok.mp hf
    refine h.acceptHandover haddrs ?_
    by_contra hcon
    obtain ⟨hne, hpending⟩ := not_or.mp hcon
    exact hnot (.handover pendingAdmin hm hpaused ⟨handover, hhandover, hnamed⟩ hauth
      ⟨addrs, haddrs, hne⟩ (Option.ne_none_iff_exists'.mp hpending))
  | _ =>
    refine h.mono ?_ ?_ ?_
    · rw [exec_keeps hok rfl]
    · rw [exec_keeps hok rfl]
      exact fun _ hp => hp
    · rw [exec_keeps hok rfl]
      exact fun _ hp => hp

theorem ProposedByAdmin.next (h : ProposedByAdmin w.payroll) (hnot : ¬ Overtakes i w.payroll) :
    ProposedByAdmin (next w i).payroll := by
  rcases next_payroll w i with ⟨call, ret, hx, -⟩ | ⟨hsame, -⟩
  · exact h.exec hx hnot
  · rw [hsame]
    exact h

theorem overtaking_leaves_stale_proposal (h : ProposedByAdmin w.payroll)
    (hover : Overtakes i w.payroll) : ¬ ProposedByAdmin (Payroll.next w i).payroll := by
  intro hafter
  cases hover with
  | rotation newAdmin hm hpaused hnamed hauth hfree hreplaces hpending =>
    obtain ⟨proposal, hproposal, hnamed⟩ := hnamed
    obtain ⟨addrs, haddrs, hne⟩ := hreplaces
    obtain ⟨handover, hhandover⟩ := hpending
    have hf := acceptAdminRotation_ok.mpr
      ⟨hpaused, proposal, hproposal, hnamed, hauth, hfree, addrs, haddrs, rfl⟩
    rw [next_stores hm rfl hf] at hafter
    have hbefore := h.handover handover hhandover
    have := hafter.handover handover (by simpa using hhandover)
    simp_all
  | handover pendingAdmin hm hpaused hnamed hauth hreplaces hpending =>
    obtain ⟨handover, hhandover, hnamed⟩ := hnamed
    obtain ⟨addrs, haddrs, hne⟩ := hreplaces
    obtain ⟨proposal, hproposal⟩ := hpending
    have hf := acceptAdminHandover_ok.mpr
      ⟨hpaused, handover, hhandover, hnamed, hauth, addrs, haddrs, rfl⟩
    rw [next_stores hm rfl hf] at hafter
    have hbefore := h.rotation proposal hproposal
    have := hafter.rotation proposal (by simpa using hproposal)
    simp_all

-- ---------------------------------------------------------------------------
-- Runs
-- ---------------------------------------------------------------------------

theorem ProposedByAdmin.replacesProposer {st : Step World Input}
    (h : ProposedByAdmin st.pre.payroll) : ReplacesProposer st := by
  refine ⟨fun newAdmin ret hperf => ?_, fun pendingAdmin ret hperf => ?_⟩
  · obtain ⟨_, -, hok⟩ := executes_performed hperf
    obtain ⟨_, hf, -, -⟩ := onStorage_ok.mp hok
    obtain ⟨-, proposal, hproposal, -, -, -, addrs, haddrs, -⟩ := acceptAdminRotation_ok.mp hf
    have hadmin := h.rotation proposal hproposal
    exact ⟨proposal, addrs, hproposal, haddrs, by simpa [haddrs, eq_comm] using hadmin⟩
  · obtain ⟨_, -, hok⟩ := executes_performed hperf
    obtain ⟨_, hf, -, -⟩ := onStorage_ok.mp hok
    obtain ⟨-, handover, hhandover, -, -, addrs, haddrs, -⟩ := acceptAdminHandover_ok.mp hf
    have hadmin := h.handover handover hhandover
    exact ⟨handover, addrs, hhandover, haddrs, by simpa [haddrs, eq_comm] using hadmin⟩

/-- In every run in which no acceptance overtakes a proposal of the other
protocol, each acceptance replaces the admin who proposed it. -/
theorem acceptance_replaces_proposer (inputs : List Input)
    (hnone : ∀ st ∈ steps next World.genesis inputs, ¬ Overtakes st.input st.pre.payroll) :
    ∀ st ∈ steps next World.genesis inputs, ReplacesProposer st := by
  intro st hst
  have hstart : ProposedByAdmin World.genesis.payroll := proposedByAdmin_empty
  have hpre : ProposedByAdmin st.pre.payroll :=
    steps_invariant_pre (I := fun w => ProposedByAdmin w.payroll) hstart
      (fun w i h hnot => h.next hnot) hnone hst
  exact hpre.replacesProposer

end

namespace Sample

def proposals (both : Bool) : List Input :=
  [deploy, call [admin] (.proposeAdminRotation admin alice)] ++
    if both then [call [admin] (.requestAdminHandover admin bob)] else []

def rotated (both : Bool) : List Input :=
  proposals both ++ [call [alice] (.acceptAdminRotation alice)]

end Sample

theorem rotation_alone_replaces_proposer :
    ((runFrom next World.genesis (Sample.rotated false)).payroll.get .addresses).map (·.admin) =
        some Sample.alice ∧
      ∀ st ∈ steps next World.genesis (Sample.rotated false), ReplacesProposer st := by
  refine ⟨rfl, acceptance_replaces_proposer _ ?_⟩
  have hnone : ∀ st ∈ steps next World.genesis (Sample.rotated false),
      st.pre.payroll.get .pendingAdminHandover = none := by decide +kernel
  intro st hst hover
  cases hover with
  | rotation _ _ _ _ _ _ _ hpending =>
    obtain ⟨handover, hhandover⟩ := hpending
    simp [hnone st hst] at hhandover
  | handover _ _ _ hnamed =>
    obtain ⟨handover, hhandover, -⟩ := hnamed
    simp [hnone st hst] at hhandover

/-- After the rotation to `alice` the handover the first admin asked for is
still there, and `bob` takes the role from her. -/
theorem stale_handover_replaces_stranger :
    let w := runFrom next World.genesis (Sample.rotated true)
    let i := Sample.call [Sample.bob] (.acceptAdminHandover Sample.bob)
    (w.payroll.get .addresses).map (·.admin) = some Sample.alice ∧
      (w.payroll.get .pendingAdminHandover).map (·.currentAdmin) = some Sample.admin ∧
      ((next w i).payroll.get .addresses).map (·.admin) = some Sample.bob ∧
      ¬ ReplacesProposer ⟨w, i, next w i⟩ := by
  intro w i
  have hadmin : (w.payroll.get .addresses).map (·.admin) = some Sample.alice := rfl
  have hproposer : (w.payroll.get .pendingAdminHandover).map (·.currentAdmin) =
      some Sample.admin := rfl
  refine ⟨hadmin, hproposer, rfl, fun h => ?_⟩
  obtain ⟨handover, addrs, hhandover, haddrs, hsame⟩ := h.handover Sample.bob .unit rfl
  rw [haddrs] at hadmin
  rw [hhandover] at hproposer
  have hmixed : Sample.admin = Sample.alice :=
    (Option.some.inj hproposer).symm.trans (hsame.trans (Option.some.inj hadmin))
  exact absurd hmixed (by decide)

end ZkPayroll.Payroll
