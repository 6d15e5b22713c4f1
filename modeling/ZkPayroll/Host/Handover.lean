import ZkPayroll.Host.Runs

/-!
# Handing over a role in two steps

A role has a holder and at most one proposal to hand it over. The holder
proposes or cancels, and the proposed successor accepts. `RoleMachine` is a
machine with such a role: what its inputs may do to the role, and that the
inputs reserved to the holder are signed by the holder. Whatever else the
machine does, every change of the holder is then a proposal by the one and an
acceptance by the other (`RoleMachine.twoStep`).
-/

namespace ZkPayroll.Host

structure Proposal (α : Type) where
  proposer : α
  successor : α
  deriving DecidableEq

structure Role (α : Type) where
  holder : Option α
  pending : Option (Proposal α)
  deriving DecidableEq

inductive Act (α : Type)
  | install (a : α)
  | propose (a b : α)
  | accept (b : α)
  | cancel (a : α)
  deriving DecidableEq

/-- The acts the protocol allows, with the signatures they need. -/
inductive Moves {α : Type} (signers : List α) : Option (Act α) → Role α → Role α → Prop
  | none : Moves signers none r r
  | install (hfree : r.holder = .none) :
      Moves signers (some (.install a)) r { r with holder := some a }
  | propose (hholder : r.holder = some a) (hsigned : a ∈ signers) (hfree : r.pending = .none) :
      Moves signers (some (.propose a b)) r { r with pending := some ⟨a, b⟩ }
  | accept (hpending : r.pending = some ⟨a, b⟩) (hsigned : b ∈ signers) :
      Moves signers (some (.accept b)) r ⟨some b, .none⟩
  | cancel (hholder : r.holder = some a) (hsigned : a ∈ signers) :
      Moves signers (some (.cancel a)) r { r with pending := .none }

def Role.Proper (r : Role α) : Prop := ∀ p, r.pending = some p → r.holder = some p.proposer

theorem Moves.proper {r r' : Role α} (h : Moves signers act r r') (hr : r.Proper) : r'.Proper := by
  intro p hp
  cases h with
  | none => exact hr p hp
  | install hfree =>
    have hholder := hr p hp
    rw [hfree] at hholder
    cases hholder
  | propose hholder =>
    obtain rfl := Option.some.inj hp
    exact hholder
  | accept => cases hp
  | cancel => cases hp

/-- A machine with a role. -/
structure RoleMachine (σ ι α : Type) where
  next : σ → ι → σ
  start : σ
  role : σ → Role α
  /-- What the input does to the role, if it goes through. -/
  act : σ → ι → Option (Act α)
  signers : ι → List α
  /-- The inputs that are for the holder only. -/
  Reserved : ι → Prop
  Succeeds : σ → ι → Prop
  role_start : role start = ⟨none, none⟩
  moves : ∀ s i, Moves (signers i) (act s i) (role s) (role (next s i))
  reserved : ∀ s i, Reserved i → Succeeds s i → ∃ a, (role s).holder = some a ∧ a ∈ signers i

namespace RoleMachine

section
variable {σ ι α : Type} (M : RoleMachine σ ι α)

def run (inputs : List ι) : σ := runFrom M.next M.start inputs

/-- Among the inputs is a proposal of `b` that `a` signed while it held the
role, and no act on the role came after it. -/
def ProposedBy (before : List ι) (a b : α) : Prop :=
  ∃ first proposal between, before = first ++ proposal :: between ∧
    M.act (M.run first) proposal = some (.propose a b) ∧
    (M.role (M.run first)).holder = some a ∧ a ∈ M.signers proposal ∧
    ∀ st ∈ steps M.next (M.next (M.run first) proposal) between, M.act st.pre st.input = none

/-- No input reserved to the holder goes through on the signature of `a`
alone. -/
def Powerless (s : σ) (a : α) : Prop :=
  ∀ i, M.Reserved i → (∀ x ∈ M.signers i, x = a) → ¬ M.Succeeds s i

/-- The holder changes in two steps. A former holder can do nothing as such,
until it accepts the role again. -/
structure TwoStep : Prop where
  proper : ∀ inputs, (M.role (M.run inputs)).Proper
  changes : ∀ before i a, (M.role (M.run before)).holder = some a →
    (M.role (M.run (before ++ [i]))).holder ≠ some a →
    ∃ b, (M.role (M.run (before ++ [i]))).holder = some b ∧
      M.ProposedBy before a b ∧ M.act (M.run before) i = some (.accept b) ∧ b ∈ M.signers i ∧
      ∀ later, (∀ st ∈ steps M.next (M.run (before ++ [i])) later,
          M.act st.pre st.input ≠ some (.accept a)) →
        M.Powerless (M.run (before ++ i :: later)) a

variable {M}

theorem run_snoc (i : ι) : M.run (inputs ++ [i]) = M.next (M.run inputs) i := runFrom_snoc i

theorem run_proper (inputs : List ι) : (M.role (M.run inputs)).Proper := by
  refine run_invariant (I := fun s => (M.role s).Proper) ?_ (fun s i hs => (M.moves s i).proper hs)
    reachable_runFrom
  intro p hp
  rw [M.role_start] at hp
  cases hp

theorem pending_proposed (h : (M.role (M.run before)).pending = some ⟨a, b⟩) :
    M.ProposedBy before a b := by
  have hstart : (M.role M.start).pending ≠ some ⟨a, b⟩ := by
    rw [M.role_start]
    simp
  have hkeep : ∀ s i, ¬ M.act s i ≠ none → (M.role (M.next s i)).pending = (M.role s).pending := by
    intro s i hact
    have hmoves := M.moves s i
    rw [not_not.mp hact] at hmoves
    generalize M.role (M.next s i) = r' at hmoves ⊢
    cases hmoves
    rfl
  obtain ⟨first, proposal, between, rfl, hact, hvalue, hbetween⟩ :=
    last_writer (fun s => (M.role s).pending) (fun s i => M.act s i ≠ none) hstart hkeep h
  refine ⟨first, proposal, between, rfl, ?_⟩
  have hproper := run_proper (M := M) first
  have hmoves := M.moves (M.run first) proposal
  have hvalue : (M.role (M.next (M.run first) proposal)).pending = some ⟨a, b⟩ := hvalue
  generalize M.role (M.next (M.run first) proposal) = r' at hmoves hvalue
  generalize hr : M.role (M.run first) = r at hmoves hproper ⊢
  generalize hwhat : M.act (M.run first) proposal = what at hmoves ⊢
  cases hmoves with
  | none => exact absurd hwhat hact
  | install hfree =>
    have hholder := hproper _ hvalue
    rw [hfree] at hholder
    cases hholder
  | propose hholder hsigned =>
    obtain ⟨rfl, rfl⟩ : _ = a ∧ _ = b := by simpa using hvalue
    exact ⟨rfl, hholder, hsigned, fun st hst => not_not.mp (hbetween st hst)⟩
  | accept => cases hvalue
  | cancel => cases hvalue

/-- The holder changes by an acceptance only. -/
theorem holder_accepts (hholder : (M.role s).holder = some a)
    (hchange : (M.role (M.next s i)).holder ≠ some a) :
    ∃ c b, (M.role s).pending = some ⟨c, b⟩ ∧ M.act s i = some (.accept b) ∧ b ∈ M.signers i ∧
      (M.role (M.next s i)).holder = some b := by
  have hmoves := M.moves s i
  generalize M.role (M.next s i) = r' at hmoves hchange ⊢
  generalize M.role s = r at hmoves hholder ⊢
  generalize M.act s i = what at hmoves ⊢
  cases hmoves with
  | none => exact absurd hholder hchange
  | install hfree =>
    rw [hfree] at hholder
    cases hholder
  | propose => exact absurd hholder hchange
  | accept hpending hsigned => exact ⟨_, _, hpending, rfl, hsigned, rfl⟩
  | cancel => exact absurd hholder hchange

theorem other_holds (hheld : ∃ b, (M.role s).holder = some b ∧ b ≠ a)
    (hlater : ∀ st ∈ steps M.next s later, M.act st.pre st.input ≠ some (.accept a)) :
    ∃ b, (M.role (runFrom M.next s later)).holder = some b ∧ b ≠ a := by
  refine steps_invariant (I := fun t => ∃ b, (M.role t).holder = some b ∧ b ≠ a)
    (C := fun st => M.act st.pre st.input ≠ some (.accept a)) hheld ?_ hlater
  rintro t i ⟨b, hb, hne⟩ hact
  by_cases hkept : (M.role (M.next t i)).holder = some b
  · exact ⟨b, hkept, hne⟩
  · obtain ⟨-, c, -, haccept, -, hc⟩ := holder_accepts hb hkept
    refine ⟨c, hc, ?_⟩
    rintro rfl
    exact hact haccept

theorem powerless_of_other (h : ∃ b, (M.role s).holder = some b ∧ b ≠ a) : M.Powerless s a := by
  intro i hreserved honly hsucceeds
  obtain ⟨b, hb, hne⟩ := h
  obtain ⟨c, hc, hsigned⟩ := M.reserved s i hreserved hsucceeds
  rw [hb] at hc
  obtain rfl := Option.some.inj hc
  exact hne (honly _ hsigned)

variable (M)

theorem twoStep : M.TwoStep := by
  refine ⟨run_proper, fun before i a hholder hchange => ?_⟩
  rw [run_snoc] at hchange
  obtain ⟨c, b, hpending, haccept, hsigned, hafter⟩ := holder_accepts hholder hchange
  have hproposer := run_proper (M := M) before _ hpending
  rw [hholder] at hproposer
  obtain rfl : a = c := Option.some.inj hproposer
  refine ⟨b, by rw [run_snoc]; exact hafter, pending_proposed hpending, haccept, hsigned, ?_⟩
  intro later hlater
  have hne : b ≠ a := by
    rintro rfl
    exact hchange hafter
  have hrun : M.run (before ++ i :: later) = runFrom M.next (M.run (before ++ [i])) later := by
    simp [run, runFrom]
  rw [hrun]
  refine powerless_of_other (other_holds ⟨b, ?_, hne⟩ hlater)
  rw [run_snoc]
  exact hafter

end

end RoleMachine

end ZkPayroll.Host
