import ZkPayroll.PayrollRegistryLaws
import ZkPayroll.PaymentExecutor.Steps

/-!
# Payments and the registry's employees

`execute_payment` asks the registry for the company and the commitment
contract for the employee's commitment. It never asks whether the employee is
eligible, and the commitment stays when the registry removes or deactivates
the employee. What the executor needs from its callers is stated over the
registry's transactions: at every payment, the employee has been added since
the last removal, and the last status given is active.
-/

namespace ZkPayroll.PaymentExecutor

open Host
open PayrollRegistry (Standing getStanding isEligible)

/-- `is_eligible` of the configured registry. Payments write to no registry, so
the system before a batch is the one each of its payments is made in. -/
def Eligible (w : System) (p : PaymentRequest) : Prop :=
  ∃ addresses, w.executor.get .addresses = some addresses ∧
    isEligible (w.registries addresses.registry) p.companyId p.employee = true

def standingAfter (registry : Address) (companyId : Nat) (employee : Address) (standing : Standing)
    (st : Step System Input) : Standing :=
  match st.input.message, deliver st.input.env st.input.message st.pre with
  | .registry id call, .ok _ =>
    if id = registry then standing.after st.input.env companyId employee call else standing
  | _, _ => standing

def standing (registry : Address) (companyId : Nat) (employee : Address)
    (hist : List (Step System Input)) : Standing :=
  hist.foldl (standingAfter registry companyId employee) .unknown

section
variable {e : LedgerEnv} {w w' : System} {i : Input} {registry : Address}

-- ---------------------------------------------------------------------------
-- The registry's history
-- ---------------------------------------------------------------------------

theorem Pays.registries (hp : Pays e ps w w') : w'.registries = w.registries := by
  induction hp with
  | nil => rfl
  | cons p r _ _ ih => exact ih

theorem exec_registries (hok : exec i.env call w = .ok (ret, w')) (hm : i.message = .executor call) :
    w'.registries = w.registries := by
  rcases exec_ledger hm hok with hpays | ⟨-, -, hsame⟩
  · exact hpays.registries
  · rw [hsame]

theorem next_standing (w : System) (i : Input) (companyId : Nat) (employee : Address) :
    getStanding ((next w i).registries registry) companyId employee =
      standingAfter registry companyId employee
        (getStanding (w.registries registry) companyId employee) ⟨w, i, next w i⟩ := by
  cases hd : deliver i.env i.message w with
  | error err => simp [next_failed hd, standingAfter, hd]
  | ok result =>
    obtain ⟨ret, w'⟩ := result
    rw [next_ok hd]
    cases hm : i.message with
    | executor call =>
      rw [hm] at hd
      rw [exec_registries hd hm]
      simp [standingAfter, hm]
    | commitment id call | token id call =>
      simp only [hm, deliver, bind_ok, orPanic_ok, pure_ok, Prod.mk.injEq] at hd
      obtain ⟨_, -, -, rfl⟩ := hd
      simp [standingAfter, hm]
    | registry id call =>
      have hafter : standingAfter registry companyId employee
          (getStanding (w.registries registry) companyId employee) ⟨w, i, w'⟩ =
          if id = registry then (getStanding (w.registries registry) companyId employee).after i.env
            companyId employee call
          else getStanding (w.registries registry) companyId employee := by
        simp [standingAfter, hm, hm ▸ hd]
      rw [hafter]
      simp only [hm, deliver, bind_ok, orPanic_ok, pure_ok, Prod.mk.injEq] at hd
      obtain ⟨r, hexec, -, rfl⟩ := hd
      split_ifs with hid
      · subst hid
        simp [PayrollRegistry.exec_standing hexec]
      · simp [Ne.symm hid]

theorem standing_run (companyId : Nat) (employee : Address) (inputs : List Input) :
    getStanding ((runFrom next System.genesis inputs).registries registry) companyId employee =
      standing registry companyId employee (steps next System.genesis inputs) := by
  refine history_invariant (I := fun hist w =>
    getStanding (w.registries registry) companyId employee =
      standing registry companyId employee hist) rfl ?_ inputs
  intro hist w i h
  rw [next_standing, h, standing, standing, List.foldl_append]
  rfl

-- ---------------------------------------------------------------------------
-- Paid employees
-- ---------------------------------------------------------------------------

/-- In a run every employee is eligible at the moment of each payment exactly
when each payment submitted, with its own guards met, is to an employee whom
the registry's transactions so far have added and neither removed nor taken
out of the active status since. -/
theorem only_eligible_paid_iff (inputs : List Input) :
    (∀ st ∈ steps next System.genesis inputs, ∀ p ∈ acceptedPayments st, Eligible st.pre p) ↔
      ∀ before i after, inputs = before ++ i :: after →
        ∀ p, Submits ⟨runFrom next System.genesis before, i,
          next (runFrom next System.genesis before) i⟩ p →
        ∃ addresses, (runFrom next System.genesis before).executor.get .addresses = some addresses ∧
          standing addresses.registry p.companyId p.employee (steps next System.genesis before) =
            ⟨true, .active⟩ := by
  have heligible : ∀ before p, Eligible (runFrom next System.genesis before) p ↔
      ∃ addresses, (runFrom next System.genesis before).executor.get .addresses = some addresses ∧
        standing addresses.registry p.companyId p.employee (steps next System.genesis before) =
          ⟨true, .active⟩ := by
    intro before p
    simp only [Eligible, PayrollRegistry.isEligible_iff, standing_run]
  constructor
  · rintro h before i after rfl p hp
    refine (heligible before p).mp (h ⟨_, i, _⟩ ?_ p (mem_acceptedPayments.mpr hp))
    rw [steps_append]
    exact List.mem_append_right _ List.mem_cons_self
  · intro h st hst p hp
    obtain ⟨before, after, hinputs, hpre, -⟩ := mem_steps hst
    rw [mem_acceptedPayments, steps_eq hst, hpre] at hp
    rw [hpre]
    exact (heligible before p).mpr (h before st.input after hinputs p hp)

end

/-- An employee added and then removed, one made inactive and one never added
are all paid. -/
theorem ineligible_employees_paid :
    let added : Input := ⟨Sample.env [Sample.hr 0],
      .registry Sample.registry (.addEmployee 0 Sample.alice (Sample.digest 1))⟩
    let removed : Input := ⟨Sample.env [Sample.hr 0],
      .registry Sample.registry (.removeEmployee 0 Sample.alice)⟩
    let deactivated : Input := ⟨Sample.env [Sample.hr 0],
      .registry Sample.registry (.setEmployeeStatus 0 Sample.alice .inactive)⟩
    let pays := Sample.companyCall 0 (.executePayment (Sample.payment 0 1 1))
    ∀ before ∈ [Sample.deployed ++ [added, removed], Sample.deployed ++ [added, deactivated],
      Sample.deployed],
      let w := runFrom next System.genesis before
      acceptedPayments ⟨w, pays, next w pays⟩ = [Sample.payment 0 1 1] ∧
        w.executor.get .addresses = some Sample.addresses ∧
        isEligible (w.registries Sample.registry) 0 Sample.alice = false := by
  decide +kernel

end ZkPayroll.PaymentExecutor
