import ZkPayroll.Host.Checked

/-!
# Error codes

A contract function that returns a `Result` fails in two ways: with one of
its error codes, or by a panic of its own or of anything it calls. Neither
leaves a write. The readers turn a success into what was checked, and a
failure with a code into the check that gave it.
-/

namespace ZkPayroll.Host

inductive Failure (ε : Type)
  | code (c : ε)
  | panic (msg : Panic)
  deriving DecidableEq

abbrev Outcome (ε : Type) := Except (Failure ε)

section
variable {ε : Type}

def orPanic (r : Result α) : Outcome ε α := r.mapError .panic

def check (p : Prop) [Decidable p] (c : ε) : Outcome ε Unit :=
  if p then pure () else throw (.code c)

/-- `Option::ok_or`. -/
def okOr (o : Option α) (c : ε) : Outcome ε α :=
  match o with
  | some a => pure a
  | none => throw (.code c)

-- ---------------------------------------------------------------------------
-- Successes
-- ---------------------------------------------------------------------------

theorem orPanic_ok {r : Result α} : (orPanic r : Outcome ε α) = .ok a ↔ r = .ok a := by
  cases r <;> simp [orPanic, Except.mapError]

theorem check_ok {p : Prop} [Decidable p] {c : ε} : check p c = .ok u ↔ p := by
  unfold check
  split
  · rename_i hp
    exact ⟨fun _ => hp, fun _ => rfl⟩
  · rename_i hp
    simp [hp]

theorem okOr_ok {c : ε} : okOr o c = .ok a ↔ o = some a := by
  cases o <;> simp [okOr, pure, Except.pure]

-- ---------------------------------------------------------------------------
-- Failures of either kind
-- ---------------------------------------------------------------------------

theorem bind_error {x : Outcome ε α} {f : α → Outcome ε β} {err : Failure ε} :
    x >>= f = .error err ↔ x = .error err ∨ ∃ a, x = .ok a ∧ f a = .error err := by
  cases x <;> simp [bind, Except.bind]

theorem check_error {p : Prop} [Decidable p] {c : ε} {err : Failure ε} :
    check p c = .error err ↔ ¬ p ∧ err = .code c := by
  unfold check
  split
  · rename_i hp
    simp [hp, pure, Except.pure]
  · rename_i hp
    simp [hp, throw, throwThe, MonadExceptOf.throw, eq_comm]

theorem okOr_error {c : ε} {err : Failure ε} :
    okOr o c = .error err ↔ o = none ∧ err = .code c := by
  cases o <;> simp [okOr, pure, Except.pure, throw, throwThe, MonadExceptOf.throw, eq_comm]

-- ---------------------------------------------------------------------------
-- Failures with a code
-- ---------------------------------------------------------------------------

theorem bind_code {x : Outcome ε α} {f : α → Outcome ε β} {c : ε} :
    x >>= f = .error (.code c) ↔
      x = .error (.code c) ∨ ∃ a, x = .ok a ∧ f a = .error (.code c) := bind_error

theorem pure_code {c : ε} : (pure a : Outcome ε α) = .error (.code c) ↔ False := by
  simp [pure, Except.pure]

theorem orPanic_code {r : Result α} {c : ε} :
    (orPanic r : Outcome ε α) = .error (.code c) ↔ False := by
  cases r <;> simp [orPanic, Except.mapError]

theorem check_code {p : Prop} [Decidable p] {c c' : ε} :
    check p c = .error (.code c') ↔ ¬ p ∧ c = c' := by
  simp [check_error, eq_comm]

theorem okOr_code {c c' : ε} : okOr o c = .error (.code c') ↔ o = none ∧ c = c' := by
  simp [okOr_error, eq_comm]

end

end ZkPayroll.Host
