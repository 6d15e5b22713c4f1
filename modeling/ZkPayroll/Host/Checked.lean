import Mathlib.Algebra.Order.Group.Int
import Mathlib.Algebra.Group.Nat.Defs
import Mathlib.Algebra.Ring.Int.Defs

/-!
# Computations that can abort

A contract call returns a value or aborts with a message, and an aborted call
leaves no writes. The readers below (`bind_ok`, `ensure_ok`, `expect_ok` and
the arithmetic ones) turn the success of a computation into what it checked.

Integers are mathematical; the fixed-width types of the source appear as the
range checks of its arithmetic. Release builds have overflow checks on, so
`+` and `-` abort where the checked operations give nothing.
-/

namespace ZkPayroll.Host

/-- The message a call aborts with. -/
abbrev Panic := String

abbrev Result := Except Panic

def ensure (p : Prop) [Decidable p] (msg : Panic) : Result Unit :=
  if p then pure () else throw msg

def expect (o : Option α) (msg : Panic) : Result α :=
  match o with
  | some a => pure a
  | none => throw msg

theorem bind_ok {x : Except ε α} {f : α → Except ε β} :
    x >>= f = .ok b ↔ ∃ a, x = .ok a ∧ f a = .ok b := by
  cases x <;> simp [bind, Except.bind]

theorem pure_ok : (pure a : Except ε α) = .ok b ↔ b = a := by
  simp [pure, Except.pure, eq_comm]

@[simp] theorem throw_ok {err : ε} : (throw err : Except ε α) = .ok b ↔ False := by
  simp [throw, throwThe, MonadExceptOf.throw]

theorem ensure_ok {p : Prop} [Decidable p] : ensure p msg = .ok u ↔ p := by
  unfold ensure
  split
  · rename_i hp
    exact ⟨fun _ => hp, fun _ => rfl⟩
  · rename_i hp
    simp [hp]

theorem expect_ok : expect o msg = .ok a ↔ o = some a := by
  cases o <;> simp [expect, pure, Except.pure]

-- ---------------------------------------------------------------------------
-- Fixed-width integers
-- ---------------------------------------------------------------------------

def i128Max : Int := 2 ^ 127 - 1

def i128Min : Int := -2 ^ 127

def u64Max : Nat := 2 ^ 64 - 1

def u32Max : Nat := 2 ^ 32 - 1

def InI128 (x : Int) : Prop := i128Min ≤ x ∧ x ≤ i128Max

instance (x : Int) : Decidable (InI128 x) := inferInstanceAs (Decidable (_ ∧ _))

/-- `i128::checked_add` and `i128::checked_sub`. -/
def checkedAdd (a b : Int) : Option Int := if InI128 (a + b) then some (a + b) else none

def checkedSub (a b : Int) : Option Int := if InI128 (a - b) then some (a - b) else none

theorem checkedAdd_some : checkedAdd a b = some c ↔ InI128 (a + b) ∧ c = a + b := by
  unfold checkedAdd
  split <;> simp_all [eq_comm]

theorem checkedSub_some : checkedSub a b = some c ↔ InI128 (a - b) ∧ c = a - b := by
  unfold checkedSub
  split <;> simp_all [eq_comm]

def addI128 (a b : Int) : Result Int := expect (checkedAdd a b) "attempt to add with overflow"

def subI128 (a b : Int) : Result Int := expect (checkedSub a b) "attempt to subtract with overflow"

theorem addI128_ok : addI128 a b = .ok c ↔ InI128 (a + b) ∧ c = a + b := by
  simp [addI128, expect_ok, checkedAdd_some]

theorem subI128_ok : subI128 a b = .ok c ↔ InI128 (a - b) ∧ c = a - b := by
  simp [subI128, expect_ok, checkedSub_some]

/-- Unsigned `+`, aborting past `bound`, the largest value of the type. -/
def addUpTo (bound a b : Nat) : Result Nat := do
  ensure (a + b ≤ bound) "attempt to add with overflow"
  return a + b

abbrev addU64 := addUpTo u64Max

abbrev addU32 := addUpTo u32Max

theorem addUpTo_ok : addUpTo bound a b = .ok c ↔ a + b ≤ bound ∧ c = a + b := by
  simp only [addUpTo, bind_ok, ensure_ok, pure_ok, exists_const]

end ZkPayroll.Host
