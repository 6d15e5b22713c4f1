import ZkPayroll.Host.Primality
import Mathlib.Tactic.NormNum.Prime

/-!
# The scalar field of BN254

The field of the circuits, of `generate_proof.js` (`BN254_R`) and of the
blinding factors of the command-line tool. That its order is prime is proved by
Lucas's test, down a tree of the prime factors of what precedes each prime.
-/

namespace ZkPayroll.Circuits

open Host

/-- The order `r` of the scalar field. -/
def bn254R : Nat :=
  21888242871839275222246405745257275088548364400416034343698204186575808495617

/-- A signal of a circuit. -/
abbrev Fr := ZMod bn254R

theorem prime_405928799 : Nat.Prime 405928799 := by
  apply lucasTest_prime 29 22
    [2, 11, 3691, 4999] (by decide +kernel)
  simp only [List.forall_mem_cons]
  exact ⟨by norm_num, by norm_num, by norm_num, by norm_num, List.forall_mem_nil _⟩

theorem prime_12048837557 : Nat.Prime 12048837557 := by
  apply lucasTest_prime 34 2
    [2, 7, 661, 93001] (by decide +kernel)
  simp only [List.forall_mem_cons]
  exact ⟨by norm_num, by norm_num, by norm_num, by norm_num, List.forall_mem_nil _⟩

theorem prime_5156902474397 : Nat.Prime 5156902474397 := by
  apply lucasTest_prime 43 2
    [2, 107, 12048837557] (by decide +kernel)
  simp only [List.forall_mem_cons]
  exact ⟨by norm_num, by norm_num, prime_12048837557, List.forall_mem_nil _⟩

theorem prime_1670836401704629 : Nat.Prime 1670836401704629 := by
  apply lucasTest_prime 51 2
    [2, 3, 5156902474397] (by decide +kernel)
  simp only [List.forall_mem_cons]
  exact ⟨by norm_num, by norm_num, prime_5156902474397, List.forall_mem_nil _⟩

theorem prime_639533339 : Nat.Prime 639533339 := by
  apply lucasTest_prime 30 2
    [2, 229, 853, 1637] (by decide +kernel)
  simp only [List.forall_mem_cons]
  exact ⟨by norm_num, by norm_num, by norm_num, by norm_num, List.forall_mem_nil _⟩

theorem prime_65865678001877903 : Nat.Prime 65865678001877903 := by
  apply lucasTest_prime 56 5
    [2, 83, 379, 1637, 639533339] (by decide +kernel)
  simp only [List.forall_mem_cons]
  exact ⟨by norm_num, by norm_num, by norm_num, by norm_num, prime_639533339,
    List.forall_mem_nil _⟩

theorem prime_13818364434197438864469338081 : Nat.Prime 13818364434197438864469338081 := by
  apply lucasTest_prime 94 3
    [2, 5, 823, 1593227, 65865678001877903] (by decide +kernel)
  simp only [List.forall_mem_cons]
  exact ⟨by norm_num, by norm_num, by norm_num, by norm_num, prime_65865678001877903,
    List.forall_mem_nil _⟩

theorem bn254R_prime : bn254R.Prime := by
  apply lucasTest_prime 254 5
    [2, 3, 13, 29, 983, 11003, 237073, 405928799, 1670836401704629, 13818364434197438864469338081]
    (by decide +kernel)
  simp only [List.forall_mem_cons]
  exact ⟨by norm_num, by norm_num, by norm_num, by norm_num, by norm_num, by norm_num,
    by norm_num, prime_405928799, prime_1670836401704629, prime_13818364434197438864469338081,
    List.forall_mem_nil _⟩

instance : Fact bn254R.Prime := ⟨bn254R_prime⟩

end ZkPayroll.Circuits
