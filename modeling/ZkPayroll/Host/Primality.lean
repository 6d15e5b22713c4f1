import Mathlib.Data.List.Prime
import Mathlib.NumberTheory.LucasPrimality

/-!
# Primality of large numbers

Lucas's test with the prime factors of `p - 1` at hand. The powers are taken by
squaring, so the kernel can run the test on moduli of hundreds of bits. A
factor too large for trial division is proved prime by a test of its own.
-/

namespace ZkPayroll.Host

/-- `acc * a ^ n` modulo `p`, one squaring for each binary digit of `n`. -/
def powMod (p : Nat) : (digits acc a n : Nat) → Nat
  | 0, acc, _, _ => acc % p
  | digits + 1, acc, a, n =>
    powMod p digits (if n % 2 = 1 then acc * a % p else acc) (a * a % p) (n / 2)

/-- `a` has order `p - 1`, given that the factors are those of `p - 1`. -/
def lucasTest (digits p a : Nat) (factors : List Nat) : Bool :=
  2 ≤ p && p ≤ 2 ^ digits && factors.prod ^ digits % (p - 1) == 0 &&
    powMod p digits 1 a (p - 1) == 1 &&
    factors.all fun q => powMod p digits 1 a ((p - 1) / q) != 1

theorem powMod_eq (h : n < 2 ^ digits) : powMod p digits acc a n = acc * a ^ n % p := by
  induction digits generalizing acc a n with
  | zero =>
    obtain rfl : n = 0 := by simpa using h
    simp [powMod]
  | succ digits ih =>
    have hhalf : n / 2 < 2 ^ digits := by
      rw [Nat.pow_succ] at h
      omega
    have hsquares : (a * a % p) ^ (n / 2) ≡ a ^ (2 * (n / 2)) [MOD p] := by
      rw [Nat.pow_mul, Nat.pow_two]
      exact (Nat.mod_modEq _ _).pow _
    rw [powMod, ih hhalf]
    split
    · rename_i hodd
      have hn : a ^ n = a * a ^ (2 * (n / 2)) := by
        rw [← Nat.pow_succ']
        congr
        omega
      rw [hn, ← Nat.mul_assoc]
      exact (Nat.mod_modEq _ _).mul hsquares
    · rename_i heven
      have hn : a ^ n = a ^ (2 * (n / 2)) := by
        congr
        omega
      rw [hn]
      exact hsquares.mul_left acc

theorem powMod_one (hp : 2 ≤ p) (h : n < 2 ^ digits) :
    powMod p digits 1 a n = 1 ↔ (a : ZMod p) ^ n = 1 := by
  rw [powMod_eq h, Nat.one_mul, ← Nat.cast_pow, ← Nat.cast_one (R := ZMod p),
    ZMod.natCast_eq_natCast_iff', Nat.mod_eq_of_lt hp]

theorem lucasTest_prime (digits a : Nat) (factors : List Nat)
    (h : lucasTest digits p a factors = true) (hprime : ∀ q ∈ factors, q.Prime) : p.Prime := by
  simp only [lucasTest, Bool.and_eq_true, decide_eq_true_eq, beq_iff_eq, List.all_eq_true,
    bne_iff_ne] at h
  obtain ⟨⟨⟨⟨hp, hdigits⟩, hfactors⟩, hfull⟩, hpart⟩ := h
  refine lucas_primality p a ((powMod_one hp (by omega)).mp hfull) fun q hq hdvd => ?_
  have hprod : q ∣ factors.prod :=
    hq.dvd_of_dvd_pow (hdvd.trans (Nat.dvd_of_mod_eq_zero hfactors))
  obtain ⟨factor, hfactor, hqfactor⟩ := hq.prime.dvd_prod_iff.mp hprod
  obtain rfl := (Nat.prime_dvd_prime_iff_eq hq (hprime factor hfactor)).mp hqfactor
  have hlt : (p - 1) / q < 2 ^ digits := (Nat.div_le_self _ _).trans_lt (by omega)
  exact (powMod_one hp hlt).not.mp (hpart q hfactor)

end ZkPayroll.Host
