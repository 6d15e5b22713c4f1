import Mathlib.Algebra.Field.ZMod
import Mathlib.Algebra.Polynomial.Div
import Mathlib.Data.BitVec
import Mathlib.RingTheory.Coprime.Lemmas
import Mathlib.Tactic.ComputeDegree
import Mathlib.Tactic.LinearCombination

/-!
# Cyclic redundancy checks

A number stands for the polynomial over the field of two elements whose
coefficients are its bits; exclusive or adds. The register of a check is
shifted one bit at a time (`divideBit`) and stays congruent to what was shifted
in, modulo a generator one degree above it. Two words that the generator divides
and that differ within as many neighbouring bits as the register has are the
same (`burst_detected`).
-/

namespace ZkPayroll.Host

open Polynomial

/-- The polynomial with the bits of the number as coefficients. -/
noncomputable def bitPoly (n : Nat) : (ZMod 2)[X] :=
  ∑ i ∈ Finset.range n, if n.testBit i then X ^ i else 0

/-- The generator, whose top coefficient the register has no bit for. -/
noncomputable def generator (g : BitVec w) : (ZMod 2)[X] := X ^ w + bitPoly g.toNat

/-- The register moves up one place; the generator is taken off when its top bit
falls out. -/
def divideBit (g r : BitVec w) : BitVec w := if r.msb then (r <<< 1) ^^^ g else r <<< 1

section
variable {n m k : Nat}

theorem testBit_lt {i : Nat} (h : n.testBit i = true) : i < n :=
  Nat.lt_of_lt_of_le Nat.lt_two_pow_self (Nat.ge_two_pow_of_testBit h)

theorem coeff_bitPoly (n i : Nat) : (bitPoly n).coeff i = if n.testBit i then 1 else 0 := by
  have hterm : ∀ j, (if n.testBit j then (X : (ZMod 2)[X]) ^ j else 0).coeff i =
      if i = j then (if n.testBit i then 1 else 0) else 0 := by
    intro j
    by_cases hj : i = j
    · subst hj
      split_ifs <;> simp_all
    · split_ifs <;> simp [coeff_X_pow, hj]
  rw [bitPoly, finsetSum_coeff, Finset.sum_congr rfl fun j _ => hterm j, Finset.sum_ite_eq]
  by_cases hbit : n.testBit i = true
  · simp [hbit, testBit_lt hbit]
  · simp [hbit]

@[simp] theorem bitPoly_zero : bitPoly 0 = 0 := by simp [bitPoly]

theorem bitPoly_xor (n m : Nat) : bitPoly (n ^^^ m) = bitPoly n + bitPoly m := by
  ext i
  simp only [coeff_add, coeff_bitPoly, Nat.testBit_xor]
  cases n.testBit i <;> cases m.testBit i <;> decide

theorem bitPoly_inj (h : bitPoly n = bitPoly m) : n = m := by
  refine Nat.eq_of_testBit_eq fun i => ?_
  have hcoeff := congrArg (coeff · i) h
  simp only [coeff_bitPoly] at hcoeff
  cases hn : n.testBit i <;> cases hm : m.testBit i <;> simp_all

theorem degree_bitPoly_lt (h : n < 2 ^ k) : (bitPoly n).degree < k := by
  refine (degree_lt_iff_coeff_zero _ _).mpr fun i hi => ?_
  rw [coeff_bitPoly, Nat.testBit_lt_two_pow (h.trans_le (Nat.pow_le_pow_right (by decide) hi))]
  rfl

theorem bitPoly_append (n : Nat) (h : m < 2 ^ k) :
    bitPoly (n * 2 ^ k + m) = X ^ k * bitPoly n + bitPoly m := by
  ext i
  rw [coeff_add, coeff_X_pow_mul', coeff_bitPoly, coeff_bitPoly, coeff_bitPoly, Nat.mul_comm,
    Nat.testBit_two_pow_mul_add n h]
  by_cases hi : i < k
  · simp [hi]
  · have hm : m.testBit i = false :=
      Nat.testBit_lt_two_pow (h.trans_le (Nat.pow_le_pow_right (by decide) (by omega)))
    simp [hi, hm, Nat.le_of_not_lt hi]

theorem bitPoly_split (n k : Nat) :
    bitPoly n = X ^ k * bitPoly (n / 2 ^ k) + bitPoly (n % 2 ^ k) := by
  rw [← bitPoly_append _ (Nat.mod_lt n (Nat.two_pow_pos k)), Nat.div_add_mod']

theorem bitPoly_shift (n k : Nat) : bitPoly (n * 2 ^ k) = X ^ k * bitPoly n := by
  simpa using bitPoly_append n (Nat.two_pow_pos k)

end

-- ---------------------------------------------------------------------------
-- The register
-- ---------------------------------------------------------------------------

section
variable {g r : BitVec w}

theorem generator_monic (g : BitVec w) : (generator g).Monic :=
  monic_X_pow_add (degree_bitPoly_lt g.isLt)

theorem degree_generator (g : BitVec w) : (generator g).degree = w := by
  rw [generator, degree_add_eq_left_of_degree_lt]
  · exact degree_X_pow w
  · rw [degree_X_pow]
    exact degree_bitPoly_lt g.isLt

theorem eq_zero_of_generator_dvd {p : (ZMod 2)[X]} (h : generator g ∣ p) (hp : p.degree < w) :
    p = 0 := by
  refine eq_zero_of_dvd_of_degree_lt h ?_
  rwa [degree_generator]

theorem remainder_unique {n : Nat} {p : (ZMod 2)[X]} (hn : n < 2 ^ w)
    (h : generator g ∣ bitPoly n - p) : bitPoly n = p %ₘ generator g := by
  obtain ⟨q, hq⟩ := h
  refine (div_modByMonic_unique (-q) (bitPoly n) (generator_monic g) ⟨?_, ?_⟩).2.symm
  · linear_combination hq
  · rw [degree_generator]
    exact degree_bitPoly_lt hn

theorem divideBit_congr (g r : BitVec w) :
    generator g ∣ bitPoly (divideBit g r).toNat - X * bitPoly r.toNat := by
  have hup : X * bitPoly r.toNat = bitPoly (r.toNat * 2) := by
    simpa using (bitPoly_shift r.toNat 1).symm
  have hshift : (r <<< 1).toNat = r.toNat * 2 % 2 ^ w := by
    rw [BitVec.toNat_shiftLeft, Nat.shiftLeft_eq, Nat.pow_one]
  have hlt := r.isLt
  have hmsb := r.msb_eq_decide
  unfold divideBit
  split
  · rename_i htop
    rw [htop, eq_comm, decide_eq_true_eq] at hmsb
    have hw : 0 < w := by
      by_contra hw
      obtain rfl : w = 0 := by omega
      omega
    have hhalf := Nat.two_pow_pred_mul_two hw
    -- the bit that falls out is the generator's top coefficient
    have hfall : r.toNat * 2 = 1 * 2 ^ w + (r <<< 1).toNat := by
      rw [hshift, Nat.mod_eq_sub_mod (by omega), Nat.mod_eq_of_lt (by omega)]
      omega
    have htwo : (2 : (ZMod 2)[X]) = 0 := CharTwo.two_eq_zero
    have hone : bitPoly 1 = 1 := by simp [bitPoly]
    refine ⟨1, ?_⟩
    rw [hup, hfall, bitPoly_append 1 (r <<< 1).isLt, BitVec.toNat_xor, bitPoly_xor, hone, generator]
    linear_combination -X ^ w * htwo
  · rename_i htop
    rw [Bool.not_eq_true] at htop
    rw [htop, eq_comm, decide_eq_false_iff_not] at hmsb
    have hkept : (r <<< 1).toNat = r.toNat * 2 := by
      rw [hshift]
      refine Nat.mod_eq_of_lt ?_
      rcases Nat.eq_zero_or_pos w with rfl | hw
      · omega
      · have hhalf := Nat.two_pow_pred_mul_two hw
        omega
    rw [hup, hkept, sub_self]
    exact dvd_zero _

theorem divideBit_iterate (g r : BitVec w) (count : Nat) :
    generator g ∣ bitPoly ((divideBit g)^[count] r).toNat - X ^ count * bitPoly r.toNat := by
  induction count with
  | zero => simp
  | succ count ih =>
    rw [Function.iterate_succ_apply']
    have hlast := divideBit_congr g ((divideBit g)^[count] r)
    have hsum := dvd_add hlast (ih.mul_left X)
    convert hsum using 1
    ring

end

-- ---------------------------------------------------------------------------
-- Bursts
-- ---------------------------------------------------------------------------

theorem isCoprime_X_generator {g : BitVec w} (hg : g.toNat.testBit 0 = true) (k : Nat) :
    IsCoprime (X ^ k) (generator g) := by
  have hlast : (generator g).coeff 0 = 1 := by
    have hw : w ≠ 0 := by
      rintro rfl
      simp [Nat.lt_one_iff.mp g.isLt] at hg
    simp [generator, coeff_bitPoly, hg, hw.symm]
  refine IsCoprime.pow_left ⟨-(generator g).divX, 1, ?_⟩
  have hsplit := divX_mul_X_add (generator g)
  rw [hlast, C_1] at hsplit
  linear_combination -hsplit

/-- Two words divided by the generator that agree below the bit `k` and from the
bit `k + w` on. -/
theorem burst_detected {g : BitVec w} (hg : g.toNat.testBit 0 = true) {n m : Nat} (k : Nat)
    (hn : generator g ∣ bitPoly n) (hm : generator g ∣ bitPoly m)
    (hbelow : n % 2 ^ k = m % 2 ^ k) (habove : n / 2 ^ (k + w) = m / 2 ^ (k + w)) : n = m := by
  rw [pow_add, ← Nat.div_div_eq_div_mul, ← Nat.div_div_eq_div_mul] at habove
  have hdiff : bitPoly n - bitPoly m =
      X ^ k * (bitPoly (n / 2 ^ k % 2 ^ w) - bitPoly (m / 2 ^ k % 2 ^ w)) := by
    rw [bitPoly_split n k, bitPoly_split (n / 2 ^ k) w, bitPoly_split m k,
      bitPoly_split (m / 2 ^ k) w, hbelow, habove]
    ring
  have hburst : generator g ∣ bitPoly (n / 2 ^ k % 2 ^ w) - bitPoly (m / 2 ^ k % 2 ^ w) := by
    refine (isCoprime_X_generator hg k).symm.dvd_of_dvd_mul_left ?_
    rw [← hdiff]
    exact dvd_sub hn hm
  have hzero := eq_zero_of_generator_dvd hburst ?_
  · rw [hzero, mul_zero] at hdiff
    exact bitPoly_inj (sub_eq_zero.mp hdiff)
  · exact (degree_sub_le _ _).trans_lt
      (max_lt (degree_bitPoly_lt (Nat.mod_lt _ (Nat.two_pow_pos w)))
        (degree_bitPoly_lt (Nat.mod_lt _ (Nat.two_pow_pos w))))

end ZkPayroll.Host
