import Mathlib.Algebra.Field.ZMod
import Mathlib.Data.Nat.Digits.Lemmas

/-!
# Bit decompositions in a prime field

A field element is decomposed into `n` bits, the lowest first, by values that
are 0 or 1 and sum up to it under the weights 1, 2, 4 and so on. As long as
`2 ^ n` does not exceed the order of the field nothing wraps around: the element
is below `2 ^ n`, and the bits are those of its value (`decomposes_iff`).
-/

namespace ZkPayroll.Host

/-- The lowest `n` binary digits of a number, the lowest first. -/
def bits (n v : Nat) : List Nat := (List.range n).map fun i => v >>> i &&& 1

/-- The sum of the values under the weights 1, 2, 4 and so on. -/
def weighted {R : Type} [Semiring R] : List R → R
  | [] => 0
  | b :: rest => b + 2 * weighted rest

structure Decomposes {R : Type} [Ring R] (n : Nat) (v : R) (out : List R) : Prop where
  width : out.length = n
  binary : ∀ b ∈ out, b * (b - 1) = 0
  sum : weighted out = v

-- ---------------------------------------------------------------------------
-- Digits
-- ---------------------------------------------------------------------------

section
variable {R : Type}

@[simp] theorem length_bits (n v : Nat) : (bits n v).length = n := by simp [bits]

theorem lt_of_mem_bits (h : d ∈ bits n v) : d < 2 := by
  obtain ⟨i, -, rfl⟩ := List.mem_map.mp h
  exact Nat.and_lt_two_pow (n := 1) _ (by decide)

theorem bits_succ (n v : Nat) : bits (n + 1) v = v % 2 :: bits n (v / 2) := by
  have hshift : ∀ i, v >>> (i + 1) = (v / 2) >>> i := by
    intro i
    rw [Nat.add_comm, Nat.shiftRight_add, Nat.shiftRight_one]
  simp only [bits, List.range_succ_eq_map, List.map_cons, List.map_map, Nat.shiftRight_zero,
    Nat.and_one_is_mod]
  congr 1
  exact List.map_congr_left fun i _ => by simp only [Function.comp_apply, hshift]

theorem ofDigits_bits (n v : Nat) : Nat.ofDigits 2 (bits n v) = v % 2 ^ n := by
  induction n generalizing v with
  | zero => simp [bits, Nat.mod_one]
  | succ n ih =>
    rw [bits_succ, Nat.ofDigits_cons, ih, Nat.pow_succ', Nat.mod_mul]

theorem weighted_cast [Semiring R] (digits : List Nat) :
    weighted (digits.map (Nat.cast : Nat → R)) = (Nat.ofDigits 2 digits : Nat) := by
  induction digits with
  | nil => simp [weighted]
  | cons d digits ih => simp [weighted, ih, Nat.ofDigits_cons]

theorem bit_iff [Ring R] [NoZeroDivisors R] {b : R} : b * (b - 1) = 0 ↔ b = 0 ∨ b = 1 := by
  rw [mul_eq_zero, sub_eq_zero]

theorem exists_digits [Ring R] [NoZeroDivisors R] {out : List R}
    (h : ∀ b ∈ out, b * (b - 1) = 0) :
    ∃ digits : List Nat, (∀ d ∈ digits, d < 2) ∧ out = digits.map Nat.cast := by
  induction out with
  | nil => exact ⟨[], by simp, rfl⟩
  | cons b out ih =>
    obtain ⟨hb, hout⟩ := List.forall_mem_cons.mp h
    obtain ⟨digits, hdigits, rfl⟩ := ih hout
    rcases bit_iff.mp hb with rfl | rfl
    · exact ⟨0 :: digits, List.forall_mem_cons.mpr ⟨by decide, hdigits⟩, by simp⟩
    · exact ⟨1 :: digits, List.forall_mem_cons.mpr ⟨by decide, hdigits⟩, by simp⟩

end

-- ---------------------------------------------------------------------------
-- Decompositions
-- ---------------------------------------------------------------------------

section
variable {p : Nat} [Fact p.Prime] {v : ZMod p} {out : List (ZMod p)}

theorem decomposes_bits (h : v.val < 2 ^ n) :
    Decomposes n v ((bits n v.val).map Nat.cast) where
  width := by rw [List.length_map, length_bits]
  binary b hb := by
    obtain ⟨d, hd, rfl⟩ := List.mem_map.mp hb
    have hlt := lt_of_mem_bits hd
    interval_cases d <;> simp
  sum := by rw [weighted_cast, ofDigits_bits, Nat.mod_eq_of_lt h, ZMod.natCast_zmod_val]

theorem decomposes_iff (hn : 2 ^ n ≤ p) :
    Decomposes n v out ↔ v.val < 2 ^ n ∧ out = (bits n v.val).map Nat.cast := by
  constructor
  · intro h
    obtain ⟨digits, hdigits, rfl⟩ := exists_digits h.binary
    have hwidth : digits.length = n := by simpa using h.width
    have hlt : Nat.ofDigits 2 digits < 2 ^ n := by
      rw [← hwidth]
      exact Nat.ofDigits_lt_base_pow_length (by decide) hdigits
    have hval : v.val = Nat.ofDigits 2 digits := by
      rw [← h.sum, weighted_cast, ZMod.val_natCast_of_lt (hlt.trans_le hn)]
    refine ⟨hval ▸ hlt, congrArg _ ?_⟩
    refine Nat.ofDigits_inj_of_len_eq (b := 2) (by decide) ?_ hdigits
      (fun d => lt_of_mem_bits) ?_
    · rw [hwidth, length_bits]
    · rw [ofDigits_bits, hval, Nat.mod_eq_of_lt hlt]
  · rintro ⟨hlt, rfl⟩
    exact decomposes_bits hlt

end

end ZkPayroll.Host
