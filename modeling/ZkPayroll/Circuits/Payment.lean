import ZkPayroll.Circuits.Field
import ZkPayroll.Host.Bits

/-!
# The payment circuit

`circuits/payment.circom` with the range proof it includes. A template is the
constraints between its signals; what the prover computes with `<--` and `<==`
is an assignment of its own, which has to satisfy them. The three public
signals are linear in the salary and the blinding factor, a placeholder for
Poseidon.
-/

namespace ZkPayroll.Circuits

open Host

-- ---------------------------------------------------------------------------
-- Range proof
-- ---------------------------------------------------------------------------

/-- The loop variables of `Num2Bits`. -/
structure Num2BitsLoop where
  lc : Fr
  e2 : Fr

def Num2BitsLoop.push (l : Num2BitsLoop) (out : Fr) : Num2BitsLoop :=
  ⟨l.lc + out * l.e2, l.e2 + l.e2⟩

/-- The constraints of the template of width `n`. -/
structure Num2Bits (n : Nat) (input : Fr) (out : List Fr) : Prop where
  width : out.length = n
  boolean : ∀ bit ∈ out, bit * (bit - 1) = 0
  recombined : (out.foldl Num2BitsLoop.push ⟨0, 1⟩).lc = input

/-- `out[i] <-- (in >> i) & 1`. -/
def num2Bits (n : Nat) (input : Fr) : List Fr :=
  (List.range n).map fun i => ((input.val >>> i &&& 1 : Nat) : Fr)

def SalaryRangeProof (salary : Fr) (bits : List Fr) : Prop := Num2Bits 64 salary bits

-- ---------------------------------------------------------------------------
-- Payment proof
-- ---------------------------------------------------------------------------

structure PublicSignals where
  salaryCommitment : Fr
  paymentNullifier : Fr
  recipientHash : Fr
  deriving DecidableEq

structure PaymentSignals where
  salary : Fr
  blinding : Fr
  bits : List Fr
  outputs : PublicSignals

structure PaymentProof (w : PaymentSignals) : Prop where
  salaryRange : SalaryRangeProof w.salary w.bits
  commitment : w.outputs.salaryCommitment = w.salary + w.blinding * 7
  nullifier : w.outputs.paymentNullifier = w.outputs.salaryCommitment * 13 + 1
  recipient : w.outputs.recipientHash = w.blinding * 31 + 17

/-- The outputs the prover computes. -/
def publicSignals (salary blinding : Fr) : PublicSignals :=
  let salaryCommitment := salary + blinding * 7
  ⟨salaryCommitment, salaryCommitment * 13 + 1, blinding * 31 + 17⟩

/-- The assignment of the prover. -/
def assignment (salary blinding : Fr) : PaymentSignals :=
  ⟨salary, blinding, num2Bits 64 salary, publicSignals salary blinding⟩

/-- The blinding factor, solved for in the recipient hash. -/
def openedBlinding (outputs : PublicSignals) : Fr := (outputs.recipientHash - 17) / 31

/-- The salary, solved for in the commitment. -/
def openedSalary (outputs : PublicSignals) : Fr :=
  outputs.salaryCommitment - openedBlinding outputs * 7

-- ---------------------------------------------------------------------------
-- Laws of the range proof
-- ---------------------------------------------------------------------------

theorem push_foldl (out : List Fr) (l : Num2BitsLoop) :
    (out.foldl Num2BitsLoop.push l).lc = l.lc + l.e2 * weighted out := by
  induction out generalizing l with
  | nil => simp [weighted]
  | cons bit out ih =>
    rw [List.foldl_cons, ih]
    simp only [Num2BitsLoop.push, weighted]
    ring

theorem num2Bits_eq : num2Bits n input = (bits n input.val).map Nat.cast := by
  simp [num2Bits, bits]

theorem num2Bits_decomposes : Num2Bits n input out ↔ Decomposes n input out := by
  have hsum : (out.foldl Num2BitsLoop.push ⟨0, 1⟩).lc = weighted out := by
    rw [push_foldl, zero_add, one_mul]
  constructor
  · rintro ⟨hwidth, hboolean, hrecombined⟩
    exact ⟨hwidth, hboolean, hsum ▸ hrecombined⟩
  · rintro ⟨hwidth, hbinary, hweighted⟩
    exact ⟨hwidth, hbinary, hsum ▸ hweighted⟩

theorem num2Bits_iff (h : 2 ^ n ≤ bn254R) :
    Num2Bits n input out ↔ input.val < 2 ^ n ∧ out = num2Bits n input := by
  rw [num2Bits_decomposes, decomposes_iff h, num2Bits_eq]

theorem num2Bits_bits {v : Nat} (h : v < 2 ^ n) :
    Num2Bits n (v : Fr) ((bits n v).map Nat.cast) := by
  refine num2Bits_decomposes.mpr ⟨by simp, ?_, ?_⟩
  · intro b hb
    obtain ⟨d, hd, rfl⟩ := List.mem_map.mp hb
    have hlt := lt_of_mem_bits hd
    interval_cases d <;> simp
  · rw [weighted_cast, ofDigits_bits, Nat.mod_eq_of_lt h]

/-- The bits of the order of the field spell 0 as well. -/
theorem num2Bits_alias (h : bn254R < 2 ^ n) :
    ∃ out, Num2Bits n 0 out ∧ Num2Bits n 0 (num2Bits n 0) ∧ out ≠ num2Bits n 0 := by
  refine ⟨(bits n bn254R).map Nat.cast, ?_, ?_, ?_⟩
  · simpa using num2Bits_bits h
  · rw [num2Bits_eq, ZMod.val_zero]
    simpa using num2Bits_bits (v := 0) (Nat.two_pow_pos n)
  · intro heq
    rw [num2Bits_eq, ZMod.val_zero] at heq
    have hdigits : ∀ v, ((bits n v).map (Nat.cast : Nat → Fr)).map ZMod.val = bits n v := by
      intro v
      rw [List.map_map]
      refine (List.map_congr_left fun d hd => ?_).trans (List.map_id _)
      have hlt := lt_of_mem_bits hd
      exact ZMod.val_natCast_of_lt (by unfold bn254R; omega)
    have hbits : bits n bn254R = bits n 0 := by rw [← hdigits bn254R, heq, hdigits]
    have hsum := congrArg (Nat.ofDigits 2) hbits
    rw [ofDigits_bits, ofDigits_bits, Nat.mod_eq_of_lt h] at hsum
    simp [bn254R] at hsum

/-- A template of width `n` decomposes exactly the values below `2 ^ n`, and those
in one way, as long as no value of `n` bits wraps around the field. Beyond that
some input has two decompositions. -/
theorem num2Bits_exact (n : Nat) :
    ((∀ input out, Num2Bits n input out ↔ input.val < 2 ^ n ∧ out = num2Bits n input) ↔
      2 ^ n ≤ bn254R) ∧
    (bn254R < 2 ^ n →
      ∃ input out out', Num2Bits n input out ∧ Num2Bits n input out' ∧ out ≠ out') := by
  constructor
  · constructor
    · intro hexact
      by_contra hwraps
      obtain ⟨out, hout, -, hother⟩ := num2Bits_alias (Nat.lt_of_not_le hwraps)
      exact hother ((hexact 0 out).mp hout).2
    · exact fun h input out => num2Bits_iff h
  · intro hwraps
    obtain ⟨out, hout, hbits, hother⟩ := num2Bits_alias hwraps
    exact ⟨0, out, num2Bits n 0, hout, hbits, hother⟩

theorem salaryRangeProof_iff :
    SalaryRangeProof salary out ↔ salary.val < 2 ^ 64 ∧ out = num2Bits 64 salary := by
  have hfits : 2 ^ 64 ≤ bn254R := by decide
  exact num2Bits_iff hfits

-- ---------------------------------------------------------------------------
-- Laws of the payment proof
-- ---------------------------------------------------------------------------

theorem thirty_one_ne_zero : (31 : Fr) ≠ 0 := by decide

theorem opened_publicSignals (salary blinding : Fr) :
    openedBlinding (publicSignals salary blinding) = blinding ∧
      openedSalary (publicSignals salary blinding) = salary := by
  have hblinding : openedBlinding (publicSignals salary blinding) = blinding := by
    simp only [openedBlinding, publicSignals, add_sub_cancel_right]
    exact mul_div_cancel_right₀ blinding thirty_one_ne_zero
  refine ⟨hblinding, ?_⟩
  rw [openedSalary, hblinding]
  simp only [publicSignals, add_sub_cancel_right]

theorem publicSignals_opened {outputs : PublicSignals}
    (h : outputs.paymentNullifier = outputs.salaryCommitment * 13 + 1) :
    publicSignals (openedSalary outputs) (openedBlinding outputs) = outputs := by
  obtain ⟨commitment, nullifier, recipient⟩ := outputs
  obtain rfl : nullifier = commitment * 13 + 1 := h
  have hrecipient : (recipient - 17) / 31 * 31 + 17 = recipient := by
    rw [div_mul_cancel₀ _ thirty_one_ne_zero, sub_add_cancel]
  simp only [publicSignals, openedSalary, openedBlinding, sub_add_cancel, hrecipient]

theorem paymentProof_iff {w : PaymentSignals} :
    PaymentProof w ↔ w.salary.val < 2 ^ 64 ∧ w = assignment w.salary w.blinding := by
  obtain ⟨salary, blinding, bits, commitment, nullifier, recipient⟩ := w
  constructor
  · rintro ⟨hrange, hcommitment, hnullifier, hrecipient⟩
    obtain ⟨hlt, hbits⟩ := salaryRangeProof_iff.mp hrange
    dsimp only at hcommitment hnullifier hrecipient hbits
    subst hcommitment hnullifier hrecipient hbits
    exact ⟨hlt, rfl⟩
  · rintro ⟨hlt, heq⟩
    simp only [assignment, publicSignals, PaymentSignals.mk.injEq, PublicSignals.mk.injEq,
      true_and] at heq
    obtain ⟨rfl, rfl, rfl, rfl⟩ := heq
    exact ⟨salaryRangeProof_iff.mpr ⟨hlt, rfl⟩, rfl, rfl, rfl⟩

/-- The public signals the prover computes have a proof when the salary is in
range. -/
theorem exists_proof_iff (salary blinding : Fr) :
    (∃ w, PaymentProof w ∧ w.outputs = publicSignals salary blinding) ↔ salary.val < 2 ^ 64 := by
  constructor
  · rintro ⟨w, hw, houtputs⟩
    obtain ⟨hlt, hassigned⟩ := paymentProof_iff.mp hw
    have hsame : publicSignals w.salary w.blinding = publicSignals salary blinding := by
      rw [← houtputs]
      exact (congrArg (·.outputs) hassigned).symm
    have hsalary := (opened_publicSignals w.salary w.blinding).2
    rw [hsame, (opened_publicSignals salary blinding).2] at hsalary
    exact hsalary ▸ hlt
  · intro hlt
    exact ⟨assignment salary blinding, paymentProof_iff.mpr ⟨hlt, rfl⟩, rfl⟩

/-- Three public signals have at most one proof, and they give its salary and
blinding factor away. They have one when the nullifier is the one of the
commitment and the salary so found is in range. -/
theorem public_signals_open (outputs : PublicSignals) :
    (∀ w, PaymentProof w → w.outputs = outputs →
      w = assignment (openedSalary outputs) (openedBlinding outputs)) ∧
    ((∃ w, PaymentProof w ∧ w.outputs = outputs) ↔
      outputs.paymentNullifier = outputs.salaryCommitment * 13 + 1 ∧
        (openedSalary outputs).val < 2 ^ 64) := by
  have hunique : ∀ w, PaymentProof w → w.outputs = outputs →
      w = assignment (openedSalary outputs) (openedBlinding outputs) := by
    rintro w hw rfl
    have hassigned := (paymentProof_iff.mp hw).2
    obtain ⟨hblinding, hsalary⟩ := opened_publicSignals w.salary w.blinding
    have houtputs : w.outputs = publicSignals w.salary w.blinding := congrArg (·.outputs) hassigned
    rw [houtputs, hblinding, hsalary]
    exact hassigned
  refine ⟨hunique, ?_⟩
  constructor
  · rintro ⟨w, hw, houtputs⟩
    have hassigned := hunique w hw houtputs
    have hsalary : w.salary = openedSalary outputs := congrArg (·.salary) hassigned
    refine ⟨houtputs ▸ hw.nullifier, ?_⟩
    rw [← hsalary]
    exact (paymentProof_iff.mp hw).1
  · rintro ⟨hnullifier, hlt⟩
    exact ⟨assignment (openedSalary outputs) (openedBlinding outputs),
      paymentProof_iff.mpr ⟨hlt, rfl⟩, publicSignals_opened hnullifier⟩

end ZkPayroll.Circuits
