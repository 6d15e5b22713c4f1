import ZkPayroll.Host.Numerals
import Mathlib.Tactic.IntervalCases

/-!
# Hexadecimal text

Two lower-case digits for a byte, the high half first. A number padded with
zeros to a fixed even width is the text of its big-endian bytes.
-/

namespace ZkPayroll.Host

def hexPair (b : UInt8) : List Char := [Nat.digitChar (b.toNat / 16), Nat.digitChar (b.toNat % 16)]

def hexText (bytes : List UInt8) : List Char := bytes.flatMap hexPair

def utf8 (text : List Char) : List UInt8 := text.flatMap String.utf8EncodeChar

def padStart (width : Nat) (text : List Char) : List Char :=
  List.replicate (width - text.length) '0' ++ text

-- ---------------------------------------------------------------------------
-- Bytes
-- ---------------------------------------------------------------------------

@[simp] theorem utf8_append (front back : List Char) :
    utf8 (front ++ back) = utf8 front ++ utf8 back :=
  List.flatMap_append ..

@[simp] theorem utf8_nil : utf8 [] = [] := rfl

theorem utf8_cons (c : Char) (text : List Char) :
    utf8 (c :: text) = String.utf8EncodeChar c ++ utf8 text := rfl

def digitByte (d : Nat) : UInt8 := UInt8.ofNat (if d < 10 then 48 + d else 87 + d)

theorem utf8_digitChar (h : d < 16) : String.utf8EncodeChar (Nat.digitChar d) = [digitByte d] := by
  have hall : ∀ d : Fin 16, String.utf8EncodeChar (Nat.digitChar d) = [digitByte d] := by decide
  exact hall ⟨d, h⟩

theorem utf8_hexText (bytes : List UInt8) :
    utf8 (hexText bytes) =
      bytes.flatMap fun b => [digitByte (b.toNat / 16), digitByte (b.toNat % 16)] := by
  induction bytes with
  | nil => rfl
  | cons b bytes ih =>
    have hb := b.toNat_lt
    have hhigh := utf8_digitChar (d := b.toNat / 16) (by omega)
    have hlow := utf8_digitChar (d := b.toNat % 16) (by omega)
    rw [hexText, List.flatMap_cons, utf8_append, ← hexText, ih, List.flatMap_cons, hexPair,
      utf8_cons, utf8_cons, hhigh, hlow]
    rfl

-- ---------------------------------------------------------------------------
-- Numbers
-- ---------------------------------------------------------------------------

theorem numeral_zero (width : Nat) : numeral base width 0 = List.replicate width 0 := by
  induction width with
  | zero => rfl
  | succ width ih => rw [numeral, Nat.zero_div, ih, Nat.zero_mod, List.replicate_succ']

theorem length_toDigits (hbase : 1 < base) (hwidth : 0 < width) :
    (Nat.toDigits base n).length ≤ width ↔ n < base ^ width := by
  induction width generalizing n with
  | zero => cases hwidth
  | succ width ih =>
    rw [Nat.toDigits_eq_if hbase]
    split
    · rename_i hlt
      refine ⟨fun _ => hlt.trans_le (Nat.le_self_pow (by omega) base), fun _ => ?_⟩
      simp
    · rename_i hge
      rw [List.length_append, List.length_singleton, Nat.add_le_add_iff_right, Nat.pow_succ,
        ← Nat.div_lt_iff_lt_mul (by omega)]
      rcases Nat.eq_zero_or_pos width with rfl | hpos
      · have hquotient : 0 < n / base := Nat.div_pos (by omega) (by omega)
        have hlength := Nat.length_toDigits_pos (b := base) (n := n / base)
        simp only [Nat.pow_zero]
        omega
      · exact ih hpos

theorem padStart_toDigits (hbase : 1 < base) (h : n < base ^ width) (hwidth : 0 < width) :
    padStart width (Nat.toDigits base n) = (numeral base width n).map Nat.digitChar := by
  induction width generalizing n with
  | zero => cases hwidth
  | succ width ih =>
    rw [numeral, List.map_append, padStart, Nat.toDigits_eq_if hbase]
    split
    · rename_i hlt
      rw [Nat.div_eq_of_lt hlt, numeral_zero, Nat.mod_eq_of_lt hlt, List.map_replicate]
      rfl
    · rename_i hge
      have hquotient : n / base < base ^ width := by
        rw [Nat.div_lt_iff_lt_mul (by omega), ← Nat.pow_succ]
        exact h
      have hpos : 0 < width := by
        rcases Nat.eq_zero_or_pos width with rfl | hpos
        · rw [Nat.zero_add, Nat.pow_one] at h
          omega
        · exact hpos
      rw [← ih hquotient hpos, List.length_append, List.length_singleton, Nat.add_sub_add_right,
        padStart, List.append_assoc]
      rfl

theorem numeral_pairs (base width n : Nat) :
    numeral base (2 * width) n =
      (numeral (base * base) width n).flatMap fun d => [d / base, d % base] := by
  induction width generalizing n with
  | zero => rfl
  | succ width ih =>
    have hwidth : 2 * (width + 1) = 2 * width + 1 + 1 := by omega
    rw [hwidth, numeral, numeral, ih, Nat.div_div_eq_div_mul, numeral, List.flatMap_append,
      List.append_assoc, List.flatMap_singleton, Nat.mod_mul_right_div_self,
      Nat.mod_mul_right_mod]
    rfl

theorem padStart_hex (h : n < 256 ^ width) (hwidth : 0 < width) :
    padStart (2 * width) (Nat.toDigits 16 n) = hexText (valueBytes width n) := by
  have hpow : (16 : Nat) ^ (2 * width) = 256 ^ width := by rw [Nat.pow_mul]
  rw [padStart_toDigits (by decide) (hpow ▸ h) (by omega), numeral_pairs, hexText, valueBytes,
    List.flatMap_map, List.map_flatMap]
  refine List.flatMap_congr fun d hd => ?_
  have hlt : d < 256 := lt_of_mem_numeral (by decide) hd
  rw [hexPair, UInt8.toNat_ofNat_of_lt' hlt]
  rfl

end ZkPayroll.Host
