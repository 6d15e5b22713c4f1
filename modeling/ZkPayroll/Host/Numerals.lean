import Mathlib.Data.Nat.Digits.Lemmas

/-!
# Numerals of a fixed width

Digit lists with the most significant digit first, as byte strings and text
encodings have them. `number` reads such a list in a base and `numeral` writes
a number in a given width; on lists of digits below the base the two are
inverse to each other. A byte string is a numeral in base 256.
-/

namespace ZkPayroll.Host

def number (base : Nat) (digits : List Nat) : Nat := Nat.ofDigits base digits.reverse

/-- The last `width` digits of a number in the base. -/
def numeral (base : Nat) : (width n : Nat) → List Nat
  | 0, _ => []
  | width + 1, n => numeral base width (n / base) ++ [n % base]

section
variable {base : Nat} {digits digits' : List Nat}

@[simp] theorem number_nil : number base [] = 0 := rfl

@[simp] theorem number_singleton (d : Nat) : number base [d] = d := Nat.ofDigits_singleton

theorem number_append (front back : List Nat) :
    number base (front ++ back) = number base front * base ^ back.length + number base back := by
  rw [number, List.reverse_append, Nat.ofDigits_append, List.length_reverse, number, number,
    Nat.add_comm, Nat.mul_comm]

theorem number_snoc (digits : List Nat) (d : Nat) :
    number base (digits ++ [d]) = number base digits * base + d := by
  rw [number_append, List.length_singleton, Nat.pow_one, number_singleton]

theorem foldl_eq_number (digits : List Nat) :
    digits.foldl (fun value d => value * base + d) 0 = number base digits := by
  induction digits using List.reverseRecOn with
  | nil => rfl
  | append_singleton digits d ih => rw [List.foldl_append, ih, number_snoc]; rfl

theorem number_lt (hbase : 1 < base) (h : ∀ d ∈ digits, d < base) :
    number base digits < base ^ digits.length := by
  rw [← List.length_reverse]
  exact Nat.ofDigits_lt_base_pow_length hbase fun d hd => h d (List.mem_reverse.mp hd)

theorem number_append_divMod (hbase : 1 < base) (front : List Nat) (h : ∀ d ∈ digits, d < base) :
    number base (front ++ digits) / base ^ digits.length = number base front ∧
      number base (front ++ digits) % base ^ digits.length = number base digits := by
  have hlt := number_lt hbase h
  rw [number_append, Nat.mul_comm]
  constructor
  · rw [Nat.mul_add_div (by omega), Nat.div_eq_of_lt hlt, Nat.add_zero]
  · rw [Nat.mul_add_mod, Nat.mod_eq_of_lt hlt]

theorem number_inj (hbase : 1 < base) (hlength : digits.length = digits'.length)
    (h : ∀ d ∈ digits, d < base) (h' : ∀ d ∈ digits', d < base)
    (heq : number base digits = number base digits') : digits = digits' := by
  refine List.reverse_injective (Nat.ofDigits_inj_of_len_eq hbase ?_ ?_ ?_ heq)
  · rw [List.length_reverse, List.length_reverse, hlength]
  · exact fun d hd => h d (List.mem_reverse.mp hd)
  · exact fun d hd => h' d (List.mem_reverse.mp hd)

@[simp] theorem length_numeral (width n : Nat) : (numeral base width n).length = width := by
  induction width generalizing n with
  | zero => rfl
  | succ width ih => rw [numeral, List.length_append, ih]; rfl

theorem lt_of_mem_numeral (hbase : 0 < base) {n : Nat} (h : d ∈ numeral base width n) :
    d < base := by
  induction width generalizing n with
  | zero => cases h
  | succ width ih =>
    rcases List.mem_append.mp h with h | h
    · exact ih h
    · obtain rfl := List.mem_singleton.mp h
      exact Nat.mod_lt _ hbase

theorem number_numeral (width n : Nat) :
    number base (numeral base width n) = n % base ^ width := by
  induction width generalizing n with
  | zero => simp [numeral, Nat.mod_one]
  | succ width ih =>
    rw [numeral, number_snoc, ih, Nat.pow_succ, Nat.mul_comm (base ^ width), Nat.mod_mul,
      Nat.add_comm, Nat.mul_comm]

theorem numeral_number (hbase : 1 < base) (h : ∀ d ∈ digits, d < base) :
    numeral base digits.length (number base digits) = digits := by
  refine number_inj hbase (length_numeral _ _) (fun d => lt_of_mem_numeral (by omega)) h ?_
  rw [number_numeral, Nat.mod_eq_of_lt (number_lt hbase h)]

end

-- ---------------------------------------------------------------------------
-- Byte strings
-- ---------------------------------------------------------------------------

def bytesValue (bytes : List UInt8) : Nat := number 256 (bytes.map UInt8.toNat)

def valueBytes (width n : Nat) : List UInt8 := (numeral 256 width n).map UInt8.ofNat

theorem bytesValue_append (front back : List UInt8) :
    bytesValue (front ++ back) = bytesValue front * 256 ^ back.length + bytesValue back := by
  rw [bytesValue, List.map_append, number_append, List.length_map, bytesValue, bytesValue]

theorem bytesValue_snoc (bytes : List UInt8) (b : UInt8) :
    bytesValue (bytes ++ [b]) = bytesValue bytes * 256 + b.toNat := by
  rw [bytesValue, List.map_append, List.map_singleton, number_snoc, bytesValue]

theorem bytesValue_lt (bytes : List UInt8) : bytesValue bytes < 256 ^ bytes.length := by
  rw [← List.length_map (f := UInt8.toNat)]
  refine number_lt (by decide) fun d hd => ?_
  obtain ⟨b, -, rfl⟩ := List.mem_map.mp hd
  exact b.toNat_lt

theorem bytesValue_inj {bytes bytes' : List UInt8} (hlength : bytes.length = bytes'.length)
    (h : bytesValue bytes = bytesValue bytes') : bytes = bytes' := by
  have hdigit : ∀ bytes : List UInt8, ∀ d ∈ bytes.map UInt8.toNat, d < 256 := by
    intro bytes d hd
    obtain ⟨b, -, rfl⟩ := List.mem_map.mp hd
    exact b.toNat_lt
  have hmap := number_inj (by decide) (by simpa using hlength) (hdigit bytes) (hdigit bytes') h
  exact List.map_injective_iff.mpr (fun _ _ => UInt8.toNat_inj.mp) hmap

@[simp] theorem length_valueBytes (width n : Nat) : (valueBytes width n).length = width := by
  rw [valueBytes, List.length_map, length_numeral]

theorem bytesValue_valueBytes (width n : Nat) :
    bytesValue (valueBytes width n) = n % 256 ^ width := by
  have hdigits : (valueBytes width n).map UInt8.toNat = numeral 256 width n := by
    rw [valueBytes, List.map_map]
    refine (List.map_congr_left fun d hd => ?_).trans (List.map_id _)
    exact UInt8.toNat_ofNat_of_lt' (lt_of_mem_numeral (by decide) hd)
  rw [bytesValue, hdigits, number_numeral]

theorem valueBytes_inj (hn : n < 256 ^ width) (hm : m < 256 ^ width)
    (h : valueBytes width n = valueBytes width m) : n = m := by
  have hvalue := congrArg bytesValue h
  rwa [bytesValue_valueBytes, bytesValue_valueBytes, Nat.mod_eq_of_lt hn,
    Nat.mod_eq_of_lt hm] at hvalue

end ZkPayroll.Host
