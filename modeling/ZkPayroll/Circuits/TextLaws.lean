import ZkPayroll.Circuits.ProofHelper

/-!
# What the generator writes, the helper reads

Decimal and hexadecimal numbers from one side to the other, and the fields of
the file. The scanner stops at every quote; between two quotes stands a name, a
value or what separates them, so it finds the first field of a name unless a
value is equal to it.
-/

namespace ZkPayroll.Circuits

open Host

-- ---------------------------------------------------------------------------
-- Numbers of the script
-- ---------------------------------------------------------------------------

section
variable {base n : Nat} {text : Text}

theorem digitValue_digitChar (hbase : base ≤ 16) (h : d < base) :
    digitValue base (Nat.digitChar d) = some d := by
  have hall : ∀ d : Fin 16, ∀ base : Fin 17, (d : Nat) < base →
      digitValue base (Nat.digitChar d) = some (d : Nat) := by decide +kernel
  exact hall ⟨d, by omega⟩ ⟨base, by omega⟩ h

theorem digitsValue_toDigits (hone : 1 < base) (hbase : base ≤ 16) (n : Nat) :
    digitsValue base (Nat.toDigits base n) = some n := by
  have hne : ∀ n, Nat.toDigits base n ≠ [] := fun n =>
    List.ne_nil_of_length_pos Nat.length_toDigits_pos
  induction n using Nat.strong_induction_on with
  | _ n ih =>
    rw [Nat.toDigits_eq_if hone]
    split
    · rename_i hlt
      simp [digitsValue, digitValue_digitChar hbase hlt]
    · rename_i hge
      have hquotient : n / base < n := Nat.div_lt_self (by omega) hone
      have hfirst := ih (n / base) hquotient
      have hlast := digitValue_digitChar hbase (Nat.mod_lt n (by omega : 0 < base))
      simp only [digitsValue, hne, if_false] at hfirst
      simp only [digitsValue, List.append_eq_nil_iff, hne, false_and, if_false, List.foldlM_append,
        hfirst, Option.bind_eq_bind, Option.bind_some, List.foldlM_cons, hlast, Option.map_some,
        List.foldlM_nil, Nat.div_add_mod, Option.pure_def]

theorem isDigit_not_blank (h : c.isDigit = true) : isBlank c = false := by
  have hrange : 48 ≤ c.toNat ∧ c.toNat ≤ 57 := by
    simpa [Char.isDigit, UInt32.le_iff_toNat_le] using h
  simp [isBlank]
  omega

theorem trim_digits (h : ∀ c ∈ text, c.isDigit = true) : trim text = text := by
  have hkeep : ∀ text : Text, (∀ c ∈ text, c.isDigit = true) → text.dropWhile isBlank = text := by
    intro text htext
    cases text with
    | nil => rfl
    | cons c text =>
      rw [List.dropWhile_cons_of_neg]
      simp [isDigit_not_blank (htext c List.mem_cons_self)]
  rw [trim, hkeep text h, hkeep text.reverse fun c hc => h c (List.mem_reverse.mp hc),
    List.reverse_reverse]

theorem stringToBigInt_digits (h : ∀ c ∈ text, c.isDigit = true)
    (hvalue : digitsValue 10 text = some n) : stringToBigInt text = some (n : Int) := by
  -- no sign and no mark of another base stands in front of a digit
  unfold stringToBigInt
  split
  · simp [digitsValue] at hvalue
  all_goals first
    | exact absurd (h _ (List.mem_cons_of_mem _ List.mem_cons_self)) (by decide)
    | exact absurd (h _ List.mem_cons_self) (by decide)
    | rw [hvalue]; rfl

theorem bigInt_toDigits (n : Nat) : bigInt (Nat.toDigits 10 n) = .ok (n : Int) := by
  have hdigit : ∀ c ∈ Nat.toDigits 10 n, c.isDigit = true := fun c =>
    Nat.isDigit_of_mem_toDigits (by decide) (by decide)
  have hvalue : digitsValue 10 (Nat.toDigits 10 n) = some n :=
    digitsValue_toDigits (by decide) (by decide) n
  rw [bigInt, trim_digits hdigit, stringToBigInt_digits hdigit hvalue]
  rfl

@[irreducible] def feText (n : Nat) : Text := hexText (valueBytes 32 n)

theorem fieldElemToHex32_nat (m : Nat) : fieldElemToHex32 (m : Int) =
    if m < 256 ^ 32 then .ok (feText m)
    else .error ("Field element too large for 32 bytes: ".toList ++ Nat.toDigits 10 m) := by
  have hwidth : 64 < (Nat.toDigits 16 m).length ↔ ¬ m < 256 ^ 32 := by
    have hpow : (16 : Nat) ^ 64 = 256 ^ 32 := by norm_num
    rw [← hpow, ← length_toDigits (by decide) (by decide), Nat.not_le]
  have hneg : ¬ (m : Int) < 0 := by omega
  rw [fieldElemToHex32, if_neg hneg]
  by_cases h : m < 256 ^ 32
  · rw [if_pos h, feText, ← padStart_hex h (by decide)]
    exact if_neg (not_not.mpr h ∘ hwidth.mp)
  · rw [if_neg h]
    exact if_pos (hwidth.mpr h)

theorem fieldElemToHex32_ok {n : Int} : fieldElemToHex32 n = .ok hex ↔
    ∃ m : Nat, n = m ∧ m < 256 ^ 32 ∧ hex = feText m := by
  by_cases hneg : n < 0
  · rw [fieldElemToHex32, if_pos hneg]
    constructor
    · intro h
      cases h
    · rintro ⟨m, rfl, -⟩
      omega
  · obtain ⟨m, rfl⟩ := Int.eq_ofNat_of_zero_le (Int.not_lt.mp hneg)
    rw [fieldElemToHex32_nat]
    constructor
    · intro h
      by_cases hlt : m < 256 ^ 32
      · rw [if_pos hlt] at h
        exact ⟨m, rfl, hlt, (Except.ok.inj h).symm⟩
      · rw [if_neg hlt] at h
        cases h
    · rintro ⟨m', hm, hlt, rfl⟩
      obtain rfl : m = m' := Int.natCast_inj.mp hm
      rw [if_pos hlt]

end

-- ---------------------------------------------------------------------------
-- Decimal arguments
-- ---------------------------------------------------------------------------

theorem decimalDigits_reverse (h : 0 < n) :
    (decimalDigits n).reverse.map (fun b => Char.ofNat b.toNat) = Nat.toDigits 10 n := by
  have hdigit : ∀ d : Fin 10, Char.ofNat (UInt8.ofNat (48 + d)).toNat = Nat.digitChar d := by decide
  induction n using Nat.strong_induction_on with
  | _ n ih =>
    have hlast := hdigit ⟨n % 10, Nat.mod_lt n (by decide)⟩
    rw [decimalDigits, if_neg (by omega), List.reverse_cons, List.map_append, List.map_singleton,
      Nat.toDigits_eq_if (by decide)]
    split
    · rename_i hlt
      rw [Nat.div_eq_of_lt hlt, decimalDigits, if_pos rfl]
      simp only [Nat.mod_eq_of_lt hlt] at hlast
      simpa [Nat.mod_eq_of_lt hlt] using hlast
    · rename_i hge
      rw [ih (n / 10) (by omega) (by omega)]
      exact congrArg _ (congrArg (fun c => [c]) hlast)

theorem argument_eq (n : UInt64) : argument n = Nat.toDigits 10 n.toNat := by
  unfold argument u64ToDecimal
  split
  · rename_i hzero
    subst hzero
    decide
  · rename_i hne
    have hpos : 0 < n.toNat := by
      rcases Nat.eq_zero_or_pos n.toNat with hzero | hpos
      · exact absurd (UInt64.toNat_inj.mp hzero) hne
      · exact hpos
    exact decimalDigits_reverse hpos

-- ---------------------------------------------------------------------------
-- Hexadecimal fields
-- ---------------------------------------------------------------------------

theorem fromStrRadix16_byte (b : UInt8) :
    fromStrRadix16 [digitByte (b.toNat / 16), digitByte (b.toNat % 16)] = some b := by
  have hall : ∀ n : Fin 256,
      fromStrRadix16 [digitByte (n / 16), digitByte (n % 16)] = some (UInt8.ofNat n) := by
    decide +kernel
  have hb := hall ⟨b.toNat, b.toNat_lt⟩
  rwa [UInt8.ofNat_toNat] at hb

theorem isCharBoundary_hexText (bytes : List UInt8) :
    isCharBoundary (utf8 (hexText bytes)) = true := by
  have hall : ∀ d : Fin 16, isCharBoundary [digitByte d] = true := by decide
  rw [utf8_hexText]
  cases bytes with
  | nil => rfl
  | cons b bytes => exact hall ⟨b.toNat / 16, by have := b.toNat_lt; omega⟩

theorem decodePairs_hexText (bytes : List UInt8) :
    decodePairs bytes.length (utf8 (hexText bytes)) = .ok (some ⟨bytes, rfl⟩) := by
  induction bytes with
  | nil => rfl
  | cons b bytes ih =>
    have hrest := isCharBoundary_hexText bytes
    rw [utf8_hexText] at hrest ih ⊢
    simp only [List.flatMap_cons, List.cons_append, List.nil_append, List.length_cons, decodePairs,
      hrest, ensure, if_true, fromStrRadix16_byte, ih]
    rfl

theorem hexDecode_hexText (v : BytesN n) : hexDecode n (utf8 (hexText v.toList)) = .ok (some v) := by
  obtain ⟨bytes, rfl⟩ := v
  have hlength : (utf8 (hexText bytes)).length = bytes.length * 2 := by
    rw [utf8_hexText]
    induction bytes with
    | nil => rfl
    | cons b bytes ih =>
      rw [List.flatMap_cons, List.length_append, ih, List.length_cons]
      simp only [List.length_cons, List.length_nil]
      omega
  rw [hexDecode, List.Vector.toList_mk, if_neg (not_not.mpr hlength)]
  exact decodePairs_hexText bytes

-- ---------------------------------------------------------------------------
-- Fields of the file
-- ---------------------------------------------------------------------------

section
variable {field name value segment json : Str}

theorem extractStrField_short (h : json.length < field.length + 2) :
    extractStrField json field = none := by
  cases json with
  | nil => rfl
  | cons b json => rw [extractStrField, if_pos h]

theorem extractStrField_cons (hb : b ≠ 34) :
    extractStrField (b :: json) field = extractStrField json field := by
  rw [extractStrField]
  split
  · rename_i hshort
    rw [extractStrField_short]
    rw [List.length_cons] at hshort
    omega
  · simp [hb]

theorem extractStrField_skip (h : 34 ∉ segment) :
    extractStrField (segment ++ json) field = extractStrField json field := by
  induction segment with
  | nil => rfl
  | cons b segment ih =>
    rw [List.mem_cons, not_or] at h
    rw [List.cons_append, extractStrField_cons (Ne.symm h.1), ih h.2]

theorem extractStrField_quote (hsegment : 34 ∉ segment) (hfield : 34 ∉ field) :
    extractStrField (34 :: (segment ++ 34 :: json)) field =
      if field = segment then fieldValue json else extractStrField (34 :: json) field := by
  have hmatch : (segment ++ 34 :: json).take field.length = field ∧
      (segment ++ 34 :: json)[field.length]? = some 34 ↔ field = segment := by
    constructor
    · rintro ⟨htake, hquote⟩
      rcases Nat.lt_trichotomy field.length segment.length with hlt | heq | hgt
      · rw [List.getElem?_append_left hlt] at hquote
        exact absurd (List.mem_of_getElem? hquote) hsegment
      · rw [heq, List.take_left' rfl] at htake
        exact htake.symm
      · have hmem : (34 : UInt8) ∈ (segment ++ 34 :: json).take field.length := by
          rw [List.take_append, List.take_of_length_le (Nat.le_of_lt hgt)]
          refine List.mem_append_right _ ?_
          obtain ⟨k, hk⟩ : ∃ k, field.length - segment.length = k + 1 :=
            ⟨field.length - segment.length - 1, by omega⟩
          rw [hk, List.take_succ_cons]
          exact List.mem_cons_self
        rw [htake] at hmem
        exact absurd hmem hfield
    · rintro rfl
      simp
  rw [extractStrField]
  simp only [true_and, hmatch]
  split
  · rename_i hshort
    rw [List.length_cons, List.length_append, List.length_cons] at hshort
    rw [if_neg]
    · rw [extractStrField_short]
      rw [List.length_cons]
      omega
    · rintro rfl
      omega
  · split
    · rename_i heq
      subst heq
      rw [List.drop_append, List.drop_of_length_le (by omega)]
      simp
    · exact extractStrField_skip hsegment

theorem before_quote (h : 34 ∉ value) : before 34 (value ++ 34 :: json) = some value := by
  induction value with
  | nil => rfl
  | cons b value ih =>
    rw [List.mem_cons, not_or] at h
    rw [List.cons_append, before, if_neg (Ne.symm h.1), ih h.2, Option.map_some]

theorem fieldValue_quoted (h : 34 ∉ value) :
    fieldValue (utf8 ": ".toList ++ 34 :: (value ++ 34 :: json)) = some value := by
  have hcolon : utf8 ": ".toList = [58, 32] := by decide
  rw [hcolon]
  exact before_quote h

end

def line (entry : Str × Str) : Str :=
  utf8 "\n  ".toList ++ 34 :: (entry.1 ++ 34 :: (utf8 ": ".toList ++ 34 :: entry.2))

theorem utf8_line (key value : Text) :
    utf8 ("\n  \"".toList ++ key ++ "\": \"".toList ++ value ++ "\"".toList) =
      line (utf8 key, utf8 value) ++ [34] := by
  have hquote : utf8 "\"".toList = [34] := by decide
  have hopen : utf8 "\n  \"".toList = utf8 "\n  ".toList ++ [34] := by decide
  have hmiddle : utf8 "\": \"".toList = 34 :: (utf8 ": ".toList ++ [34]) := by decide
  simp only [utf8_append, hquote, hopen, hmiddle, line, List.append_assoc, List.cons_append,
    List.nil_append]

theorem utf8_stringify (entries : List (Text × Text)) :
    utf8 (stringify entries) = utf8 "\x7b".toList ++
      (((entries.map fun entry => (utf8 entry.1, utf8 entry.2)).map fun entry =>
        line entry ++ [34]).intersperse (utf8 ",".toList)).flatten ++ utf8 "\n\x7d".toList := by
  simp only [stringify, utf8_append]
  congr 2
  induction entries with
  | nil => rfl
  | cons entry entries ih =>
    cases entries with
    | nil => simp only [List.map_cons, List.map_nil, List.intersperse_singleton, List.flatten_cons,
        List.flatten_nil, List.append_nil, utf8_line]
    | cons entry' entries =>
      simp only [List.map_cons] at ih ⊢
      rw [List.intersperse_cons_cons, List.flatten_cons, List.flatten_cons, utf8_append, utf8_line,
        utf8_append, ih, List.intersperse_cons_cons, List.flatten_cons, List.flatten_cons]

structure IsName (field : Str) : Prop where
  unquoted : 34 ∉ field
  colon : field ≠ utf8 ": ".toList
  comma : field ≠ utf8 ",\n  ".toList

/-- An entry the scanner for a field reads or passes over. -/
structure Readable (field : Str) (entry : Str × Str) : Prop where
  name : 34 ∉ entry.1
  value : 34 ∉ entry.2
  other : entry.2 ≠ field

section
variable {field : Str} {entry : Str × Str}

theorem extractStrField_line (hfield : IsName field) (h : Readable field entry) (json : Str) :
    extractStrField (line entry ++ 34 :: json) field =
      if field = entry.1 then some entry.2 else extractStrField (34 :: json) field := by
  have hindent : (34 : UInt8) ∉ utf8 "\n  ".toList := by decide
  have hcolon : (34 : UInt8) ∉ utf8 ": ".toList := by decide
  have hline : line entry ++ 34 :: json = utf8 "\n  ".toList ++
      34 :: (entry.1 ++ 34 :: (utf8 ": ".toList ++ 34 :: (entry.2 ++ 34 :: json))) := by
    simp [line]
  rw [hline, extractStrField_skip hindent, extractStrField_quote h.name hfield.unquoted]
  split
  · exact fieldValue_quoted h.value
  · rw [extractStrField_quote hcolon hfield.unquoted, if_neg hfield.colon,
      extractStrField_quote h.value hfield.unquoted, if_neg (Ne.symm h.other)]

theorem extractStrField_comma (hfield : IsName field) (entry : Str × Str) (json : Str) :
    extractStrField (34 :: (utf8 ",".toList ++ (line entry ++ json))) field =
      extractStrField (line entry ++ json) field := by
  have hcomma : (34 : UInt8) ∉ utf8 ",
  ".toList := by decide
  have hindent : (34 : UInt8) ∉ utf8 "
  ".toList := by decide
  have hsplit : utf8 ",
  ".toList = utf8 ",".toList ++ utf8 "
  ".toList := by decide
  simp only [line, List.append_assoc, List.cons_append]
  rw [extractStrField_skip hindent, ← List.append_assoc, ← hsplit,
    extractStrField_quote hcomma hfield.unquoted, if_neg hfield.comma]

theorem extractStrField_lines (hfield : IsName field) (entries : List (Str × Str)) (last : Str)
    (hlast : 34 ∉ last) (h : ∀ entry ∈ entries, Readable field entry) :
    extractStrField (((entries.map fun entry => line entry ++ [34]).intersperse
      (utf8 ",".toList)).flatten ++ last) field = entries.lookup field := by
  have hnone : extractStrField (34 :: last) field = none := by
    rw [extractStrField]
    have hquote : last[field.length]? ≠ some 34 := fun hquote => hlast (List.mem_of_getElem? hquote)
    have hend : extractStrField (last ++ []) field = extractStrField [] field :=
      extractStrField_skip hlast
    rw [List.append_nil] at hend
    simp [hquote, hend, extractStrField]
  induction entries with
  | nil =>
    have hend : extractStrField (last ++ []) field = extractStrField [] field :=
      extractStrField_skip hlast
    rw [List.append_nil] at hend
    exact hend
  | cons entry entries ih =>
    obtain ⟨hentry, hentries⟩ := List.forall_mem_cons.mp h
    cases entries with
    | nil =>
      simp only [List.map_cons, List.map_nil, List.intersperse_singleton, List.flatten_cons,
        List.flatten_nil, List.append_nil, List.append_assoc, List.cons_append, List.nil_append]
      rw [extractStrField_line hfield hentry, hnone, List.lookup_cons, List.lookup_nil]
      by_cases hname : field = entry.1
      · simp [hname]
      · rw [if_neg hname, beq_false_of_ne hname]
    | cons entry' entries =>
      rw [List.lookup_cons, ← ih hentries]
      simp only [List.map_cons, List.intersperse_cons_cons, List.flatten_cons, List.append_assoc,
        List.cons_append, List.nil_append]
      have hfirst : ∃ json, ((((line entry' ++ [34]) ::
          entries.map fun entry => line entry ++ [34]).intersperse (utf8 ",".toList)).flatten ++
            last) = line entry' ++ json := by
        cases entries with
        | nil => exact ⟨34 :: last, by simp⟩
        | cons entry'' entries =>
          simp only [List.map_cons, List.intersperse_cons_cons, List.flatten_cons,
            List.append_assoc]
          exact ⟨_, rfl⟩
      obtain ⟨json, hjson⟩ := hfirst
      rw [extractStrField_line hfield hentry, hjson, extractStrField_comma hfield]
      by_cases hname : field = entry.1
      · simp [hname]
      · rw [if_neg hname, beq_false_of_ne hname]

end

end ZkPayroll.Circuits
