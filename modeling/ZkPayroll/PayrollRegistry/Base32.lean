import ZkPayroll.Host.Numerals
import ZkPayroll.Wallet

/-!
# Base32 text

What the wallet decoder reads. A text of 56 characters has 280 bits, those of 35
bytes. The loop takes up five bits a round and gives off eight as soon as it has
them, so what it has decoded and what is left in the buffer always are the
number that the characters so far spell in base 32.
-/

namespace ZkPayroll.PayrollRegistry

open Host

def base32Char (digit : Nat) : UInt8 :=
  UInt8.ofNat (if digit < 26 then 65 + digit else 24 + digit)

/-- The RFC 4648 encoding without padding characters. The bits are taken from
the left, five for a character, the last of them filled up with zeros. -/
def base32Encode (bytes : List UInt8) : List UInt8 :=
  let width := (8 * bytes.length + 4) / 5
  (numeral 32 width (bytesValue bytes * 2 ^ (5 * width - 8 * bytes.length))).map base32Char

-- a test vector of the RFC, `foobar`
example : base32Encode [102, 111, 111, 98, 97, 114] =
    "MZXW6YTBOI".toList.map fun c => UInt8.ofNat c.toNat := by decide

def Spells (text : List UInt8) (digits : List Nat) : Prop :=
  text = digits.map base32Char ∧ ∀ digit ∈ digits, digit < 32

/-- The texts of 56 characters from `A` to `Z` and `2` to `7`. -/
def accountTexts : Set (List UInt8) :=
  {text | text.length = 56 ∧ ∀ ch ∈ text, 65 ≤ ch ∧ ch ≤ 90 ∨ 50 ≤ ch ∧ ch ≤ 55}

/-- What has been read is the bytes decoded and the bits in the buffer. -/
structure Base32State.Holds (d : Base32State) (digits : List Nat) : Prop where
  value : bytesValue d.decoded * 2 ^ d.bitsLeft + d.buffer.toNat = number 32 digits
  live : d.buffer.toNat < 2 ^ d.bitsLeft
  left : d.bitsLeft < 8
  count : 8 * d.decoded.length + d.bitsLeft = 5 * digits.length

/-- Every round of the loop shifts the buffer without losing a bit, and has a place
for the byte it completes among the 35. -/
def RoundsKeep (text : List UInt8) : Prop :=
  ∀ before ch rest, text = before ++ ch :: rest →
    ∃ d d' : Base32State, before.foldlM Base32State.push ⟨0, 0, []⟩ = some d ∧ d.push ch = some d' ∧
      (d.buffer <<< 5).toNat = d.buffer.toNat * 2 ^ 5 ∧ d.decoded.length ≤ 34

-- ---------------------------------------------------------------------------
-- Characters
-- ---------------------------------------------------------------------------

section
variable {ch value : UInt8} {buffer : UInt16} {k : Nat} {d d' : Base32State} {digits : List Nat}
  {text bytes bytes' : List UInt8}

theorem decodeBase32Char_digit (h : digit < 32) :
    decodeBase32Char (base32Char digit) = some (UInt8.ofNat digit) := by
  have hall : ∀ digit : Fin 32, decodeBase32Char (base32Char digit) = some (UInt8.ofNat digit) := by
    decide
  exact hall ⟨digit, h⟩

theorem decodeBase32Char_ok :
    decodeBase32Char ch = some value ↔ value.toNat < 32 ∧ ch = base32Char value.toNat := by
  constructor
  · intro h
    unfold decodeBase32Char at h
    split_ifs at h with hletter hdigit
    · obtain rfl := Option.some.inj h
      have hlow := UInt8.le_iff_toNat_le.mp hletter.1
      have hhigh := UInt8.le_iff_toNat_le.mp hletter.2
      simp only [UInt8.reduceToNat] at hlow hhigh
      have hvalue : (ch - 65).toNat = ch.toNat - 65 := UInt8.toNat_sub_of_le _ _ hletter.1
      rw [hvalue]
      refine ⟨by omega, ?_⟩
      rw [base32Char, if_pos (by omega), Nat.add_sub_cancel' hlow, UInt8.ofNat_toNat]
    · obtain rfl := Option.some.inj h
      have hlow := UInt8.le_iff_toNat_le.mp hdigit.1
      have hhigh := UInt8.le_iff_toNat_le.mp hdigit.2
      simp only [UInt8.reduceToNat] at hlow hhigh
      have hvalue : (ch - 50 + 26).toNat = ch.toNat - 24 := by
        rw [UInt8.toNat_add, UInt8.toNat_sub_of_le _ _ hdigit.1]
        simp only [UInt8.reduceToNat]
        omega
      rw [hvalue]
      refine ⟨by omega, ?_⟩
      rw [base32Char, if_neg (by omega), Nat.add_sub_cancel' (by omega), UInt8.ofNat_toNat]
  · rintro ⟨hvalue, rfl⟩
    rw [decodeBase32Char_digit hvalue, UInt8.ofNat_toNat]

theorem decodeBase32Char_alphabet :
    (65 ≤ ch ∧ ch ≤ 90 ∨ 50 ≤ ch ∧ ch ≤ 55) ↔ ∃ value, decodeBase32Char ch = some value := by
  unfold decodeBase32Char
  split_ifs with hletter hdigit <;> simp [*]

-- ---------------------------------------------------------------------------
-- One round
-- ---------------------------------------------------------------------------

theorem shifted_toNat (buffer : UInt16) (hk : k < 8) :
    (buffer >>> UInt16.ofNat k).toUInt8.toNat = buffer.toNat / 2 ^ k % 256 := by
  have hamount : k % 65536 % 16 = k := by omega
  rw [UInt16.toNat_toUInt8, UInt16.toNat_shiftRight, UInt16.toNat_ofNat', hamount,
    Nat.shiftRight_eq_div_pow]

theorem masked_toNat (buffer : UInt16) (hk : k < 8) :
    (if 0 < k then buffer &&& ((1 <<< UInt16.ofNat k) - 1) else 0).toNat =
      buffer.toNat % 2 ^ k := by
  have hmask : ∀ k : Fin 8, ((1 : UInt16) <<< UInt16.ofNat k - 1).toNat = 2 ^ (k : Nat) - 1 := by
    decide
  split_ifs with hpos
  · rw [UInt16.toNat_and, hmask ⟨k, hk⟩, Nat.and_two_pow_sub_one_eq_mod]
  · obtain rfl : k = 0 := by omega
    simp [Nat.mod_one]

theorem Base32State.Holds.shift (h : d.Holds digits) :
    (d.buffer <<< 5).toNat = d.buffer.toNat * 2 ^ 5 := by
  have hsmall : d.buffer.toNat < 2 ^ 7 :=
    h.live.trans_le (Nat.pow_le_pow_right (by decide) (by have := h.left; omega))
  rw [UInt16.toNat_shiftLeft, Nat.shiftLeft_eq]
  exact Nat.mod_eq_of_lt (by simpa using by omega)

theorem Base32State.Holds.filled (h : d.Holds digits) (hvalue : value.toNat < 32) :
    ((d.buffer <<< 5) ||| value.toUInt16).toNat = d.buffer.toNat * 2 ^ 5 + value.toNat := by
  rw [UInt16.toNat_or, h.shift, UInt8.toNat_toUInt16, Nat.mul_comm,
    ← Nat.two_pow_add_eq_or_of_lt hvalue]

theorem Base32State.Holds.fill (h : d.Holds digits) (hvalue : value.toNat < 32)
    (hbuffer : buffer = (d.buffer <<< 5) ||| value.toUInt16) :
    bytesValue d.decoded * 2 ^ (d.bitsLeft + 5) + buffer.toNat =
        number 32 (digits ++ [value.toNat]) ∧ buffer.toNat < 2 ^ (d.bitsLeft + 5) := by
  have hfilled := h.filled hvalue
  have hlive := h.live
  rw [hbuffer, hfilled, number_snoc, ← h.value, pow_add]
  exact ⟨by ring, by omega⟩

theorem emit_value (hk : k < 8) (hlive : buffer.toNat < 2 ^ (k + 8)) :
    bytesValue (bytes ++ [(buffer >>> UInt16.ofNat k).toUInt8]) * 2 ^ k + buffer.toNat % 2 ^ k =
      bytesValue bytes * 2 ^ (k + 8) + buffer.toNat := by
  have hbyte : buffer.toNat / 2 ^ k < 256 := by
    rw [Nat.div_lt_iff_lt_mul (Nat.two_pow_pos k)]
    rwa [pow_add, Nat.mul_comm] at hlive
  have hdivide := Nat.div_add_mod buffer.toNat (2 ^ k)
  rw [bytesValue_snoc, shifted_toNat buffer hk, Nat.mod_eq_of_lt hbyte, pow_add, Nat.add_mul]
  linarith

theorem Base32State.Holds.push (h : d.Holds digits) (hvalue : decodeBase32Char ch = some value)
    (hroom : digits.length < 56) :
    ∃ d', d.push ch = some d' ∧ d'.Holds (digits ++ [value.toNat]) := by
  obtain ⟨hnumber, hlive⟩ := h.fill (decodeBase32Char_ok.mp hvalue).1 rfl
  have hcount := h.count
  have hleft := h.left
  unfold Base32State.push
  simp only [hvalue, Option.bind_eq_bind, Option.bind_some]
  by_cases hfull : 8 ≤ d.bitsLeft + 5
  · -- a byte is complete, and there is a place for it
    rw [if_pos hfull, if_neg (by omega)]
    obtain ⟨k, hk⟩ : ∃ k, d.bitsLeft + 5 = k + 8 := ⟨d.bitsLeft + 5 - 8, by omega⟩
    rw [hk] at hnumber hlive ⊢
    rw [Nat.add_sub_cancel]
    have hk' : k < 8 := by omega
    have hcount' : 8 * (d.decoded.length + 1) + k = 5 * (digits.length + 1) := by omega
    have hmasked := masked_toNat ((d.buffer <<< 5) ||| value.toUInt16) hk'
    refine ⟨_, rfl, ?_, ?_, hk', ?_⟩
    · rw [hmasked, emit_value hk' hlive]
      exact hnumber
    · rw [hmasked]
      exact Nat.mod_lt _ (Nat.two_pow_pos k)
    · rw [List.length_append, List.length_append, List.length_singleton, List.length_singleton]
      exact hcount'
  · rw [if_neg hfull]
    refine ⟨_, rfl, hnumber, hlive, ?_, ?_⟩
    · exact Nat.lt_of_not_le hfull
    · rw [List.length_append, List.length_singleton, Nat.mul_add, ← hcount]
      rfl

-- ---------------------------------------------------------------------------
-- A whole text
-- ---------------------------------------------------------------------------

theorem Base32State.Holds.start : Base32State.Holds ⟨0, 0, []⟩ [] :=
  ⟨rfl, by decide, by decide, rfl⟩

theorem Base32State.Holds.run {more : List Nat} (h : d.Holds digits)
    (hmore : ∀ digit ∈ more, digit < 32) (hroom : digits.length + more.length ≤ 56) :
    ∃ d', (more.map base32Char).foldlM Base32State.push d = some d' ∧
      d'.Holds (digits ++ more) := by
  induction more generalizing d digits with
  | nil => exact ⟨d, rfl, by simpa using h⟩
  | cons digit more ih =>
    obtain ⟨hdigit, hrest⟩ := List.forall_mem_cons.mp hmore
    rw [List.length_cons] at hroom
    obtain ⟨d₁, hpush, hholds⟩ := h.push (decodeBase32Char_digit hdigit) (by omega)
    rw [UInt8.toNat_ofNat_of_lt' (hdigit.trans (by decide))] at hholds
    obtain ⟨d', hrun, hholds'⟩ :=
      ih hholds hrest (by rw [List.length_append, List.length_singleton]; omega)
    refine ⟨d', ?_, by simpa using hholds'⟩
    rw [List.map_cons, List.foldlM_cons, hpush]
    exact hrun

theorem spells_of_chars (h : ∀ ch ∈ text, ∃ value, decodeBase32Char ch = some value) :
    ∃ digits, Spells text digits := by
  induction text with
  | nil => exact ⟨[], rfl, by simp⟩
  | cons ch text ih =>
    obtain ⟨⟨value, hvalue⟩, hrest⟩ := List.forall_mem_cons.mp h
    obtain ⟨hsmall, hch⟩ := decodeBase32Char_ok.mp hvalue
    obtain ⟨digits, htext, hdigits⟩ := ih hrest
    refine ⟨value.toNat :: digits, ?_, List.forall_mem_cons.mpr ⟨hsmall, hdigits⟩⟩
    rw [List.map_cons, ← htext, ← hch]

theorem run_chars (h : text.foldlM Base32State.push d = some d') :
    ∀ ch ∈ text, ∃ value, decodeBase32Char ch = some value := by
  induction text generalizing d with
  | nil => simp
  | cons ch text ih =>
    rw [List.foldlM_cons, Option.bind_eq_bind, Option.bind_eq_some_iff] at h
    obtain ⟨d₁, hpush, hrest⟩ := h
    refine List.forall_mem_cons.mpr ⟨?_, ih hrest⟩
    unfold Base32State.push at hpush
    rw [Option.bind_eq_bind, Option.bind_eq_some_iff] at hpush
    obtain ⟨value, hvalue, -⟩ := hpush
    exact ⟨value, hvalue⟩

theorem mem_accountTexts :
    text ∈ accountTexts ↔ text.length = 56 ∧ ∃ digits, Spells text digits := by
  refine and_congr_right fun _ => ⟨fun h => ?_, ?_⟩
  · exact spells_of_chars fun ch hch => decodeBase32Char_alphabet.mp (h ch hch)
  · rintro ⟨digits, rfl, hdigits⟩ ch hch
    obtain ⟨digit, hdigit, rfl⟩ := List.mem_map.mp hch
    exact decodeBase32Char_alphabet.mpr ⟨_, decodeBase32Char_digit (hdigits digit hdigit)⟩

/-- A text of 56 digits decodes to the 35 bytes with the same value. -/
theorem Spells.decoded (h : Spells text digits) (hlength : text.length = 56) :
    ∃ bytes, decodeStellarBase32 text = some bytes ∧ bytes.length = 35 ∧
      bytesValue bytes = number 32 digits := by
  obtain ⟨rfl, hdigits⟩ := h
  rw [List.length_map] at hlength
  obtain ⟨d, hrun, hholds⟩ := Base32State.Holds.start.run hdigits (by simp [hlength])
  have hcount := hholds.count
  have hleft := hholds.left
  rw [List.nil_append, hlength] at hcount
  have hnone : d.bitsLeft = 0 := by omega
  have hfull : d.decoded.length = 35 := by omega
  have hempty : d.buffer.toNat = 0 := by simpa [hnone] using hholds.live
  refine ⟨d.decoded, ?_, hfull, ?_⟩
  · unfold decodeStellarBase32
    rw [hrun, Option.bind_eq_bind, Option.bind_some, if_pos ⟨hfull, hnone⟩]
  · simpa [hnone, hempty] using hholds.value

theorem base32Encode_account (h : bytes.length = 35) :
    base32Encode bytes = (numeral 32 56 (bytesValue bytes)).map base32Char := by
  simp [base32Encode, h]

theorem base32Encode_spells (h : bytes.length = 35) :
    Spells (base32Encode bytes) (numeral 32 56 (bytesValue bytes)) :=
  ⟨base32Encode_account h, fun _ => lt_of_mem_numeral (by decide)⟩

theorem number_account (h : bytes.length = 35) :
    number 32 (numeral 32 56 (bytesValue bytes)) = bytesValue bytes := by
  have hlt := bytesValue_lt bytes
  rw [h] at hlt
  rw [number_numeral, Nat.mod_eq_of_lt (hlt.trans_le (by decide))]

/-- On texts of 56 characters the decoder is the inverse of the encoding. -/
theorem decodeStellarBase32_ok (hlength : text.length = 56) :
    decodeStellarBase32 text = some bytes ↔ bytes.length = 35 ∧ text = base32Encode bytes := by
  constructor
  · intro h
    have hchars : ∃ digits, Spells text digits := by
      unfold decodeStellarBase32 at h
      rw [Option.bind_eq_bind, Option.bind_eq_some_iff] at h
      obtain ⟨d, hrun, -⟩ := h
      exact spells_of_chars (run_chars hrun)
    obtain ⟨digits, hspells⟩ := hchars
    obtain ⟨bytes', hdecoded, hbytes, hvalue⟩ := hspells.decoded hlength
    obtain rfl := Option.some.inj (hdecoded.symm.trans h)
    refine ⟨hbytes, ?_⟩
    obtain ⟨rfl, hdigits⟩ := hspells
    rw [List.length_map] at hlength
    rw [base32Encode_account hbytes, hvalue, ← hlength, numeral_number (by decide) hdigits]
  · rintro ⟨hbytes, rfl⟩
    obtain ⟨bytes', hdecoded, hbytes', hvalue⟩ := (base32Encode_spells hbytes).decoded hlength
    rw [number_account hbytes] at hvalue
    rw [hdecoded, bytesValue_inj (hbytes'.trans hbytes.symm) hvalue]

theorem length_base32Encode (h : bytes.length = 35) : (base32Encode bytes).length = 56 := by
  rw [base32Encode_account h, List.length_map, length_numeral]

theorem decode_base32Encode (h : bytes.length = 35) :
    decodeStellarBase32 (base32Encode bytes) = some bytes :=
  (decodeStellarBase32_ok (length_base32Encode h)).mpr ⟨h, rfl⟩

theorem base32Encode_inj (h : bytes.length = 35) (h' : bytes'.length = 35)
    (hsame : base32Encode bytes = base32Encode bytes') : bytes = bytes' := by
  have hdecoded := decode_base32Encode h
  rw [hsame, decode_base32Encode h'] at hdecoded
  exact (Option.some.inj hdecoded).symm

theorem decodeStellarBase32_bijOn :
    Set.BijOn decodeStellarBase32 accountTexts (some '' {bytes | bytes.length = 35}) := by
  refine ⟨?_, ?_, ?_⟩
  · intro text htext
    obtain ⟨hlength, digits, hspells⟩ := mem_accountTexts.mp htext
    obtain ⟨bytes, hdecoded, hbytes, -⟩ := hspells.decoded hlength
    exact ⟨bytes, hbytes, hdecoded.symm⟩
  · intro text htext text' htext' hsame
    obtain ⟨hlength, digits, hspells⟩ := mem_accountTexts.mp htext
    obtain ⟨bytes, hdecoded, -⟩ := hspells.decoded hlength
    have htext := ((decodeStellarBase32_ok hlength).mp hdecoded).2
    have htext' := ((decodeStellarBase32_ok htext'.1).mp (hsame.symm.trans hdecoded)).2
    rw [htext, htext']
  · rintro _ ⟨bytes, hbytes, rfl⟩
    exact ⟨base32Encode bytes, mem_accountTexts.mpr
      ⟨length_base32Encode hbytes, _, base32Encode_spells hbytes⟩, decode_base32Encode hbytes⟩

theorem accountTexts_roundsKeep (h : text ∈ accountTexts) : RoundsKeep text := by
  obtain ⟨hlength, digits, hspells, hdigits⟩ := mem_accountTexts.mp h
  intro before ch rest hsplit
  rw [hspells] at hsplit hlength
  rw [List.length_map] at hlength
  obtain ⟨front, back, rfl, rfl, hback⟩ := List.map_eq_append_iff.mp hsplit
  obtain ⟨digit, more, rfl, rfl, -⟩ := List.map_eq_cons_iff.mp hback
  rw [List.length_append, List.length_cons] at hlength
  obtain ⟨hfront, hmore⟩ := List.forall_mem_append.mp hdigits
  obtain ⟨d, hrun, hholds⟩ := Base32State.Holds.start.run hfront (by simp; omega)
  have hdigit := decodeBase32Char_digit (List.forall_mem_cons.mp hmore).1
  obtain ⟨d', hpush, -⟩ := hholds.push hdigit (by simp; omega)
  have hcount := hholds.count
  rw [List.nil_append] at hcount
  exact ⟨d, d', hrun, hpush, hholds.shift, by omega⟩

end

end ZkPayroll.PayrollRegistry
