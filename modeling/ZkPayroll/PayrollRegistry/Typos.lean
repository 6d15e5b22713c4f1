import ZkPayroll.PayrollRegistry.Strkey

/-!
# Typing errors in a wallet

No wallet passes the check with one character put wrong. A character holds five
bits that are next to each other in the 35 bytes. With the checksum's bytes put
the right way round, which they are not in the wallet, the bits that can be
wrong are still within sixteen, and the generator of the checksum detects every
such burst of errors.
-/

namespace ZkPayroll.PayrollRegistry

open Host Polynomial

def swapped (n : Nat) : Nat := n / 2 ^ 16 * 2 ^ 16 + (n % 2 ^ 8 * 2 ^ 8 + n / 2 ^ 8 % 2 ^ 8)

def digitOf (ch : UInt8) : Nat := (decodeBase32Char ch).elim 0 UInt8.toNat

-- ---------------------------------------------------------------------------
-- The checksum's bytes exchanged
-- ---------------------------------------------------------------------------

section
variable {n m k i : Nat} {key : BytesN 32} {low high : UInt8} {text : List UInt8}

theorem swapped_parts (n : Nat) : swapped n / 2 ^ 16 = n / 2 ^ 16 ∧
    swapped n % 2 ^ 16 = n % 2 ^ 8 * 2 ^ 8 + n / 2 ^ 8 % 2 ^ 8 := by
  unfold swapped
  omega

theorem swapped_word {x y : Nat} (hx : x < 2 ^ 8) (hy : y < 2 ^ 8) :
    swapped (n * 2 ^ 16 + (x * 2 ^ 8 + y)) = n * 2 ^ 16 + (y * 2 ^ 8 + x) := by
  unfold swapped
  omega

theorem swapped_inj (h : swapped n = swapped m) : n = m := by
  unfold swapped at h
  omega

theorem div_eq_above {x : Nat} (h : n / 2 ^ k = m / 2 ^ k) (hle : k ≤ x) :
    n / 2 ^ x = m / 2 ^ x := by
  obtain ⟨y, rfl⟩ := Nat.exists_eq_add_of_le hle
  rw [pow_add, ← Nat.div_div_eq_div_mul, ← Nat.div_div_eq_div_mul, h]

theorem swapped_above (h : n / 2 ^ k = m / 2 ^ k) {x : Nat} (hle : k ≤ x) (hbytes : 16 ≤ x) :
    swapped n / 2 ^ x = swapped m / 2 ^ x := by
  have hx := div_eq_above h hle
  obtain ⟨y, rfl⟩ := Nat.exists_eq_add_of_le hbytes
  rw [pow_add, ← Nat.div_div_eq_div_mul, ← Nat.div_div_eq_div_mul] at hx ⊢
  rw [(swapped_parts n).1, (swapped_parts m).1]
  exact hx

theorem swapped_below (h : n % 2 ^ k = m % 2 ^ k) (hbytes : 16 ≤ k) :
    swapped n % 2 ^ k = swapped m % 2 ^ k := by
  obtain ⟨y, rfl⟩ := Nat.exists_eq_add_of_le hbytes
  obtain ⟨hdiv, hmod⟩ := swapped_parts n
  obtain ⟨hdiv', hmod'⟩ := swapped_parts m
  rw [pow_add, Nat.mod_mul, Nat.mod_mul] at h ⊢
  have hlow : n % 2 ^ 16 = m % 2 ^ 16 := by omega
  have hhigh : n / 2 ^ 16 % 2 ^ y = m / 2 ^ 16 % 2 ^ y := by omega
  have hbyte : n % 2 ^ 8 = m % 2 ^ 8 := by omega
  have hbyte' : n / 2 ^ 8 % 2 ^ 8 = m / 2 ^ 8 % 2 ^ 8 := by omega
  rw [hdiv, hdiv', hmod, hmod', hhigh, hbyte, hbyte']

theorem swapped_burst (hbelow : n % 2 ^ (5 * k) = m % 2 ^ (5 * k))
    (habove : n / 2 ^ (5 * k + 5) = m / 2 ^ (5 * k + 5)) :
    ∃ x, swapped n % 2 ^ x = swapped m % 2 ^ x ∧
      swapped n / 2 ^ (x + 16) = swapped m / 2 ^ (x + 16) := by
  rcases Nat.lt_trichotomy k 3 with hk | rfl | hk
  · -- in the checksum
    refine ⟨0, ?_, swapped_above habove (by omega) (by omega)⟩
    rw [pow_zero, Nat.mod_one, Nat.mod_one]
  · -- one bit in the checksum's low byte, the others in the key
    refine ⟨7, ?_, swapped_above habove (by omega) (by omega)⟩
    have hbits : ∀ u, swapped u % 2 ^ 7 = u / 2 ^ 8 % 2 ^ 7 := by
      intro u
      unfold swapped
      omega
    rw [hbits, hbits]
    omega
  · exact ⟨5 * k, swapped_below hbelow (by omega), swapped_above habove (by omega) (by omega)⟩

/-- The generator divides a wallet's bytes once the checksum's are exchanged. -/
theorem xmodem_dvd_swapped
    (h : high.toNat * 2 ^ 8 + low.toNat = (crc16Xmodem (0x30 :: key.toList)).toNat) :
    xmodem ∣ bitPoly (swapped (bytesValue (accountBytes key low high))) := by
  have hswapped : swapped (bytesValue (accountBytes key low high)) =
      bytesValue (0x30 :: key.toList) * 2 ^ 16 + (crc16Xmodem (0x30 :: key.toList)).toNat := by
    have hvalue : bytesValue [low, high] = low.toNat * 2 ^ 8 + high.toNat := by
      refine (bytesValue_snoc [low] high).trans ?_
      rw [bytesValue, List.map_singleton, number_singleton]
      rfl
    have hwidth : 256 ^ [low, high].length = 2 ^ 16 := by norm_num
    rw [accountBytes, bytesValue_append, hvalue, hwidth, swapped_word low.toNat_lt high.toNat_lt, h]
  have hcongr := crc16Xmodem_congr (0x30 :: key.toList)
  have htwo : (2 : (ZMod 2)[X]) = 0 := CharTwo.two_eq_zero
  rw [hswapped, bitPoly_append _ (crc16Xmodem (0x30 :: key.toList)).toNat_lt]
  convert hcongr using 1
  linear_combination X ^ 16 * bitPoly (bytesValue (0x30 :: key.toList)) * htwo

-- ---------------------------------------------------------------------------
-- One character
-- ---------------------------------------------------------------------------

theorem Spells.digits_eq (h : Spells text digits) : digits = text.map digitOf := by
  obtain ⟨rfl, hdigits⟩ := h
  rw [List.map_map]
  refine (List.map_id digits).symm.trans (List.map_congr_left fun digit hdigit => ?_)
  have hsmall := hdigits digit hdigit
  rw [Function.comp_apply, digitOf, decodeBase32Char_digit hsmall]
  exact (UInt8.toNat_ofNat_of_lt' (hsmall.trans (by decide))).symm

theorem Spells.around {front back : List UInt8} {digits : List Nat}
    (h : Spells (front ++ ch :: back) digits) :
    number 32 digits % 2 ^ (5 * back.length) = number 32 (back.map digitOf) ∧
      number 32 digits / 2 ^ (5 * back.length + 5) = number 32 (front.map digitOf) := by
  have hdigits := h.digits_eq
  have hsmall := h.2
  rw [hdigits, List.map_append, List.map_cons] at hsmall
  obtain ⟨-, hback⟩ := List.forall_mem_append.mp hsmall
  have hafter := number_append_divMod (by decide) (front.map digitOf ++ [digitOf ch])
    (List.forall_mem_cons.mp hback).2
  have hbefore := number_append_divMod (by decide) (front.map digitOf) hback
  have hpow : 2 ^ (5 * back.length) = 32 ^ back.length := by
    rw [pow_mul]
    norm_num
  have hpow' : 2 ^ (5 * back.length + 5) = 32 ^ (back.length + 1) := by
    rw [pow_add, hpow, pow_succ 32]
    norm_num
  rw [List.append_assoc, List.singleton_append, List.length_map] at hafter
  rw [List.length_cons, List.length_map] at hbefore
  rw [hdigits, List.map_append, List.map_cons, hpow, hpow']
  exact ⟨hafter.2, hbefore.1⟩

/-- A wallet passes the check no longer when one of its characters is replaced by
another one, or by anything else. -/
theorem typo_rejected (h : employeeWalletFormatIsValid text = true) (hi : i < 56)
    (typed : List UInt8) (hne : typed ≠ text[i]?.toList) :
    employeeWalletFormatIsValid (text.take i ++ typed ++ text.drop (i + 1)) = false := by
  by_contra hvalid
  rw [Bool.not_eq_false] at hvalid
  obtain ⟨key, low, high, htext, hchecksum⟩ := employeeWalletFormatIsValid_ok.mp h
  obtain ⟨key', low', high', htext', hchecksum'⟩ := employeeWalletFormatIsValid_ok.mp hvalid
  have hlength : text.length = 56 := htext ▸ length_base32Encode (length_accountBytes key low high)
  have hlength' := congrArg List.length htext'
  rw [length_base32Encode (length_accountBytes key' low' high'), List.length_append,
    List.length_append, List.length_take, List.length_drop, hlength] at hlength'
  obtain ⟨ch, rfl⟩ := List.length_eq_one_iff.mp (by omega : typed.length = 1)
  have hold : text[i]?.toList = [text[i]] := by simp
  have hsplit : text = text.take i ++ text[i] :: text.drop (i + 1) := by simp
  refine hne ?_
  rw [hold]
  rw [List.append_assoc, List.singleton_append] at htext'
  have hspells := base32Encode_spells (length_accountBytes key low high)
  have hspells' := base32Encode_spells (length_accountBytes key' low' high')
  rw [← htext, hsplit] at hspells
  rw [← htext'] at hspells'
  obtain ⟨hafter, hbefore⟩ := hspells.around
  obtain ⟨hafter', hbefore'⟩ := hspells'.around
  rw [number_account (length_accountBytes key low high)] at hafter hbefore
  rw [number_account (length_accountBytes key' low' high')] at hafter' hbefore'
  -- the two strings of bytes are the same word for the checksum
  obtain ⟨x, hbelow, habove⟩ :=
    swapped_burst (hafter.trans hafter'.symm) (hbefore.trans hbefore'.symm)
  have hword := xmodem_dvd_swapped hchecksum
  have hword' := xmodem_dvd_swapped hchecksum'
  rw [← generator_xmodem] at hword hword'
  have hvalue := swapped_inj (burst_detected (by decide) x hword hword' hbelow habove)
  have hbytes := bytesValue_inj (by simp) hvalue
  have hsame : text.take i ++ ch :: text.drop (i + 1) =
      text.take i ++ text[i] :: text.drop (i + 1) := by
    rw [htext', ← hbytes, ← htext]
    exact hsplit
  have hrest := List.append_cancel_left hsame
  rw [(List.cons.inj hrest).1]

theorem typo_rejected_last :
    let wallet : List UInt8 := 71 :: List.replicate 52 65 ++ [87, 72, 70]
    employeeWalletFormatIsValid wallet = true ∧
      employeeWalletFormatIsValid (wallet.take 55 ++ [65] ++ wallet.drop 56) = false := by
  intro wallet
  have hvalid : employeeWalletFormatIsValid wallet = true := by decide +kernel
  exact ⟨hvalid, typo_rejected hvalid (by decide) [65] (by decide)⟩

end

end ZkPayroll.PayrollRegistry
