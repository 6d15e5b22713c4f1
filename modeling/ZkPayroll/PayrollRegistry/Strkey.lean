import ZkPayroll.Host.Crc
import ZkPayroll.PayrollRegistry.Base32
import Mathlib.Data.Nat.Bitwise

/-!
# Account keys

The wallet check accepts the account keys and no other strings: a key, with the
version byte before it and the CRC16-XMODEM checksum of both behind it, low
byte first, in base32. The checksum is the remainder of a division of
polynomials over the field of two elements, which the loop carries out a bit at
a time.
-/

namespace ZkPayroll.PayrollRegistry

open Host Polynomial

noncomputable def xmodem : (ZMod 2)[X] := X ^ 16 + X ^ 12 + X ^ 5 + 1

/-- CRC16-XMODEM: what remains of the message, with sixteen zeros behind it, when
it is divided by the generator. -/
def IsXmodem (message : List UInt8) (checksum : Nat) : Prop :=
  bitPoly checksum = (X ^ 16 * bitPoly (bytesValue message)) %ₘ xmodem

/-- The bytes of an account key: the version, the key and the checksum. -/
def accountBytes (key : BytesN 32) (low high : UInt8) : List UInt8 :=
  0x30 :: key.toList ++ [low, high]

def IsAccountKey (key : BytesN 32) (text : List UInt8) : Prop :=
  ∃ checksum, IsXmodem (0x30 :: key.toList) checksum ∧
    text = base32Encode (accountBytes key (UInt8.ofNat checksum) (UInt8.ofNat (checksum / 256)))

-- ---------------------------------------------------------------------------
-- The checksum
-- ---------------------------------------------------------------------------

theorem generator_xmodem : generator 0x1021#16 = xmodem := by
  have hone : bitPoly 1 = 1 := by simp [bitPoly]
  have htop : 0x1021 = 1 * 2 ^ 12 + 0x21 := by decide
  have hlow : 0x21 = 1 * 2 ^ 5 + 1 := by decide
  have hnat : (0x1021#16).toNat = 0x1021 := rfl
  rw [generator, xmodem, hnat, htop, bitPoly_append 1 (by decide), hlow,
    bitPoly_append 1 (by decide), hone]
  ring

section
variable {crc : UInt16} {low high : UInt8} {bytes text : List UInt8}

theorem crc16Bit_divideBit (crc : UInt16) :
    (crc16Bit crc).toBitVec = divideBit 0x1021#16 crc.toBitVec := by
  have htop : crc &&& 0x8000 ≠ 0 ↔ crc.toBitVec.msb = true := by
    have hmsb : crc.toBitVec.msb = crc.toNat.testBit 15 := BitVec.msb_eq_getLsbD_last _
    have hand : (crc &&& 0x8000).toNat = (crc.toNat.testBit 15).toNat * 2 ^ 15 := by
      rw [UInt16.toNat_and]
      exact Nat.and_two_pow crc.toNat 15
    rw [ne_eq, ← UInt16.toNat_inj, hand, hmsb]
    cases crc.toNat.testBit 15 <;> decide
  unfold crc16Bit divideBit
  by_cases h : crc &&& 0x8000 ≠ 0
  · rw [if_pos h, if_pos (htop.mp h)]
    rfl
  · rw [if_neg h, if_neg (mt htop.mpr h)]
    rfl

theorem toNat_high (byte : UInt8) :
    (byte.toUInt16 <<< (8 : UInt16)).toNat = byte.toNat * 2 ^ 8 := by
  have hlt := byte.toNat_lt
  rw [UInt16.toNat_shiftLeft, Nat.shiftLeft_eq, UInt8.toNat_toUInt16]
  exact Nat.mod_eq_of_lt (by simpa using by omega)

theorem crc16Byte_congr (crc : UInt16) (byte : UInt8) :
    xmodem ∣ bitPoly (crc16Byte crc byte).toNat -
      X ^ 8 * (bitPoly crc.toNat + X ^ 8 * bitPoly byte.toNat) := by
  have hstart : (crc ^^^ (byte.toUInt16 <<< (8 : UInt16))).toNat =
      crc.toNat ^^^ byte.toNat * 2 ^ 8 := by
    rw [UInt16.toNat_xor, toNat_high]
  have hbits := Function.Semiconj.iterate_right (f := UInt16.toBitVec) crc16Bit_divideBit 8
    (crc ^^^ (byte.toUInt16 <<< (8 : UInt16)))
  have hcongr := divideBit_iterate 0x1021#16 (crc ^^^ (byte.toUInt16 <<< (8 : UInt16))).toBitVec 8
  rw [← hbits, UInt16.toNat_toBitVec, UInt16.toNat_toBitVec, hstart, bitPoly_xor, bitPoly_shift,
    generator_xmodem] at hcongr
  exact hcongr

theorem crc16Xmodem_congr (bytes : List UInt8) :
    xmodem ∣ bitPoly (crc16Xmodem bytes).toNat - X ^ 16 * bitPoly (bytesValue bytes) := by
  induction bytes using List.reverseRecOn with
  | nil => simp [crc16Xmodem, bytesValue]
  | append_singleton bytes byte ih =>
    have hstep : crc16Xmodem (bytes ++ [byte]) = crc16Byte (crc16Xmodem bytes) byte := by
      simp [crc16Xmodem]
    have hsum := dvd_add (crc16Byte_congr (crc16Xmodem bytes) byte) (ih.mul_left (X ^ 8))
    have hbyte : 256 = 2 ^ 8 := by decide
    rw [hstep, bytesValue_snoc, hbyte, bitPoly_append _ byte.toNat_lt]
    convert hsum using 1
    ring

theorem isXmodem_iff : IsXmodem bytes checksum ↔ checksum = (crc16Xmodem bytes).toNat := by
  have hcode : IsXmodem bytes (crc16Xmodem bytes).toNat := by
    have hcongr := crc16Xmodem_congr bytes
    rw [← generator_xmodem] at hcongr
    unfold IsXmodem
    rw [← generator_xmodem]
    exact remainder_unique (crc16Xmodem bytes).toNat_lt hcongr
  constructor
  · intro h
    exact bitPoly_inj (h.trans hcode.symm)
  · rintro rfl
    exact hcode

-- ---------------------------------------------------------------------------
-- The check
-- ---------------------------------------------------------------------------

@[simp] theorem length_accountBytes (key : BytesN 32) (low high : UInt8) :
    (accountBytes key low high).length = 35 := by
  simp [accountBytes]

theorem accountBytes_inj (h : accountBytes key low high = accountBytes key' low' high') :
    key = key' ∧ low = low' ∧ high = high' := by
  have hparts := List.append_inj (List.cons.inj h).2 (by simp)
  refine ⟨List.Vector.toList_injective hparts.1, ?_⟩
  simpa using hparts.2

theorem exists_accountBytes (h : bytes.length = 35) (hversion : bytes.getD 0 0 = 0x30) :
    ∃ key low high, bytes = accountBytes key low high := by
  cases bytes with
  | nil => cases h
  | cons version rest =>
    obtain rfl : version = 0x30 := hversion
    have hrest : rest.length = 34 := Nat.succ.inj h
    obtain ⟨low, high, hdrop⟩ : ∃ low high, rest.drop 32 = [low, high] :=
      List.length_eq_two.mp (by rw [List.length_drop, hrest])
    refine ⟨⟨rest.take 32, by simp [hrest]⟩, low, high, ?_⟩
    simp [accountBytes, ← hdrop, List.Vector.toList]

theorem checksum_iff : low.toUInt16 ||| (high.toUInt16 <<< (8 : UInt16)) = crc ↔
    high.toNat * 2 ^ 8 + low.toNat = crc.toNat := by
  rw [← UInt16.toNat_inj, UInt16.toNat_or, toNat_high, UInt8.toNat_toUInt16, Nat.or_comm,
    Nat.mul_comm, ← Nat.two_pow_add_eq_or_of_lt low.toNat_lt]

theorem employeeWalletFormatIsValid_ok : employeeWalletFormatIsValid text = true ↔
    ∃ key low high, text = base32Encode (accountBytes key low high) ∧
      high.toNat * 2 ^ 8 + low.toNat = (crc16Xmodem (0x30 :: key.toList)).toNat := by
  have hversion : stellarAccountVersionByte = 0x30 := by decide
  have hchecked : ∀ key low high, (accountBytes key low high).getD 0 0 = 0x30 ∧
      (accountBytes key low high).getD 33 0 = low ∧ (accountBytes key low high).getD 34 0 = high ∧
      (accountBytes key low high).take 33 = 0x30 :: key.toList := by
    intro key low high
    simp [accountBytes]
  unfold employeeWalletFormatIsValid
  rw [hversion, Bool.and_eq_true, decide_eq_true_eq, stellarAccountStrkeyLen]
  constructor
  · rintro ⟨hlength, hdecoded⟩
    split at hdecoded
    · cases hdecoded
    · rename_i bytes hbytes
      obtain ⟨hsize, rfl⟩ := (decodeStellarBase32_ok hlength).mp hbytes
      rw [Bool.and_eq_true, decide_eq_true_eq, decide_eq_true_eq] at hdecoded
      obtain ⟨key, low, high, rfl⟩ := exists_accountBytes hsize hdecoded.1
      obtain ⟨-, hlow, hhigh, htake⟩ := hchecked key low high
      rw [hlow, hhigh, htake, checksum_iff] at hdecoded
      exact ⟨key, low, high, rfl, hdecoded.2⟩
  · rintro ⟨key, low, high, rfl, hchecksum⟩
    have hsize := length_accountBytes key low high
    obtain ⟨hfirst, hlow, hhigh, htake⟩ := hchecked key low high
    refine ⟨length_base32Encode hsize, ?_⟩
    rw [decode_base32Encode hsize]
    simp only [hfirst, hlow, hhigh, htake, checksum_iff.mpr hchecksum, decide_true, Bool.and_self]

-- ---------------------------------------------------------------------------
-- Account keys
-- ---------------------------------------------------------------------------

theorem isAccountKey_iff : IsAccountKey key text ↔
    ∃ low high, text = base32Encode (accountBytes key low high) ∧
      high.toNat * 2 ^ 8 + low.toNat = (crc16Xmodem (0x30 :: key.toList)).toNat := by
  have hlt := (crc16Xmodem (0x30 :: key.toList)).toNat_lt
  constructor
  · rintro ⟨checksum, hchecksum, htext⟩
    obtain rfl := isXmodem_iff.mp hchecksum
    refine ⟨_, _, htext, ?_⟩
    rw [UInt8.toNat_ofNat', UInt8.toNat_ofNat']
    omega
  · rintro ⟨low, high, htext, hchecksum⟩
    refine ⟨_, isXmodem_iff.mpr rfl, ?_⟩
    have hlow : UInt8.ofNat (crc16Xmodem (0x30 :: key.toList)).toNat = low := by
      have hsmall := low.toNat_lt
      rw [← UInt8.toNat_inj, UInt8.toNat_ofNat']
      omega
    have hhigh : UInt8.ofNat ((crc16Xmodem (0x30 :: key.toList)).toNat / 256) = high := by
      have hsmall := low.toNat_lt
      rw [← UInt8.toNat_inj, UInt8.toNat_ofNat']
      omega
    rw [hlow, hhigh]
    exact htext

/-- The check accepts the account keys, each of them for one key only. The
decoder takes the texts of 56 base32 characters one to one to the strings of 35
bytes, and loses no bit and runs into no bound on the way. -/
theorem wallet_format_exact :
    (∀ text, employeeWalletFormatIsValid text = true ↔ ∃ key, IsAccountKey key text) ∧
    (∀ text key key', IsAccountKey key text → IsAccountKey key' text → key = key') ∧
    Set.BijOn decodeStellarBase32 accountTexts (some '' {bytes | bytes.length = 35}) ∧
    ∀ text ∈ accountTexts, RoundsKeep text := by
  refine ⟨?_, ?_, decodeStellarBase32_bijOn, fun _ => accountTexts_roundsKeep⟩
  · intro text
    rw [employeeWalletFormatIsValid_ok]
    exact exists_congr fun key => isAccountKey_iff.symm
  · rintro text key key' ⟨_, -, rfl⟩ ⟨_, -, hsame⟩
    exact (accountBytes_inj (base32Encode_inj (by simp) (by simp) hsame)).1

end

end ZkPayroll.PayrollRegistry
