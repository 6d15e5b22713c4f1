import ZkPayroll.Cli.Commands
import ZkPayroll.PayrollRegistry.Strkey
import Mathlib.Data.Set.Card
import Mathlib.Data.Fintype.BigOperators

/-!
# Two checks of a key

The tool looks at the length, the first character and the alphabet of a public
key; the registry decodes it and verifies its version byte and checksum. What
the registry takes, the tool takes, and one text in `2 ^ 19` of the tool's.
-/

namespace ZkPayroll.Cli

open Host PayrollRegistry

def cliTexts : Set (List UInt8) :=
  (fun pubkey : String => utf8 pubkey.toList) '' {pubkey | validateStellarPubkey pubkey = pure ()}

def walletTexts : Set (List UInt8) := {text | employeeWalletFormatIsValid text = true}

-- ---------------------------------------------------------------------------
-- The tool's check
-- ---------------------------------------------------------------------------

theorem validateStellarPubkey_ok : validateStellarPubkey pubkey = pure () ↔
    pubkey.utf8ByteSize = 56 ∧ pubkey.toList.head? = some 'G' ∧
      ∀ c ∈ pubkey.toList, isStrkeyChar c = true := by
  unfold validateStellarPubkey
  split
  · rename_i h
    constructor
    · intro hfail
      cases hfail
    · rintro ⟨hsize, hhead, -⟩
      rcases h with h | h
      · exact absurd hsize h
      · exact absurd hhead h
  · rename_i h
    obtain ⟨hsize, hhead⟩ := not_or.mp h
    have hsize := not_not.mp hsize
    have hhead := not_not.mp hhead
    split
    · rename_i hchars
      constructor
      · intro hfail
        cases hfail
      · rintro ⟨-, -, hall⟩
        rw [List.all_eq_true.mpr hall] at hchars
        cases hchars
    · rename_i hchars
      rw [Bool.not_eq_false] at hchars
      exact ⟨fun _ => ⟨hsize, hhead, List.all_eq_true.mp hchars⟩, fun _ => rfl⟩

theorem utf8ByteSize_eq (s : String) : s.utf8ByteSize = (utf8 s.toList).length := by
  rw [← String.size_toByteArray, ← String.utf8Encode_toList, List.utf8Encode,
    List.size_toByteArray]
  rfl

def strkeyByte (digit : Fin 32) : UInt8 := base32Char digit

def strkeyChar (digit : Fin 32) : Char := Char.ofNat (strkeyByte digit).toNat

theorem isStrkeyChar_strkeyChar (digit : Fin 32) : isStrkeyChar (strkeyChar digit) = true := by
  revert digit
  decide

theorem utf8_strkeyChar (digit : Fin 32) :
    String.utf8EncodeChar (strkeyChar digit) = [strkeyByte digit] := by
  revert digit
  decide

theorem isStrkeyChar_ok (h : isStrkeyChar c = true) : ∃ digit, strkeyChar digit = c := by
  have hall : ∀ n : Fin 128, isStrkeyChar (Char.ofNat n) = true →
      ∃ digit, strkeyChar digit = Char.ofNat n := by decide +kernel
  have hlt : c.toNat < 128 := by
    simp only [isStrkeyChar, Bool.or_eq_true, Bool.and_eq_true, decide_eq_true_eq] at h
    rcases h with ⟨-, h⟩ | ⟨-, h⟩
    · exact Nat.lt_of_le_of_lt h (by decide)
    · exact Nat.lt_of_le_of_lt h (by decide)
  have hc := hall ⟨c.toNat, hlt⟩
  rw [Char.ofNat_toNat] at hc
  exact hc h

theorem utf8_map_strkeyChar (digits : List (Fin 32)) :
    utf8 (digits.map strkeyChar) = digits.map strkeyByte := by
  induction digits with
  | nil => rfl
  | cons digit digits ih => rw [List.map_cons, utf8_cons, utf8_strkeyChar, ih]; rfl

def cliText (digits : List.Vector (Fin 32) 55) : List UInt8 :=
  71 :: digits.toList.map strkeyByte

theorem utf8_key (digits : List (Fin 32)) :
    utf8 ('G' :: digits.map strkeyChar) = 71 :: digits.map strkeyByte := by
  rw [utf8_cons, utf8_map_strkeyChar]
  rfl

theorem cliTexts_eq : cliTexts = Set.range cliText := by
  refine Set.eq_of_subset_of_subset ?_ ?_
  · rintro _ ⟨pubkey, hok, rfl⟩
    obtain ⟨hsize, hhead, hall⟩ := validateStellarPubkey_ok.mp hok
    obtain ⟨rest, hrest⟩ : ∃ rest, pubkey.toList = 'G' :: rest := List.head?_eq_some_iff.mp hhead
    rw [hrest] at hall
    obtain ⟨digits, rfl⟩ : rest ∈ Set.range (List.map strkeyChar) := by
      rw [Set.range_list_map]
      exact fun c hc => isStrkeyChar_ok (hall c (List.mem_cons_of_mem _ hc))
    rw [utf8ByteSize_eq, hrest, utf8_key, List.length_cons, List.length_map] at hsize
    refine ⟨⟨digits, by omega⟩, ?_⟩
    simp only [hrest, utf8_key]
    rfl
  · rintro _ ⟨⟨digits, hlength⟩, rfl⟩
    have hchars :
        (String.ofList ('G' :: digits.map strkeyChar)).toList = 'G' :: digits.map strkeyChar :=
      String.toList_ofList
    refine ⟨String.ofList ('G' :: digits.map strkeyChar),
      validateStellarPubkey_ok.mpr ⟨?_, ?_, ?_⟩, ?_⟩
    · rw [utf8ByteSize_eq, hchars, utf8_key, List.length_cons, List.length_map, hlength]
    · rw [hchars]
      rfl
    · rw [hchars]
      refine List.forall_mem_cons.mpr ⟨by decide, fun c hc => ?_⟩
      obtain ⟨digit, -, rfl⟩ := List.mem_map.mp hc
      exact isStrkeyChar_strkeyChar digit
    · simp only [hchars, utf8_key]
      rfl

theorem cliText_injective : Function.Injective cliText := by
  intro v w h
  have hdigit : Function.Injective strkeyByte := by decide
  exact List.Vector.toList_injective (List.map_injective_iff.mpr hdigit (List.cons.inj h).2)

-- ---------------------------------------------------------------------------
-- The registry's check
-- ---------------------------------------------------------------------------

def walletText (key : BytesN 32) : List UInt8 :=
  let crc := crc16Xmodem (0x30 :: key.toList)
  base32Encode (accountBytes key (UInt8.ofNat crc.toNat) (UInt8.ofNat (crc.toNat / 256)))

theorem walletTexts_eq : walletTexts = Set.range walletText := by
  ext text
  rw [walletTexts, Set.mem_ofPred_eq, employeeWalletFormatIsValid_ok]
  constructor
  · rintro ⟨key, low, high, rfl, hchecksum⟩
    have hlow := low.toNat_lt
    have hhigh := high.toNat_lt
    have hparts : UInt8.ofNat (crc16Xmodem (0x30 :: key.toList)).toNat = low ∧
        UInt8.ofNat ((crc16Xmodem (0x30 :: key.toList)).toNat / 256) = high := by
      rw [← UInt8.toNat_inj, ← UInt8.toNat_inj, UInt8.toNat_ofNat', UInt8.toNat_ofNat',
        ← hchecksum]
      omega
    exact ⟨key, by simp only [walletText, hparts]⟩
  · rintro ⟨key, rfl⟩
    have hlt := (crc16Xmodem (0x30 :: key.toList)).toNat_lt
    refine ⟨key, _, _, rfl, ?_⟩
    rw [UInt8.toNat_ofNat', UInt8.toNat_ofNat']
    omega

theorem walletText_injective : Function.Injective walletText := by
  intro key key' h
  exact (accountBytes_inj (base32Encode_inj (by simp) (by simp) h)).1

theorem walletText_first (key : BytesN 32) :
    ∃ tail : List Nat, walletText key = 71 :: tail.map base32Char ∧ tail.length = 55 ∧
      ∀ digit ∈ tail, digit < 32 := by
  generalize hbytes : accountBytes key (UInt8.ofNat (crc16Xmodem (0x30 :: key.toList)).toNat)
    (UInt8.ofNat ((crc16Xmodem (0x30 :: key.toList)).toNat / 256)) = bytes
  have hlength : bytes.length = 35 := hbytes ▸ length_accountBytes _ _ _
  obtain ⟨htext, hdigits⟩ := base32Encode_spells hlength
  have hnumber := number_account hlength
  have hwidth : (numeral 32 56 (bytesValue bytes)).length = 56 := length_numeral 56 _
  generalize numeral 32 56 (bytesValue bytes) = digits at htext hdigits hnumber hwidth
  cases digits with
  | nil => cases hwidth
  | cons digit tail =>
    obtain ⟨hdigit, htail⟩ := List.forall_mem_cons.mp hdigits
    have hlen : tail.length = 55 := Nat.succ.inj hwidth
    have hfirst := (number_append_divMod (by decide) [digit] htail).1
    have hvalue : bytesValue bytes / 32 ^ 55 = 6 := by
      obtain ⟨rest, rfl⟩ : ∃ rest, bytes = [0x30] ++ rest := ⟨_, hbytes.symm⟩
      have hrest : rest.length = 34 := Nat.succ.inj hlength
      have hlt := bytesValue_lt rest
      have hversion : bytesValue [0x30] = 48 := by decide
      have hpow : 32 ^ 55 = 8 * 256 ^ 34 := by norm_num
      rw [bytesValue_append, hversion, hpow, hrest]
      rw [hrest] at hlt
      generalize 256 ^ 34 = power at hlt ⊢
      exact Nat.div_eq_of_lt_le (by omega) (by omega)
    rw [List.singleton_append, hnumber, hlen, hvalue, number_singleton] at hfirst
    subst hfirst
    have hwallet : walletText key = base32Encode bytes := by rw [walletText, hbytes]
    exact ⟨tail, hwallet.trans htext, hlen, htail⟩

theorem walletText_mem (key : BytesN 32) : walletText key ∈ cliTexts := by
  obtain ⟨tail, htext, hlength, hsmall⟩ := walletText_first key
  rw [cliTexts_eq]
  obtain ⟨digits, rfl⟩ : tail ∈ Set.range (List.map Fin.val) := by
    rw [Set.range_list_map]
    exact fun digit hdigit => ⟨⟨digit, hsmall digit hdigit⟩, rfl⟩
  refine ⟨⟨digits, by simpa using hlength⟩, ?_⟩
  rw [htext, List.map_map]
  rfl

-- ---------------------------------------------------------------------------
-- How many there are
-- ---------------------------------------------------------------------------

theorem card_bytesN (n : Nat) : Nat.card (BytesN n) = 256 ^ n := by
  have hbytes : UInt8 ≃ Fin 256 := ⟨UInt8.toFin, UInt8.ofFin, fun _ => rfl, fun _ => rfl⟩
  let _ : Fintype UInt8 := Fintype.ofEquiv (Fin 256) hbytes.symm
  rw [Nat.card_eq_fintype_card, card_vector, Fintype.card_congr hbytes, Fintype.card_fin]

/-- The registry takes one text for each key, and the tool takes those and
others, `2 ^ 19` in all for each of them. -/
theorem wallet_checks_compared : walletTexts ⊆ cliTexts ∧ walletTexts.ncard = 2 ^ 256 ∧
    cliTexts.ncard = 2 ^ 19 * walletTexts.ncard := by
  have hwallets : walletTexts.ncard = 2 ^ 256 := by
    rw [walletTexts_eq, Set.ncard_range_of_injective walletText_injective, card_bytesN]
    norm_num
  have htexts : cliTexts.ncard = 2 ^ 19 * 2 ^ 256 := by
    rw [cliTexts_eq, Set.ncard_range_of_injective cliText_injective, Nat.card_eq_fintype_card,
      card_vector, Fintype.card_fin]
    norm_num
  refine ⟨?_, hwallets, hwallets ▸ htexts⟩
  rw [walletTexts_eq]
  rintro _ ⟨key, rfl⟩
  exact walletText_mem key

end ZkPayroll.Cli
