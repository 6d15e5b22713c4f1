import ZkPayroll.Env

/-!
# Wallet strings

The format check of `contracts/payroll_registry`: an account key of 56
base32 characters that decode to a version byte, 32 bytes of key and a
CRC16-XMODEM checksum, low byte first. The decoder shifts five bits at a time
through a 16-bit buffer; bits shifted past it are lost, as in the source.
-/

namespace ZkPayroll.PayrollRegistry

def stellarAccountStrkeyLen : Nat := 56

def stellarAccountVersionByte : UInt8 := (6 : UInt8) <<< 3

def decodeBase32Char (ch : UInt8) : Option UInt8 :=
  if 65 ≤ ch ∧ ch ≤ 90 then some (ch - 65) -- `b'A'..=b'Z'`
  else if 50 ≤ ch ∧ ch ≤ 55 then some (ch - 50 + 26) -- `b'2'..=b'7'`
  else none

/-- The loop variables of the decoder; `out_index` is the length of what has
been decoded. -/
structure Base32State where
  buffer : UInt16
  bitsLeft : Nat
  decoded : List UInt8

/-- One round of the loop; nothing where the source returns false. -/
def Base32State.push (d : Base32State) (ch : UInt8) : Option Base32State := do
  let value ← decodeBase32Char ch
  let buffer := (d.buffer <<< 5) ||| value.toUInt16
  let bitsLeft := d.bitsLeft + 5
  if 8 ≤ bitsLeft then
    let bitsLeft := bitsLeft - 8
    if 35 ≤ d.decoded.length then none
    else
      let out := (buffer >>> UInt16.ofNat bitsLeft).toUInt8
      let rest := if 0 < bitsLeft then buffer &&& ((1 <<< UInt16.ofNat bitsLeft) - 1) else 0
      some ⟨rest, bitsLeft, d.decoded ++ [out]⟩
  else some ⟨buffer, bitsLeft, d.decoded⟩

def decodeStellarBase32 (encoded : List UInt8) : Option (List UInt8) := do
  let d ← encoded.foldlM Base32State.push ⟨0, 0, []⟩
  if d.decoded.length = 35 ∧ d.bitsLeft = 0 then some d.decoded else none

def crc16Bit (crc : UInt16) : UInt16 :=
  if crc &&& 0x8000 ≠ 0 then (crc <<< 1) ^^^ 0x1021 else crc <<< 1

def crc16Byte (crc : UInt16) (byte : UInt8) : UInt16 :=
  Nat.iterate crc16Bit 8 (crc ^^^ (byte.toUInt16 <<< (8 : UInt16)))

def crc16Xmodem (bytes : List UInt8) : UInt16 := bytes.foldl crc16Byte 0

def employeeWalletFormatIsValid (employeeWallet : List UInt8) : Bool :=
  decide (employeeWallet.length = stellarAccountStrkeyLen) &&
    match decodeStellarBase32 employeeWallet with
    | none => false
    | some decoded =>
      decide (decoded.getD 0 0 = stellarAccountVersionByte) &&
        decide ((decoded.getD 33 0).toUInt16 ||| ((decoded.getD 34 0).toUInt16 <<< 8) =
          crc16Xmodem (decoded.take 33))

end ZkPayroll.PayrollRegistry
