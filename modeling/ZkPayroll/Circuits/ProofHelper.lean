import ZkPayroll.Circuits.Generator
import ZkPayroll.Env

/-!
# The proof helper

`contracts/integration_tests/src/proof_helper.rs`: runs the generator and reads
the bytes of the proof back from `proof_bytes.json`, with a scanner of its own
for the fields of the file. A `str` is its UTF-8 bytes. Cutting one inside a
character is a panic; a field that is missing or no hex text is `None`.
-/

namespace ZkPayroll.Circuits

open Host

abbrev Str := List UInt8

structure GeneratedProof where
  piA : BytesN 64
  piB : BytesN 128
  piC : BytesN 64
  salaryCommitment : BytesN 32
  paymentNullifier : BytesN 32
  recipientHash : BytesN 32
  deriving DecidableEq

-- ---------------------------------------------------------------------------
-- Texts
-- ---------------------------------------------------------------------------

/-- The digits the loop of `u64_to_decimal` pushes, the lowest first. -/
def decimalDigits (n : Nat) : Str :=
  if n = 0 then [] else UInt8.ofNat (48 + n % 10) :: decimalDigits (n / 10)

def u64ToDecimal (n : UInt64) : Str :=
  if n = 0 then [48] else (decimalDigits n.toNat).reverse

/-- `char::is_ascii_whitespace`. -/
def isAsciiWhitespace (b : UInt8) : Bool := b = 32 || b = 9 || b = 10 || b = 12 || b = 13

/-- `strip_prefix` with a single character. -/
def stripPrefix (c : UInt8) : Str → Option Str
  | b :: rest => if b = c then some rest else none
  | [] => none

def before (c : UInt8) : Str → Option Str
  | [] => none
  | b :: rest => if b = c then some [] else (before c rest).map (b :: ·)

/-- The value after the name of a field: a colon and a quoted text, with white
space around the colon. -/
def fieldValue (afterKey : Str) : Option Str := do
  let afterCol ← stripPrefix 58 (afterKey.dropWhile isAsciiWhitespace)
  let value ← stripPrefix 34 (afterCol.dropWhile isAsciiWhitespace)
  before 34 value

/-- The scan for the quoted name of the field. -/
def extractStrField (json : Str) (field : Str) : Option Str :=
  match json with
  | [] => none
  | b :: rest =>
    if (b :: rest).length < field.length + 2 then none
    else if b = 34 ∧ rest.take field.length = field ∧ rest[field.length]? = some 34 then
      fieldValue (rest.drop (field.length + 1))
    else extractStrField rest field

-- ---------------------------------------------------------------------------
-- Hexadecimal
-- ---------------------------------------------------------------------------

/-- `char::to_digit(16)`. -/
def toDigit16 (b : UInt8) : Option Nat :=
  if 48 ≤ b ∧ b ≤ 57 then some (b.toNat - 48)
  else if 97 ≤ b ∧ b ≤ 102 then some (b.toNat - 87)
  else if 65 ≤ b ∧ b ≤ 70 then some (b.toNat - 55)
  else none

/-- `u8::from_str_radix(src, 16)`, which takes a plus sign in front of a digit. -/
def fromStrRadix16 (src : Str) : Option UInt8 := do
  let digits := match src with
    | 43 :: d :: rest => d :: rest
    | _ => src
  if digits = [] then none
  else
    let value ← digits.foldlM (fun value b => do
      let d ← toDigit16 b
      if value * 16 + d < 256 then some (value * 16 + d) else none) 0
    return UInt8.ofNat value

/-- The text can be cut before its first byte. -/
def isCharBoundary : Str → Bool
  | [] => true
  | b :: _ => b < 128 || 192 ≤ b

/-- The loop of `hex_decode`, two bytes of the text a round. -/
def decodePairs : (n : Nat) → Str → Result (Option (BytesN n))
  | 0, _ => pure (some .nil)
  | n + 1, a :: b :: rest => do
    ensure (isCharBoundary rest) "byte index is not a char boundary"
    match fromStrRadix16 [a, b] with
    | none => return none
    | some byte =>
      let decoded ← decodePairs n rest
      return decoded.map (byte ::ᵥ ·)
  | _ + 1, _ => pure none

def hexDecode (n : Nat) (hex : Str) : Result (Option (BytesN n)) :=
  if hex.length ≠ n * 2 then pure none else decodePairs n hex

-- ---------------------------------------------------------------------------
-- The helper
-- ---------------------------------------------------------------------------

def parseProofBytes (json : Str) : OptionT Result GeneratedProof := do
  let piAHex ← OptionT.mk (pure (extractStrField json (utf8 "pi_a".toList)))
  let piBHex ← OptionT.mk (pure (extractStrField json (utf8 "pi_b".toList)))
  let piCHex ← OptionT.mk (pure (extractStrField json (utf8 "pi_c".toList)))
  let commitHex ← OptionT.mk (pure (extractStrField json (utf8 "salary_commitment".toList)))
  let nullifierHex ← OptionT.mk (pure (extractStrField json (utf8 "payment_nullifier".toList)))
  let recipientHex ← OptionT.mk (pure (extractStrField json (utf8 "recipient_hash".toList)))
  let piA ← OptionT.mk (hexDecode 64 piAHex)
  let piB ← OptionT.mk (hexDecode 128 piBHex)
  let piC ← OptionT.mk (hexDecode 64 piCHex)
  let salaryCommitment ← OptionT.mk (hexDecode 32 commitHex)
  let paymentNullifier ← OptionT.mk (hexDecode 32 nullifierHex)
  let recipientHash ← OptionT.mk (hexDecode 32 recipientHex)
  return ⟨piA, piB, piC, salaryCommitment, paymentNullifier, recipientHash⟩

structure HelperHost where
  nodeAvailable : Bool
  scriptFound : Bool
  outDirCreated : Bool
  spawned : Bool
  bytesRead : Bool
  node : NodeHost

/-- The arguments are ASCII, so the script gets them as they are. -/
def argument (n : UInt64) : Text := (u64ToDecimal n).map fun b => Char.ofNat b.toNat

def tryGenerateProof (h : HelperHost) (salary blinding : UInt64) : OptionT Result GeneratedProof :=
  if h.nodeAvailable && h.scriptFound && h.outDirCreated && h.spawned then
    match generateProof h.node [argument salary, argument blinding] with
    | .error _ => failure
    | .ok bytesJson => if h.bytesRead then parseProofBytes (utf8 bytesJson) else failure
  else failure

end ZkPayroll.Circuits
