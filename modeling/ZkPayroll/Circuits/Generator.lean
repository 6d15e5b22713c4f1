import ZkPayroll.Circuits.Field
import ZkPayroll.Host.Hex

/-!
# The proof generator

`circuits/generate_proof.js`: what a run of the script makes of its two
arguments. `BigInt` has its language's rules: the remainder has the sign of the
dividend, and a text is a decimal number with or without a sign, a number in
another base after its mark, or blank. snarkjs and the compiled circuit are a
parameter; without them the script makes up a proof from the formulas of the
circuit.

Of the three files written only `proof_bytes.json` is read again. No value in
it needs an escape.
-/

namespace ZkPayroll.Circuits

open Host

abbrev Text := List Char

/-- A computation of the script; an error is the message of what it throws. -/
abbrev Js := Except Text

-- ---------------------------------------------------------------------------
-- BigInt
-- ---------------------------------------------------------------------------

/-- White space and line ends. -/
def isBlank (c : Char) : Bool :=
  c.toNat ∈ [9, 10, 11, 12, 13, 32, 0xA0, 0x1680, 0x2028, 0x2029, 0x202F, 0x205F, 0x3000, 0xFEFF] ||
    (0x2000 ≤ c.toNat && c.toNat ≤ 0x200A)

def trim (text : Text) : Text := ((text.dropWhile isBlank).reverse.dropWhile isBlank).reverse

def digitValue (base : Nat) (c : Char) : Option Nat :=
  let value :=
    if '0' ≤ c ∧ c ≤ '9' then c.toNat - 48
    else if 'a' ≤ c ∧ c ≤ 'z' then c.toNat - 87
    else if 'A' ≤ c ∧ c ≤ 'Z' then c.toNat - 55
    else base
  if value < base then some value else none

def digitsValue (base : Nat) (digits : Text) : Option Nat :=
  if digits = [] then none
  else digits.foldlM (fun n c => (digitValue base c).map (base * n + ·)) 0

def stringToBigInt : Text → Option Int
  | [] => some 0
  | '0' :: 'x' :: digits | '0' :: 'X' :: digits => (digitsValue 16 digits).map Int.ofNat
  | '0' :: 'o' :: digits | '0' :: 'O' :: digits => (digitsValue 8 digits).map Int.ofNat
  | '0' :: 'b' :: digits | '0' :: 'B' :: digits => (digitsValue 2 digits).map Int.ofNat
  | '-' :: digits => (digitsValue 10 digits).map fun n => -(Int.ofNat n)
  | '+' :: digits => (digitsValue 10 digits).map Int.ofNat
  | digits => (digitsValue 10 digits).map Int.ofNat

/-- `BigInt(text)`. -/
def bigInt (text : Text) : Js Int :=
  match stringToBigInt (trim text) with
  | some n => pure n
  | none => throw ("Cannot convert ".toList ++ text ++ " to a BigInt".toList)

/-- `n.toString(base)`. -/
def bigIntText (base : Nat) : Int → Text
  | .ofNat n => Nat.toDigits base n
  | .negSucc n => '-' :: Nat.toDigits base (n + 1)

-- ---------------------------------------------------------------------------
-- Writing the proof
-- ---------------------------------------------------------------------------

structure SnarkProof where
  piA : List Text
  piB : List (List Text)
  piC : List Text

def fieldElemToHex32 (n : Int) : Js Text :=
  if n < 0 then throw ("Negative field element: ".toList ++ bigIntText 10 n)
  else
    let hex := bigIntText 16 n
    if 64 < hex.length then throw ("Field element too large for 32 bytes: ".toList ++ bigIntText 10 n)
    else pure (padStart 64 hex)

/-- An element of an array, or what its use throws when it is undefined. -/
def element (array : List α) (i : Nat) (msg : String) : Js α :=
  match array[i]? with
  | some a => pure a
  | none => throw msg.toList

def fe (s : Text) : Js Text := do
  let n ← bigInt s
  fieldElemToHex32 n

def feAt (array : List Text) (i : Nat) : Js Text := do
  let s ← element array i "Cannot convert undefined to a BigInt"
  fe s

/-- `JSON.stringify(object, null, 2)` of an object with texts for values. -/
def stringify (entries : List (Text × Text)) : Text :=
  let lines := entries.map fun (key, value) =>
    "\n  \"".toList ++ key ++ "\": \"".toList ++ value ++ "\"".toList
  "\x7b".toList ++ (lines.intersperse ",".toList).flatten ++ "\n\x7d".toList

def writeProofBytesFile (proof : SnarkProof) (publicSignals : List Text) : Js Text := do
  let ax ← feAt proof.piA 0
  let ay ← feAt proof.piA 1
  let b0 ← element proof.piB 0 "Cannot read properties of undefined (reading '0')"
  let bx0 ← feAt b0 0
  let bx1 ← feAt b0 1
  let b1 ← element proof.piB 1 "Cannot read properties of undefined (reading '0')"
  let by0 ← feAt b1 0
  let by1 ← feAt b1 1
  let cx ← feAt proof.piC 0
  let cy ← feAt proof.piC 1
  let salaryCommitment ← feAt publicSignals 0
  let paymentNullifier ← feAt publicSignals 1
  let recipientHash ← feAt publicSignals 2
  return stringify
    [("pi_a".toList, ax ++ ay),
      ("pi_b".toList, bx0 ++ bx1 ++ by0 ++ by1),
      ("pi_c".toList, cx ++ cy),
      ("salary_commitment".toList, salaryCommitment),
      ("payment_nullifier".toList, paymentNullifier),
      ("recipient_hash".toList, recipientHash)]

-- ---------------------------------------------------------------------------
-- The script
-- ---------------------------------------------------------------------------

/-- `n % BN254_R`. -/
def modR (n : Int) : Int := n.tmod bn254R

/-- The proof and the public signals that stand in for those of snarkjs. -/
def mockProof (salary blinding : Int) : SnarkProof × List Text :=
  let s := modR salary
  let b := modR blinding
  let commitment := modR (s + b * 7)
  let nullifier := modR (commitment * 13 + 1)
  let recipient := modR (b * 31 + 17)
  let text n := bigIntText 10 (modR n)
  (⟨[text (s * 3 + 1), text (b * 5 + 2), "1".toList],
    [[text (s * 17 + 5), text (b * 19 + 6)], [text (s * 23 + 7), text (b * 29 + 8)],
      ["1".toList, "0".toList]],
    [text (commitment * 7 + 3), text (nullifier * 11 + 4), "1".toList]⟩,
    [bigIntText 10 commitment, bigIntText 10 nullifier, bigIntText 10 recipient])

structure NodeHost where
  /-- `groth16.fullProve` of an installed snarkjs, on the texts of the inputs. -/
  fullProve : Option (Text → Text → Js (SnarkProof × List Text))
  hasArtifacts : Bool

/-- A run of the script with its arguments, `process.argv` from the third on. -/
def generateProof (node : NodeHost) (argv : List Text) : Js Text := do
  let salary ← bigInt (argv[0]?.getD "5000".toList)
  let blinding ← bigInt (argv[1]?.getD "123".toList)
  match node.fullProve, node.hasArtifacts with
  | some fullProve, true =>
    let (proof, publicSignals) ← fullProve (bigIntText 10 salary) (bigIntText 10 blinding)
    writeProofBytesFile proof publicSignals
  | _, _ =>
    let (proof, publicSignals) := mockProof salary blinding
    writeProofBytesFile proof publicSignals

end ZkPayroll.Circuits
