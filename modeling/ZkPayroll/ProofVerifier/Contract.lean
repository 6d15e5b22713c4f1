import ZkPayroll.Host.Failure
import ZkPayroll.Host.Runs
import ZkPayroll.Env

/-!
# The proof verifier

`contracts/proof_verifier`: the verification key, the admin that sets it, and
the references under which a proof may be verified until they expire or are
revoked. The pairing check itself is a stub in the source, and is one here.

The functions on references authenticate the address they are given as the
admin, and do not compare it with the stored one.
-/

namespace ZkPayroll.ProofVerifier

open Host

structure Groth16Proof where
  a : BytesN 64
  b : BytesN 128
  c : BytesN 64
  deriving DecidableEq

structure VerificationKey where
  alpha : BytesN 64
  beta : BytesN 128
  gamma : BytesN 128
  delta : BytesN 128
  ic : List (BytesN 64)
  deriving DecidableEq

structure ProofReference where
  proofHash : BytesN 32
  registeredAtLedger : Nat
  expiresAtLedger : Nat
  revoked : Bool
  deriving DecidableEq

inductive ProofError
  | notInitialized
  | alreadyInitialized
  | referenceAlreadyExists
  | referenceNotFound
  | referenceExpired
  | referenceRevoked
  | invalidExpiry
  | expiryBeyondCap
  | proofMismatch
  deriving DecidableEq

inductive DataKey
  | verificationKey
  | admin
  | proofReference (refId : BytesN 32)
  deriving DecidableEq

abbrev DataKey.Val : DataKey → Type
  | .verificationKey => VerificationKey
  | .admin => Address
  | .proofReference _ => ProofReference

abbrev Storage := Store DataKey.Val

def maxReferenceTtlLedgers : Nat := 518400

-- ---------------------------------------------------------------------------
-- The verifier
-- ---------------------------------------------------------------------------

def requireAdmin (e : LedgerEnv) (s : Storage) : Result Unit := do
  let admin ← expect (s.get .admin) "Not initialized"
  requireAuth e.toEnv admin

/-- Anyone may call it, once. -/
def initVerifierAdmin (admin : Address) (s : Storage) : Result Storage := do
  ensure (s.has .admin = false) "Already initialized"
  return s.set .admin admin

def getVerifierAdmin (s : Storage) : Result Address := expect (s.get .admin) "Not initialized"

def initializeVerifier (e : LedgerEnv) (vk : VerificationKey) (s : Storage) : Result Storage := do
  requireAdmin e s
  ensure (s.has .verificationKey = false) "Verifier already initialized"
  return s.set .verificationKey vk

def getVerificationKey (s : Storage) : Result VerificationKey :=
  expect (s.get .verificationKey) "Verifier not initialized"

def simulatedVerifyGroth16 (_ : VerificationKey) (_ : BytesN 256) (_ : List (BytesN 32)) : Bool :=
  true

def verifyPaymentProof (s : Storage) (proof : BytesN 256) (publicInputs : List (BytesN 32)) :
    Result Bool := do
  let vk ← getVerificationKey s
  let count ← addU32 publicInputs.length 1
  if count ≠ vk.ic.length then return false
  return simulatedVerifyGroth16 vk proof publicInputs

def packGroth16Proof (proof : Groth16Proof) : BytesN 256 := proof.a ++ proof.b ++ proof.c

def verify (s : Storage) (proof : Groth16Proof) (publicInputs : List (BytesN 32)) : Result Bool :=
  verifyPaymentProof s (packGroth16Proof proof) publicInputs

-- ---------------------------------------------------------------------------
-- References
-- ---------------------------------------------------------------------------

def proofDigest (e : LedgerEnv) (proof : BytesN 256) : BytesN 32 := e.crypto.sha256 proof.toList

def registerProofReference (e : LedgerEnv) (admin : Address) (refId : BytesN 32)
    (proof : BytesN 256) (expiresAtLedger : Nat) (s : Storage) :
    Outcome ProofError (ProofReference × Storage) := do
  orPanic (requireAuth e.toEnv admin)
  check (s.has (.proofReference refId) = false) .referenceAlreadyExists
  check (¬ expiresAtLedger ≤ e.sequence) .invalidExpiry
  check (¬ expiresAtLedger - e.sequence > maxReferenceTtlLedgers) .expiryBeyondCap
  let reference := ⟨proofDigest e proof, e.sequence, expiresAtLedger, false⟩
  return (reference, s.set (.proofReference refId) reference)

def revokeProofReference (e : LedgerEnv) (admin : Address) (refId : BytesN 32) (s : Storage) :
    Outcome ProofError Storage := do
  orPanic (requireAuth e.toEnv admin)
  let reference ← okOr (s.get (.proofReference refId)) .referenceNotFound
  return s.set (.proofReference refId) { reference with revoked := true }

def getProofReference (s : Storage) (refId : BytesN 32) : Outcome ProofError ProofReference :=
  okOr (s.get (.proofReference refId)) .referenceNotFound

/-- Usable through the ledger of the expiry. -/
def referenceIsCurrent (e : LedgerEnv) (reference : ProofReference) : Outcome ProofError Unit := do
  check (reference.revoked = false) .referenceRevoked
  check (¬ e.sequence > reference.expiresAtLedger) .referenceExpired

def isProofReferenceValid (e : LedgerEnv) (s : Storage) (refId : BytesN 32) : Bool :=
  match s.get (.proofReference refId) with
  | some reference => (referenceIsCurrent e reference).isOk
  | none => false

def verifyWithReference (e : LedgerEnv) (s : Storage) (refId : BytesN 32) (proof : BytesN 256)
    (publicInputs : List (BytesN 32)) : Result Bool :=
  match s.get (.proofReference refId) with
  | none => pure false
  | some reference =>
    if (referenceIsCurrent e reference).isOk = false then pure false
    else if reference.proofHash ≠ proofDigest e proof then pure false
    else verifyPaymentProof s proof publicInputs

-- ---------------------------------------------------------------------------
-- The machine
-- ---------------------------------------------------------------------------

inductive Call
  | initVerifierAdmin (admin : Address)
  | initializeVerifier (vk : VerificationKey)
  | registerProofReference (admin : Address) (refId : BytesN 32) (proof : BytesN 256)
      (expiresAtLedger : Nat)
  | revokeProofReference (admin : Address) (refId : BytesN 32)

/-- The reference a registration returns is the one it stores. -/
def exec (e : LedgerEnv) (s : Storage) : Call → Outcome ProofError Storage
  | .initVerifierAdmin admin => orPanic (initVerifierAdmin admin s)
  | .initializeVerifier vk => orPanic (initializeVerifier e vk s)
  | .registerProofReference admin refId proof expiresAtLedger => do
    let (_, s) ← registerProofReference e admin refId proof expiresAtLedger s
    return s
  | .revokeProofReference admin refId => revokeProofReference e admin refId s

structure Input where
  env : LedgerEnv
  call : Call

def next (s : Storage) (i : Input) : Storage :=
  match exec i.env s i.call with
  | .ok s' => s'
  | .error _ => s

end ZkPayroll.ProofVerifier
