import ZkPayroll.Host.Store
import ZkPayroll.Host.Checked
import Mathlib.Data.Vector.Basic

/-!
# What a contract call sees

Addresses, byte strings and symbols are the host's; the environment of a call
has the ledger time, the addresses that authorise the call, and the answers
of the contracts that are only asked a question: the pause managers and the
proof verifiers, which may be any contract at the configured address.

`requireAuth` succeeds exactly for the authorising addresses. A contract
that calls another one authorises that call itself.
-/

namespace ZkPayroll

structure Address where
  id : Nat
  deriving DecidableEq, Repr

abbrev BytesN (n : Nat) := List.Vector UInt8 n

/-- `BytesN::from_array(&e, &[0u8; n])`. -/
def BytesN.zero : BytesN n := List.Vector.replicate n 0

abbrev Symbol := String

/-- Hashing and serialisation, which the host supplies. -/
structure Crypto where
  sha256 : List UInt8 → BytesN 32
  addressToXdr : Address → List UInt8
  symbolToXdr : Symbol → List UInt8
  bytesToXdr : BytesN 32 → List UInt8

structure Env where
  crypto : Crypto
  /-- The contract being executed. -/
  contract : Address
  timestamp : Nat
  auths : List Address
  /-- The answer of the pause manager at an address to `is_paused`. -/
  isPaused : Address → Bool
  /-- The answer of the verifier at an address to `verify_payment_proof`. -/
  verifyPaymentProof : Address → BytesN 256 → List (BytesN 32) → Bool

/-- The environment of the contracts that also read the ledger's sequence
number or parse wallet strings. -/
structure LedgerEnv extends Env where
  sequence : Nat
  /-- `Address::from_string` on a well-formed account string. -/
  addressFromString : List UInt8 → Address

open Host

def requireAuth (e : Env) (a : Address) : Result Unit :=
  ensure (a ∈ e.auths) "Error(Auth, InvalidAction)"

theorem requireAuth_ok {e : Env} : requireAuth e a = .ok u ↔ a ∈ e.auths := ensure_ok

/-- The environment of a call made by the running contract to `callee`. -/
def Env.calling (e : Env) (callee : Address) : Env :=
  { e with contract := callee, auths := e.contract :: e.auths }

end ZkPayroll
