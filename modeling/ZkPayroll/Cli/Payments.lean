import ZkPayroll.Cli.Rpc
import ZkPayroll.PaymentExecutor.Steps

/-!
# Reconciling the payments of the executor

`execute_payment` ends with an event, so that payments can be reconciled. The
event has the company's number as its second topic, where the event reader
wants a symbol. The reader takes it for an event of something else, and no
payment of any run is ever reconciled; with a symbol in that place each of
them would be, to the last bit of the amount.
-/

namespace ZkPayroll.Cli

open Host PaymentExecutor

structure ContractEvent where
  topics : List ScVal
  data : ScVal

/-- The upper half of an `i128` as an `i64` and the lower as a `u64`. -/
def ScVal.ofI128 (v : Int) : ScVal :=
  let bits := BitVec.ofInt 128 v
  .i128 (bits.extractLsb' 64 64) (bits.extractLsb' 0 64)

def emitExecutorPaymentProcessed (codec : Codec) (companyId : Nat) (employee : Address)
    (amount : Int) (period : Nat) : ContractEvent :=
  ⟨[.symbol "PayrollProcessed".toUTF8, .u64 companyId],
    .vec (some [.address (codec.address employee), .ofI128 amount, .u32 period])⟩

def paymentEvent (codec : Codec) (p : PaymentRequest) : ContractEvent :=
  emitExecutorPaymentProcessed codec p.companyId p.employee p.amount p.period

/-- `execute_payment` with the events it publishes. -/
def executePaymentPublishing (codec : Codec) (e : LedgerEnv) (p : PaymentRequest) (w : System) :
    Outcome PaymentError (PaymentRecord × System × List ContractEvent) := do
  let (record, w) ← executePayment e p w
  return (record, w, [paymentEvent codec p])

/-- An event as the server sends it. -/
def Codec.raw (codec : Codec) (event : ContractEvent) (ledgerClosedAt : String) : RawEvent :=
  ⟨ledgerClosedAt, event.topics.map codec.encode, codec.encode event.data, true⟩

/-- The values of the event survive the way over the server. -/
structure Codec.Transmits (codec : Codec) (event : ContractEvent) : Prop where
  topics : ∀ value ∈ event.topics, decodeScval codec (codec.encode value) = .ok value
  data : decodeScval codec (codec.encode event.data) = .ok event.data

def expected (codec : Codec) (p : PaymentRequest) (ledgerClosedAt : String) : PayrollEvent :=
  ⟨scaddressToStrkey codec (codec.address p.employee), p.amount, p.period, ledgerClosedAt⟩

/-- The reader, asked for the company, gives back who was paid, how much and for
which period. -/
def Reconciles (codec : Codec) (p : PaymentRequest) (event : ContractEvent)
    (ledgerClosedAt : String) : Prop :=
  tryDecodePayrollEvent codec (codec.raw event ledgerClosedAt) (toString p.companyId) =
    .ok (some (expected codec p ledgerClosedAt))

-- ---------------------------------------------------------------------------
-- The halves of an amount
-- ---------------------------------------------------------------------------

theorem halves_join (bits : BitVec 128) :
    ((bits.extractLsb' 64 64).signExtend 128 <<< 64) ||| (bits.extractLsb' 0 64).zeroExtend 128 =
      bits := by
  ext i hi
  by_cases hlow : i < 64
  · simp [hlow, BitVec.getLsbD_eq_getElem hi]
  · have hhigh : i - 64 < 64 := by omega
    have hsum : 64 + (i - 64) = i := by omega
    simp [hlow, hhigh, hsum, BitVec.getElem_signExtend, BitVec.getLsbD_eq_getElem hi]

theorem i128_roundtrip (h : InI128 v) : (ScVal.ofI128 v).i128? = some v := by
  simp only [ScVal.ofI128, ScVal.i128?, halves_join, BitVec.toInt_ofInt, Option.some.injEq]
  obtain ⟨hmin, hmax⟩ := h
  unfold i128Min at hmin
  unfold i128Max at hmax
  apply Int.bmod_eq_of_le <;> omega

-- ---------------------------------------------------------------------------
-- Payments
-- ---------------------------------------------------------------------------

section
variable {codec : Codec} {e : LedgerEnv} {p : PaymentRequest} {w w' : System}

theorem executePaymentPublishing_ok :
    executePaymentPublishing codec e p w = .ok (record, w', events) ↔
      executePayment e p w = .ok (record, w') ∧ events = [paymentEvent codec p] := by
  simp only [executePaymentPublishing, bind_ok, Prod.exists, pure_ok, Prod.mk.injEq]
  constructor
  · rintro ⟨_, _, hpaid, rfl, rfl, rfl⟩
    exact ⟨hpaid, rfl⟩
  · rintro ⟨hpaid, rfl⟩
    exact ⟨_, _, hpaid, rfl, rfl, rfl⟩

/-- The reader passes over the event of a payment, whatever company it is asked
for. -/
theorem paymentEvent_passed_over (h : codec.Transmits (paymentEvent codec p)) (closedAt : String)
    (companyId : String) :
    tryDecodePayrollEvent codec (codec.raw (paymentEvent codec p) closedAt) companyId = .ok none :=
  tryDecodePayrollEvent_none rfl (h.topics _ List.mem_cons_self)
    (h.topics (.u64 p.companyId) (by simp [paymentEvent, emitExecutorPaymentProcessed])) (by simp)

theorem symbol_topic_reconciles (hamount : InI128 p.amount)
    (h : codec.Transmits { paymentEvent codec p with
      topics := [.symbol "PayrollProcessed".toUTF8, .symbol (toString p.companyId).toUTF8] })
    (closedAt : String) :
    Reconciles codec p { paymentEvent codec p with
      topics := [.symbol "PayrollProcessed".toUTF8, .symbol (toString p.companyId).toUTF8] }
      closedAt := by
  refine tryDecodePayrollEvent_some.mpr ⟨⟨⟨_, _, _, _, h.data, rfl, ?_⟩, rfl⟩, _, _, _, rfl,
    h.topics _ List.mem_cons_self, h.topics _ (by simp)⟩
  have hsome := i128_roundtrip hamount
  simp only [ScVal.ofI128, ScVal.i128?, Option.some.injEq] at hsome
  exact hsome.symm

/-- A payment that goes through is never reconciled. -/
theorem payment_never_reconciles (codec : Codec) (e : LedgerEnv) (p : PaymentRequest)
    (w w' : System) (record : PaymentRecord) (events : List ContractEvent)
    (hpaid : executePaymentPublishing codec e p w = .ok (record, w', events)) :
    ∃ event, events = [event] ∧ (codec.Transmits event → ∀ closedAt,
      tryDecodePayrollEvent codec (codec.raw event closedAt) (toString p.companyId) = .ok none ∧
      ¬ Reconciles codec p event closedAt) := by
  obtain ⟨-, rfl⟩ := executePaymentPublishing_ok.mp hpaid
  refine ⟨_, rfl, fun h closedAt => ?_⟩
  have hnone := paymentEvent_passed_over h closedAt (toString p.companyId)
  refine ⟨hnone, fun hreconciles => ?_⟩
  rw [Reconciles, hnone] at hreconciles
  cases hreconciles

/-- The events of all payments of a run, read for any company, give an empty
report. -/
theorem run_reports_nothing (inputs : List Input) (closedAt : String)
    (h : ∀ p ∈ payments (steps next System.genesis inputs), codec.Transmits (paymentEvent codec p))
    (companyId : String) :
    fetchPayrollEvents codec
      ⟨some ((payments (steps next System.genesis inputs)).map fun p =>
        codec.raw (paymentEvent codec p) closedAt), none⟩ companyId = .ok [] := by
  apply decodeEvents_nil
  intro ev hev
  obtain ⟨p, hp, rfl⟩ := List.mem_map.mp hev
  exact paymentEvent_passed_over (h p hp) closedAt companyId

end

-- ---------------------------------------------------------------------------
-- A payment on the wire
-- ---------------------------------------------------------------------------

namespace Sample

def bigEndian (width n : Nat) : List UInt8 :=
  (List.range width).map fun k => UInt8.ofNat (n / 256 ^ (width - 1 - k))

def toXdr : ScVal → List UInt8
  | .symbol bytes =>
    bigEndian 4 15 ++ bigEndian 4 bytes.size ++ bytes.data.toList ++
      List.replicate ((4 - bytes.size % 4) % 4) 0
  | .u32 n => bigEndian 4 3 ++ bigEndian 4 n
  | .u64 n => bigEndian 4 5 ++ bigEndian 8 n
  | .i128 hi lo => bigEndian 4 10 ++ bigEndian 8 hi.toNat ++ bigEndian 8 lo.toNat
  | .address (.account key) => bigEndian 4 18 ++ bigEndian 4 0 ++ bigEndian 4 0 ++ key.toList
  | .address (.contract hash) => bigEndian 4 18 ++ bigEndian 4 1 ++ hash.toList
  | .vec (some [a, b, c]) =>
    bigEndian 4 16 ++ bigEndian 4 1 ++ bigEndian 4 3 ++ toXdr a ++ toXdr b ++ toXdr c
  | .vec _ => []
  | .other xdr => xdr

def base64Digit (n : Nat) : Char :=
  if n < 26 then Char.ofNat (65 + n)
  else if n < 52 then Char.ofNat (71 + n)
  else if n < 62 then Char.ofNat (n - 4)
  else if n = 62 then '+'
  else '/'

def base64 : List UInt8 → List Char
  | a :: b :: c :: rest =>
    let n := a.toNat * 65536 + b.toNat * 256 + c.toNat
    base64Digit (n / 262144) :: base64Digit (n / 4096 % 64) :: base64Digit (n / 64 % 64) ::
      base64Digit (n % 64) :: base64 rest
  | [a, b] =>
    let n := a.toNat * 1024 + b.toNat * 4
    [base64Digit (n / 4096), base64Digit (n / 64 % 64), base64Digit (n % 64), '=']
  | [a] => [base64Digit (a.toNat / 4), base64Digit (a.toNat % 4 * 16), '=', '=']
  | [] => []

def key : BytesN 32 := List.Vector.replicate 32 7

def request : PaymentRequest := PaymentExecutor.Sample.payment 0 1 1

def values : List ScVal :=
  [.symbol "PayrollProcessed".toUTF8, .u64 0,
    .vec (some [.address (.account key), .ofI128 100, .u32 1])]

def codec : Codec where
  base64Decode b64 :=
    match values.find? fun value => base64 (toXdr value) = b64.toList with
    | some value => pure (toXdr value)
    | none => bail "Invalid byte"
  fromXdr bytes :=
    match values.find? fun value => toXdr value = bytes with
    | some value => pure value
    | none => bail "xdr value invalid"
  encode value := String.ofList (base64 (toXdr value))
  address _ := .account key
  accountStrkey _ := "GADQOBYHA4DQOBYHA4DQOBYHA4DQOBYHA4DQOBYHA4DQOBYHA4DQOZPI"
  debug _ := ""
  utf8Error _ := "invalid utf-8 sequence"

set_option maxRecDepth 10000 in
theorem transmits : codec.Transmits (paymentEvent codec request) where
  topics value hvalue := by
    simp only [paymentEvent, emitExecutorPaymentProcessed, List.mem_cons, List.not_mem_nil,
      or_false] at hvalue
    rcases hvalue with rfl | rfl <;> rfl
  data := rfl

def env : LedgerEnv :=
  PaymentExecutor.Sample.env [PaymentExecutor.Sample.hr 0, PaymentExecutor.Sample.treasury 0]

def deployed : System := runFrom next System.genesis PaymentExecutor.Sample.deployed

theorem paid : ∃ record w', executePaymentPublishing codec env request deployed =
    .ok (record, w', [paymentEvent codec request]) := by
  have hok : (executePayment env request deployed).isOk = true := by decide +kernel
  cases hpaid : executePayment env request deployed with
  | ok result => exact ⟨result.1, result.2, executePaymentPublishing_ok.mpr ⟨hpaid, rfl⟩⟩
  | error err =>
    rw [hpaid] at hok
    cases hok

end Sample

theorem alice_payment_passed_over :
    Sample.codec.Transmits (paymentEvent Sample.codec Sample.request) ∧
      tryDecodePayrollEvent Sample.codec
        (Sample.codec.raw (paymentEvent Sample.codec Sample.request) "2024-12-01T00:00:00Z") "0" =
          .ok none := by
  obtain ⟨record, w', hpaid⟩ := Sample.paid
  obtain ⟨event, hevent, hnever⟩ := payment_never_reconciles _ _ _ _ w' record _ hpaid
  obtain rfl : paymentEvent Sample.codec Sample.request = event := by simpa using hevent
  exact ⟨Sample.transmits, (hnever Sample.transmits _).1⟩

/-- Nothing is lost on the way from the payment to the reader, and it is still
not reconciled. -/
theorem alice_payment_unreconciled :
    (∃ record w', executePaymentPublishing Sample.codec Sample.env Sample.request Sample.deployed =
      .ok (record, w', [paymentEvent Sample.codec Sample.request])) ∧
      Sample.codec.Transmits (paymentEvent Sample.codec Sample.request) ∧
      ¬ Reconciles Sample.codec Sample.request (paymentEvent Sample.codec Sample.request)
        "2024-12-01T00:00:00Z" := by
  refine ⟨Sample.paid, Sample.transmits, fun h => ?_⟩
  rw [Reconciles, paymentEvent_passed_over Sample.transmits] at h
  cases h

end ZkPayroll.Cli
