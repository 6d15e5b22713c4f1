import ZkPayroll.Env
import ZkPayroll.Host.Hex

/-!
# The event reader of the command-line tool

`cli/src/rpc.rs`: the `reconcile` command asks a Soroban RPC server for the
events of the payment executor and keeps the `PayrollProcessed` events of one
company. The server sends XDR values as base64 text; both formats, the texts
of account keys and the debug output come from libraries and are a parameter
here.

An error is the chain of its contexts, outermost first.
-/

namespace ZkPayroll.Cli

open Host

inductive ScAddress
  | account (key : BytesN 32)
  | contract (hash : BytesN 32)
  deriving DecidableEq

/-- The kinds that no function here tells apart are in `other`. -/
inductive ScVal
  | symbol (bytes : ByteArray)
  | u32 (n : Nat)
  | u64 (n : Nat)
  /-- `Int128Parts`: `hi` is an `i64`, `lo` a `u64`. -/
  | i128 (hi lo : BitVec 64)
  | address (addr : ScAddress)
  | vec (elements : Option (List ScVal))
  | other (xdr : List UInt8)

-- ---------------------------------------------------------------------------
-- Errors
-- ---------------------------------------------------------------------------

abbrev Anyhow := Except (List String)

def bail (msg : String) : Anyhow α := throw [msg]

def context (r : Anyhow α) (msg : String) : Anyhow α := r.mapError (msg :: ·)

theorem context_ok {r : Anyhow α} : context r msg = .ok a ↔ r = .ok a := by
  cases r <;> simp [context, Except.mapError]

@[simp] theorem bail_ok : (bail msg : Anyhow α) = .ok a ↔ False := by simp [bail]

-- ---------------------------------------------------------------------------
-- Formats
-- ---------------------------------------------------------------------------

/-- The libraries: `base64`, `stellar-xdr`, `stellar-strkey` and `core`. -/
structure Codec where
  base64Decode : String → Anyhow (List UInt8)
  fromXdr : List UInt8 → Anyhow ScVal
  /-- The text the server sends for a value. -/
  encode : ScVal → String
  /-- The address as the host writes it into a value. -/
  address : Address → ScAddress
  /-- The strkey of an account, a G-address. -/
  accountStrkey : BytesN 32 → String
  debug : ScVal → String
  /-- The text of a `Utf8Error`. -/
  utf8Error : ByteArray → String

def decodeScval (codec : Codec) (b64 : String) : Anyhow ScVal := do
  let bytes ← context (codec.base64Decode b64) "Failed to base64-decode XDR ScVal"
  context (codec.fromXdr bytes) "Failed to XDR-decode ScVal"

/-- `std::str::from_utf8`. -/
def fromUtf8 (codec : Codec) (bytes : ByteArray) : Anyhow String :=
  match String.fromUTF8? bytes with
  | some text => pure text
  | none => bail (codec.utf8Error bytes)

/-- `hex::encode`. -/
def hexEncode (bytes : List UInt8) : String := String.ofList (hexText bytes)

def scaddressToStrkey (codec : Codec) : ScAddress → String
  | .account key => codec.accountStrkey key
  | .contract hash => "C:" ++ hexEncode hash.toList

-- ---------------------------------------------------------------------------
-- Fields of the data
-- ---------------------------------------------------------------------------

/-- `extract_address`, `extract_i128` and `extract_u32` differ in the kind of
value they want. -/
def extract (codec : Codec) (kind : String) (read : ScVal → Option α) (vec : List ScVal)
    (idx : Nat) : Anyhow α :=
  match vec[idx]? with
  | some value =>
    match read value with
    | some a => pure a
    | none =>
      let other := codec.debug value
      bail s!"Expected ScVal::{kind} at index {idx}, got {other}"
  | none => bail s!"Missing element at index {idx} in event data Vec"

def ScVal.address? : ScVal → Option ScAddress
  | .address addr => some addr
  | _ => none

/-- `((hi as i128) << 64) | (lo as i128)`. -/
def ScVal.i128? : ScVal → Option Int
  | .i128 hi lo => some ((hi.signExtend 128 <<< 64) ||| lo.zeroExtend 128).toInt
  | _ => none

def ScVal.u32? : ScVal → Option Nat
  | .u32 n => some n
  | _ => none

def extractAddress (codec : Codec) (vec : List ScVal) (idx : Nat) : Anyhow String := do
  let addr ← extract codec "Address" ScVal.address? vec idx
  return scaddressToStrkey codec addr

def extractI128 (codec : Codec) : List ScVal → Nat → Anyhow Int := extract codec "I128" ScVal.i128?

def extractU32 (codec : Codec) : List ScVal → Nat → Anyhow Nat := extract codec "U32" ScVal.u32?

-- ---------------------------------------------------------------------------
-- Events
-- ---------------------------------------------------------------------------

structure PayrollEvent where
  employee : String
  amount : Int
  period : Nat
  ledgerClosedAt : String
  deriving DecidableEq

structure RawEvent where
  ledgerClosedAt : String
  topic : List String
  value : String
  inSuccessfulContractCall : Bool

def symbolTopic (codec : Codec) (b64 decodeContext textContext : String) :
    Anyhow (Option String) := do
  match ← context (decodeScval codec b64) decodeContext with
  | .symbol bytes =>
    let text ← context (fromUtf8 codec bytes) textContext
    return some text
  | _ => return none

def decodeData (codec : Codec) (ev : RawEvent) : Anyhow PayrollEvent := do
  match ← context (decodeScval codec ev.value) "Failed to decode event data" with
  | .vec (some vec) =>
    let employee ← extractAddress codec vec 0
    let amount ← extractI128 codec vec 1
    let period ← extractU32 codec vec 2
    return ⟨employee, amount, period, ev.ledgerClosedAt⟩
  | _ => bail "Expected ScVal::Vec for PayrollProcessed data"

/-- `none` for an event of another type or another company. -/
def tryDecodePayrollEvent (codec : Codec) (ev : RawEvent) (companyId : String) :
    Anyhow (Option PayrollEvent) :=
  match ev.topic with
  | topic0 :: topic1 :: _ => do
    let eventName ← symbolTopic codec topic0 "Failed to decode event topic[0]"
      "Event name is not valid UTF-8"
    if eventName = some "PayrollProcessed" then
      let eventCompany ← symbolTopic codec topic1 "Failed to decode event topic[1]"
        "Company ID is not valid UTF-8"
      if eventCompany = some companyId then
        let event ← decodeData codec ev
        return some event
      else return none
    else return none
  | _ => pure none

def decodeEvents (codec : Codec) (companyId : String) : List RawEvent → Anyhow (List PayrollEvent)
  | [] => pure []
  | ev :: rest => do
    if ev.inSuccessfulContractCall = false then decodeEvents codec companyId rest
    else
      let event ← tryDecodePayrollEvent codec ev companyId
      let events ← decodeEvents codec companyId rest
      return event.toList ++ events

structure RpcResponse where
  result : Option (List RawEvent)
  error : Option String

/-- `fetch_payroll_events` from the answer of the server on. -/
def fetchPayrollEvents (codec : Codec) (resp : RpcResponse) (companyId : String) :
    Anyhow (List PayrollEvent) :=
  match resp.error with
  | some err => bail s!"Soroban RPC error: {err}"
  | none => decodeEvents codec companyId (resp.result.getD [])

-- ---------------------------------------------------------------------------
-- What is accepted
-- ---------------------------------------------------------------------------

structure DataLayout (codec : Codec) (ev : RawEvent) (event : PayrollEvent) : Prop where
  fields : ∃ addr hi lo rest, decodeScval codec ev.value =
      .ok (.vec (some (.address addr :: .i128 hi lo :: .u32 event.period :: rest))) ∧
    event.employee = scaddressToStrkey codec addr ∧
    event.amount = ((hi.signExtend 128 <<< 64) ||| lo.zeroExtend 128).toInt
  closedAt : event.ledgerClosedAt = ev.ledgerClosedAt

/-- The event is a payment of the company in the layout the reader documents. -/
structure Documented (codec : Codec) (ev : RawEvent) (companyId : String) (event : PayrollEvent) :
    Prop extends DataLayout codec ev event where
  topics : ∃ topic0 topic1 rest, ev.topic = topic0 :: topic1 :: rest ∧
    decodeScval codec topic0 = .ok (.symbol "PayrollProcessed".toUTF8) ∧
    decodeScval codec topic1 = .ok (.symbol companyId.toUTF8)

section
variable {codec : Codec} {ev : RawEvent}

theorem fromUtf8_ok : fromUtf8 codec bytes = .ok text ↔ bytes = text.toUTF8 := by
  unfold fromUtf8 String.fromUTF8?
  by_cases hvalid : bytes.IsValidUTF8
  · simp only [hvalid, ↓reduceDIte, pure_ok, String.toUTF8_eq_toByteArray]
    rw [← String.toByteArray_inj]
    exact eq_comm
  · simp only [hvalid, ↓reduceDIte, bail_ok, false_iff]
    rintro rfl
    exact hvalid text.isValidUTF8

theorem extract_ok {read : ScVal → Option α} : extract codec kind read vec idx = .ok a ↔
    ∃ value, vec[idx]? = some value ∧ read value = some a := by
  unfold extract
  cases vec[idx]? with
  | none => simp
  | some value => cases hread : read value <;> simp [hread, pure, Except.pure]

theorem address?_some : ScVal.address? value = some addr ↔ value = .address addr := by
  cases value <;> simp [ScVal.address?]

theorem i128?_some : ScVal.i128? value = some amount ↔
    ∃ hi lo, value = .i128 hi lo ∧
      amount = ((hi.signExtend 128 <<< 64) ||| lo.zeroExtend 128).toInt := by
  cases value with
  | i128 hi lo =>
    simp only [ScVal.i128?, Option.some.injEq, ScVal.i128.injEq]
    constructor
    · rintro rfl
      exact ⟨hi, lo, ⟨rfl, rfl⟩, rfl⟩
    · rintro ⟨_, _, ⟨rfl, rfl⟩, rfl⟩
      rfl
  | _ => simp [ScVal.i128?]

theorem u32?_some : ScVal.u32? value = some n ↔ value = .u32 n := by
  cases value <;> simp [ScVal.u32?]

theorem symbolTopic_some : symbolTopic codec b64 decodeContext textContext = .ok (some text) ↔
    decodeScval codec b64 = .ok (.symbol text.toUTF8) := by
  simp only [symbolTopic, bind_ok, context_ok]
  constructor
  · rintro ⟨value, hvalue, htext⟩
    cases value with
    | symbol bytes =>
      obtain ⟨text', htext', h⟩ := bind_ok.mp htext
      obtain rfl := Option.some.inj (pure_ok.mp h)
      rw [hvalue, fromUtf8_ok.mp (context_ok.mp htext')]
    | _ => cases htext
  · intro hvalue
    refine ⟨_, hvalue, bind_ok.mpr ⟨text, ?_, rfl⟩⟩
    exact context_ok.mpr (fromUtf8_ok.mpr rfl)

theorem symbolTopic_none (hvalue : decodeScval codec b64 = .ok value)
    (hkind : ∀ bytes, value ≠ .symbol bytes) :
    symbolTopic codec b64 decodeContext textContext = .ok none := by
  simp only [symbolTopic, bind_ok, context_ok]
  refine ⟨value, hvalue, ?_⟩
  cases value with
  | symbol bytes => exact absurd rfl (hkind bytes)
  | _ => rfl

theorem decodeData_ok : decodeData codec ev = .ok event ↔ DataLayout codec ev event := by
  simp only [decodeData, bind_ok, context_ok]
  constructor
  · rintro ⟨value, hvalue, h⟩
    split at h
    · rename_i vec
      simp only [extractAddress, extractI128, extractU32, bind_ok, extract_ok, address?_some,
        i128?_some, u32?_some, pure_ok] at h
      obtain ⟨_, ⟨addr, ⟨_, haddr, rfl⟩, rfl⟩, _, ⟨_, hamount, hi, lo, rfl, rfl⟩, period,
        ⟨_, hperiod, rfl⟩, rfl⟩ := h
      obtain ⟨rest, rfl⟩ : ∃ rest, vec = .address addr :: .i128 hi lo :: .u32 period :: rest := by
        match vec, haddr, hamount, hperiod with
        | _ :: _ :: _ :: rest, rfl, rfl, rfl => exact ⟨rest, rfl⟩
      exact ⟨⟨addr, hi, lo, rest, hvalue, rfl, rfl⟩, rfl⟩
    · cases h
  · rintro ⟨⟨addr, hi, lo, rest, hvalue, hemployee, hamount⟩, hclosed⟩
    refine ⟨_, hvalue, ?_⟩
    simp only [extractAddress, extractI128, extractU32, bind_ok, extract_ok, address?_some,
      i128?_some, u32?_some, pure_ok]
    refine ⟨_, ⟨addr, ⟨_, rfl, rfl⟩, rfl⟩, _, ⟨_, rfl, hi, lo, rfl, rfl⟩, _, ⟨_, rfl, rfl⟩, ?_⟩
    rw [← hemployee, ← hamount, ← hclosed]

/-- The reader returns exactly the events in the layout it documents. -/
theorem tryDecodePayrollEvent_some : tryDecodePayrollEvent codec ev companyId = .ok (some event) ↔
    Documented codec ev companyId event := by
  unfold tryDecodePayrollEvent
  split
  · rename_i topic0 topic1 rest htopic
    constructor
    · intro h
      obtain ⟨name, hname, h⟩ := bind_ok.mp h
      split at h
      · rename_i heq
        subst heq
        obtain ⟨company, hcompany, h⟩ := bind_ok.mp h
        split at h
        · rename_i heq
          subst heq
          obtain ⟨event', hdata, h⟩ := bind_ok.mp h
          obtain rfl := Option.some.inj (pure_ok.mp h)
          exact ⟨decodeData_ok.mp hdata, topic0, topic1, rest, htopic, symbolTopic_some.mp hname,
            symbolTopic_some.mp hcompany⟩
        · cases h
      · cases h
    · rintro ⟨hdata, _, _, _, htopic', hname, hcompany⟩
      obtain ⟨rfl, rfl, rfl⟩ : topic0 = _ ∧ topic1 = _ ∧ rest = _ := by
        simpa [htopic] using htopic'
      refine bind_ok.mpr ⟨_, symbolTopic_some.mpr hname, ?_⟩
      simp only [↓reduceIte]
      refine bind_ok.mpr ⟨_, symbolTopic_some.mpr hcompany, ?_⟩
      simp only [↓reduceIte]
      exact bind_ok.mpr ⟨event, decodeData_ok.mpr hdata, rfl⟩
  · rename_i htopic
    constructor
    · intro h
      cases h
    · rintro ⟨-, topic0, topic1, rest, h, -⟩
      exact absurd h (htopic topic0 topic1 rest)

theorem tryDecodePayrollEvent_none {name : String} (htopic : ev.topic = topic0 :: topic1 :: rest)
    (hname : decodeScval codec topic0 = .ok (.symbol name.toUTF8))
    (hvalue : decodeScval codec topic1 = .ok value) (hkind : ∀ bytes, value ≠ .symbol bytes) :
    tryDecodePayrollEvent codec ev companyId = .ok none := by
  unfold tryDecodePayrollEvent
  rw [htopic]
  refine bind_ok.mpr ⟨_, symbolTopic_some.mpr hname, ?_⟩
  split
  · refine bind_ok.mpr ⟨_, symbolTopic_none hvalue hkind, ?_⟩
    rfl
  · rfl

theorem decodeEvents_nil {evs : List RawEvent}
    (h : ∀ ev ∈ evs, tryDecodePayrollEvent codec ev companyId = .ok none) :
    decodeEvents codec companyId evs = .ok [] := by
  induction evs with
  | nil => rfl
  | cons ev rest ih =>
    have hrest := ih fun ev hev => h ev (List.mem_cons_of_mem _ hev)
    unfold decodeEvents
    split
    · exact hrest
    · rw [h ev List.mem_cons_self, hrest]
      rfl

end

end ZkPayroll.Cli
