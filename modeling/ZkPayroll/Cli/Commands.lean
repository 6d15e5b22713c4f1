import ZkPayroll.Cli.Database

/-!
# The commands

`cli/src/main.rs` and `cli/src/reconcile.rs`. Slicing a string inside a
character aborts the program, which is an error without context here. The
amounts are shown through floating point and the table is laid out by a
library; both are parameters.
-/

namespace ZkPayroll.Cli

open Host

def bannerRule : String :=
  "+------------------------------------------------------------------+"

def bannerText : String := "
|                *** CRITICAL BACKUP WARNING ***                   |
|                                                                  |
|  Your ~/.zk-payroll folder contains blinding factors that are   |
|  REQUIRED to generate future ZK payment proofs.                 |
|                                                                  |
|  If these are lost, employee payments through the smart          |
|  contract will be PERMANENTLY BLOCKED — there is NO recovery.   |
|                                                                  |
|  Action required: back up ~/.zk-payroll to an encrypted,        |
|  offline location (hardware wallet, encrypted USB, etc.) NOW.   |
"

def backupWarning : String := bannerRule ++ bannerText ++ bannerRule

-- ---------------------------------------------------------------------------
-- Employees
-- ---------------------------------------------------------------------------

def isStrkeyChar (c : Char) : Bool := ('A' ≤ c && c ≤ 'Z') || ('2' ≤ c && c ≤ '7')

def validateStellarPubkey (pubkey : String) : Cmd Unit := do
  if pubkey.utf8ByteSize ≠ 56 ∨ pubkey.toList.head? ≠ some 'G' then
    fail [s!"Invalid Stellar public key: '{pubkey}'\n" ++
      "Expected a 56-character address starting with 'G' " ++
      "(e.g. GAAZI4TCR3TY5OJHCTJC2A4QSY6CJWJH5IAJTGKIN2ER7LBNVKOCCWN)."]
  else if pubkey.toList.all isStrkeyChar = false then
    fail [s!"Invalid Stellar public key: '{pubkey}'\n" ++
      "StrKey addresses may only contain uppercase letters A-Z and digits 2-7."]
  else pure ()

def printBackupWarning : Cmd Unit := do
  println ""
  println backupWarning

def cmdInitCompany (o : Outside) : Cmd Unit := do
  let home ← homeDir o
  let dir := dbDir home
  let path := dbPathOf home
  withContext outsideStep s!"Cannot create directory '{dir}'"
  withContext outsideStep s!"Cannot set permissions on '{dir}'"
  openDb path
  initialise path
  withContext outsideStep s!"Cannot set permissions on '{path}'"
  println s!"ZK Payroll database initialised at: {path}"
  printBackupWarning

def commitmentLine (commitmentBytes : BytesN 32) : Line :=
  let commitmentHex := hexEncode commitmentBytes.toList
  .out s!"Successfully generated commitment: 0x{commitmentHex}"

def cmdAddEmployee (o : Outside) (pubkey : String) (amount : UInt64) : Cmd Unit := do
  validateStellarPubkey pubkey
  let path ← dbPath o
  if ¬ (← pathExists path) then
    fail [s!"Database not found at '{path}'.\nRun `zk-payroll init-company` to create it first."]
  else
  openDb path
  if ← employeeExists path pubkey then
    fail [s!"Employee '{pubkey}' already exists in the database.\n" ++
      "Each employee can have only one active commitment at a time.\n" ++
      s!"To update their salary, use `zk-payroll update-salary {pubkey} <new-amount>`."]
  else
  let blindingBytes := genBlindingFactor o
  let blindingHex := hexEncode blindingBytes.toList
  let commitmentBytes ← withContext (attempt (poseidonCommitment o amount blindingBytes))
    "Failed to compute Poseidon commitment"
  withContext (insertEmployee path pubkey blindingHex amount) "Failed to persist employee record"
  Proc.say (commitmentLine commitmentBytes)
  println ""
  println s!"  Employee : {pubkey}"
  println s!"  Salary   : {amount} stroops"
  printBackupWarning

-- ---------------------------------------------------------------------------
-- Reconciling
-- ---------------------------------------------------------------------------

structure ReconcileArgs where
  rpcUrl : String
  contractId : String
  companyId : String
  startLedger : UInt32

/-- What `reconcile` gets from the server and from libraries. -/
structure Libraries where
  codec : Codec
  /-- The server's answer, or why there is none. -/
  answer : Anyhow RpcResponse
  /-- An amount of stroops in XLM, with three decimals. -/
  xlm : Int → String
  /-- The rows, under the header, as a table. -/
  table : List String → List (List String) → String

/-- `&s[..n]`, if `n` is the end of a character. -/
def sliceChars : List Char → Nat → Option (List Char)
  | _, 0 => some []
  | [], _ + 1 => none
  | c :: rest, n + 1 =>
    if c.utf8Size ≤ n + 1 then (sliceChars rest (n + 1 - c.utf8Size)).map (c :: ·) else none

def sliceTo (s : String) (n : Nat) : Anyhow String :=
  match sliceChars s.toList n with
  | some chars => pure (String.ofList chars)
  | none => bail s!"byte index {n} is not a char boundary"

def stroopsToXlmDisplay (lib : Libraries) (stroops : Int) : String :=
  let xlm := lib.xlm stroops
  s!"{xlm} XLM"

def buildNarrative (lib : Libraries) (employee : String) (amount : Int) (period : Nat)
    (closedAt : String) : Anyhow String := do
  let date := String.ofList (closedAt.toList.takeWhile (· ≠ 'T'))
  let short ← sliceTo employee (min 8 employee.utf8ByteSize)
  let paid := stroopsToXlmDisplay lib amount
  return s!"On {date}, paid {short}… {paid} (period {period})"

def truncate (s : String) (max : Nat) : Anyhow String := do
  if s.utf8ByteSize ≤ max then return s
  else
    let short ← sliceTo s max
    return s!"{short}…"

def tableHeader : List String :=
  ["Employee", "Amount (XLM)", "Period", "Ledger closed at", "In local DB?", "Narrative"]

def tableRow (lib : Libraries) (ev : PayrollEvent) (inDb : Bool) : Anyhow (List String) := do
  let narrative ← buildNarrative lib ev.employee ev.amount ev.period ev.ledgerClosedAt
  let employee ← truncate ev.employee 20
  return [employee, stroopsToXlmDisplay lib ev.amount, toString ev.period, ev.ledgerClosedAt,
    if inDb then "✓" else "✗", narrative]

def unknownWarning (employee : String) : Line :=
  .err s!"WARN: Employee {employee} appears in on-chain events but is not in the local database."

def mismatchWarning (ev : PayrollEvent) (salary : UInt64) : Line :=
  let employee := ev.employee
  let amount := ev.amount
  .err (s!"WARN: Amount mismatch for {employee}: on-chain={amount} stroops, " ++
    s!"local DB={salary} stroops")

def inDb (conn : Option String) (employee : String) : Cmd Bool :=
  match conn with
  | some path => employeeExists path employee
  | none => pure false

def warnUnknown (employee : String) (inDb : Bool) : Cmd Unit :=
  if inDb then pure () else .say (unknownWarning employee)

def buildTable (lib : Libraries) (conn : Option String) :
    List PayrollEvent → Cmd (List (List String))
  | [] => pure []
  | ev :: rest => do
    let known ← inDb conn ev.employee
    let row ← attempt (tableRow lib ev known)
    warnUnknown ev.employee known
    let rows ← buildTable lib conn rest
    return row :: rows

def checkSalaryMismatches (path : String) : List PayrollEvent → Nat → Cmd Nat
  | [], count => pure count
  | ev :: rest, count => do
    match ← getEmployee path ev.employee with
    | some (_, salary) =>
      if (salary.toNat : Int) ≠ ev.amount then
        Proc.say (mismatchWarning ev salary)
        checkSalaryMismatches path rest (count + 1)
      else checkSalaryMismatches path rest count
    | none => checkSalaryMismatches path rest count

def openIfExists (path : String) : Cmd (Option String) := do
  if ← pathExists path then
    withContext (openDb path) "Failed to open local database"
    return some path
  else return none

/-- `run`. -/
def reconcile (o : Outside) (lib : Libraries) (args : ReconcileArgs) : Cmd Unit := do
  let rpcUrl := args.rpcUrl
  let contractId := args.contractId
  let companyId := args.companyId
  let startLedger := args.startLedger
  println s!"Reconciliation report for company: {companyId}"
  println s!"Soroban RPC  : {rpcUrl}"
  println s!"Contract     : {contractId}"
  println s!"Start ledger : {startLedger}"
  println ""
  let events ← withContext (attempt (do fetchPayrollEvents lib.codec (← lib.answer) companyId))
    "Failed to fetch PayrollProcessed events from Soroban RPC"
  if events.isEmpty then
    println
      s!"No PayrollProcessed events found for company '{companyId}' from ledger {startLedger}."
  else
  let path ← dbPath o
  let conn ← openIfExists path
  let rows ← buildTable lib conn events
  println (lib.table tableHeader rows)
  let count := events.length
  println s!"{count} payment(s) found."
  match conn with
  | some path =>
    let mismatches ← checkSalaryMismatches path events 0
    if mismatches > 0 then
      eprintln
        s!"WARN: {mismatches} payment(s) have amounts that differ from the local salary record."
  | none => pure ()

-- ---------------------------------------------------------------------------
-- The tool
-- ---------------------------------------------------------------------------

inductive Commands
  | initCompany
  | addEmployee (pubkey : String) (amount : UInt64)
  | reconcile (lib : Libraries) (args : ReconcileArgs)

structure Invocation where
  outside : Outside
  command : Commands

/-- `main`, from the parsed arguments on. -/
def mainCmd (i : Invocation) : Cmd Unit :=
  match i.command with
  | .initCompany => cmdInitCompany i.outside
  | .addEmployee pubkey amount => cmdAddEmployee i.outside pubkey amount
  | .reconcile lib args => reconcile i.outside lib args

abbrev CliPool := Pool Disk Line (List String) Invocation

end ZkPayroll.Cli
