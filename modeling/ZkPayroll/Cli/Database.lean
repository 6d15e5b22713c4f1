import ZkPayroll.Circuits.Field
import ZkPayroll.Cli.Rpc
import ZkPayroll.Host.Hex
import ZkPayroll.Host.Process
import ZkPayroll.Host.Store

/-!
# The database of the command-line tool

`cli/src/db.rs` and `cli/src/crypto.rs`: one SQLite file for each home
directory, with one table of blinding factors and salaries whose primary key
is the employee's public key, and the functions that make what it keeps.

Every call of the operating system and every statement is one step of the
command, and commands that run at the same time share the disk between their
steps. A step that fails, for whatever reason, writes nothing. Poseidon is a
library.
-/

namespace ZkPayroll.Cli

open Host Circuits

structure Row where
  blindingFactor : String
  currentSalaryAmount : Int64
  deriving DecidableEq

/-- The table, by its primary key. -/
abbrev Table := Store fun _ : String => Row

/-- A database file; there is a table once the schema has been applied. -/
structure DbFile where
  blindingFactors : Option Table

abbrev Disk := String → Option DbFile

inductive Line
  | out (text : String)
  | err (text : String)
  deriving DecidableEq

abbrev Cmd := Proc Disk Line (List String)

/-- What a command meets outside. -/
structure Outside where
  homeDir : Option String
  /-- The 64 bytes of `OsRng`. -/
  entropy : BytesN 64
  /-- The Poseidon hash of two elements, in the circomlib parameters. -/
  poseidon : Fr → Fr → Anyhow Fr

def withContext (x : Cmd α) (msg : String) : Cmd α := x.adapt (msg :: ·)

def fail (err : List String) : Cmd α := .done (.error err)

def attempt (r : Anyhow α) : Cmd α := .done r

def println (text : String) : Cmd Unit := .say (.out text)

def eprintln (text : String) : Cmd Unit := .say (.err text)

def outsideStep : Cmd Unit := do
  let _ ← Proc.ask id

-- ---------------------------------------------------------------------------
-- The file
-- ---------------------------------------------------------------------------

/-- `Path::join` with a relative path. -/
def joinPath (base rest : String) : String :=
  if base.isEmpty ∨ base.endsWith "/" then base ++ rest else base ++ "/" ++ rest

def dbDir (home : String) : String := joinPath home ".zk-payroll"

def dbPathOf (home : String) : String := joinPath (dbDir home) "company_db.sqlite"

def homeDir (o : Outside) : Cmd String :=
  match o.homeDir with
  | some home => pure home
  | none => fail ["Cannot determine the home directory. " ++
      "Ensure the HOME (Unix) or USERPROFILE (Windows) environment variable is set."]

def dbPath (o : Outside) : Cmd String := do
  let home ← homeDir o
  return dbPathOf home

/-- `Path::exists`: a file that cannot be looked up is taken for missing. -/
def pathExists (path : String) : Cmd Bool :=
  .step id fun
    | .ok disk => pure (disk path).isSome
    | .error _ => pure false

/-- Opening a file that is not there creates it. -/
def create (path : String) (disk : Disk) : Disk :=
  Function.update disk path (some ((disk path).getD ⟨none⟩))

/-- `open`. -/
def openDb (path : String) : Cmd Unit := do
  let _ ← withContext (.ask (create path)) s!"Cannot open SQLite database at {path}"
  withContext outsideStep "Failed to configure SQLite pragmas"

/-- `CREATE TABLE IF NOT EXISTS`. -/
def DbFile.withTable (file : DbFile) : DbFile := ⟨some (file.blindingFactors.getD Store.empty)⟩

def createTable (path : String) (disk : Disk) : Disk :=
  Function.update disk path ((disk path).map DbFile.withTable)

def initialise (path : String) : Cmd Unit := do
  let _ ← withContext (.ask (createTable path)) "Failed to create blinding_factors table"

def tableOf (disk : Disk) (path : String) : Option Table :=
  (disk path).bind DbFile.blindingFactors

-- ---------------------------------------------------------------------------
-- Records
-- ---------------------------------------------------------------------------

def noTable : List String := ["no such table: blinding_factors"]

/-- A row that breaks the primary key is not inserted. -/
def insertRow (path pubkey : String) (row : Row) (disk : Disk) : Disk :=
  match tableOf disk path with
  | some table =>
    if table.has pubkey then disk
    else Function.update disk path (some ⟨some (table.set pubkey row)⟩)
  | none => disk

def execInsert (path pubkey : String) (row : Row) : Cmd Unit := do
  let disk ← Proc.ask (insertRow path pubkey row)
  match tableOf disk path with
  | some table =>
    if table.has pubkey then
      fail ["UNIQUE constraint failed: blinding_factors.employee_pubkey"]
  | none => fail noTable

def insertEmployee (path pubkey blindingHex : String) (salary : UInt64) : Cmd Unit :=
  withContext (execInsert path pubkey ⟨blindingHex, salary.toInt64⟩)
    (s!"Failed to insert employee '{pubkey}'. " ++
      "The public key may already exist — use update-salary to change their salary.")

def queryRow (path pubkey : String) : Cmd (Option Row) := do
  let disk ← Proc.ask id
  match tableOf disk path with
  | some table => return table.get pubkey
  | none => fail noTable

def getEmployee (path pubkey : String) : Cmd (Option (String × UInt64)) := do
  let row ← withContext (queryRow path pubkey) s!"Database query failed for pubkey '{pubkey}'"
  return row.map fun row => (row.blindingFactor, row.currentSalaryAmount.toUInt64)

def employeeExists (path pubkey : String) : Cmd Bool := do
  let employee ← getEmployee path pubkey
  return employee.isSome

-- ---------------------------------------------------------------------------
-- Commitments
-- ---------------------------------------------------------------------------

/-- `Fr::from_le_bytes_mod_order`. -/
def frFromLeBytes (bytes : List UInt8) : Fr := (bytesValue bytes.reverse : Nat)

/-- The canonical form, least significant byte first. -/
def frToLeBytes (x : Fr) : BytesN 32 := ⟨(valueBytes 32 x.val).reverse, by simp⟩

def genBlindingFactor (o : Outside) : BytesN 32 := frToLeBytes (frFromLeBytes o.entropy.toList)

/-- `Poseidon(salary, blinding)`. -/
def poseidonCommitment (o : Outside) (salary : UInt64) (blindingLe : BytesN 32) :
    Anyhow (BytesN 32) := do
  let hash ← o.poseidon (salary.toNat : Fr) (frFromLeBytes blindingLe.toList)
  return frToLeBytes hash

end ZkPayroll.Cli
