import ZkPayroll.Cli.Records

/-!
# What a reconciliation reports

`reconcile` reads the database while other commands write it, twice for every
payment. A payment to an employee who was recorded before it began is checked
against the recorded salary, and what it says of any payment is borne out by
the records from then on.
-/

namespace ZkPayroll.Cli

open Host

/-- What was read about the employee of a payment, between two states, in the
database that was opened, if any was. -/
structure Reading (conn : Option String) (s s' : Disk) (ev : PayrollEvent) (r : Option Row) :
    Prop where
  found : ∀ path row, conn = some path → rowAt s path ev.employee = some row → r = some row
  stands : ∀ row, r = some row → ∃ path, conn = some path ∧ rowAt s' path ev.employee = some row

theorem Reading.later (h : Reading conn s s' ev r) (hs : Grows s' s'') :
    Reading conn s s'' ev r := by
  refine ⟨h.found, fun row hrow => ?_⟩
  obtain ⟨path, hconn, hrecord⟩ := h.stands row hrow
  exact ⟨path, hconn, hs _ _ _ hrecord⟩

theorem reading_record (hs : Grows s s₁) (hs' : Grows s₁ s') :
    Reading (some path) s s' ev (rowAt s₁ path ev.employee) := by
  refine ⟨fun path' row hpath hrow => ?_, fun row hrow => ⟨path, rfl, hs' _ _ _ hrow⟩⟩
  obtain rfl := Option.some.inj hpath
  exact hs _ _ _ hrow

theorem reading_closed : Reading none s s' ev none :=
  ⟨fun _ _ hconn => (by cases hconn), fun _ hrow => (by cases hrow)⟩

-- ---------------------------------------------------------------------------
-- The report
-- ---------------------------------------------------------------------------

def header (args : ReconcileArgs) : List Line :=
  let companyId := args.companyId
  let rpcUrl := args.rpcUrl
  let contractId := args.contractId
  let startLedger := args.startLedger
  [.out s!"Reconciliation report for company: {companyId}", .out s!"Soroban RPC  : {rpcUrl}",
    .out s!"Contract     : {contractId}", .out s!"Start ledger : {startLedger}", .out ""]

def rowsFor (lib : Libraries) (marked : List (PayrollEvent × Option Row)) :
    Anyhow (List (List String)) :=
  marked.mapM fun (ev, r) => tableRow lib ev r.isSome

def unknownWarnings (marked : List (PayrollEvent × Option Row)) : List Line :=
  marked.filterMap fun (ev, r) => if r.isSome then none else some (unknownWarning ev.employee)

def mismatchWarnings (checked : List (PayrollEvent × Option Row)) : List Line :=
  checked.filterMap fun (ev, r) => r.bind fun row =>
    let salary := row.currentSalaryAmount.toUInt64
    if (salary.toNat : Int) ≠ ev.amount then some (mismatchWarning ev salary) else none

def mismatchSummary (mismatches : Nat) : List Line :=
  if mismatches > 0 then
    [.err s!"WARN: {mismatches} payment(s) have amounts that differ from the local salary record."]
  else []

def report (lib : Libraries) (args : ReconcileArgs) (rows : List (List String))
    (marked checked : List (PayrollEvent × Option Row)) : List Line :=
  let count := marked.length
  let mismatches := mismatchWarnings checked
  header args ++ unknownWarnings marked ++
    [.out (lib.table tableHeader rows), .out s!"{count} payment(s) found."] ++
    mismatches ++ mismatchSummary mismatches.length

-- ---------------------------------------------------------------------------
-- Rules
-- ---------------------------------------------------------------------------

section
variable {post : α → List Line → Disk → Prop} {p : Cmd α} {own : List (Change Disk)}
  {out : List Line} {s : Disk}

/-- A command that makes no record, and what it comes to if it works. -/
def Leads (p : Cmd α) (own : List (Change Disk)) (out : List Line) (s : Disk)
    (post : α → List Line → Disk → Prop) : Prop :=
  Sound Grows SameRecords (fun _ _ _ => True) (fun r _ out s => ∀ a, r = .ok a → post a out s)
    p own out s

theorem leads_pure (h : ∀ s', Grows s s' → post a out s') : Leads (pure a) own out s post :=
  fun s' hs => ⟨trivial, fun _ ha => by cases ha; exact h s' hs⟩

theorem leads_fail : Leads (fail err) own out s post :=
  fun _ _ => ⟨trivial, fun _ ha => by cases ha⟩

theorem leads_attempt {r : Anyhow α} (h : ∀ a s', r = .ok a → Grows s s' → post a out s') :
    Leads (attempt r) own out s post :=
  fun s' hs => ⟨trivial, fun a ha => h a s' ha hs⟩

theorem leads_say {post : Unit → List Line → Disk → Prop} {text : Line}
    (h : ∀ s', Grows s s' → post () (out ++ [text]) s') : Leads (.say text) own out s post :=
  fun _ hs => ⟨trivial, fun _ _ ha => (by cases ha),
    leads_pure fun s'' hs' => h s'' (trans_of Grows hs hs')⟩

theorem leads_bind {f : α → Cmd β} {post : β → List Line → Disk → Prop}
    (h : Leads p own out s fun a out s => ∀ own, Leads (f a) own out s post) :
    Leads (p >>= f) own out s post := by
  refine sound_bind (h.mono (fun _ _ => id) (fun _ _ _ => id) fun r own out s hr => ?_)
  cases r with
  | ok a => exact hr a rfl own
  | error err => exact fun _ ha => by cases ha

theorem leads_withContext (h : Leads p own out s post) (msg : String) :
    Leads (withContext p msg) own out s post := by
  refine sound_adapt (h.mono (fun _ _ => id) (fun _ _ _ => id) fun r own out s hr => ?_)
  cases r with
  | ok b => exact hr
  | error err => exact ⟨fun _ ha => (by cases ha), fun _ ha => (by cases ha)⟩

theorem leads_reads (hp : Reads (fun _ => False) p) (h : ∀ a s', Grows s s' → post a out s') :
    Leads p own out s post :=
  hp.sound (J := fun _ out' s' => out' = out ∧ Grows s s') (fun _ _ => id)
    { other := fun _ _ _ _ hs hJ => ⟨hJ.1, trans_of Grows hJ.2 hs⟩
      step := fun _ _ _ _ hs hJ => ⟨hJ.1, trans_of Grows hJ.2 hs.grows⟩
      say := fun _ _ _ _ htext => htext.elim
      holds := fun _ _ _ _ => trivial }
    (fun a _ _ s' hJ b hb => by cases hb; exact hJ.1 ▸ h a s' hJ.2)
    (fun _ _ _ _ _ _ _ ha => by cases ha) ⟨rfl, refl_of Grows s⟩

theorem leads_getEmployee {post : Option (String × UInt64) → List Line → Disk → Prop}
    (h : ∀ s₁ s₂, Grows s s₁ → Grows s₁ s₂ → post ((rowAt s₁ path pubkey).map fun row =>
      (row.blindingFactor, row.currentSalaryAmount.toUInt64)) out s₂) :
    Leads (getEmployee path pubkey) own out s post := by
  refine leads_bind (leads_withContext (leads_bind ?_) _)
  refine fun s₁ hs₁ => ⟨trivial, rfl, ?_, fun err => leads_fail⟩
  intro s₂ hs₂
  refine ⟨trivial, fun disk hdisk own => ?_⟩
  cases hdisk
  cases htable : tableOf s₁ path with
  | none => exact leads_fail
  | some table =>
    have hrecord : rowAt s₁ path pubkey = table.get pubkey := by rw [rowAt, htable]; rfl
    refine leads_pure fun s₃ hs₃ own => leads_pure fun s₄ hs₄ => ?_
    rw [← hrecord]
    exact h s₁ s₄ hs₁ (trans_of Grows hs₂ (trans_of Grows hs₃ hs₄))

end

-- ---------------------------------------------------------------------------
-- The loops
-- ---------------------------------------------------------------------------

section
variable {own : List (Change Disk)} {out : List Line} {start s : Disk} {lib : Libraries}
  {conn : Option String} {events : List PayrollEvent}

theorem leads_inDb {post : Bool → List Line → Disk → Prop} (hstart : Grows start s)
    (h : ∀ r s', Grows s s' → Reading conn start s' ev r → post r.isSome out s') :
    Leads (inDb conn ev.employee) own out s post := by
  cases conn with
  | none => exact leads_pure fun s' hs => h none s' hs reading_closed
  | some path =>
    refine leads_bind (leads_getEmployee fun s₁ s₂ hs₁ hs₂ own => leads_pure fun s₃ hs₃ => ?_)
    rw [Option.isSome_map]
    exact h _ s₃ (trans_of Grows hs₁ (trans_of Grows hs₂ hs₃))
      (reading_record (trans_of Grows hstart hs₁) (trans_of Grows hs₂ hs₃))

theorem leads_warnUnknown {post : Unit → List Line → Disk → Prop} {known : Bool}
    (h : ∀ s', Grows s s' →
      post () (out ++ if known then [] else [unknownWarning employee]) s') :
    Leads (warnUnknown employee known) own out s post := by
  cases known with
  | true => exact leads_pure fun s' hs => by simpa using h s' hs
  | false => exact leads_say h

def Readings (conn : Option String) (s s' : Disk) (events : List PayrollEvent)
    (rs : List (Option Row)) : Prop :=
  List.Forall₂ (Reading conn s s') events rs

theorem Readings.later (h : Readings conn s s' events rs) (hs : Grows s' s'') :
    Readings conn s s'' events rs := h.imp fun _ _ hr => hr.later hs

theorem leads_buildTable {post : List (List String) → List Line → Disk → Prop}
    (hstart : Grows start s)
    (h : ∀ rows rs s', Grows s s' → Readings conn start s' events rs →
      rowsFor lib (events.zip rs) = .ok rows →
      post rows (out ++ unknownWarnings (events.zip rs)) s') :
    Leads (buildTable lib conn events) own out s post := by
  induction events generalizing own out s post with
  | nil =>
    refine leads_pure fun s' hs => ?_
    simpa [unknownWarnings] using h [] [] s' hs .nil rfl
  | cons ev rest ih =>
    unfold buildTable
    refine leads_bind (leads_inDb hstart fun r s₁ hs₁ hread own => ?_)
    refine leads_bind (leads_attempt fun row s₂ hrow hs₂ own => ?_)
    refine leads_bind (leads_warnUnknown fun s₃ hs₃ own => ?_)
    have hs : Grows s s₃ := trans_of Grows hs₁ (trans_of Grows hs₂ hs₃)
    refine leads_bind (ih (trans_of Grows hstart hs) fun rows rs s₄ hs₄ hreads hrows own => ?_)
    refine leads_pure fun s₅ hs₅ => ?_
    have hlater : Grows s₁ s₅ := by
      exact trans_of Grows hs₂ (trans_of Grows hs₃ (trans_of Grows hs₄ hs₅))
    have hresult := h (row :: rows) (r :: rs) s₅ (trans_of Grows hs₁ hlater)
      (.cons (hread.later hlater) (hreads.later hs₅)) ?_
    · cases r <;> simpa [unknownWarnings, List.append_assoc] using hresult
    · simp only [rowsFor, List.zip_cons_cons, List.mapM_cons] at hrows ⊢
      rw [hrow, hrows]
      rfl

theorem leads_checkSalaryMismatches {post : Nat → List Line → Disk → Prop} {path : String}
    (hstart : Grows start s)
    (h : ∀ rs s', Grows s s' → Readings (some path) start s' events rs →
      post (count + (mismatchWarnings (events.zip rs)).length)
        (out ++ mismatchWarnings (events.zip rs)) s') :
    Leads (checkSalaryMismatches path events count) own out s post := by
  induction events generalizing own out s count post with
  | nil =>
    refine leads_pure fun s' hs => ?_
    simpa [mismatchWarnings] using h [] s' hs .nil
  | cons ev rest ih =>
    unfold checkSalaryMismatches
    refine leads_bind (leads_getEmployee fun s₁ s₂ hs₁ hs₂ own => ?_)
    have hs : Grows s s₂ := trans_of Grows hs₁ hs₂
    have hread : ∀ s', Grows s₂ s' →
        Reading (some path) start s' ev (rowAt s₁ path ev.employee) := fun s' hs' =>
      reading_record (trans_of Grows hstart hs₁) (trans_of Grows hs₂ hs')
    cases hrow : rowAt s₁ path ev.employee with
    | none =>
      refine ih (trans_of Grows hstart hs) fun rs s₃ hs₃ hreads => ?_
      have hresult := h (none :: rs) s₃ (trans_of Grows hs hs₃)
        (.cons (hrow ▸ hread s₃ hs₃) hreads)
      simpa [mismatchWarnings] using hresult
    | some row =>
      simp only [Option.map_some]
      split
      · rename_i hdiffer
        refine leads_bind (leads_say fun s₃ hs₃ own => ?_)
        refine ih (trans_of Grows hstart (trans_of Grows hs hs₃)) fun rs s₄ hs₄ hreads => ?_
        have hlater : Grows s₂ s₄ := trans_of Grows hs₃ hs₄
        have hresult := h (some row :: rs) s₄ (trans_of Grows hs hlater)
          (.cons (hrow ▸ hread s₄ hlater) hreads)
        simpa [mismatchWarnings, hdiffer, Nat.add_assoc, Nat.add_comm 1] using hresult
      · rename_i hsame
        refine ih (trans_of Grows hstart hs) fun rs s₃ hs₃ hreads => ?_
        have hresult := h (some row :: rs) s₃ (trans_of Grows hs hs₃)
          (.cons (hrow ▸ hread s₃ hs₃) hreads)
        simpa [mismatchWarnings, hsame] using hresult

end

-- ---------------------------------------------------------------------------
-- The command
-- ---------------------------------------------------------------------------

def noPayments (args : ReconcileArgs) : Line :=
  let companyId := args.companyId
  let startLedger := args.startLedger
  .out s!"No PayrollProcessed events found for company '{companyId}' from ledger {startLedger}."

/-- A reconciliation that worked, by the records when it began and the records
now: the server had no payments, or each of them was marked by one reading and
checked by another. Without a database, one that is missing or cannot be looked
up, there is nothing to read. -/
def Reconciled (start now : Disk) (o : Outside) (lib : Libraries) (args : ReconcileArgs)
    (out : List Line) : Prop :=
  ∃ resp events, lib.answer = .ok resp ∧
    fetchPayrollEvents lib.codec resp args.companyId = .ok events ∧
    (events = [] ∧ out = header args ++ [noPayments args] ∨
      ∃ home conn marked checked rows, o.homeDir = some home ∧
        (conn = none ∨ conn = some (dbPathOf home)) ∧ Readings conn start now events marked ∧
        Readings conn start now events checked ∧
        rowsFor lib (events.zip marked) = .ok rows ∧
        out = report lib args rows (events.zip marked) (events.zip checked))

theorem leads_openIfExists {own : List (Change Disk)} {out : List Line} {s : Disk}
    {post : Option String → List Line → Disk → Prop}
    (h : ∀ conn s', conn = none ∨ conn = some path → Grows s s' → post conn out s') :
    Leads (openIfExists path) own out s post := by
  refine leads_bind (leads_reads (reads_pathExists path) fun found s₁ hs₁ own => ?_)
  split
  · refine leads_bind (leads_withContext (leads_reads (reads_openDb path) ?_) _)
    exact fun _ s₂ hs₂ own => leads_pure fun s₃ hs₃ =>
      h _ s₃ (.inr rfl) (trans_of Grows hs₁ (trans_of Grows hs₂ hs₃))
  · exact leads_pure fun s₂ hs₂ => h _ s₂ (.inl rfl) (trans_of Grows hs₁ hs₂)

theorem readings_closed (s s' : Disk) (events : List PayrollEvent) :
    Readings none s s' events (List.replicate events.length none) := by
  induction events with
  | nil => exact .nil
  | cons ev rest ih => exact .cons reading_closed ih

theorem mismatchWarnings_closed (events : List PayrollEvent) :
    mismatchWarnings (events.zip (List.replicate events.length none)) = [] := by
  induction events with
  | nil => rfl
  | cons ev rest ih => exact ih

theorem length_zip_readings (h : Readings conn s s' events rs) :
    (events.zip rs).length = events.length := by
  rw [List.length_zip, ← h.length_eq, Nat.min_self]

theorem leads_reconcile (o : Outside) (lib : Libraries) (args : ReconcileArgs) (start : Disk) :
    Leads (reconcile o lib args) [] [] start
      fun _ out s => Reconciled start s o lib args out := by
  unfold reconcile
  refine leads_bind (leads_say fun s₁ hs₁ own => leads_bind (leads_say fun s₂ hs₂ own => ?_))
  refine leads_bind (leads_say fun s₃ hs₃ own => leads_bind (leads_say fun s₄ hs₄ own => ?_))
  refine leads_bind (leads_say fun s₅ hs₅ own => ?_)
  have hs : Grows start s₅ :=
    trans_of Grows hs₁ (trans_of Grows hs₂ (trans_of Grows hs₃ (trans_of Grows hs₄ hs₅)))
  refine leads_bind (leads_withContext (leads_attempt fun events s₆ hevents hs₆ own => ?_) _)
  obtain ⟨resp, hanswer, hevents⟩ := bind_ok.mp hevents
  have hs : Grows start s₆ := trans_of Grows hs hs₆
  split
  · rename_i hnone
    refine leads_say fun s₇ hs₇ => ⟨resp, events, hanswer, hevents, .inl ⟨?_, rfl⟩⟩
    exact List.isEmpty_iff.mp hnone
  cases hhome : o.homeDir with
  | none =>
    obtain ⟨err, hfail⟩ := dbPath_none hhome
    rw [hfail]
    exact leads_fail
  | some home =>
    rw [dbPath_some hhome]
    refine leads_bind (leads_openIfExists fun conn s₇ hconn hs₇ own => ?_)
    have hs : Grows start s₇ := trans_of Grows hs hs₇
    refine leads_bind (leads_buildTable hs fun rows marked s₈ hs₈ hmarked hrows own => ?_)
    refine leads_bind (leads_say fun s₉ hs₉ own => leads_bind (leads_say fun s₁₀ hs₁₀ own => ?_))
    have hlater : Grows s₈ s₁₀ := trans_of Grows hs₉ hs₁₀
    have hs : Grows start s₁₀ := trans_of Grows hs (trans_of Grows hs₈ hlater)
    have hresult : ∀ checked s' out', Grows s₁₀ s' → Readings conn start s' events checked →
        out' = report lib args rows (events.zip marked) (events.zip checked) →
        Reconciled start s' o lib args out' := fun checked s' out' hs' hchecked hout =>
      ⟨resp, events, hanswer, hevents, .inr ⟨home, conn, marked, checked, rows, hhome, hconn,
        hmarked.later (trans_of Grows hlater hs'), hchecked, hrows, hout⟩⟩
    have hcount := length_zip_readings hmarked
    cases conn with
    | none =>
      refine leads_pure fun s₁₁ hs₁₁ =>
        hresult _ s₁₁ _ hs₁₁ (readings_closed start s₁₁ events) ?_
      simp [report, hcount, header, mismatchWarnings_closed, mismatchSummary]
    | some path =>
      refine leads_bind (leads_checkSalaryMismatches hs fun checked s₁₁ hs₁₁ hchecked own => ?_)
      rw [Nat.zero_add]
      split
      · rename_i hpos
        refine leads_say fun s₁₂ hs₁₂ =>
          hresult checked s₁₂ _ (trans_of Grows hs₁₁ hs₁₂) (hchecked.later hs₁₂) ?_
        simp [report, hcount, header, mismatchSummary, hpos]
      · rename_i hzero
        refine leads_pure fun s₁₂ hs₁₂ =>
          hresult checked s₁₂ _ (trans_of Grows hs₁₁ hs₁₂) (hchecked.later hs₁₂) ?_
        simp [report, hcount, header, mismatchSummary, hzero]

-- ---------------------------------------------------------------------------
-- All commands together
-- ---------------------------------------------------------------------------

def Reported (i : Invocation) (start : Disk) (r : Except (List String) Unit)
    (_ : List (Change Disk)) (out : List Line) (s : Disk) : Prop :=
  ∀ lib args, i.command = .reconcile lib args → r = .ok () →
    Reconciled start s i.outside lib args out

theorem sound_reported (i : Invocation) (s : Disk) :
    Sound Grows (Allowed i) (fun _ _ _ => True) (Reported i s) (mainCmd i) [] [] s := by
  cases hcommand : i.command with
  | reconcile lib args =>
    unfold mainCmd
    rw [hcommand]
    refine (leads_reconcile i.outside lib args s).mono (fun _ _ => allowed_same)
      (fun _ _ _ _ => trivial) fun r own out s' hr lib' args' hcommand' hok => ?_
    obtain ⟨rfl, rfl⟩ : lib = lib' ∧ args = args' := by simpa [hcommand] using hcommand'
    exact hr () hok
  | _ =>
    refine (sound_mainCmd i s).mono (fun _ _ h => h) (fun _ _ _ _ => trivial) ?_
    intro _ _ _ _ _ lib args hcommand'
    rw [hcommand] at hcommand'
    cases hcommand'

def ReportsTrue (pool : CliPool) : Prop :=
  ∀ (j : Nat) job lib args, pool.jobs[j]? = some job → job.input.command = .reconcile lib args →
    job.prog = .done (.ok ()) →
    Reconciled job.start pool.state job.input.outside lib args job.out

end ZkPayroll.Cli
