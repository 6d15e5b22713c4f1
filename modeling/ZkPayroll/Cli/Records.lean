import ZkPayroll.Circuits.TextLaws
import ZkPayroll.Cli.Commands

/-!
# What the database keeps

Any number of commands run at the same time, on one disk, and each may be
killed or fail at any step or line. A record is never changed or lost; it is the
one a single `add-employee` made; and a commitment that was printed can be
opened with what the record holds. An `add-employee` that failed has left a
record only if it could not print all of its lines.
-/

namespace ZkPayroll.Cli

open Host Circuits

/-- What the database at a path has about an employee. -/
def rowAt (disk : Disk) (path pubkey : String) : Option Row :=
  (tableOf disk path).bind (·.get pubkey)

def Grows (s s' : Disk) : Prop :=
  ∀ path pubkey row, rowAt s path pubkey = some row → rowAt s' path pubkey = some row

instance : IsPreorder Disk Grows where
  refl _ _ _ _ h := h
  trans _ _ _ h h' path pubkey row hrow := h' path pubkey row (h path pubkey row hrow)

def SameRecords (s s' : Disk) : Prop := rowAt s' = rowAt s

structure Inserts (path pubkey : String) (row : Row) (s s' : Disk) : Prop where
  absent : rowAt s path pubkey = none
  present : rowAt s' path pubkey = some row
  others : ∀ path' pubkey', ¬ (path' = path ∧ pubkey' = pubkey) →
    rowAt s' path' pubkey' = rowAt s path' pubkey'

theorem SameRecords.grows (h : SameRecords s s') : Grows s s' := by
  intro path pubkey row hrow
  rw [h]
  exact hrow

theorem Inserts.grows (h : Inserts path pubkey row s s') : Grows s s' := by
  intro path' pubkey' row' hrow
  by_cases hkey : path' = path ∧ pubkey' = pubkey
  · obtain ⟨rfl, rfl⟩ := hkey
    rw [h.absent] at hrow
    cases hrow
  · rw [h.others path' pubkey' hkey]
    exact hrow

-- ---------------------------------------------------------------------------
-- Steps
-- ---------------------------------------------------------------------------

theorem sameRecords_of_table (h : ∀ path, tableOf s' path = tableOf s path) : SameRecords s s' := by
  funext path pubkey
  rw [rowAt, rowAt, h]

theorem sameRecords_id (s : Disk) : SameRecords s (id s) := rfl

theorem sameRecords_create (path : String) (s : Disk) : SameRecords s (create path s) := by
  refine sameRecords_of_table fun path' => ?_
  by_cases hpath : path' = path
  · subst hpath
    unfold tableOf create
    rw [Function.update_self]
    cases s path' <;> rfl
  · simp [tableOf, create, hpath]

theorem sameRecords_createTable (path : String) (s : Disk) :
    SameRecords s (createTable path s) := by
  funext path' pubkey
  by_cases hpath : path' = path
  · subst hpath
    unfold rowAt tableOf createTable
    rw [Function.update_self]
    cases s path' with
    | none => rfl
    | some file =>
      obtain ⟨table⟩ := file
      cases table with
      | none => exact Store.get_empty pubkey
      | some table => rfl
  · simp [rowAt, tableOf, createTable, hpath]

theorem insertRow_cases (path pubkey : String) (row : Row) (s : Disk) :
    (∃ table, tableOf s path = some table ∧ table.has pubkey = false ∧
      Inserts path pubkey row s (insertRow path pubkey row s)) ∨
    (∃ table, tableOf s path = some table ∧ table.has pubkey = true ∧
      insertRow path pubkey row s = s) ∨
    (tableOf s path = none ∧ insertRow path pubkey row s = s) := by
  unfold insertRow
  cases htable : tableOf s path with
  | none => exact .inr (.inr ⟨rfl, rfl⟩)
  | some table =>
    cases hhas : table.has pubkey with
    | true => exact .inr (.inl ⟨table, rfl, hhas, by simp only [hhas, if_true]⟩)
    | false =>
      refine .inl ⟨table, rfl, hhas, ?_⟩
      have hself : tableOf (Function.update s path (some ⟨some (table.set pubkey row)⟩)) path =
          some (table.set pubkey row) := by
        simp [tableOf]
      refine ⟨?_, ?_, fun path' pubkey' hkey => ?_⟩
      · rw [rowAt, htable]
        exact Store.has_eq_false.mp hhas
      · simp only [hhas, Bool.false_eq_true, if_false, rowAt, hself]
        exact Store.get_set_self table pubkey row
      · simp only [hhas, Bool.false_eq_true, if_false, rowAt]
        by_cases hpath : path' = path
        · subst hpath
          rw [hself, htable]
          exact Store.get_set_ne table row fun hpubkey => hkey ⟨rfl, hpubkey⟩
        · simp [tableOf, hpath]

-- ---------------------------------------------------------------------------
-- Pieces that leave the records
-- ---------------------------------------------------------------------------

section
variable {L : Line → Prop}

/-- The command leaves the records and prints only certain lines. -/
abbrev Reads (L : Line → Prop) (p : Cmd α) : Prop := Within SameRecords L (fun _ => True) p

theorem reads_withContext {p : Cmd α} (h : Reads L p) (msg : String) :
    Reads L (withContext p msg) := Within.adapt h fun _ _ => trivial

theorem reads_fail : Reads L (fail err : Cmd α) := trivial

theorem reads_attempt (r : Anyhow α) : Reads L (attempt r) := by cases r <;> trivial

theorem withContext_ok {f : α → Cmd β} : (withContext (attempt (.ok a)) msg >>= f) = f a := rfl

theorem withContext_error {f : α → Cmd β} :
    (withContext (attempt (.error err)) msg >>= f) = fail (msg :: err) := rfl

theorem reads_println {line : Line} : Reads (fun _ => True) (.say line) :=
  within_say trivial fun _ => trivial

theorem reads_outsideStep : Reads L outsideStep :=
  (within_ask sameRecords_id fun _ => trivial).bind fun _ => trivial

theorem reads_dbPath (o : Outside) : Reads L (dbPath o) := by
  unfold dbPath homeDir
  cases o.homeDir <;> trivial

theorem dbPath_some {f : String → Cmd α} (h : o.homeDir = some home) :
    (dbPath o >>= f) = f (dbPathOf home) := by
  unfold dbPath homeDir
  rw [h]
  rfl

theorem dbPath_none {f : String → Cmd α} (h : o.homeDir = none) :
    ∃ err, (dbPath o >>= f) = fail err := by
  unfold dbPath homeDir
  rw [h]
  exact ⟨_, rfl⟩

theorem reads_pathExists (path : String) : Reads L (pathExists path) :=
  ⟨sameRecords_id, fun r => by cases r <;> trivial⟩

theorem reads_openDb (path : String) : Reads L (openDb path) :=
  Within.bind (reads_withContext (within_ask (sameRecords_create path) fun _ => trivial) _)
    fun _ => reads_withContext reads_outsideStep _

theorem reads_initialise (path : String) : Reads L (initialise path) :=
  Within.bind (reads_withContext (within_ask (sameRecords_createTable path) fun _ => trivial) _)
    fun _ => trivial

theorem reads_queryRow (path pubkey : String) : Reads L (queryRow path pubkey) := by
  refine Within.bind (within_ask sameRecords_id fun _ => trivial) fun disk => ?_
  split
  · trivial
  · exact reads_fail

theorem reads_getEmployee (path pubkey : String) : Reads L (getEmployee path pubkey) :=
  Within.bind (reads_withContext (reads_queryRow path pubkey) _) fun _ => trivial

theorem reads_employeeExists (path pubkey : String) : Reads L (employeeExists path pubkey) :=
  (reads_getEmployee path pubkey).bind fun _ => trivial

theorem reads_validateStellarPubkey (pubkey : String) :
    Reads L (validateStellarPubkey pubkey) := by
  unfold validateStellarPubkey
  split
  · exact reads_fail
  · split
    · exact reads_fail
    · trivial

theorem reads_initCompany (o : Outside) : Reads (fun _ => True) (cmdInitCompany o) := by
  unfold cmdInitCompany homeDir
  cases o.homeDir with
  | none => exact reads_fail
  | some home =>
    refine (reads_withContext reads_outsideStep _).bind fun _ => ?_
    refine (reads_withContext reads_outsideStep _).bind fun _ => ?_
    refine (reads_openDb _).bind fun _ => ?_
    refine (reads_initialise _).bind fun _ => ?_
    refine (reads_withContext reads_outsideStep _).bind fun _ => ?_
    exact reads_println.bind fun _ => reads_println.bind fun _ => reads_println

end

-- ---------------------------------------------------------------------------
-- Commitments
-- ---------------------------------------------------------------------------

theorem hexEncode_inj {v w : BytesN n} (h : hexEncode v.toList = hexEncode w.toList) : v = w := by
  have htext : hexText v.toList = hexText w.toList := String.ofList_injective h
  have hdecode := hexDecode_hexText v
  rw [htext, hexDecode_hexText w] at hdecode
  exact (Option.some.inj (Except.ok.inj hdecode)).symm

theorem commitmentLine_inj (h : commitmentLine c = commitmentLine c') : c = c' := by
  have htext := congrArg String.toList (Line.out.inj h)
  simp only [toString, String.toList_append, List.append_cancel_left_eq,
    String.toList_inj] at htext
  exact hexEncode_inj htext

theorem toList_frToLeBytes (x : Fr) : (frToLeBytes x).toList.reverse = valueBytes 32 x.val := by
  rw [frToLeBytes, List.Vector.toList_mk, List.reverse_reverse]

def newRow (o : Outside) (amount : UInt64) : Row :=
  ⟨hexEncode (genBlindingFactor o).toList, amount.toInt64⟩

/-- The record alone opens the commitment, with a blinding factor that the
circuit takes as it is. -/
def Opens (o : Outside) (row : Row) (commitment : BytesN 32) : Prop :=
  ∃! blinding : BytesN 32, row.blindingFactor = hexEncode blinding.toList ∧
    bytesValue blinding.toList.reverse < bn254R ∧
    poseidonCommitment o row.currentSalaryAmount.toUInt64 blinding = .ok commitment

theorem newRow_opens (h : poseidonCommitment o amount (genBlindingFactor o) = .ok c) :
    Opens o (newRow o amount) c := by
  refine ⟨genBlindingFactor o, ⟨rfl, ?_, ?_⟩, fun blinding hblinding => ?_⟩
  · have hvalue := ZMod.val_lt (frFromLeBytes o.entropy.toList)
    rw [genBlindingFactor, toList_frToLeBytes, bytesValue_valueBytes]
    exact (Nat.mod_le _ _).trans_lt hvalue
  · simpa [newRow] using h
  · exact hexEncode_inj hblinding.1.symm

-- ---------------------------------------------------------------------------
-- Adding an employee
-- ---------------------------------------------------------------------------

structure Adds (i : Invocation) (path pubkey : String) (amount : UInt64) : Prop where
  command : i.command = .addEmployee pubkey amount
  path : ∃ home, i.outside.homeDir = some home ∧ path = dbPathOf home

/-- What an invocation may do to the records. -/
def Allowed (i : Invocation) (s s' : Disk) : Prop :=
  SameRecords s s' ∨ ∃ path pubkey amount, Adds i path pubkey amount ∧
    Inserts path pubkey (newRow i.outside amount) s s'

/-- The employee's record is there, and this command made it. -/
structure Recorded (i : Invocation) (path pubkey : String) (amount : UInt64)
    (own : List (Change Disk)) (s : Disk) : Prop where
  adds : Adds i path pubkey amount
  stored : rowAt s path pubkey = some (newRow i.outside amount)
  made : ∃ c ∈ own, Inserts path pubkey (newRow i.outside amount) c.before c.after

/-- The invariant of an invocation. -/
def Told (i : Invocation) (own : List (Change Disk)) (out : List Line) (s : Disk) : Prop :=
  ∀ pubkey amount commitment, i.command = .addEmployee pubkey amount →
    commitmentLine commitment ∈ out →
    poseidonCommitment i.outside amount (genBlindingFactor i.outside) = .ok commitment ∧
      ∃ path, Recorded i path pubkey amount own s

def addedLines (pubkey : String) (amount : UInt64) (commitment : BytesN 32) : List Line :=
  [commitmentLine commitment, .out "", .out s!"  Employee : {pubkey}",
    .out s!"  Salary   : {amount} stroops", .out "", .out backupWarning]

def Prints (i : Invocation) (lines : List Line) : Prop :=
  ∃ pubkey amount commitment, i.command = .addEmployee pubkey amount ∧
    poseidonCommitment i.outside amount (genBlindingFactor i.outside) = .ok commitment ∧
    lines = addedLines pubkey amount commitment

/-- The command could not print a line of the employee it had added. -/
def BrokenOff (i : Invocation) (out : List Line) : Prop :=
  ∃ lines, Prints i lines ∧ out <+: lines ∧ out ≠ lines

/-- A command that fails has made no record, or could not tell of it. One that
adds an employee and ends well has told all of it. -/
structure Ended (i : Invocation) (r : Except (List String) Unit) (own : List (Change Disk))
    (out : List Line) (_ : Disk) : Prop where
  failed : ∀ err, r = .error err → (∀ c ∈ own, SameRecords c.before c.after) ∨ BrokenOff i out
  worked : r = .ok () → ∀ pubkey amount, i.command = .addEmployee pubkey amount → Prints i out

/-- Nothing is recorded or told yet. -/
structure Clean (own : List (Change Disk)) (out : List Line) (_ : Disk) : Prop where
  own : ∀ c ∈ own, SameRecords c.before c.after
  out : out = []

theorem Allowed.grows (h : Allowed i s s') : Grows s s' := by
  rcases h with h | ⟨_, _, _, -, h⟩
  · exact h.grows
  · exact h.grows

section
variable {i : Invocation}

theorem clean_told (h : Clean own out s) (s' : Disk) (own' : List (Change Disk)) :
    Told i own' out s' := by
  intro _ _ commitment _ hmem
  rw [h.out] at hmem
  cases hmem

theorem carries_clean : Carries Grows SameRecords (fun _ => False) (Told i) Clean where
  other _ _ _ _ _ h := ⟨h.own, h.out⟩
  step _ _ _ _ hstep h :=
    ⟨List.forall_mem_append.mpr ⟨h.own, List.forall_mem_singleton.mpr hstep⟩, h.out⟩
  say _ _ _ _ hline := hline.elim
  holds own _ s h := clean_told h s own

theorem sound_insertEmployee (hadds : Adds i path pubkey amount) (h : Clean own out s)
    {post : Except (List String) Unit → List (Change Disk) → List Line → Disk → Prop}
    (hfail : ∀ err own s, Clean own out s → post (.error err) own out s)
    (hok : ∀ own s, Recorded i path pubkey amount own s → post (.ok ()) own out s) :
    Sound Grows (Allowed i) (Told i) post
      (insertEmployee path pubkey (hexEncode (genBlindingFactor i.outside).toList) amount)
      own out s := by
  -- no commitment has been told, so the invariant holds all along
  have htold : ∀ own s, Told i own out s := fun own s => clean_told h s own
  have hunmade : ∀ {a b : Disk}, b = a → ∀ {err err'} s, post (.error err) (own ++ [⟨a, b⟩]) out s ∧
      post (.error err') (own ++ [⟨a, b⟩]) out s := by
    intro a b hsame err err' s
    have hclean : Clean (own ++ [⟨a, b⟩]) out s := ⟨List.forall_mem_append.mpr
      ⟨h.own, List.forall_mem_singleton.mpr (congrArg rowAt hsame)⟩, h.out⟩
    exact ⟨hfail _ _ _ hclean, hfail _ _ _ hclean⟩
  refine sound_adapt (sound_bind fun s' _ => ?_)
  refine ⟨htold _ _, ?_, fun s'' hs'' => ⟨htold _ _, ?_⟩, fun err s'' _ => ⟨htold _ _, ?_⟩⟩
  · rcases insertRow_cases path pubkey (newRow i.outside amount) s' with
      ⟨_, -, -, hinserts⟩ | ⟨_, -, -, hsame⟩ | ⟨-, hsame⟩
    · exact .inr ⟨path, pubkey, amount, hadds, hinserts⟩
    · exact .inl (congrArg rowAt hsame)
    · exact .inl (congrArg rowAt hsame)
  · rcases insertRow_cases path pubkey (newRow i.outside amount) s' with
      ⟨table, htable, hhas, hinserts⟩ | ⟨table, htable, hhas, hsame⟩ | ⟨htable, hsame⟩
    · simp only [htable, hhas, Bool.false_eq_true, if_false]
      refine fun s3 hs3 => ⟨htold _ _, hok _ _ ⟨hadds, ?_, ?_⟩⟩
      · exact hs3 _ _ _ (hs'' _ _ _ hinserts.present)
      · exact ⟨_, List.mem_append_right _ (List.mem_singleton_self _), hinserts⟩
    · simp only [htable, hhas, if_true]
      exact fun s3 _ => ⟨htold _ _, hunmade hsame s3⟩
    · simp only [htable]
      exact fun s3 _ => ⟨htold _ _, hunmade hsame s3⟩
  · exact ⟨hfail _ _ _ ⟨h.own, h.out⟩, hfail _ _ _ ⟨h.own, h.out⟩⟩

theorem allowed_same {s s' : Disk} (h : SameRecords s s') : Allowed i s s' := .inl h

theorem clean_ended (h : Clean own out s) : Ended i (.error err) own out s :=
  ⟨fun _ _ => .inl h.own, fun hok => by cases hok⟩

theorem sound_piece {p : Cmd α} {f : α → Cmd Unit} (hp : Reads (fun _ => False) p)
    (hf : ∀ a own out s, Clean own out s →
      Sound Grows (Allowed i) (Told i) (Ended i) (f a) own out s)
    (h : Clean own out s) : Sound Grows (Allowed i) (Told i) (Ended i) (p >>= f) own out s :=
  hp.sound_bind (fun _ _ => allowed_same) carries_clean hf (fun _ _ _ _ _ => clean_ended) h

theorem sound_fail (h : Clean own out s) :
    Sound Grows (Allowed i) (Told i) (Ended i) (fail err) own out s :=
  fun s' _ => ⟨carries_clean.holds _ _ s' ⟨h.own, h.out⟩, clean_ended ⟨h.own, h.out⟩⟩

theorem head_append (h : front.toList.head? = some c) (back : String) :
    (front ++ back).toList.head? = some c := by
  simp [h]

theorem head_backupWarning : backupWarning.toList.head? = some '+' :=
  head_append (head_append (by simp [bannerRule]) bannerText) bannerRule

theorem not_commitment (h : text.toList.head? ≠ some 'S') : .out text ≠ commitmentLine c := by
  rintro heq
  refine h ?_
  rw [commitmentLine, Line.out.injEq] at heq
  simp [heq, toString]

theorem mem_addedLines (h : commitmentLine c ∈ addedLines pubkey amount commitment) :
    c = commitment := by
  have hplain : ∀ text : String, text.toList.head? ≠ some 'S' → commitmentLine c ≠ .out text :=
    fun _ htext heq => not_commitment htext heq.symm
  simp only [addedLines, List.mem_cons, List.not_mem_nil, or_false] at h
  rcases h with h | h | h | h | h | h
  · exact commitmentLine_inj h
  all_goals exact absurd h (hplain _ (by simp [toString, head_backupWarning]))

theorem sound_tell
    (hcommit : poseidonCommitment i.outside amount (genBlindingFactor i.outside) = .ok commitment)
    (h : Recorded i path pubkey amount own s) :
    Sound Grows (Allowed i) (Told i) (Ended i) (.sayAll (addedLines pubkey amount commitment))
      own [] s := by
  have hprints : Prints i (addedLines pubkey amount commitment) :=
    ⟨pubkey, amount, commitment, h.adds.command, hcommit, rfl⟩
  refine sound_sayAll _ (fun said s' hsaid hs' => ?_) (fun said s' err hsaid hne _ => ?_)
    fun s' _ => ?_
  · intro pubkey' amount' c hcommand hmem
    obtain ⟨hpubkey, hamount⟩ : pubkey = pubkey' ∧ amount = amount' := by
      simpa [h.adds.command] using hcommand
    subst hpubkey hamount
    obtain rfl := mem_addedLines (hsaid.subset hmem)
    exact ⟨hcommit, path, h.adds, hs' _ _ _ h.stored, h.made⟩
  · exact ⟨fun _ _ => .inr ⟨_, hprints, hsaid, hne⟩, fun hok => by cases hok⟩
  · exact ⟨fun _ herr => (by cases herr), fun _ _ _ _ => hprints⟩

/-- `add-employee` makes one record at most and tells its commitment. -/
theorem sound_addEmployee (hcommand : i.command = .addEmployee pubkey amount) (s : Disk) :
    Sound Grows (Allowed i) (Told i) (Ended i) (cmdAddEmployee i.outside pubkey amount)
      [] [] s := by
  have hclean : Clean [] [] s := ⟨by simp, by simp⟩
  unfold cmdAddEmployee
  refine sound_piece (reads_validateStellarPubkey pubkey) (fun _ own out s h => ?_) hclean
  cases hhome : i.outside.homeDir with
  | none =>
    obtain ⟨err, hfail⟩ := dbPath_none hhome
    rw [hfail]
    exact sound_fail h
  | some home =>
    rw [dbPath_some hhome]
    have hadds : Adds i (dbPathOf home) pubkey amount := ⟨hcommand, home, hhome, rfl⟩
    refine sound_piece (reads_pathExists _) (fun found own out s h => ?_) h
    split
    · exact sound_fail h
    refine sound_piece (reads_openDb _) (fun _ own out s h => ?_) h
    refine sound_piece (reads_employeeExists _ _) (fun known own out s h => ?_) h
    split
    · exact sound_fail h
    dsimp only
    cases hcommit : poseidonCommitment i.outside amount (genBlindingFactor i.outside) with
    | error err =>
      rw [withContext_error]
      exact sound_fail h
    | ok commitment =>
      rw [withContext_ok]
      refine sound_bind (sound_adapt (sound_insertEmployee hadds h
        (fun _ _ _ hclean => ⟨clean_ended hclean, clean_ended hclean⟩) fun own s hrecorded => ?_))
      rw [h.out]
      exact sound_tell hcommit hrecorded

theorem sound_reads (hcommand : ∀ pubkey amount, i.command ≠ .addEmployee pubkey amount)
    {p : Cmd Unit} (hp : Reads (fun _ => True) p) (s : Disk) :
    Sound Grows (Allowed i) (Told i) (Ended i) p [] [] s := by
  have hcarries : Carries Grows SameRecords (fun _ => True) (Told i)
      (fun own _ _ => ∀ c ∈ own, SameRecords c.before c.after) :=
    { other := fun _ _ _ _ _ h => h
      step := fun _ _ _ _ hstep h =>
        List.forall_mem_append.mpr ⟨h, List.forall_mem_singleton.mpr hstep⟩
      say := fun _ _ _ _ _ h => h
      holds := fun _ _ _ _ pubkey amount _ hadd => absurd hadd (hcommand pubkey amount) }
  have hended : ∀ r own out s, (∀ c ∈ own, SameRecords c.before c.after) →
      Ended i r own out s := fun _ _ _ _ h =>
    ⟨fun _ _ => .inl h, fun _ pubkey amount hadd => absurd hadd (hcommand pubkey amount)⟩
  exact hp.sound (fun _ _ => allowed_same) hcarries (fun _ _ _ _ => hended _ _ _ _)
    (fun _ _ _ _ _ => hended _ _ _ _) (by simp)

end

-- ---------------------------------------------------------------------------
-- Reconciling reads
-- ---------------------------------------------------------------------------

theorem reads_inDb (conn : Option String) (employee : String) : Reads L (inDb conn employee) := by
  cases conn with
  | none => trivial
  | some path => exact reads_employeeExists path employee

theorem reads_warnUnknown (employee : String) (known : Bool) :
    Reads (fun _ => True) (warnUnknown employee known) := by
  cases known with
  | true => trivial
  | false => exact reads_println

theorem reads_buildTable (lib : Libraries) (conn : Option String) (events : List PayrollEvent) :
    Reads (fun _ => True) (buildTable lib conn events) := by
  induction events with
  | nil => trivial
  | cons ev rest ih =>
    unfold buildTable
    refine (reads_inDb conn ev.employee).bind fun known => ?_
    refine (reads_attempt _).bind fun row => ?_
    exact (reads_warnUnknown ev.employee known).bind fun _ => ih.bind fun _ => trivial

theorem reads_checkSalaryMismatches (path : String) (events : List PayrollEvent) (count : Nat) :
    Reads (fun _ => True) (checkSalaryMismatches path events count) := by
  induction events generalizing count with
  | nil => trivial
  | cons ev rest ih =>
    unfold checkSalaryMismatches
    refine (reads_getEmployee path ev.employee).bind fun employee => ?_
    split
    · split
      · exact reads_println.bind fun _ => ih _
      · exact ih _
    · exact ih _

theorem reads_openIfExists (path : String) : Reads L (openIfExists path) := by
  refine (reads_pathExists path).bind fun found => ?_
  split
  · exact (reads_withContext (reads_openDb path) _).bind fun _ => trivial
  · trivial

theorem reads_reconcile (o : Outside) (lib : Libraries) (args : ReconcileArgs) :
    Reads (fun _ => True) (reconcile o lib args) := by
  unfold reconcile
  refine reads_println.bind fun _ => ?_
  refine reads_println.bind fun _ => ?_
  refine reads_println.bind fun _ => ?_
  refine reads_println.bind fun _ => ?_
  refine reads_println.bind fun _ => ?_
  refine (reads_withContext (reads_attempt _) _).bind fun events => ?_
  split
  · exact reads_println
  refine (reads_dbPath o).bind fun path => (reads_openIfExists path).bind fun conn => ?_
  refine (reads_buildTable lib conn events).bind fun rows => ?_
  refine reads_println.bind fun _ => ?_
  refine reads_println.bind fun _ => ?_
  cases conn with
  | none => trivial
  | some path =>
    refine (reads_checkSalaryMismatches path events 0).bind fun mismatches => ?_
    split
    · exact reads_println
    · trivial

theorem sound_mainCmd (i : Invocation) (s : Disk) :
    Sound Grows (Allowed i) (Told i) (Ended i) (mainCmd i) [] [] s := by
  unfold mainCmd
  cases hcommand : i.command with
  | initCompany => exact sound_reads (by simp [hcommand]) (reads_initCompany i.outside) s
  | addEmployee pubkey amount => exact sound_addEmployee hcommand s
  | reconcile lib args =>
    exact sound_reads (by simp [hcommand]) (reads_reconcile i.outside lib args) s

-- ---------------------------------------------------------------------------
-- All commands together
-- ---------------------------------------------------------------------------

/-- The job adds the employee and has told the commitment. -/
structure Tells (job : Job Disk Line (List String) Invocation) (path pubkey : String)
    (commitment : BytesN 32) : Prop where
  adds : ∃ amount, Adds job.input path pubkey amount
  told : commitmentLine commitment ∈ job.out

/-- The records at the end of a run, and what the commands have told of them. -/
structure Accounts (start : Disk) (pool : CliPool) : Prop where
  /-- No record is changed or lost. -/
  stays : Grows start pool.state
  /-- A commitment that was told belongs to a new record, and opens with it. -/
  opens : ∀ (j : Nat) job path pubkey commitment, pool.jobs[j]? = some job →
    Tells job path pubkey commitment → rowAt start path pubkey = none ∧
      ∃ row, rowAt pool.state path pubkey = some row ∧
        Adds job.input path pubkey row.currentSalaryAmount.toUInt64 ∧
        Opens job.input.outside row commitment
  /-- An `add-employee` that ends well has told all of the employee. -/
  tells : ∀ (j : Nat) job pubkey amount, pool.jobs[j]? = some job →
    job.input.command = .addEmployee pubkey amount → job.prog = .done (.ok ()) →
    Prints job.input job.out
  /-- No two commands tell a commitment for one employee. -/
  once : ∀ (j j' : Nat) job job' path pubkey commitment commitment', pool.jobs[j]? = some job →
    pool.jobs[j']? = some job' → Tells job path pubkey commitment →
    Tells job' path pubkey commitment' → j = j'
  /-- A record was there, or is the one of a command that has not failed or has
  failed while it was telling of it. -/
  origin : ∀ path pubkey row, rowAt pool.state path pubkey = some row →
    rowAt start path pubkey = some row ∨ ∃ j : Nat, ∃ job amount, pool.jobs[j]? = some job ∧
      Adds job.input path pubkey amount ∧ row = newRow job.input.outside amount ∧
      ((∀ err, job.prog ≠ .done (.error err)) ∨ BrokenOff job.input job.out)

theorem dbPath_inj (h : Adds i path pubkey amount) (h' : Adds i path' pubkey' amount') :
    path = path' ∧ pubkey = pubkey' ∧ amount = amount' := by
  obtain ⟨home, hhome, rfl⟩ := h.path
  obtain ⟨home', hhome', rfl⟩ := h'.path
  have hcommand := h.command.symm.trans h'.command
  obtain rfl := Option.some.inj (hhome.symm.trans hhome')
  simpa using hcommand

section
variable {start : Disk} {pool : CliPool}

theorem tells_write (h : Kept start Grows Allowed (fun i _ => Told i) (fun i _ => Ended i) pool)
    (hjob : pool.jobs[j]? = some job) (htells : Tells job path pubkey commitment) :
    ∃ amount, Adds job.input path pubkey amount ∧
      poseidonCommitment job.input.outside amount (genBlindingFactor job.input.outside) =
        .ok commitment ∧
      rowAt pool.state path pubkey = some (newRow job.input.outside amount) ∧
      ∃ w ∈ pool.writes, w.job = j ∧
        Inserts path pubkey (newRow job.input.outside amount) w.before w.after := by
  obtain ⟨amount, hadds⟩ := htells.adds
  have htold := (h.jobs j job hjob).2.invariant pubkey amount commitment hadds.command htells.told
  obtain ⟨hcommit, path', hrecorded⟩ := htold
  obtain ⟨rfl, -, -⟩ := dbPath_inj hadds hrecorded.adds
  obtain ⟨c, hc, hinserts⟩ := hrecorded.made
  obtain ⟨w, hw, hwjob, rfl⟩ := Pool.mem_own.mp hc
  exact ⟨amount, hadds, hcommit, hrecorded.stored, w, hw, hwjob, hinserts⟩

end

end ZkPayroll.Cli
