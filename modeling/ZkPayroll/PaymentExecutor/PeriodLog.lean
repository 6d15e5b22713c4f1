import ZkPayroll.PaymentExecutor.EventLog

/-!
# The period events of a company

In the log, the events about one company's periods form a word of a small
language: period 1 is opened, paid in and closed, then period 2, and so on,
with the last one perhaps still open. So the numbers have no gaps, a period is
created once, and after the event that closes it no payment names it.
-/

namespace ZkPayroll.PaymentExecutor

open Host Events

inductive PeriodEntry
  | opened (periodId : Nat)
  | paid (periodId : Nat)
  | closed (periodId : Nat)
  deriving DecidableEq

def periodEntry (companyId : Nat) : Origin × Event → Option PeriodEntry
  | (.executor, event) =>
    match event.topics, event.data with
    | [.symbol "PeriodCreated", .u64 id], .tuple [.u32 periodId] =>
      if id = companyId then some (.opened periodId) else none
    | [.symbol "PayrollProcessed", .u64 id], .tuple [.address _, .i128 _, .u32 period] =>
      if id = companyId then some (.paid period) else none
    | [.symbol "PeriodClosed", .u64 id], .tuple [.u32 periodId] =>
      if id = companyId then some (.closed periodId) else none
    | _, _ => none
  | _ => none

structure Phase where
  nextId : Nat
  isOpen : Bool
  deriving DecidableEq

def Phase.advance (p : Phase) : PeriodEntry → Option Phase
  | .opened periodId =>
    if p.isOpen = false ∧ periodId = p.nextId then some ⟨periodId + 1, true⟩ else none
  | .paid periodId => if p.isOpen = true ∧ periodId + 1 = p.nextId then some p else none
  | .closed periodId =>
    if p.isOpen = true ∧ periodId + 1 = p.nextId then some ⟨p.nextId, false⟩ else none

def phase (s : Storage) (companyId : Nat) : Phase where
  nextId := nextPeriodId s companyId
  isOpen := (s.get (.period companyId (nextPeriodId s companyId - 1))).any fun p => !p.closed

section
variable {e : LedgerEnv} {s s' : Storage} {w w' : System}

-- ---------------------------------------------------------------------------
-- Phases
-- ---------------------------------------------------------------------------

theorem phase_kept (hsequence : s'.get (.periodSequence companyId) =
      s.get (.periodSequence companyId))
    (hperiods : ∀ i, (s'.get (.period companyId i)).map (·.closed) =
      (s.get (.period companyId i)).map (·.closed)) :
    phase s' companyId = phase s companyId := by
  have hnext : nextPeriodId s' companyId = nextPeriodId s companyId := by
    rw [nextPeriodId, hsequence]
    rfl
  have hopen (o : Option PayrollPeriod) :
      o.any (fun p => !p.closed) = (o.map (·.closed)).any fun closed => !closed := by
    cases o <;> rfl
  rw [phase, phase, hnext, hopen, hopen, hperiods]

theorem phase_nextId (s : Storage) (companyId : Nat) :
    (phase s companyId).nextId = nextPeriodId s companyId := rfl

theorem PeriodsKept.phase_eq (h : PeriodsKept s s') : phase s' companyId = phase s companyId := by
  refine phase_kept (h.sequence companyId) fun i => ?_
  rcases h.periods companyId i with hsame | ⟨period, count, hget, -, hset⟩
  · rw [hsame]
  · rw [hget, hset]
    rfl

theorem Numbered.open_last (h : Numbered s companyId)
    (hget : s.get (.period companyId i) = some period) (hopen : period.closed = false) :
    i + 1 = (phase s companyId).nextId ∧ (phase s companyId).isOpen = true := by
  obtain ⟨-, hlt⟩ := (h.stored i).mp ⟨period, hget⟩
  have hlast : i + 1 = nextPeriodId s companyId := by
    by_contra hne
    have := h.closed i period hget (by omega)
    simp [hopen] at this
  refine ⟨hlast, ?_⟩
  rw [phase, ← hlast, Nat.add_sub_cancel, hget]
  simp [hopen]

theorem Numbered.none_open (h : Numbered s companyId) (hprevious : ¬ PreviousOpen s companyId) :
    (phase s companyId).isOpen = false := by
  cases hget : s.get (.period companyId (nextPeriodId s companyId - 1)) with
  | none => simp [phase, hget]
  | some period =>
    obtain ⟨hpos, -⟩ := (h.stored _).mp ⟨period, hget⟩
    by_contra hopen
    exact hprevious ⟨by omega, by simpa [phase] using hopen⟩

-- ---------------------------------------------------------------------------
-- Entries
-- ---------------------------------------------------------------------------

theorem entries_other {origin : Origin} (horigin : origin ≠ .executor) (companyId : Nat)
    (events : List Event) :
    (events.map (Prod.mk origin)).filterMap (periodEntry companyId) = [] := by
  rw [List.filterMap_eq_nil_iff]
  intro pair hpair
  obtain ⟨event, -, rfl⟩ := List.mem_map.mp hpair
  cases origin with
  | executor => exact absurd rfl horigin
  | registry | commitment => rfl

theorem entry_paid (e : Env) (p : PaymentRequest) (companyId : Nat) :
    periodEntry companyId (.executor, p.event e) =
      if p.companyId = companyId then some (.paid p.period) else none := rfl

/-- The entries of the executor's events take the company from one phase to the
other. -/
def Accepts (companyId : Nat) (events : List Event) (s s' : Storage) : Prop :=
  ((events.map (Prod.mk Origin.executor)).filterMap (periodEntry companyId)).foldlM Phase.advance
    (phase s companyId) = some (phase s' companyId)

theorem pays_accepted (h : Numbered w.executor companyId) (hp : Pays e ps w w') :
    Accepts companyId (ps.map (PaymentRequest.event · e.toEnv)) w.executor w'.executor := by
  induction hp with
  | nil before => rfl
  | cons p r hpayable _ ih =>
    have hkept := hpayable.periodsKept
    have ih := ih (h.kept hkept)
    rw [Accepts, hkept.phase_eq] at ih
    simp only [Accepts, List.map_cons, List.filterMap_cons, entry_paid]
    by_cases hcompany : p.companyId = companyId
    · subst hcompany
      obtain ⟨hlast, hopen⟩ := h.open_last hpayable.inPeriod hpayable.periodOpen
      simp only [if_true, List.foldlM_cons, Phase.advance, hlast, hopen, and_self]
      exact ih
    · simp only [if_neg hcompany]
      exact ih

theorem created_accepted (h : Numbered s companyId) (e : Env) (other : Nat)
    (hnew : PeriodCreated f other s s') :
    Accepts companyId [emitPeriodCreated e other (nextPeriodId s other)] s s' := by
  obtain ⟨hprevious, rfl⟩ := hnew
  by_cases hcompany : other = companyId
  · subst hcompany
    have hnext : nextPeriodId ((s.set (.period other (nextPeriodId s other))
        (newPeriod f other (nextPeriodId s other))).set (.periodSequence other)
          (nextPeriodId s other + 1)) other = nextPeriodId s other + 1 := by
      simp [nextPeriodId]
    have hphase : phase ((s.set (.period other (nextPeriodId s other))
        (newPeriod f other (nextPeriodId s other))).set (.periodSequence other)
          (nextPeriodId s other + 1)) other = ⟨nextPeriodId s other + 1, true⟩ := by
      rw [phase, hnext]
      simp [newPeriod]
    rw [Accepts, hphase]
    have hclosed := h.none_open hprevious
    simp [periodEntry, emitPeriodCreated, Env.publish, Phase.advance, hclosed, phase_nextId]
  · have hkept : phase ((s.set (.period other (nextPeriodId s other))
        (newPeriod f other (nextPeriodId s other))).set (.periodSequence other)
          (nextPeriodId s other + 1)) companyId = phase s companyId :=
      phase_kept (by simp [Ne.symm hcompany]) fun i => by simp [Ne.symm hcompany]
    rw [Accepts, hkept]
    simp [periodEntry, emitPeriodCreated, Env.publish, hcompany]

theorem ended_accepted (h : Numbered s companyId) (e : Env)
    (hend : PeriodEnded f other periodId s s' period) :
    Accepts companyId [emitPeriodClosed e other periodId] s s' := by
  obtain ⟨hget, hopen, rfl⟩ := hend
  by_cases hcompany : other = companyId
  · subst hcompany
    obtain ⟨hlast, hisOpen⟩ := h.open_last hget hopen
    rw [phase_nextId] at hlast
    have hnext : nextPeriodId (s.set (.period other periodId) (period.ended f)) other =
        nextPeriodId s other := by
      simp [nextPeriodId]
    have hphase : phase (s.set (.period other periodId) (period.ended f)) other =
        ⟨nextPeriodId s other, false⟩ := by
      rw [phase, hnext, ← hlast, Nat.add_sub_cancel, Store.get_set_self]
      simp [PayrollPeriod.ended]
    rw [Accepts, hphase]
    simp [periodEntry, emitPeriodClosed, Env.publish, Phase.advance, hlast, hisOpen, phase_nextId]
  · have hkept : phase (s.set (.period other periodId) (period.ended f)) companyId =
        phase s companyId :=
      phase_kept (by simp) fun i => by simp [Ne.symm hcompany]
    rw [Accepts, hkept]
    simp [periodEntry, emitPeriodClosed, Env.publish, hcompany]

theorem config_accepted (hentry : periodEntry companyId (.executor, event) = none)
    (h : Store.Frame (fun k => k.isConfig = true) s s') : Accepts companyId [event] s s' := by
  rw [Accepts, (PeriodsKept.of_frame h).phase_eq]
  simp [hentry]

theorem exec_accepted (h : Numbered w.executor companyId) (hok : exec e call w = .ok (ret, w')) :
    Accepts companyId (call.events e.toEnv w.executor) w.executor w'.executor := by
  cases call with
  | createPeriod other =>
    simp only [exec, bind_ok, Prod.exists, createPeriod_ok, pure_ok, Prod.mk.injEq] at hok
    obtain ⟨_, _, ⟨-, -, hprevious, -, -, rfl⟩, -, rfl⟩ := hok
    exact created_accepted h e.toEnv other (f := e) ⟨hprevious, rfl⟩
  | closePeriod other periodId =>
    simp only [exec, bind_ok, Prod.exists, closePeriod_ok, pure_ok, Prod.mk.injEq] at hok
    obtain ⟨_, _, ⟨-, stored, hstored, hopen, -, rfl⟩, -, rfl⟩ := hok
    exact ended_accepted h e.toEnv ⟨hstored, hopen, rfl⟩
  | executePayment p =>
    obtain ⟨r, hpayable, -, rfl⟩ := exec_executePayment_ok.mp hok
    exact pays_accepted h (.cons p r hpayable (.nil _))
  | executeBatchPayroll b =>
    obtain ⟨-, hpays, -⟩ := exec_executeBatchPayroll_ok.mp hok
    exact pays_accepted h hpays
  | initializeExecutor addresses =>
    obtain ⟨s, hf, -, rfl⟩ := onStorage_ok.mp hok
    exact config_accepted rfl (initializeExecutor_frame hf)
  | setExecutorAdmin admin =>
    obtain ⟨s, hf, -, rfl⟩ := onStorage_ok.mp hok
    exact config_accepted rfl (setExecutorAdmin_frame hf)
  | setPauseManager pauseManager =>
    obtain ⟨s, hf, -, rfl⟩ := onStorage_ok.mp hok
    exact config_accepted rfl (setPauseManager_frame hf)
  | setAssetAllowed asset allowed =>
    obtain ⟨s, hf, -, rfl⟩ := onStorage_ok.mp hok
    exact config_accepted rfl (setAssetAllowed_frame hf)
  | setAssetDecimals asset decimals =>
    obtain ⟨s, hf, -, rfl⟩ := onStorage_ok.mp hok
    exact config_accepted rfl (setAssetDecimals_frame hf)

end

-- ---------------------------------------------------------------------------
-- Runs
-- ---------------------------------------------------------------------------

theorem published_accepted (w : System) (i : Input) (h : Numbered w.executor companyId) :
    ((published w i).filterMap (periodEntry companyId)).foldlM Phase.advance
        (phase w.executor companyId) =
      some (phase (next w i).executor companyId) := by
  unfold published next
  cases hd : deliver i.env i.message w with
  | error err => rfl
  | ok result =>
    obtain ⟨ret, w'⟩ := result
    cases hm : i.message with
    | executor call =>
      rw [hm] at hd
      exact exec_accepted h hd
    | registry id call | commitment id call =>
      simp only [hm, deliver, bind_ok, orPanic_ok, pure_ok, Prod.mk.injEq] at hd
      obtain ⟨_, -, -, rfl⟩ := hd
      simp only [Message.events]
      rw [entries_other (by simp)]
      rfl
    | token asset call =>
      simp only [hm, deliver, bind_ok, orPanic_ok, pure_ok, Prod.mk.injEq] at hd
      obtain ⟨_, -, -, rfl⟩ := hd
      rfl

/-- In every run the events about a company's periods open, pay and close its
periods in the order of their numbers, one at a time. -/
theorem period_log_accepted (inputs : List Input) (companyId : Nat) :
    ((log next published System.genesis inputs).filterMap (periodEntry companyId)).foldlM
        Phase.advance ⟨1, false⟩ =
      some (phase (runFrom next System.genesis inputs).executor companyId) := by
  have hstart : phase System.genesis.executor companyId = ⟨1, false⟩ := by
    simp [phase, nextPeriodId, System.genesis]
  rw [← hstart]
  refine accept_log (fun w : System => phase w.executor companyId) (fun w i hw => ?_) inputs
  obtain ⟨before, rfl⟩ := hw
  exact published_accepted _ i (numbered_run before companyId)

end ZkPayroll.PaymentExecutor
