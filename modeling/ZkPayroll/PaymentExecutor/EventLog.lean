import ZkPayroll.PaymentExecutor.Periods
import ZkPayroll.PayrollRegistry.EventLog
import ZkPayroll.SalaryCommitment.EventLog

/-!
# The log of the executor and the contracts it asks

One ledger has the events of all contracts in the order of the transactions.
An indexer that keeps a mirror of each contract, and folds every event into
the mirror of its origin, is right about all of them at the end of every run,
whatever the interleaving. Of the executor the events tell the periods with
their counts, the totals, who was paid for which period by which company, the
admin, the pause manager and the assets; they do not tell the addresses, the
nullifiers or the proofs.

The period events of one company form a word of a small language: periods are
opened in the order of their numbers, one at a time, and only the open one is
paid in.
-/

namespace ZkPayroll.PaymentExecutor

open Host Events

def assetAllowedUpdated (e : Env) (asset : Address) (allowed : Bool) : Event :=
  e.publish [.symbol "TreasuryAssetAllowedUpdated", .address asset]
    (.tuple [.bool allowed, .u64 e.timestamp])

def PaymentRequest.event (p : PaymentRequest) (e : Env) : Event :=
  emitExecutorPaymentProcessed e p.companyId p.employee p.amount p.period

def Call.events (e : Env) (s : Storage) : Call → List Event
  | .initializeExecutor addresses => [assetAllowedUpdated e addresses.token true]
  | .setExecutorAdmin admin => [emitExecutorAdminSet e admin]
  | .setPauseManager pauseManager => [emitExecutorPauseManagerSet e pauseManager]
  | .setAssetAllowed asset allowed => [assetAllowedUpdated e asset allowed]
  | .setAssetDecimals asset decimals =>
    [e.publish [.symbol "AssetDecimalsConfigured", .address asset]
      (.tuple [.u32 decimals, .u64 e.timestamp])]
  | .createPeriod companyId => [emitPeriodCreated e companyId (nextPeriodId s companyId)]
  | .closePeriod companyId periodId => [emitPeriodClosed e companyId periodId]
  | .executePayment p => [p.event e]
  | .executeBatchPayroll b => b.requests.map (PaymentRequest.event · e)

inductive Origin
  | executor
  | registry (id : Address)
  | commitment (id : Address)
  deriving DecidableEq

/-- The events of a message that goes through. -/
def Message.events (e : LedgerEnv) (w : System) : Message → List (Origin × Event)
  | .executor call => (call.events e.toEnv w.executor).map (Prod.mk .executor)
  | .registry id call => (call.events e (w.registries id)).map (Prod.mk (.registry id))
  | .commitment id call => (call.events e.toEnv (w.commitments id)).map (Prod.mk (.commitment id))
  -- the token contract publishes nothing
  | .token .. => []

def published (w : System) (i : Input) : List (Origin × Event) :=
  match deliver i.env i.message w with
  | .ok _ => i.message.events i.env w
  | .error _ => []

-- ---------------------------------------------------------------------------
-- The reader
-- ---------------------------------------------------------------------------

structure PeriodTold where
  createdAt : Nat
  closed : Bool
  paymentCount : Nat
  deriving DecidableEq

/-- What the events tell of an entry: of a payment the company and the time, of
a period no ledger numbers, of addresses and nullifiers nothing. -/
abbrev DataKey.Told : DataKey → Type
  | .addresses => Empty
  | .payment .. => Nat × Nat
  | .nullifier _ => Empty
  | .totalPaid _ => Int
  | .executorAdmin => Address
  | .pauseManager => Address
  | .period .. => PeriodTold
  | .periodSequence _ => Nat
  | .allowedAsset _ => Bool
  | .storageVersion => Empty
  | .assetDecimals _ => Nat

def DataKey.told : (k : DataKey) → k.Val → Option k.Told
  | .addresses, _ => none
  | .payment .., v => some (v.companyId, v.timestamp)
  | .nullifier _, _ => none
  | .totalPaid _, v => some v
  | .executorAdmin, v => some v
  | .pauseManager, v => some v
  | .period .., v => some ⟨v.createdAt, v.closed, v.paymentCount⟩
  | .periodSequence _, v => some v
  | .allowedAsset _, v => some v
  | .storageVersion, _ => none
  | .assetDecimals _, v => some v

abbrev Mirrored := Mirror DataKey.Told

def mirror (s : Storage) : Mirrored := s.mirror DataKey.told

def amend (companyId periodId : Nat) (f : PeriodTold → PeriodTold) (m : Mirrored) : Mirrored :=
  match m (.period companyId periodId) with
  | some period => m.put (.period companyId periodId) (f period)
  | none => m

def PeriodTold.close (p : PeriodTold) : PeriodTold := { p with closed := true }

def PeriodTold.count (p : PeriodTold) : PeriodTold := { p with paymentCount := p.paymentCount + 1 }

def addTotal (companyId : Nat) (amount : Int) (m : Mirrored) : Mirrored :=
  m.put (.totalPaid companyId) ((m (.totalPaid companyId)).getD 0 + amount)

def readEvent (m : Mirrored) (event : Event) : Mirrored :=
  match event.topics, event.data with
  | [.symbol "TreasuryAssetAllowedUpdated", .address asset], .tuple [.bool allowed, .u64 _] =>
    m.put (.allowedAsset asset) allowed
  | [.symbol "ExecutorAdminSet"], .tuple [.address admin] => m.put .executorAdmin admin
  | [.symbol "ExecutorPauseMgrSet"], .tuple [.address pauseManager] =>
    m.put .pauseManager pauseManager
  | [.symbol "AssetDecimalsConfigured", .address asset], .tuple [.u32 decimals, .u64 _] =>
    m.put (.assetDecimals asset) decimals
  | [.symbol "PeriodCreated", .u64 companyId], .tuple [.u32 periodId] =>
    (m.put (.period companyId periodId) ⟨event.closedAt, false, 0⟩).put (.periodSequence companyId)
      (periodId + 1)
  | [.symbol "PeriodClosed", .u64 companyId], .tuple [.u32 periodId] =>
    amend companyId periodId .close m
  | [.symbol "PayrollProcessed", .u64 companyId],
      .tuple [.address employee, .i128 amount, .u32 period] =>
    addTotal companyId amount
      (amend companyId period .count (m.put (.payment employee period) (companyId, event.closedAt)))
  | _, _ => m

structure Indexer where
  executor : Mirrored
  registries : Address → PayrollRegistry.Mirrored
  commitments : Address → SalaryCommitmentContract.Mirrored

def Indexer.blank : Indexer := ⟨.blank, fun _ => .blank, fun _ => .blank⟩

def Indexer.read (x : Indexer) : Origin × Event → Indexer
  | (.executor, event) => { x with executor := readEvent x.executor event }
  | (.registry id, event) =>
    let known := PayrollRegistry.readEvent (x.registries id) event
    { x with registries := Function.update x.registries id known }
  | (.commitment id, event) =>
    let known := SalaryCommitmentContract.readEvent (x.commitments id) event
    { x with commitments := Function.update x.commitments id known }

def System.indexed (w : System) : Indexer where
  executor := mirror w.executor
  registries id := PayrollRegistry.mirror (w.registries id)
  commitments id := SalaryCommitmentContract.mirror (w.commitments id)

section
variable {e : LedgerEnv} {s s' : Storage} {w w' : System}

-- ---------------------------------------------------------------------------
-- One event of the executor
-- ---------------------------------------------------------------------------

theorem mirror_period (h : s.get (.period companyId periodId) = some period) :
    mirror s (.period companyId periodId) =
      some ⟨period.createdAt, period.closed, period.paymentCount⟩ := mirror_some h

theorem mirror_total (s : Storage) (companyId : Nat) :
    (mirror s (.totalPaid companyId)).getD 0 = getTotalPaid s companyId := by
  have hmap : mirror s (.totalPaid companyId) = (s.get (.totalPaid companyId)).map id :=
    mirror_map (fun _ => rfl) s
  rw [hmap, Option.map_id]
  rfl

theorem amend_period (changed : PayrollPeriod)
    (h : s.get (.period companyId periodId) = some period)
    (hf : f ⟨period.createdAt, period.closed, period.paymentCount⟩ =
      ⟨changed.createdAt, changed.closed, changed.paymentCount⟩) :
    amend companyId periodId f (mirror s) = mirror (s.set (.period companyId periodId) changed) := by
  rw [amend, mirror_period h]
  simp only [hf]
  exact (mirror_put rfl).symm

theorem read_payment (e : Env) (p : PaymentRequest) (m : Mirrored) :
    readEvent m (p.event e) = addTotal p.companyId p.amount (amend p.companyId p.period .count
      (m.put (.payment p.employee p.period) (p.companyId, e.timestamp))) := rfl

theorem read_paid (hp : Payable e p w r) :
    readEvent (mirror w.executor) (p.event e.toEnv) = mirror (w.paid e p r).executor := by
  have hrecord : (mirror w.executor).put (.payment p.employee p.period) (p.companyId, e.timestamp) =
      mirror ((w.executor.set (.payment p.employee p.period) (p.record e)).set
        (.nullifier p.nullifier) true) := by
    have hhidden : mirror ((w.executor.set (.payment p.employee p.period) (p.record e)).set
        (.nullifier p.nullifier) true) =
        mirror (w.executor.set (.payment p.employee p.period) (p.record e)) :=
      mirror_hidden (V := DataKey.Val) (W := DataKey.Told) (k := .nullifier p.nullifier) _ true
    rw [hhidden]
    exact (mirror_put rfl).symm
  have hperiod : ((w.executor.set (.payment p.employee p.period) (p.record e)).set
      (.nullifier p.nullifier) true).get (.period p.companyId p.period) = some r.period := by
    simpa using hp.inPeriod
  have htotal (changed : PayrollPeriod) :
      getTotalPaid (((w.executor.set (.payment p.employee p.period) (p.record e)).set
        (.nullifier p.nullifier) true).set (.period p.companyId p.period) changed) p.companyId =
      getTotalPaid w.executor p.companyId := by simp [getTotalPaid]
  rw [read_payment, hrecord,
    amend_period { r.period with paymentCount := r.period.paymentCount + 1 } hperiod rfl, addTotal,
    mirror_total, htotal, paid_executor, paidStorage]
  exact (mirror_put rfl).symm

theorem read_pays (hp : Pays e ps w w') :
    (ps.map (PaymentRequest.event · e.toEnv)).foldl readEvent (mirror w.executor) =
      mirror w'.executor := by
  induction hp with
  | nil before => rfl
  | cons p r hpayable _ ih =>
    rw [List.map_cons, List.foldl_cons, read_paid hpayable]
    exact ih

theorem read_created (e : LedgerEnv) (companyId periodId : Nat) (s : Storage) :
    readEvent (mirror s) (emitPeriodCreated e.toEnv companyId periodId) =
      mirror ((s.set (.period companyId periodId) (newPeriod e companyId periodId)).set
        (.periodSequence companyId) (periodId + 1)) := by
  have hperiod : mirror (s.set (.period companyId periodId) (newPeriod e companyId periodId)) =
      (mirror s).put (.period companyId periodId) ⟨e.timestamp, false, 0⟩ := mirror_put rfl
  have hread : readEvent (mirror s) (emitPeriodCreated e.toEnv companyId periodId) =
      ((mirror s).put (.period companyId periodId) ⟨e.timestamp, false, 0⟩).put
        (.periodSequence companyId) (periodId + 1) := rfl
  rw [hread, ← hperiod]
  exact (mirror_put rfl).symm

theorem Pays.asked_kept (hp : Pays e ps w w') :
    w'.registries = w.registries ∧ w'.commitments = w.commitments := by
  induction hp with
  | nil => exact ⟨rfl, rfl⟩
  | cons => assumption

theorem read_exec (h : exec e call w = .ok (ret, w')) :
    (call.events e.toEnv w.executor).foldl readEvent (mirror w.executor) = mirror w'.executor ∧
      w'.registries = w.registries ∧ w'.commitments = w.commitments := by
  cases call with
  | initializeExecutor addresses =>
    obtain ⟨s', hf, -, rfl⟩ := onStorage_ok.mp h
    refine ⟨?_, rfl, rfl⟩
    simp only [initializeExecutor, bind_ok, pure_ok] at hf
    obtain ⟨_, -, rfl⟩ := hf
    have haddresses : mirror (w.executor.set .addresses addresses) = mirror w.executor :=
      mirror_hidden (V := DataKey.Val) (W := DataKey.Told) (k := .addresses) _ addresses
    have hasset : mirror ((w.executor.set .addresses addresses).set
        (.allowedAsset addresses.token) true) =
        (mirror w.executor).put (.allowedAsset addresses.token) true := by
      rw [← haddresses]
      exact mirror_put rfl
    have hversion : mirror (((w.executor.set .addresses addresses).set
        (.allowedAsset addresses.token) true).set .storageVersion 1) =
        mirror ((w.executor.set .addresses addresses).set (.allowedAsset addresses.token) true) :=
      mirror_hidden (V := DataKey.Val) (W := DataKey.Told) (k := .storageVersion) _ 1
    rw [hversion, hasset]
    rfl
  | setExecutorAdmin admin =>
    obtain ⟨s', hf, -, rfl⟩ := onStorage_ok.mp h
    simp only [setExecutorAdmin, bind_ok, pure_ok] at hf
    obtain ⟨_, -, _, -, rfl⟩ := hf
    exact ⟨(mirror_put rfl).symm, rfl, rfl⟩
  | setPauseManager pauseManager =>
    obtain ⟨s', hf, -, rfl⟩ := onStorage_ok.mp h
    simp only [setPauseManager, bind_ok, pure_ok] at hf
    obtain ⟨_, -, rfl⟩ := hf
    exact ⟨(mirror_put rfl).symm, rfl, rfl⟩
  | setAssetAllowed asset allowed =>
    obtain ⟨s', hf, -, rfl⟩ := onStorage_ok.mp h
    simp only [setAssetAllowed, bind_ok, pure_ok] at hf
    obtain ⟨_, -, rfl⟩ := hf
    exact ⟨(mirror_put rfl).symm, rfl, rfl⟩
  | setAssetDecimals asset decimals =>
    obtain ⟨s', hf, -, rfl⟩ := onStorage_ok.mp h
    simp only [setAssetDecimals, bind_ok, pure_ok] at hf
    obtain ⟨_, -, _, -, rfl⟩ := hf
    exact ⟨(mirror_put rfl).symm, rfl, rfl⟩
  | createPeriod companyId =>
    simp only [exec, bind_ok, Prod.exists, createPeriod_ok, pure_ok, Prod.mk.injEq] at h
    obtain ⟨_, _, ⟨-, -, -, -, -, rfl⟩, -, rfl⟩ := h
    exact ⟨read_created e companyId _ w.executor, rfl, rfl⟩
  | closePeriod companyId periodId =>
    simp only [exec, bind_ok, Prod.exists, closePeriod_ok, pure_ok, Prod.mk.injEq] at h
    obtain ⟨_, _, ⟨-, stored, hstored, -, -, rfl⟩, -, rfl⟩ := h
    exact ⟨amend_period _ hstored rfl, rfl, rfl⟩
  | executePayment p =>
    obtain ⟨r, hpayable, -, rfl⟩ := exec_executePayment_ok.mp h
    exact ⟨read_paid hpayable, rfl, rfl⟩
  | executeBatchPayroll b =>
    obtain ⟨-, hpays, -⟩ := exec_executeBatchPayroll_ok.mp h
    exact ⟨read_pays hpays, hpays.asked_kept⟩

-- ---------------------------------------------------------------------------
-- All contracts
-- ---------------------------------------------------------------------------

theorem read_executor (x : Indexer) (events : List Event) :
    (events.map (Prod.mk .executor)).foldl Indexer.read x =
      { x with executor := events.foldl readEvent x.executor } := by
  induction events generalizing x with
  | nil => rfl
  | cons event events ih =>
    rw [List.map_cons, List.foldl_cons, ih]
    rfl

theorem read_registry (x : Indexer) (id : Address) (events : List Event) :
    (events.map (Prod.mk (.registry id))).foldl Indexer.read x =
      { x with
        registries := Function.update x.registries id
          (events.foldl PayrollRegistry.readEvent (x.registries id)) } := by
  induction events generalizing x with
  | nil => simp
  | cons event events ih =>
    rw [List.map_cons, List.foldl_cons, ih]
    simp [Indexer.read]

theorem read_commitment (x : Indexer) (id : Address) (events : List Event) :
    (events.map (Prod.mk (.commitment id))).foldl Indexer.read x =
      { x with
        commitments := Function.update x.commitments id
          (events.foldl SalaryCommitmentContract.readEvent (x.commitments id)) } := by
  induction events generalizing x with
  | nil => simp
  | cons event events ih =>
    rw [List.map_cons, List.foldl_cons, ih]
    simp [Indexer.read]

end

theorem map_update {α β : Type} (f : α → β) (g : Address → α) (id : Address) (a : α) :
    (fun other => f (Function.update g id a other)) =
      Function.update (fun other => f (g other)) id (f a) := by
  funext other
  by_cases hother : other = id
  · subst hother
    simp
  · simp [hother]

theorem read_published (w : System) (i : Input) :
    (published w i).foldl Indexer.read w.indexed = (next w i).indexed := by
  unfold published next
  cases hd : deliver i.env i.message w with
  | error err => rfl
  | ok result =>
    obtain ⟨ret, w'⟩ := result
    cases hm : i.message with
    | executor call =>
      rw [hm] at hd
      obtain ⟨hread, hregistries, hcommitments⟩ := read_exec hd
      simp only [Message.events, read_executor, System.indexed, hread, hregistries, hcommitments]
    | registry id call =>
      simp only [hm, deliver, bind_ok, orPanic_ok, pure_ok, Prod.mk.injEq] at hd
      obtain ⟨r, hexec, -, rfl⟩ := hd
      simp only [Message.events, read_registry, System.indexed, PayrollRegistry.read_exec hexec,
        map_update]
    | commitment id call =>
      simp only [hm, deliver, bind_ok, orPanic_ok, pure_ok, Prod.mk.injEq] at hd
      obtain ⟨c, hexec, -, rfl⟩ := hd
      simp only [Message.events, read_commitment, System.indexed,
        SalaryCommitmentContract.read_exec hexec, map_update]
    | token asset call =>
      simp only [hm, deliver, bind_ok, orPanic_ok, pure_ok, Prod.mk.injEq] at hd
      obtain ⟨_, -, -, rfl⟩ := hd
      rfl

theorem indexed_genesis : System.genesis.indexed = Indexer.blank := by
  simp only [System.indexed, System.genesis, Indexer.blank, mirror, PayrollRegistry.mirror,
    SalaryCommitmentContract.mirror, mirror_empty]

/-- The log of a run gives back what the events tell of every contract. -/
theorem log_gives_indexed (inputs : List Input) :
    (log next published System.genesis inputs).foldl Indexer.read .blank =
      (runFrom next System.genesis inputs).indexed := by
  rw [← indexed_genesis]
  exact replay_log (fun w i _ => read_published w i) inputs

end ZkPayroll.PaymentExecutor
