import ZkPayroll.Events
import ZkPayroll.Host.EventLog
import ZkPayroll.PauseManager.Rotation

/-!
# The log of the pause manager

Every call that goes through publishes one event. The events of a run, read in
order, give back the whole storage: the four flags, the operator and the
pending rotation with its time. So what stands in storage is decided by what
was published.
-/

namespace ZkPayroll.PauseManager

open Host Events

def PauseCategory.symbol : PauseCategory → Symbol
  | .payroll => "payroll"
  | .treasury => "treasury"
  | .audit => "audit"
  | .admin => "admin"

def Call.event (e : Env) : Call → Event
  | .initializeManager operator => emitPauseManagerInitialized e operator
  | .pause => emitPaused e
  | .unpause => emitUnpaused e
  | .pauseCategory category => emitCategoryPaused e category.symbol
  | .unpauseCategory category => emitCategoryUnpaused e category.symbol
  | .proposeOperatorRotation currentOperator newOperator =>
    e.publish [.symbol "PauseManager", .symbol "op_proposed"]
      (.tuple [.address currentOperator, .address newOperator])
  | .acceptOperatorRotation newOperator =>
    e.publish [.symbol "PauseManager", .symbol "op_rotated"] (.value (.address newOperator))
  | .cancelOperatorRotation currentOperator =>
    e.publish [.symbol "PauseManager", .symbol "op_cancelled"] (.value (.address currentOperator))

def published (s : Storage) (i : Input) : List Event :=
  match exec i.env s i.call with
  | .ok _ => [i.call.event i.env]
  | .error _ => []

-- ---------------------------------------------------------------------------
-- The reader
-- ---------------------------------------------------------------------------

abbrev Mirrored := Mirror DataKey.Val

def categoryOf : Symbol → Option PauseCategory
  | "payroll" => some .payroll
  | "treasury" => some .treasury
  | "audit" => some .audit
  | "admin" => some .admin
  | _ => none

def putAll (paused : Bool) (m : Mirrored) : Mirrored :=
  PauseCategory.all.foldl (fun m category => m.put (.paused category) paused) m

def putCategory (paused : Bool) (symbol : Symbol) (m : Mirrored) : Mirrored :=
  match categoryOf symbol with
  | some category => m.put (.paused category) paused
  | none => m

/-- What an indexer makes of an event. -/
def readEvent (m : Mirrored) (event : Event) : Mirrored :=
  match event.topics, event.data with
  | [.symbol "PauseManager", .symbol "initialized"], .tuple [.address operator] =>
    putAll false (m.put .operator operator)
  | [.symbol "PauseManager", .symbol "paused"], .void => putAll true m
  | [.symbol "PauseManager", .symbol "unpaused"], .void => putAll false m
  | [.symbol "PauseManager", .symbol "category_paused"], .tuple [.symbol symbol] =>
    putCategory true symbol m
  | [.symbol "PauseManager", .symbol "category_unpaused"], .tuple [.symbol symbol] =>
    putCategory false symbol m
  | [.symbol "PauseManager", .symbol "op_proposed"],
      .tuple [.address currentOperator, .address newOperator] =>
    m.put .pendingOperator ⟨newOperator, currentOperator, event.closedAt⟩
  | [.symbol "PauseManager", .symbol "op_rotated"], .value (.address newOperator) =>
    (m.put .operator newOperator).drop .pendingOperator
  | [.symbol "PauseManager", .symbol "op_cancelled"], .value (.address _) =>
    m.drop .pendingOperator
  | _, _ => m

def mirror (s : Storage) : Mirrored := s.mirror fun _ v => some v

section
variable {e : Env} {s s' : Storage}

theorem mirror_get (s : Storage) (k : DataKey) : mirror s k = s.get k := by
  simp [mirror, Store.mirror]

theorem mirror_set (s : Storage) (k : DataKey) (v : DataKey.Val k) :
    mirror (s.set k v) = (mirror s).put k v := mirror_put rfl

theorem mirror_remove (s : Storage) (k : DataKey) :
    mirror (s.remove k) = (mirror s).drop k := mirror_drop s k

theorem mirror_setAll (paused : Bool) (s : Storage) :
    mirror (setAll paused s) = putAll paused (mirror s) := by
  simp only [setAll, putAll, PauseCategory.all, List.foldl_cons, List.foldl_nil, mirror_set]

theorem categoryOf_symbol (category : PauseCategory) :
    categoryOf category.symbol = some category := by
  cases category <;> rfl

theorem putCategory_symbol (paused : Bool) (category : PauseCategory) (m : Mirrored) :
    putCategory paused category.symbol m = m.put (.paused category) paused := by
  rw [putCategory, categoryOf_symbol]

theorem mirror_guarded {x : Result Unit} {t : Storage} (ht : mirror t = m)
    (h : (do x; return t : Result Storage) = .ok s') : mirror s' = m := by
  simp only [bind_ok, pure_ok] at h
  obtain ⟨_, -, rfl⟩ := h
  exact ht

theorem readEvent_exec (h : exec e s call = .ok s') :
    readEvent (mirror s) (call.event e) = mirror s' := by
  cases call with
  | initializeManager operator =>
    have hread : mirror (setAll false (s.set .operator operator)) =
        putAll false ((mirror s).put .operator operator) := by
      rw [mirror_setAll, mirror_set]
    exact (mirror_guarded hread h).symm
  | pause => exact (mirror_guarded (mirror_setAll true s) h).symm
  | unpause => exact (mirror_guarded (mirror_setAll false s) h).symm
  | pauseCategory category =>
    have hread : putCategory true category.symbol (mirror s) = mirror s' := by
      rw [putCategory_symbol]
      exact (mirror_guarded (mirror_set s (.paused category) true) h).symm
    exact hread
  | unpauseCategory category =>
    have hread : putCategory false category.symbol (mirror s) = mirror s' := by
      rw [putCategory_symbol]
      exact (mirror_guarded (mirror_set s (.paused category) false) h).symm
    exact hread
  | proposeOperatorRotation currentOperator newOperator =>
    obtain ⟨_, -, h⟩ := bind_ok.mp h
    exact (mirror_guarded (mirror_set ..) h).symm
  | acceptOperatorRotation newOperator =>
    simp only [exec, acceptOperatorRotation, bind_ok, pure_ok] at h
    obtain ⟨_, -, _, -, _, -, rfl⟩ := h
    rw [mirror_remove, mirror_set]
    rfl
  | cancelOperatorRotation currentOperator =>
    obtain ⟨_, -, h⟩ := bind_ok.mp h
    exact (mirror_guarded (mirror_remove ..) h).symm

end

theorem readEvent_published (s : Storage) (i : Input) :
    (published s i).foldl readEvent (mirror s) = mirror (next s i) := by
  unfold published next
  cases h : exec i.env s i.call with
  | ok s' => exact readEvent_exec h
  | error msg => rfl

/-- The log of a run gives back the storage it leads to. -/
theorem log_gives_storage (inputs : List Input) :
    (log next published Store.empty inputs).foldl readEvent Mirror.blank =
      (runFrom next Store.empty inputs).get := by
  have hreplay : (log next published Store.empty inputs).foldl readEvent (mirror Store.empty) =
      mirror (runFrom next Store.empty inputs) :=
    replay_log (fun s i _ => readEvent_published s i) inputs
  rw [mirror, mirror_empty] at hreplay
  rw [hreplay]
  funext k
  exact mirror_get _ k

end ZkPayroll.PauseManager
