import ZkPayroll.Host.Checked
import Mathlib.Data.List.Induction
import Mathlib.Logic.Relation

/-!
# Walks that erase what they leave

`Grounded R x`: every path of the relation `R` that starts at `x` ends. The
property survives a new edge exactly when the edge closes no cycle.

A `Walk` goes depth first through the children lists of a state. It does
something on entering a child, and when it leaves a node the node's list is
erased, so a later visit finds nothing there. Nothing keeps it from entering a
node it has not left yet, so it completes exactly where the paths end
(`visit_completes`, `visit_trace`), and then it has entered everything below
the start and left that and the start itself.
-/

namespace ZkPayroll.Host

open Relation

-- ---------------------------------------------------------------------------
-- Paths that end
-- ---------------------------------------------------------------------------

section
variable {α : Type} {R R' : α → α → Prop} {x y a d : α}

def Grounded (R : α → α → Prop) (x : α) : Prop := Acc (Function.swap R) x

theorem grounded_iff : Grounded R x ↔ ∀ y, R x y → Grounded R y :=
  ⟨fun h _ hy => h.inv hy, fun h => Acc.intro x h⟩

theorem Grounded.mono (h : Grounded R x) (hsub : ∀ a b, R' a b → R a b) : Grounded R' x :=
  Subrelation.accessible (fun hab => hsub _ _ hab) h

theorem Grounded.no_cycle (h : Grounded R x) : ¬ TransGen R x x := by
  induction h with
  | intro x _ ih =>
    intro hcycle
    obtain ⟨y, hxy, hyx⟩ := TransGen.head'_iff.mp hcycle
    exact ih y hxy (TransGen.tail' hyx hxy)

def addEdge (R : α → α → Prop) (a d : α) (x y : α) : Prop := R x y ∨ x = a ∧ y = d

theorem addEdge_not_grounded (h : ReflTransGen R d a) : ¬ Grounded (addEdge R a d) a := by
  intro hground
  have hback : ReflTransGen (addEdge R a d) d a := by
    refine ReflTransGen.mono ?_ d a h
    exact fun _ _ => Or.inl
  exact hground.no_cycle (TransGen.head' (.inr ⟨rfl, rfl⟩) hback)

theorem addEdge_grounded (h : ∀ x, Grounded R x) (hback : ¬ ReflTransGen R d a) (x : α) :
    Grounded (addEdge R a d) x := by
  -- below `d` the new edge is never taken
  have hbelow : ∀ y, ReflTransGen R d y → Grounded (addEdge R a d) y := by
    intro y
    induction h y with
    | intro y _ ih =>
      intro hy
      refine grounded_iff.mpr fun z hz => ?_
      rcases hz with hz | ⟨rfl, rfl⟩
      · exact ih z hz (hy.tail hz)
      · exact absurd hy hback
  induction h x with
  | intro x _ ih =>
    refine grounded_iff.mpr fun z hz => ?_
    rcases hz with hz | ⟨-, rfl⟩
    · exact ih z hz
    · exact hbelow z .refl

end

-- ---------------------------------------------------------------------------
-- Loops
-- ---------------------------------------------------------------------------

section
variable {σ α : Type} {f g : σ → α → Result σ} {l : List α} {s t : σ}

theorem foldlM_cons_ok :
    (y :: l).foldlM f s = .ok t ↔ ∃ u, f s y = .ok u ∧ l.foldlM f u = .ok t := by
  simp only [List.foldlM_cons, bind_ok]

theorem foldlM_mono (hfg : ∀ s y t, f s y = .ok t → g s y = .ok t) (h : l.foldlM f s = .ok t) :
    l.foldlM g s = .ok t := by
  induction l generalizing s with
  | nil => exact h
  | cons y l ih =>
    obtain ⟨u, hu, h⟩ := foldlM_cons_ok.mp h
    exact foldlM_cons_ok.mpr ⟨u, hfg s y u hu, ih h⟩

theorem foldlM_invariant {I : List α → σ → Prop} (hstart : I [] s)
    (hstep : ∀ done y u v, y ∈ l → I done u → f u y = .ok v → I (done ++ [y]) v)
    (h : l.foldlM f s = .ok t) : I l t := by
  induction l using List.reverseRecOn generalizing t with
  | nil =>
    obtain rfl := pure_ok.mp h
    exact hstart
  | append_singleton l y ih =>
    rw [List.foldlM_append, bind_ok] at h
    obtain ⟨u, hu, h⟩ := h
    have hu := ih (fun done z u v hz => hstep done z u v (List.mem_append_left _ hz)) hu
    obtain ⟨v, hv, h⟩ := foldlM_cons_ok.mp h
    obtain rfl := pure_ok.mp h
    exact hstep l y u _ (List.mem_append_right _ List.mem_cons_self) hu hv

theorem foldlM_total {I : σ → Prop} (hstart : I s)
    (hstep : ∀ y u, y ∈ l → I u → ∃ v, f u y = .ok v ∧ I v) : ∃ t, l.foldlM f s = .ok t := by
  induction l generalizing s with
  | nil => exact ⟨s, rfl⟩
  | cons y l ih =>
    obtain ⟨u, hu, hI⟩ := hstep y s List.mem_cons_self hstart
    obtain ⟨t, ht⟩ := ih hI fun z v hz => hstep z v (List.mem_cons_of_mem _ hz)
    exact ⟨t, foldlM_cons_ok.mpr ⟨u, hu, ht⟩⟩

end

-- ---------------------------------------------------------------------------
-- Erasing walks
-- ---------------------------------------------------------------------------

structure Walk (σ α : Type) where
  children : σ → α → List α
  enter : σ → α → σ
  leave : σ → α → σ
  children_enter : ∀ s x y, children (enter s x) y = children s y
  children_leave_self : ∀ s x, children (leave s x) x = []
  children_leave_ne : ∀ s x y, y ≠ x → children (leave s x) y = children s y

namespace Walk

variable {σ α : Type} (w : Walk σ α)

/-- The walk from `x`, given up with `err` below the depth of the fuel. -/
def visit (err : Panic) : (fuel : Nat) → α → σ → Result σ
  | 0, _, _ => throw err
  | fuel + 1, x, s => do
    let s ← (w.children s x).foldlM (fun s y => visit err fuel y (w.enter s y)) s
    return w.leave s x

def edge (s : σ) (x y : α) : Prop := y ∈ w.children s x

/-- What a walk does on its way. -/
inductive Mark (α : Type)
  | enter (x : α)
  | leave (x : α)

def act (s : σ) : Mark α → σ
  | .enter x => w.enter s x
  | .leave x => w.leave s x

def play (s : σ) (trace : List (Mark α)) : σ := trace.foldl w.act s

variable {w} {err : Panic} {s t t' : σ} {x y z : α} {trace : List (Mark α)} {fuel : Nat}

@[simp] theorem play_nil : w.play s [] = s := rfl

@[simp] theorem play_append (first second : List (Mark α)) :
    w.play s (first ++ second) = w.play (w.play s first) second := by
  simp [play]

theorem play_invariant {P : σ → Prop} (hact : ∀ s m, P s → P (w.act s m)) (h : P s) :
    P (w.play s trace) := by
  induction trace generalizing s with
  | nil => exact h
  | cons m trace ih => exact ih (hact s m h)

theorem play_kept {β : Type} {o : σ → β} (hact : ∀ m ∈ trace, ∀ s, o (w.act s m) = o s) :
    o (w.play s trace) = o s := by
  induction trace generalizing s with
  | nil => rfl
  | cons m trace ih =>
    refine (ih fun m' hm' => hact m' (List.mem_cons_of_mem _ hm')).trans ?_
    exact hact m List.mem_cons_self s

theorem play_reached {P : σ → Prop} {m : Mark α} (hm : m ∈ trace) (hreach : ∀ s, P (w.act s m))
    (hact : ∀ s m, P s → P (w.act s m)) : P (w.play s trace) := by
  obtain ⟨before, after, rfl⟩ := List.append_of_mem hm
  rw [play_append]
  exact play_invariant (s := w.act (w.play s before) m) hact (hreach _)

theorem children_left (h : .leave y ∈ trace) : w.children (w.play s trace) y = [] := by
  refine play_reached (P := fun s => w.children s y = []) h
    (fun s => w.children_leave_self s y) fun s m hs => ?_
  cases m with
  | enter x => rw [act, w.children_enter, hs]
  | leave x =>
    by_cases hxy : y = x
    · rw [hxy, act, w.children_leave_self]
    · rw [act, w.children_leave_ne _ _ _ hxy, hs]

theorem children_kept (h : .leave y ∉ trace) :
    w.children (w.play s trace) y = w.children s y := by
  refine play_kept (o := fun s => w.children s y) fun m hm s => ?_
  cases m with
  | enter x => exact w.children_enter s x y
  | leave x =>
    refine w.children_leave_ne s x y ?_
    rintro rfl
    exact h hm

theorem edge_of_play (h : w.edge (w.play s trace) x y) : w.edge s x y := by
  by_cases hleft : .leave x ∈ trace
  · rw [edge, children_left hleft] at h
    cases h
  · rwa [edge, children_kept hleft] at h

-- ---------------------------------------------------------------------------
-- Fuel
-- ---------------------------------------------------------------------------

theorem visit_succ_ok : w.visit err (fuel + 1) x s = .ok t ↔
    ∃ u, (w.children s x).foldlM (fun s y => w.visit err fuel y (w.enter s y)) s = .ok u ∧
      t = w.leave u x := by
  simp only [visit, bind_ok, pure_ok]

theorem visit_mono (h : w.visit err fuel x s = .ok t) (hle : fuel ≤ more) :
    w.visit err more x s = .ok t := by
  induction fuel generalizing x s t more with
  | zero => simp [visit] at h
  | succ fuel ih =>
    obtain ⟨more, rfl⟩ : ∃ m, more = m + 1 := ⟨more - 1, by omega⟩
    obtain ⟨u, hloop, rfl⟩ := visit_succ_ok.mp h
    refine visit_succ_ok.mpr ⟨u, ?_, rfl⟩
    exact foldlM_mono (fun _ _ _ hv => ih hv (by omega)) hloop

theorem visit_play (h : w.visit err fuel x s = .ok t) : ∃ trace, t = w.play s trace := by
  induction fuel generalizing x s t with
  | zero => simp [visit] at h
  | succ fuel ih =>
    obtain ⟨u, hloop, rfl⟩ := visit_succ_ok.mp h
    have hplay : ∃ trace, u = w.play s trace := by
      refine foldlM_invariant (I := fun _ u => ∃ trace, u = w.play s trace) ⟨[], rfl⟩ ?_ hloop
      rintro _ y _ v - ⟨before, rfl⟩ hv
      obtain ⟨below, rfl⟩ := ih hv
      exact ⟨before ++ .enter y :: below, by simp [play, act]⟩
    obtain ⟨trace, rfl⟩ := hplay
    exact ⟨trace ++ [.leave x], by simp [play, act]⟩

-- ---------------------------------------------------------------------------
-- What a walk visits
-- ---------------------------------------------------------------------------

/-- Below the nodes left so far everything has been entered and left, and all
paths end. -/
def Settled (w : Walk σ α) (s : σ) (trace : List (Mark α)) : Prop :=
  ∀ y, .leave y ∈ trace → Grounded (w.edge s) y ∧
    ∀ z, w.edge s y z → .enter z ∈ trace ∧ .leave z ∈ trace

theorem settled_nil : w.Settled s [] := fun _ h => nomatch h

theorem Settled.enter (h : w.Settled s trace) : w.Settled s (trace ++ [.enter x]) := by
  intro y hy
  obtain ⟨hground, hbelow⟩ := h y (by simpa using hy)
  exact ⟨hground, fun z hz => ⟨List.mem_append_left _ (hbelow z hz).1,
    List.mem_append_left _ (hbelow z hz).2⟩⟩

theorem Settled.leave (h : w.Settled s trace)
    (hbelow : ∀ z, w.edge s x z → .enter z ∈ trace ∧ .leave z ∈ trace) :
    w.Settled s (trace ++ [.leave x]) := by
  intro y hy
  have hsettled : Grounded (w.edge s) y ∧
      ∀ z, w.edge s y z → .enter z ∈ trace ∧ .leave z ∈ trace := by
    rcases List.mem_append.mp hy with hy | hy
    · exact h y hy
    · obtain ⟨rfl⟩ : y = x := by simpa using hy
      exact ⟨grounded_iff.mpr fun z hz => (h z (hbelow z hz).2).1, hbelow⟩
  exact ⟨hsettled.1, fun z hz => ⟨List.mem_append_left _ (hsettled.2 z hz).1,
    List.mem_append_left _ (hsettled.2 z hz).2⟩⟩

structure Adds (w : Walk σ α) (s : σ) (x : α) (trace more : List (Mark α)) : Prop where
  settled : w.Settled s (trace ++ more)
  entered : ∀ z, .enter z ∈ more → TransGen (w.edge s) x z
  left : ∀ z, .leave z ∈ more → ReflTransGen (w.edge s) x z

theorem Adds.child (h : Adds w s x trace more) (hxy : w.edge s x y)
    (hy : Adds w s y (trace ++ more ++ [.enter y]) below) :
    Adds w s x trace (more ++ .enter y :: below) where
  settled := by simpa using hy.settled
  entered z hz := by
    rcases List.mem_append.mp hz with hz | hz
    · exact h.entered z hz
    · rcases List.mem_cons.mp hz with hz | hz
      · obtain ⟨rfl⟩ := hz
        exact .single hxy
      · exact (hy.entered z hz).head hxy
  left z hz := by
    rcases List.mem_append.mp hz with hz | hz
    · exact h.left z hz
    · rcases List.mem_cons.mp hz with hz | hz
      · cases hz
      · exact (hy.left z hz).head hxy

theorem visit_adds (h : w.visit err fuel x (w.play s trace) = .ok t)
    (hsettled : w.Settled s trace) :
    ∃ more, t = w.play s (trace ++ more) ∧ Adds w s x trace more ∧ .leave x ∈ trace ++ more := by
  induction fuel generalizing x trace t with
  | zero => simp [visit] at h
  | succ fuel ih =>
    obtain ⟨u, hloop, rfl⟩ := visit_succ_ok.mp h
    have hloop := foldlM_invariant (I := fun done u => ∃ more, u = w.play s (trace ++ more) ∧
        Adds w s x trace more ∧ ∀ y ∈ done, .enter y ∈ trace ++ more ∧ .leave y ∈ trace ++ more)
      ⟨[], by simp, ⟨by simpa using hsettled, by simp, by simp⟩, by simp⟩ ?_ hloop
    · obtain ⟨more, rfl, hadds, hdone⟩ := hloop
      refine ⟨more ++ [.leave x], by simp [play, act], ⟨?_, ?_, ?_⟩, by simp⟩
      · rw [← List.append_assoc]
        refine hadds.settled.leave fun z hz => ?_
        by_cases hleft : .leave x ∈ trace
        · exact (hadds.settled x (List.mem_append_left _ hleft)).2 z hz
        · exact hdone z (by rwa [children_kept hleft])
      · intro z hz
        exact hadds.entered z (by simpa using hz)
      · intro z hz
        rcases List.mem_append.mp hz with hz | hz
        · exact hadds.left z hz
        · obtain ⟨rfl⟩ : z = x := by simpa using hz
          exact .refl
    · rintro done y _ v hy ⟨more, rfl, hadds, hdone⟩ hv
      have henter : w.enter (w.play s (trace ++ more)) y =
          w.play s (trace ++ more ++ [.enter y]) := by simp [play, act]
      rw [henter] at hv
      obtain ⟨below, rfl, hbelow, hleft⟩ := ih hv hadds.settled.enter
      refine ⟨more ++ .enter y :: below, by simp, hadds.child (edge_of_play hy) hbelow, fun z hz => ?_⟩
      rcases List.mem_append.mp hz with hz | hz
      · obtain ⟨henter, hleave⟩ := hdone z hz
        constructor
        · rw [← List.append_assoc]
          exact List.mem_append_left _ henter
        · rw [← List.append_assoc]
          exact List.mem_append_left _ hleave
      · obtain rfl := List.mem_singleton.mp hz
        exact ⟨by simp, by simpa using hleft⟩

/-- A walk that completes started where all paths end; it entered exactly the
nodes below its start, and left exactly these and the start. -/
theorem visit_trace (h : w.visit err fuel x s = .ok t) :
    Grounded (w.edge s) x ∧ ∃ trace, t = w.play s trace ∧
      (∀ z, .enter z ∈ trace ↔ TransGen (w.edge s) x z) ∧
      ∀ z, .leave z ∈ trace ↔ ReflTransGen (w.edge s) x z := by
  have hstart : w.visit err fuel x (w.play s []) = .ok t := h
  obtain ⟨trace, rfl, hadds, hleft⟩ := visit_adds hstart settled_nil
  have hall : ∀ z, ReflTransGen (w.edge s) x z → .leave z ∈ trace := by
    intro z hz
    induction hz with
    | refl => exact hleft
    | tail _ hyz ih => exact ((hadds.settled _ ih).2 _ hyz).2
  refine ⟨(hadds.settled x hleft).1, trace, rfl, fun z => ⟨hadds.entered z, fun hz => ?_⟩,
    fun z => ⟨hadds.left z, hall z⟩⟩
  obtain ⟨y, hxy, hyz⟩ := TransGen.tail'_iff.mp hz
  exact ((hadds.settled y (hall y hxy)).2 z hyz).1

theorem common_fuel {l : List α}
    (h : ∀ y ∈ l, ∃ fuel, ∀ trace, ∃ t, w.visit err fuel y (w.play s trace) = .ok t) :
    ∃ fuel, ∀ y ∈ l, ∀ trace, ∃ t, w.visit err fuel y (w.play s trace) = .ok t := by
  induction l with
  | nil => exact ⟨0, by simp⟩
  | cons y l ih =>
    obtain ⟨first, hfirst⟩ := h y List.mem_cons_self
    obtain ⟨rest, hrest⟩ := ih fun z hz => h z (List.mem_cons_of_mem _ hz)
    refine ⟨max first rest, fun z hz trace => ?_⟩
    rcases List.mem_cons.mp hz with rfl | hz
    · obtain ⟨t, ht⟩ := hfirst trace
      exact ⟨t, visit_mono ht (le_max_left _ _)⟩
    · obtain ⟨t, ht⟩ := hrest z hz trace
      exact ⟨t, visit_mono ht (le_max_right _ _)⟩

/-- Where all paths end, some fuel is enough, also in the middle of another
walk. -/
theorem visit_completes (h : Grounded (w.edge s) x) :
    ∃ fuel, ∀ trace, ∃ t, w.visit err fuel x (w.play s trace) = .ok t := by
  induction h with
  | intro x _ ih =>
    obtain ⟨fuel, hfuel⟩ := common_fuel ih
    refine ⟨fuel + 1, fun trace => ?_⟩
    have hloop : ∃ u, (w.children (w.play s trace) x).foldlM
        (fun s y => w.visit err fuel y (w.enter s y)) (w.play s trace) = .ok u := by
      refine foldlM_total (I := fun u => ∃ trace, u = w.play s trace) ⟨trace, rfl⟩ ?_
      rintro y _ hy ⟨before, rfl⟩
      have henter : w.enter (w.play s before) y = w.play s (before ++ [.enter y]) := by
        simp [play, act]
      obtain ⟨t, ht⟩ := hfuel y (edge_of_play hy) (before ++ [.enter y])
      rw [← henter] at ht
      obtain ⟨after, rfl⟩ := visit_play ht
      exact ⟨_, ht, before ++ .enter y :: after, by simp [play, act]⟩
    obtain ⟨u, hu⟩ := hloop
    exact ⟨_, visit_succ_ok.mpr ⟨u, hu, rfl⟩⟩

end Walk

end ZkPayroll.Host
