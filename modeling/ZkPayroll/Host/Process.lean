import ZkPayroll.Host.Runs

/-!
# Processes over a shared state

A process prints lines and takes steps on a state that other processes share.
A step acts on the state and reads what it was before, or it fails, and then
the state stays and the process goes on with the error. A line that cannot be
printed ends the process. A pool runs any number of processes in any
interleaving; one that is never advanced again has been killed.

A process is `Sound` when, whatever the others do within a relation `R`, its
own steps stay within a relation `G` and what it has written, printed and read
so far meets an invariant. Soundness is shown for each process alone and holds
of all of them in every pool (`pool_kept`).
-/

namespace ZkPayroll.Host

inductive Proc (σ ω ε α : Type)
  | done (r : Except ε α)
  | print (line : ω) (rest : Proc σ ω ε α)
  | step (act : σ → σ) (next : Except ε σ → Proc σ ω ε α)

namespace Proc

variable {σ ω ε α β : Type}

def bind : Proc σ ω ε α → (α → Proc σ ω ε β) → Proc σ ω ε β
  | .done (.ok a), f => f a
  | .done (.error err), _ => .done (.error err)
  | .print line rest, f => .print line (rest.bind f)
  | .step act next, f => .step act fun r => (next r).bind f

instance : Monad (Proc σ ω ε) where
  pure a := .done (.ok a)
  bind := bind

def adapt (g : ε → ε) : Proc σ ω ε α → Proc σ ω ε α
  | .done r => .done (r.mapError g)
  | .print line rest => .print line (rest.adapt g)
  | .step act next => .step act fun r => (next r).adapt g

def say (line : ω) : Proc σ ω ε Unit := .print line (.done (.ok ()))

def sayAll : List ω → Proc σ ω ε Unit
  | [] => .done (.ok ())
  | line :: rest => .print line (sayAll rest)

def ask (act : σ → σ) : Proc σ ω ε σ := .step act .done

end Proc

-- ---------------------------------------------------------------------------
-- Pools
-- ---------------------------------------------------------------------------

structure Change (σ : Type) where
  before : σ
  after : σ

structure Write (σ : Type) extends Change σ where
  job : Nat

structure Job (σ ω ε ι : Type) where
  input : ι
  /-- The state the process was launched in. -/
  start : σ
  prog : Proc σ ω ε Unit
  out : List ω

structure Pool (σ ω ε ι : Type) where
  state : σ
  jobs : List (Job σ ω ε ι)
  writes : List (Write σ)

inductive Move (ε ι : Type)
  | launch (input : ι)
  /-- The next step or line of a job, which fails with the error if there is one. -/
  | advance (job : Nat) (fault : Option ε)

namespace Pool

variable {σ ω ε ι : Type}

def idle (s : σ) : Pool σ ω ε ι := ⟨s, [], []⟩

/-- What a job has done to the state. -/
def own (pool : Pool σ ω ε ι) (j : Nat) : List (Change σ) :=
  (pool.writes.filter (·.job = j)).map Write.toChange

def advance (pool : Pool σ ω ε ι) (j : Nat) (job : Job σ ω ε ι) (fault : Option ε) :
    Pool σ ω ε ι :=
  match job.prog with
  | .done _ => pool
  | .print line rest =>
    match fault with
    | some err => { pool with jobs := pool.jobs.set j { job with prog := .done (.error err) } }
    | none =>
      { pool with jobs := pool.jobs.set j { job with prog := rest, out := job.out ++ [line] } }
  | .step act next =>
    match fault with
    | some err => { pool with jobs := pool.jobs.set j { job with prog := next (.error err) } }
    | none =>
      { state := act pool.state
        jobs := pool.jobs.set j { job with prog := next (.ok pool.state) }
        writes := pool.writes ++ [⟨⟨pool.state, act pool.state⟩, j⟩] }

def move (main : ι → Proc σ ω ε Unit) (pool : Pool σ ω ε ι) : Move ε ι → Pool σ ω ε ι
  | .launch input =>
    { pool with jobs := pool.jobs ++ [⟨input, pool.state, main input, []⟩] }
  | .advance j fault =>
    match pool.jobs[j]? with
    | some job => pool.advance j job fault
    | none => pool

end Pool

-- ---------------------------------------------------------------------------
-- Soundness of one process
-- ---------------------------------------------------------------------------

section
variable {σ ω ε α β : Type} (R G : σ → σ → Prop) (I : List (Change σ) → List ω → σ → Prop)

/-- Nothing the process does from here on breaks `G` or `I`, and it ends in
`post`, if the others stay within `R`. -/
def Sound (post : Except ε α → List (Change σ) → List ω → σ → Prop) :
    Proc σ ω ε α → List (Change σ) → List ω → σ → Prop
  | .done r, own, out, s => ∀ s', R s s' → I own out s' ∧ post r own out s'
  | .print line rest, own, out, s => ∀ s', R s s' →
    I own out s' ∧ (∀ err, post (.error err) own out s') ∧ Sound post rest own (out ++ [line]) s'
  | .step act next, own, out, s => ∀ s', R s s' →
    I own out s' ∧ G s' (act s') ∧
      Sound post (next (.ok s')) (own ++ [⟨s', act s'⟩]) out (act s') ∧
      ∀ err, Sound post (next (.error err)) own out s'

variable {R G I} {post : Except ε α → List (Change σ) → List ω → σ → Prop}
  {post' : Except ε β → List (Change σ) → List ω → σ → Prop}
  {p : Proc σ ω ε α} {own : List (Change σ)} {out : List ω} {s s' : σ}

theorem Sound.later [IsTrans σ R] (h : Sound R G I post p own out s) (hs : R s s') :
    Sound R G I post p own out s' := by
  cases p <;> exact fun s'' hs' => h s'' (trans_of R hs hs')

theorem Sound.invariant [Std.Refl R] (h : Sound R G I post p own out s) : I own out s := by
  cases p <;> exact (h s (refl_of R s)).1

theorem Sound.mono {G' : σ → σ → Prop} {I' : List (Change σ) → List ω → σ → Prop}
    {post' : Except ε α → List (Change σ) → List ω → σ → Prop}
    (h : Sound R G I post p own out s) (hG : ∀ a b, G a b → G' a b)
    (hI : ∀ own out s, I own out s → I' own out s)
    (hpost : ∀ r own out s, post r own out s → post' r own out s) :
    Sound R G' I' post' p own out s := by
  induction p generalizing own out s with
  | done r => exact fun s' hs => ⟨hI _ _ _ (h s' hs).1, hpost _ _ _ _ (h s' hs).2⟩
  | print line rest ih =>
    intro s' hs
    obtain ⟨hholds, hfail, hrest⟩ := h s' hs
    exact ⟨hI _ _ _ hholds, fun err => hpost _ _ _ _ (hfail err), ih hrest⟩
  | step act next ih =>
    intro s' hs
    obtain ⟨hholds, hstep, hok, herr⟩ := h s' hs
    exact ⟨hI _ _ _ hholds, hG _ _ hstep, ih _ hok, fun err => ih _ (herr err)⟩

theorem sound_bind [Std.Refl R] {f : α → Proc σ ω ε β}
    (h : Sound R G I (fun r own out s => match r with
      | .ok a => Sound R G I post' (f a) own out s
      | .error err => post' (.error err) own out s) p own out s) :
    Sound R G I post' (p >>= f) own out s := by
  induction p generalizing own out s with
  | done r =>
    cases r with
    | ok a => exact (h s (refl_of R s)).2
    | error err => exact fun s' hs => h s' hs
  | print line rest ih =>
    intro s' hs
    obtain ⟨hI, hfail, hrest⟩ := h s' hs
    exact ⟨hI, hfail, ih hrest⟩
  | step act next ih =>
    intro s' hs
    obtain ⟨hI, hG, hok, herr⟩ := h s' hs
    exact ⟨hI, hG, ih _ hok, fun err => ih _ (herr err)⟩

theorem sound_adapt {g : ε → ε}
    (h : Sound R G I (fun r own out s => match r with
      | .ok a => post (.ok a) own out s
      | .error err => post (.error (g err)) own out s ∧ post (.error err) own out s) p own out s) :
    Sound R G I post (p.adapt g) own out s := by
  induction p generalizing own out s with
  | done r =>
    intro s' hs
    obtain ⟨hI, hpost⟩ := h s' hs
    cases r with
    | ok a => exact ⟨hI, hpost⟩
    | error err => exact ⟨hI, hpost.1⟩
  | print line rest ih =>
    intro s' hs
    obtain ⟨hI, hfail, hrest⟩ := h s' hs
    exact ⟨hI, fun err => (hfail err).2, ih hrest⟩
  | step act next ih =>
    intro s' hs
    obtain ⟨hI, hG, hok, herr⟩ := h s' hs
    exact ⟨hI, hG, ih _ hok, fun err => ih _ (herr err)⟩

theorem sound_sayAll [IsTrans σ R] {post : Except ε Unit → List (Change σ) → List ω → σ → Prop}
    (lines : List ω) (hI : ∀ said s', said <+: lines → R s s' → I own (out ++ said) s')
    (hfail : ∀ said s' err, said <+: lines → said ≠ lines → R s s' →
      post (.error err) own (out ++ said) s')
    (hok : ∀ s', R s s' → post (.ok ()) own (out ++ lines) s') :
    Sound R G I post (.sayAll lines) own out s := by
  induction lines generalizing out s with
  | nil =>
    simp only [List.append_nil] at hok
    exact fun s' hs => ⟨by simpa using hI [] s' List.nil_prefix hs, hok s' hs⟩
  | cons line rest ih =>
    intro s' hs
    refine ⟨by simpa using hI [] s' List.nil_prefix hs, fun err => ?_, ih ?_ ?_ ?_⟩
    · simpa using hfail [] s' err List.nil_prefix (by simp) hs
    · intro said s'' hsaid hs'
      rw [List.append_assoc]
      exact hI (line :: said) s'' ((List.prefix_cons_inj line).mpr hsaid) (trans_of R hs hs')
    · intro said s'' err hsaid hne hs'
      rw [List.append_assoc]
      exact hfail (line :: said) s'' err ((List.prefix_cons_inj line).mpr hsaid)
        (by simpa using hne) (trans_of R hs hs')
    · intro s'' hs'
      rw [List.append_assoc]
      exact hok s'' (trans_of R hs hs')

end

-- ---------------------------------------------------------------------------
-- Bounded processes
-- ---------------------------------------------------------------------------

section
variable {σ ω ε α β : Type} (Q : σ → σ → Prop) (L : ω → Prop) (E : ε → Prop)

/-- Every step is within `Q`, whatever it finds, every line within `L` and every
error within `E`. -/
def Within : Proc σ ω ε α → Prop
  | .done (.ok _) => True
  | .done (.error err) => E err
  | .print line rest => L line ∧ (∀ err, E err) ∧ Within rest
  | .step act next => (∀ s, Q s (act s)) ∧ ∀ r, Within (next r)

variable {Q L E} {p : Proc σ ω ε α}

theorem within_ask {act : σ → σ} (h : ∀ s, Q s (act s)) (hE : ∀ err, E err) :
    Within Q L E (.ask act : Proc σ ω ε σ) := by
  refine ⟨h, fun r => ?_⟩
  cases r with
  | ok s => trivial
  | error err => exact hE err

theorem within_say {line : ω} (h : L line) (hE : ∀ err, E err) :
    Within Q L E (.say line : Proc σ ω ε Unit) := ⟨h, hE, trivial⟩

theorem Within.bind {f : α → Proc σ ω ε β} (hp : Within Q L E p) (hf : ∀ a, Within Q L E (f a)) :
    Within Q L E (p >>= f) := by
  induction p with
  | done r =>
    cases r with
    | ok a => exact hf a
    | error err => exact hp
  | print line rest ih => exact ⟨hp.1, hp.2.1, ih hp.2.2⟩
  | step act next ih => exact ⟨hp.1, fun r => ih r (hp.2 r)⟩

theorem Within.adapt {g : ε → ε} (hp : Within Q L E p) (hg : ∀ err, E err → E (g err)) :
    Within Q L E (p.adapt g) := by
  induction p with
  | done r =>
    cases r with
    | ok a => trivial
    | error err => exact hg err hp
  | print line rest ih => exact ⟨hp.1, hp.2.1, ih hp.2.2⟩
  | step act next ih => exact ⟨hp.1, fun r => ih r (hp.2 r)⟩

/-- An invariant `J`, stronger than `I`, that bounded processes keep. -/
structure Carries (R Q : σ → σ → Prop) (L : ω → Prop)
    (I J : List (Change σ) → List ω → σ → Prop) : Prop where
  other : ∀ own out s s', R s s' → J own out s → J own out s'
  step : ∀ own out s s', Q s s' → J own out s → J (own ++ [⟨s, s'⟩]) out s'
  say : ∀ own out line s, L line → J own out s → J own (out ++ [line]) s
  holds : ∀ own out s, J own out s → I own out s

theorem Within.sound {R G : σ → σ → Prop} {I J : List (Change σ) → List ω → σ → Prop}
    {post : Except ε α → List (Change σ) → List ω → σ → Prop} {own : List (Change σ)}
    {out : List ω} (hp : Within Q L E p) (hQ : ∀ a b, Q a b → G a b) (hJ : Carries R Q L I J)
    (hok : ∀ a own out s, J own out s → post (.ok a) own out s)
    (hfail : ∀ err own out s, E err → J own out s → post (.error err) own out s)
    (h : J own out s) : Sound R G I post p own out s := by
  induction p generalizing own out s with
  | done r =>
    intro s' hs
    have h' := hJ.other _ _ _ _ hs h
    cases r with
    | ok a => exact ⟨hJ.holds _ _ _ h', hok _ _ _ _ h'⟩
    | error err => exact ⟨hJ.holds _ _ _ h', hfail _ _ _ _ hp h'⟩
  | print line rest ih =>
    intro s' hs
    have h' := hJ.other _ _ _ _ hs h
    obtain ⟨hline, hE, hrest⟩ := hp
    exact ⟨hJ.holds _ _ _ h', fun err => hfail err _ _ _ (hE err) h',
      ih hrest (hJ.say _ _ _ _ hline h')⟩
  | step act next ih =>
    intro s' hs
    have h' := hJ.other _ _ _ _ hs h
    have hstep := hp.1 s'
    exact ⟨hJ.holds _ _ _ h', hQ _ _ hstep, ih _ (hp.2 _) (hJ.step _ _ _ _ hstep h'),
      fun err => ih _ (hp.2 _) h'⟩

theorem Within.sound_bind {R G : σ → σ → Prop} [Std.Refl R]
    {I J : List (Change σ) → List ω → σ → Prop} {f : α → Proc σ ω ε β}
    {post : Except ε β → List (Change σ) → List ω → σ → Prop} {own : List (Change σ)}
    {out : List ω} (hp : Within Q L E p) (hQ : ∀ a b, Q a b → G a b) (hJ : Carries R Q L I J)
    (hf : ∀ a own out s, J own out s → Sound R G I post (f a) own out s)
    (hfail : ∀ err own out s, E err → J own out s → post (.error err) own out s)
    (h : J own out s) : Sound R G I post (p >>= f) own out s :=
  Host.sound_bind (hp.sound hQ hJ hf hfail h)

end

-- ---------------------------------------------------------------------------
-- Soundness of a pool
-- ---------------------------------------------------------------------------

section
variable {σ ω ε ι : Type}

namespace Pool

variable {pool : Pool σ ω ε ι}

theorem own_write (w : Write σ) (jobs : List (Job σ ω ε ι)) (s : σ) :
    own ⟨s, jobs, pool.writes ++ [w]⟩ j =
      if w.job = j then pool.own j ++ [w.toChange] else pool.own j := by
  simp only [own, List.filter_append, List.map_append, List.filter_cons, List.filter_nil]
  by_cases hj : w.job = j <;> simp [hj]

theorem mem_own {c : Change σ} :
    c ∈ pool.own j ↔ ∃ w ∈ pool.writes, w.job = j ∧ w.toChange = c := by
  simp [own, and_assoc]

end Pool

variable (start : σ) (R : σ → σ → Prop) (G : ι → σ → σ → Prop)
  (I : ι → σ → List (Change σ) → List ω → σ → Prop)
  (post : ι → σ → Except ε Unit → List (Change σ) → List ω → σ → Prop)

/-- Every job is sound from here on, and the writes so far were within bounds,
one after the other. -/
structure Kept (pool : Pool σ ω ε ι) : Prop where
  began : R start pool.state
  jobs : ∀ j job, pool.jobs[j]? = some job → R job.start pool.state ∧
    Sound R (G job.input) (I job.input job.start) (post job.input job.start) job.prog (pool.own j)
      job.out pool.state
  writes : ∀ w ∈ pool.writes, R start w.before ∧ R w.after pool.state ∧
    ∃ job, pool.jobs[w.job]? = some job ∧ G job.input w.before w.after
  ordered : pool.writes.Pairwise fun w w' => R w.after w'.before

variable {start} {R G I post} {pool : Pool σ ω ε ι} {job : Job σ ω ε ι} {prog : Proc σ ω ε Unit}
  {out : List ω} {s' : σ}

theorem input_set {jobs : List (Job σ ω ε ι)} {author : Job σ ω ε ι} {i j : Nat}
    (hjob : jobs[j]? = some job) (hauthor : jobs[i]? = some author) :
    ∃ author' : Job σ ω ε ι,
      (jobs.set j { job with prog := prog, out := out })[i]? = some author' ∧
        author'.input = author.input := by
  have hlt : j < jobs.length := (List.getElem?_eq_some_iff.mp hjob).1
  by_cases hi : j = i
  · subst hi
    obtain rfl := Option.some.inj (hjob.symm.trans hauthor)
    exact ⟨_, List.getElem?_set_self hlt, rfl⟩
  · exact ⟨author, by rw [List.getElem?_set_ne hi]; exact hauthor, rfl⟩

theorem Kept.set (h : Kept start R G I post pool) (hjob : pool.jobs[j]? = some job)
    (hsound : Sound R (G job.input) (I job.input job.start) (post job.input job.start) prog
      (pool.own j) out pool.state) :
    Kept start R G I post
      { pool with jobs := pool.jobs.set j { job with prog := prog, out := out } } := by
  have hlt : j < pool.jobs.length := (List.getElem?_eq_some_iff.mp hjob).1
  refine ⟨h.began, fun i other hother => ?_, fun w hw => ?_, h.ordered⟩
  · by_cases hi : j = i
    · subst hi
      rw [List.getElem?_set_self hlt] at hother
      obtain rfl := Option.some.inj hother
      exact ⟨(h.jobs j job hjob).1, hsound⟩
    · rw [List.getElem?_set_ne hi] at hother
      exact h.jobs i other hother
  · obtain ⟨hsince, hlater, author, hauthor, hG⟩ := h.writes w hw
    obtain ⟨author', hauthor', hinput⟩ := input_set hjob hauthor
    exact ⟨hsince, hlater, author', hauthor', hinput ▸ hG⟩

theorem Kept.write [IsPreorder σ R] (hG : ∀ i a b, G i a b → R a b)
    (h : Kept start R G I post pool) (hjob : pool.jobs[j]? = some job)
    (hstep : G job.input pool.state s')
    (hsound : Sound R (G job.input) (I job.input job.start) (post job.input job.start) prog
      (pool.own j ++ [⟨pool.state, s'⟩]) job.out s') :
    Kept start R G I post
      { state := s'
        jobs := pool.jobs.set j { job with prog := prog }
        writes := pool.writes ++ [⟨⟨pool.state, s'⟩, j⟩] } := by
  have hlt : j < pool.jobs.length := (List.getElem?_eq_some_iff.mp hjob).1
  have hstate : R pool.state s' := hG _ _ _ hstep
  refine ⟨trans_of R h.began hstate, fun i other hother => ?_, fun w hw => ?_, ?_⟩
  · simp only [Pool.own_write]
    by_cases hi : j = i
    · subst hi
      rw [List.getElem?_set_self hlt] at hother
      obtain rfl := Option.some.inj hother
      rw [if_pos rfl]
      exact ⟨trans_of R (h.jobs j job hjob).1 hstate, hsound⟩
    · rw [List.getElem?_set_ne hi] at hother
      rw [if_neg hi]
      obtain ⟨hstart, hother⟩ := h.jobs i other hother
      exact ⟨trans_of R hstart hstate, hother.later hstate⟩
  · rcases List.mem_append.mp hw with hw | hw
    · obtain ⟨hsince, hlater, author, hauthor, hwrite⟩ := h.writes w hw
      obtain ⟨author', hjobs', hinput⟩ := input_set hjob hauthor
      exact ⟨hsince, trans_of R hlater hstate, author', hjobs', hinput ▸ hwrite⟩
    · obtain rfl := List.mem_singleton.mp hw
      obtain ⟨author', hjobs', hinput⟩ := input_set hjob hjob
      exact ⟨h.began, refl_of R s', author', hjobs', hinput ▸ hstep⟩
  · refine List.pairwise_append.mpr ⟨h.ordered, List.pairwise_singleton _ _, ?_⟩
    intro w hw w' hw'
    obtain rfl := List.mem_singleton.mp hw'
    exact (h.writes w hw).2.1

theorem Kept.advance [IsPreorder σ R] (hG : ∀ i a b, G i a b → R a b)
    (h : Kept start R G I post pool) (hjob : pool.jobs[j]? = some job) (fault : Option ε) :
    Kept start R G I post (pool.advance j job fault) := by
  have hsound := (h.jobs j job hjob).2
  unfold Pool.advance
  cases hprog : job.prog with
  | done r => exact h
  | print line rest =>
    rw [hprog] at hsound
    cases fault with
    | some err =>
      refine h.set hjob fun s' hs => ?_
      obtain ⟨hI, hfail, -⟩ := hsound s' hs
      exact ⟨hI, hfail err⟩
    | none => exact h.set hjob (hsound _ (refl_of R _)).2.2
  | step act next =>
    rw [hprog] at hsound
    obtain ⟨-, hstep, hok, herr⟩ := hsound _ (refl_of R _)
    cases fault with
    | some err => exact h.set hjob (herr err)
    | none => exact h.write hG hjob hstep hok

theorem Kept.launch [IsPreorder σ R] (h : Kept start R G I post pool) (input : ι)
    (hmain : Sound R (G input) (I input pool.state) (post input pool.state) prog [] []
      pool.state) :
    Kept start R G I post { pool with jobs := pool.jobs ++ [⟨input, pool.state, prog, []⟩] } := by
  have hold : ∀ w ∈ pool.writes, w.job < pool.jobs.length := by
    intro w hw
    obtain ⟨-, -, author, hauthor, -⟩ := h.writes w hw
    exact (List.getElem?_eq_some_iff.mp hauthor).1
  refine ⟨h.began, fun j job hjob => ?_, fun w hw => ?_, h.ordered⟩
  · rw [getElem?_snoc] at hjob
    split at hjob
    · rename_i hj
      obtain rfl := Option.some.inj hjob
      have hnone : pool.own j = [] := by
        simp only [Pool.own, List.map_eq_nil_iff, List.filter_eq_nil_iff]
        intro w hw hwj
        have hlt := hold w hw
        simp only [decide_eq_true_eq] at hwj
        omega
      refine ⟨refl_of R _, ?_⟩
      simp only [Pool.own] at hnone ⊢
      rw [hnone]
      exact hmain
    · exact h.jobs j job hjob
  · obtain ⟨hsince, hlater, author, hauthor, hwrite⟩ := h.writes w hw
    have hlt := hold w hw
    refine ⟨hsince, hlater, author, ?_, hwrite⟩
    rw [getElem?_snoc, if_neg (by omega)]
    exact hauthor

variable {main : ι → Proc σ ω ε Unit}

/-- Sound processes are sound together, however they are interleaved. -/
theorem pool_kept [IsPreorder σ R] (hG : ∀ i a b, G i a b → R a b)
    (hmain : ∀ input s, Sound R (G input) (I input s) (post input s) (main input) [] [] s)
    (h : Reachable (Pool.move main) (Pool.idle start) pool) : Kept start R G I post pool := by
  refine run_invariant ?_ (fun pool mv hpool => ?_) h
  · exact ⟨refl_of R start, fun _ _ hjob => by simp [Pool.idle] at hjob,
      fun _ hw => by simp [Pool.idle] at hw, List.Pairwise.nil⟩
  · cases mv with
    | launch input => exact hpool.launch input (hmain input pool.state)
    | advance j fault =>
      simp only [Pool.move]
      split
      · rename_i job hjob
        exact hpool.advance hG hjob fault
      · exact hpool

theorem Pool.appeared (P : σ → Prop) (h : Reachable (Pool.move main) (Pool.idle start) pool)
    (hend : P pool.state) : P start ∨ ∃ w ∈ pool.writes, ¬ P w.before ∧ P w.after := by
  refine run_invariant (I := fun pool => P pool.state → P start ∨
    ∃ w ∈ pool.writes, ¬ P w.before ∧ P w.after) ?_ ?_ h hend
  · exact .inl
  · intro pool mv ih
    unfold Pool.move
    split
    · exact ih
    · split
      · rename_i job _
        unfold Pool.advance
        split
        · exact ih
        · split <;> exact ih
        · split
          · exact ih
          · intro hend
            by_cases hbefore : P pool.state
            · rcases ih hbefore with hstart | ⟨w, hw, hP⟩
              · exact .inl hstart
              · exact .inr ⟨w, List.mem_append_left _ hw, hP⟩
            · exact .inr ⟨_, List.mem_append_right _ (List.mem_singleton_self _), hbefore, hend⟩
      · exact ih

theorem Kept.write_once (h : Kept start R G I post pool) (P : σ → Prop)
    (hP : ∀ a b, R a b → P a → P b) (hw : w ∈ pool.writes) (hw' : w' ∈ pool.writes)
    (hbefore : ¬ P w.before) (hafter : P w.after) (hbefore' : ¬ P w'.before)
    (hafter' : P w'.after) : w = w' := by
  obtain ⟨m, hm, rfl⟩ := List.getElem_of_mem hw
  obtain ⟨n, hn, rfl⟩ := List.getElem_of_mem hw'
  have hordered := List.pairwise_iff_getElem.mp h.ordered
  rcases Nat.lt_trichotomy m n with hlt | rfl | hlt
  · exact absurd (hP _ _ (hordered m n hm hn hlt) hafter) hbefore'
  · rfl
  · exact absurd (hP _ _ (hordered n m hn hm hlt) hafter') hbefore

end

end ZkPayroll.Host
