import ZkPayroll.Host.Numerals
import ZkPayroll.Payroll.RunRecords

/-!
# The order of run nonces

A run's nonce is a 256-bit number, and each one an employer uses is documented
to be above the last. The comparison looks at the first 16 bytes only. What it
accepts is above the last nonce all the same; what it turns down without need
are the nonces that are above the last one in the other 16 bytes alone.
-/

namespace ZkPayroll.Payroll

open Host

def nonceValue (nonce : BytesN 32) : Nat := bytesValue nonce.toList

/-- The nonce is above the last one of this employer, if there is one, as a
256-bit number. -/
def AboveLast (s : Storage) (employer : Address) (nonce : BytesN 32) : Prop :=
  ∀ sequenceState, s.get (.employerNonceSequence employer) = some sequenceState →
    nonceValue sequenceState.lastNonce < nonceValue nonce

/-- The first 16 bytes are those of the last nonce of this employer, and the
others are above those of it. -/
def AboveInLowHalfOnly (s : Storage) (employer : Address) (nonce : BytesN 32) : Prop :=
  ∃ sequenceState, s.get (.employerNonceSequence employer) = some sequenceState ∧
    nonce.toList.take 16 = sequenceState.lastNonce.toList.take 16 ∧
    bytesValue (sequenceState.lastNonce.toList.drop 16) < bytesValue (nonce.toList.drop 16)

def acceptedNonce (admin : Address) (st : Step World Input) : Option (BytesN 32) :=
  (creation st).bind fun (_, b) =>
    if (st.pre.payroll.get .addresses).map (·.admin) = some admin then some b.nonce else none

def acceptedNonces (admin : Address) (hist : List (Step World Input)) : List (BytesN 32) :=
  hist.filterMap (acceptedNonce admin)

section
variable {s : Storage} {w : World} {i : Input} {hist : List (Step World Input)}
  {nonce last : BytesN 32} {employer admin : Address}

-- ---------------------------------------------------------------------------
-- The two halves
-- ---------------------------------------------------------------------------

theorem nonceToU256_eq (nonce : BytesN 32) :
    nonceToU256 nonce = bytesValue (nonce.toList.take 16) := by
  rw [bytesValue, ← foldl_eq_number, List.foldl_map]
  rfl

theorem nonceValue_eq (nonce : BytesN 32) :
    nonceValue nonce = nonceToU256 nonce * 256 ^ 16 + bytesValue (nonce.toList.drop 16) := by
  have happend := bytesValue_append (nonce.toList.take 16) (nonce.toList.drop 16)
  rw [List.take_append_drop] at happend
  rw [nonceValue, nonceToU256_eq, happend]
  simp

theorem lowHalf_lt (nonce : BytesN 32) : bytesValue (nonce.toList.drop 16) < 256 ^ 16 := by
  simpa using bytesValue_lt (nonce.toList.drop 16)

theorem highHalf_inj (last nonce : BytesN 32) : nonceToU256 last = nonceToU256 nonce ↔
    nonce.toList.take 16 = last.toList.take 16 := by
  rw [nonceToU256_eq, nonceToU256_eq]
  constructor
  · exact fun h => (bytesValue_inj (by simp) h).symm
  · exact fun h => by rw [h]

theorem nonceValue_lt_iff (last nonce : BytesN 32) : nonceValue last < nonceValue nonce ↔
    nonceToU256 last < nonceToU256 nonce ∨ (nonce.toList.take 16 = last.toList.take 16 ∧
      bytesValue (last.toList.drop 16) < bytesValue (nonce.toList.drop 16)) := by
  have hlast := lowHalf_lt last
  have hnonce := lowHalf_lt nonce
  rw [nonceValue_eq, nonceValue_eq, ← highHalf_inj]
  omega

theorem nonceAccepted_iff : NonceAccepted s employer nonce ↔
    ∀ sequenceState, s.get (.employerNonceSequence employer) = some sequenceState →
      nonceToU256 sequenceState.lastNonce < nonceToU256 nonce := by
  refine forall₂_congr fun sequenceState _ => and_iff_right_of_imp ?_
  rintro hlt rfl
  exact Nat.lt_irrefl _ hlt

theorem NonceAccepted.above (h : NonceAccepted s employer nonce) : AboveLast s employer nonce :=
  fun sequenceState hstored => (nonceValue_lt_iff _ _).mpr (.inl (h sequenceState hstored).2)

/-- A nonce above the last one is turned down exactly when it is so in its low
half only. -/
theorem AboveLast.accepted_iff (h : AboveLast s employer nonce) :
    NonceAccepted s employer nonce ↔ ¬ AboveInLowHalfOnly s employer nonce := by
  rw [nonceAccepted_iff]
  constructor
  · rintro haccepted ⟨sequenceState, hstored, hhigh, -⟩
    have hlt := haccepted sequenceState hstored
    rw [(highHalf_inj _ _).mpr hhigh] at hlt
    exact Nat.lt_irrefl _ hlt
  · intro hnot sequenceState hstored
    rcases (nonceValue_lt_iff _ _).mp (h sequenceState hstored) with hlt | ⟨hhigh, hlow⟩
    · exact hlt
    · exact absurd ⟨sequenceState, hstored, hhigh, hlow⟩ hnot

theorem AboveInLowHalfOnly.above (h : AboveInLowHalfOnly s employer nonce) :
    AboveLast s employer nonce := by
  obtain ⟨last, hlast, hhigh, hlow⟩ := h
  intro sequenceState hstored
  obtain rfl := Store.get_inj hlast hstored
  exact (nonceValue_lt_iff _ _).mpr (.inr ⟨hhigh, hlow⟩)

/-- The check agrees with the 256-bit order on all other nonces, and on these
it does not. -/
theorem validateNonceMonotonicity_agrees_iff (s : Storage) (employer : Address)
    (nonce : BytesN 32) :
    (validateNonceMonotonicity s employer nonce = .ok () ↔ AboveLast s employer nonce) ↔
      ¬ AboveInLowHalfOnly s employer nonce := by
  rw [validateNonceMonotonicity_ok]
  constructor
  · exact fun hiff hlow => hlow.above.accepted_iff.mp (hiff.mpr hlow.above) hlow
  · exact fun hnot => ⟨NonceAccepted.above, fun habove => habove.accepted_iff.mpr hnot⟩

-- ---------------------------------------------------------------------------
-- Nonces along a run
-- ---------------------------------------------------------------------------

def lastNonce (s : Storage) (employer : Address) : Option (BytesN 32) :=
  (s.get (.employerNonceSequence employer)).map (·.lastNonce)

theorem aboveLast_iff : AboveLast s employer nonce ↔
    ∀ last ∈ lastNonce s employer, nonceValue last < nonceValue nonce := by
  unfold AboveLast lastNonce
  cases s.get (.employerNonceSequence employer) <;> simp

theorem lastNonce_claimRunId (employer : Address) :
    lastNonce (claimRunId e admin nonce s) employer =
      if employer = admin then some nonce else lastNonce s employer := by
  by_cases h : employer = admin
  · subst h
    simp [lastNonce, claimRunId]
  · simp [lastNonce, claimRunId, h]

theorem lastNonce_prepared (employer : Address) :
    lastNonce (prepared e addrs b s) employer =
      if employer = addrs.admin then some b.nonce else lastNonce s employer := by
  rw [← lastNonce_claimRunId (e := e)]
  simp [lastNonce, prepared]

theorem lastNonce_executed (employer : Address) :
    lastNonce (executed e addrs b s) employer =
      if employer = addrs.admin then some b.nonce else lastNonce s employer := by
  rw [← lastNonce_claimRunId (e := e)]
  simp [lastNonce, executed]

/-- Everything a step can do to the nonce sequences. -/
theorem next_nonce (w : World) (i : Input) :
    (∃ runId b addrs, creation ⟨w, i, next w i⟩ = some (runId, b) ∧
      w.payroll.get .addresses = some addrs ∧ NonceAccepted w.payroll addrs.admin b.nonce ∧
      ∀ employer, lastNonce (next w i).payroll employer =
        if employer = addrs.admin then some b.nonce else lastNonce w.payroll employer) ∨
    creation ⟨w, i, next w i⟩ = none ∧
      ∀ employer, lastNonce (next w i).payroll employer = lastNonce w.payroll employer := by
  rcases next_payroll w i with ⟨call, ret, ⟨-, hok⟩, hperformed⟩ | ⟨hsame, -, hperformed⟩
  · have hcreation : creation ⟨w, i, next w i⟩ = call.creates ret := by
      simp [creation, hperformed]
    rw [hcreation]
    cases call with
    | preparePayrollRun b =>
      obtain ⟨runId, _, hf, rfl, hw⟩ := onStorageRet_ok.mp hok
      obtain ⟨-, -, -, -, -, -, addrs, haddrs, haccepted, -, -, -, -, -, -, rfl⟩ :=
        preparePayrollRun_ok.mp hf
      refine .inl ⟨runId, b, addrs, rfl, haddrs, haccepted, fun employer => ?_⟩
      rw [hw]
      exact lastNonce_prepared employer
    | batchProcessPayroll b =>
      obtain ⟨runId, hf, rfl⟩ := exec_batchProcessPayroll_ok.mp hok
      obtain ⟨-, addrs, haddrs, haccepted, -, -, -, -, -, _, -, _, -, -, hw⟩ :=
        batchProcessPayroll_ok.mp hf
      refine .inl ⟨runId, b, addrs, rfl, haddrs, haccepted, fun employer => ?_⟩
      rw [hw]
      refine (lastNonce_executed employer).trans ?_
      simp [lastNonce]
    | _ => exact .inr ⟨rfl, fun _ => by rw [lastNonce, exec_keeps hok rfl]; rfl⟩
  · refine .inr ⟨?_, fun _ => by rw [hsame]⟩
    simp [creation, hperformed]

/-- The accepted nonces are increasing, and the last of them is stored. -/
structure NoncesOrdered (admin : Address) (hist : List (Step World Input)) (w : World) : Prop where
  increasing : (acceptedNonces admin hist).Pairwise (nonceValue · < nonceValue ·)
  last : lastNonce w.payroll admin = (acceptedNonces admin hist).getLast?

theorem acceptedNonces_snoc (hist : List (Step World Input)) (st : Step World Input) :
    acceptedNonces admin (hist ++ [st]) =
      acceptedNonces admin hist ++ (acceptedNonce admin st).toList := by
  unfold acceptedNonces
  cases h : acceptedNonce admin st <;> simp [h]

theorem NoncesOrdered.kept {st : Step World Input} (h : NoncesOrdered admin hist w)
    (hst : acceptedNonce admin st = none)
    (hlast : lastNonce w'.payroll admin = lastNonce w.payroll admin) :
    NoncesOrdered admin (hist ++ [st]) w' := by
  have hsnoc : acceptedNonces admin (hist ++ [st]) = acceptedNonces admin hist := by
    rw [acceptedNonces_snoc, hst]
    exact List.append_nil _
  constructor
  · rw [hsnoc]
    exact h.increasing
  · rw [hsnoc, hlast]
    exact h.last

theorem pairwise_snoc {l : List α} {f : α → Nat} (h : l.Pairwise (f · < f ·))
    (hlast : ∀ b ∈ l.getLast?, f b < f a) : (l ++ [a]).Pairwise (f · < f ·) := by
  induction l using List.reverseRecOn with
  | nil => simp
  | append_singleton l b _ =>
    have hab : f b < f a := hlast b (by simp)
    refine List.pairwise_append.mpr ⟨h, List.pairwise_singleton _ _, fun c hc d hd => ?_⟩
    obtain rfl := List.mem_singleton.mp hd
    rcases List.mem_append.mp hc with hc | hc
    · exact ((List.pairwise_append.mp h).2.2 c hc b (by simp)).trans hab
    · obtain rfl := List.mem_singleton.mp hc
      exact hab

theorem NoncesOrdered.next (h : NoncesOrdered admin hist w) (i : Input) :
    NoncesOrdered admin (hist ++ [⟨w, i, next w i⟩]) (next w i) := by
  rcases next_nonce w i with ⟨runId, b, addrs, hst, haddrs, haccepted, hlast⟩ | ⟨hst, hlast⟩
  · have hnonce : acceptedNonce admin ⟨w, i, Payroll.next w i⟩ =
        if addrs.admin = admin then some b.nonce else none := by
      simp [acceptedNonce, hst, haddrs]
    by_cases hadmin : admin = addrs.admin
    · subst hadmin
      rw [if_pos rfl] at hnonce
      have hsnoc : acceptedNonces addrs.admin (hist ++ [⟨w, i, Payroll.next w i⟩]) =
          acceptedNonces addrs.admin hist ++ [b.nonce] := by
        rw [acceptedNonces_snoc, hnonce]
        rfl
      constructor
      · rw [hsnoc]
        refine pairwise_snoc h.increasing ?_
        rw [← h.last]
        exact aboveLast_iff.mp haccepted.above
      · rw [hsnoc, hlast, if_pos rfl]
        simp
    · rw [if_neg (Ne.symm hadmin)] at hnonce
      exact h.kept hnonce (by rw [hlast, if_neg hadmin])
  · refine h.kept ?_ (hlast admin)
    simp [acceptedNonce, hst]

theorem nonces_ordered (inputs : List Input) (admin : Address) :
    NoncesOrdered admin (steps next World.genesis inputs) (runFrom next World.genesis inputs) :=
  history_invariant (I := NoncesOrdered admin) ⟨List.Pairwise.nil, rfl⟩ (fun _ _ i h => h.next i)
    inputs

/-- The check agrees with the 256-bit order exactly on the nonces that are not
above the last one in the low half only. In every run the nonces accepted for
one admin are strictly increasing, and a nonce above the last of them is usable
exactly when its first 16 bytes are different. -/
theorem nonce_order_iff (s : Storage) (employer : Address) (nonce : BytesN 32)
    (inputs : List Input) (admin : Address) :
    ((validateNonceMonotonicity s employer nonce = .ok () ↔ AboveLast s employer nonce) ↔
      ¬ AboveInLowHalfOnly s employer nonce) ∧
    (acceptedNonces admin (steps next World.genesis inputs)).Pairwise
      (nonceValue · < nonceValue ·) ∧
    ∀ later, (∀ last ∈ (acceptedNonces admin (steps next World.genesis inputs)).getLast?,
        nonceValue last < nonceValue later) →
      (validateNonceMonotonicity (runFrom next World.genesis inputs).payroll admin later =
          .ok () ↔
        ∀ last ∈ (acceptedNonces admin (steps next World.genesis inputs)).getLast?,
          later.toList.take 16 ≠ last.toList.take 16) := by
  have hordered := nonces_ordered inputs admin
  refine ⟨validateNonceMonotonicity_agrees_iff s employer nonce, hordered.increasing,
    fun later habove => ?_⟩
  rw [← hordered.last] at habove ⊢
  rw [validateNonceMonotonicity_ok, nonceAccepted_iff]
  unfold lastNonce at habove ⊢
  cases hstored : (runFrom next World.genesis inputs).payroll.get (.employerNonceSequence admin) with
  | none => simp
  | some sequenceState =>
    have hlt := habove sequenceState.lastNonce (by simp [hstored])
    rw [nonceValue_lt_iff] at hlt
    simp only [Option.some.injEq, forall_eq', Option.map_some, Option.mem_def, ne_eq,
      ← highHalf_inj sequenceState.lastNonce later] at hlt ⊢
    omega

end

namespace Sample

def endingIn (n : UInt8) : BytesN 32 := ⟨List.replicate 31 0 ++ [n], rfl⟩

def firstNonce : List Input :=
  funded 1000 ++ [call [admin] (.preparePayrollRun { batch 1 alice 100 with nonce := endingIn 1 })]

end Sample

/-- After the nonce 1 the nonce 2 is turned down as stale. -/
theorem next_nonce_stale :
    let w := runFrom next World.genesis Sample.firstNonce
    let second := { Sample.batch 1 Sample.alice 100 with nonce := Sample.endingIn 2 }
    let stale := "Stale nonce detected: nonce must be strictly greater than the last accepted " ++
      "nonce for this employer"
    Reached w ∧ acceptedNonces Sample.admin (steps next World.genesis Sample.firstNonce) =
        [Sample.endingIn 1] ∧
      nonceValue (Sample.endingIn 1) < nonceValue (Sample.endingIn 2) ∧
      AboveLast w.payroll Sample.admin (Sample.endingIn 2) ∧
      validateNonceMonotonicity w.payroll Sample.admin (Sample.endingIn 2) = .error stale ∧
      exec (Sample.env [Sample.admin]) (.preparePayrollRun second) w = .error stale := by
  intro w second stale
  have hlast : lastNonce w.payroll Sample.admin = some (Sample.endingIn 1) := by decide +kernel
  have hlt : nonceValue (Sample.endingIn 1) < nonceValue (Sample.endingIn 2) := by decide +kernel
  refine ⟨reachable_runFrom, by decide +kernel, hlt, ?_, by decide +kernel, by rfl⟩
  rw [aboveLast_iff, hlast]
  intro last hmem
  obtain rfl := Option.some.inj hmem
  exact hlt

end ZkPayroll.Payroll
