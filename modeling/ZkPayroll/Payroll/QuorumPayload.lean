import ZkPayroll.Host.Numerals
import ZkPayroll.Host.PrefixCode
import ZkPayroll.Host.Sha256
import ZkPayroll.Payroll.Quorum

/-!
# What a quorum approval is bound to

`hash_quorum_payload` hashes the six fields of a payload strung together. The
serialisation of the host is a prefix code on each type, and the policy version
has a fixed width, so the string says what each field is. A payload is consumed
under its hash: it is accepted once, and as far as no two payloads collide, the
approval of one is never that of another.
-/

namespace ZkPayroll.Payroll

open Host

def quorumPreimage (crypto : Crypto) (payload : QuorumApprovalPayload) : List UInt8 :=
  crypto.bytesToXdr payload.batchRoot ++ crypto.addressToXdr payload.employer ++
    crypto.symbolToXdr payload.period ++ crypto.addressToXdr payload.asset ++
    crypto.bytesToXdr payload.nonce ++ toBeBytes 4 payload.policyVersion

/-- The serialisation of the host is injective and prefix-free on each type. -/
structure XdrPrefixCodes (crypto : Crypto) : Prop where
  bytes : PrefixCode crypto.bytesToXdr
  address : PrefixCode crypto.addressToXdr
  symbol : PrefixCode crypto.symbolToXdr

def QuorumApprovalPayload.Typed (payload : QuorumApprovalPayload) : Prop :=
  payload.policyVersion ≤ u32Max

instance : DecidablePred QuorumApprovalPayload.Typed :=
  fun payload => inferInstanceAs (Decidable (payload.policyVersion ≤ u32Max))

def Call.consumes : Call → Option QuorumApprovalPayload
  | .verifyAndConsumeQuorum payload _ _ => some payload
  | _ => none

/-- The payload a step made `verify_and_consume_quorum` succeed with. -/
def consumption (st : Step World Input) : Option QuorumApprovalPayload :=
  (performed st).bind fun (call, _) => call.consumes

def consumptions (hist : List (Step World Input)) : List QuorumApprovalPayload :=
  hist.filterMap consumption

/-- No two of the payloads have one hash. -/
def NoCollision (crypto : Crypto) (payloads : Set QuorumApprovalPayload) : Prop :=
  ∀ p ∈ payloads, ∀ q ∈ payloads,
    ¬ Collision crypto.sha256 (quorumPreimage crypto p) (quorumPreimage crypto q)

section
variable {e : Env} {crypto : Crypto} {w w' : World} {i : Input} {hist : List (Step World Input)}
  {inputs : List Input} {p q : QuorumApprovalPayload}

-- ---------------------------------------------------------------------------
-- The string that is hashed
-- ---------------------------------------------------------------------------

theorem hashQuorumPayload_eq (h : e.crypto = crypto) :
    hashQuorumPayload e p = crypto.sha256 (quorumPreimage crypto p) := by
  subst h
  rfl

theorem toBeBytes_eq (n value : Nat) : toBeBytes n value = valueBytes n value := by
  induction n generalizing value with
  | zero => rfl
  | succ n ih => simp [toBeBytes, ih, valueBytes, numeral]

theorem quorumPreimage_inj (hcodes : XdrPrefixCodes crypto) (hp : p.Typed) (hq : q.Typed)
    (h : quorumPreimage crypto p = quorumPreimage crypto q) : p = q := by
  cases p with
  | mk batchRoot employer period asset nonce policyVersion =>
    cases q with
    | mk batchRoot' employer' period' asset' nonce' policyVersion' =>
      simp only [quorumPreimage, List.append_assoc] at h
      obtain ⟨rfl, hemployer⟩ := hcodes.bytes.append_inj h
      obtain ⟨rfl, hperiod⟩ := hcodes.address.append_inj hemployer
      obtain ⟨rfl, hasset⟩ := hcodes.symbol.append_inj hperiod
      obtain ⟨rfl, hnonce⟩ := hcodes.address.append_inj hasset
      obtain ⟨rfl, hversion⟩ := hcodes.bytes.append_inj hnonce
      have hwidth : u32Max < 256 ^ 4 := by decide
      rw [toBeBytes_eq, toBeBytes_eq] at hversion
      obtain rfl := valueBytes_inj (Nat.lt_of_le_of_lt hp hwidth) (Nat.lt_of_le_of_lt hq hwidth)
        hversion
      rfl

theorem NoCollision.hash_inj {payloads : Set QuorumApprovalPayload}
    (h : NoCollision crypto payloads) (hcodes : XdrPrefixCodes crypto)
    (htyped : ∀ p ∈ payloads, p.Typed) (hp : p ∈ payloads) (hq : q ∈ payloads)
    (heq : crypto.sha256 (quorumPreimage crypto p) = crypto.sha256 (quorumPreimage crypto q)) :
    p = q :=
  quorumPreimage_inj hcodes (htyped p hp) (htyped q hq) (eq_of_not_collision (h p hp q hq) heq)

-- ---------------------------------------------------------------------------
-- Consumed hashes along a run
-- ---------------------------------------------------------------------------

theorem consumptions_snoc (hist : List (Step World Input)) (st : Step World Input) :
    consumptions (hist ++ [st]) = consumptions hist ++ (consumption st).toList := by
  unfold consumptions
  cases h : consumption st <;> simp [h]

theorem next_consumption (w : World) (i : Input) :
    (∃ payload, consumption ⟨w, i, next w i⟩ = some payload ∧
      isQuorumConsumed w.payroll (hashQuorumPayload i.env payload) = false ∧
      ∀ quorumHash, isQuorumConsumed (next w i).payroll quorumHash = true ↔
        quorumHash = hashQuorumPayload i.env payload ∨
          isQuorumConsumed w.payroll quorumHash = true) ∨
    consumption ⟨w, i, next w i⟩ = none ∧
      ∀ quorumHash, isQuorumConsumed (next w i).payroll quorumHash =
        isQuorumConsumed w.payroll quorumHash := by
  rcases next_payroll w i with ⟨call, ret, ⟨-, hok⟩, hperformed⟩ | ⟨hsame, -, hperformed⟩
  · have hconsumption : consumption ⟨w, i, next w i⟩ = call.consumes := by
      simp [consumption, hperformed]
    rw [hconsumption]
    cases call with
    | verifyAndConsumeQuorum payload signers requiredQuorum =>
      obtain ⟨_, _, hf, -, hw⟩ := onStorageRet_ok.mp hok
      obtain ⟨-, -, -, -, hfree, -, rfl⟩ := verifyAndConsumeQuorum_ok.mp hf
      refine .inl ⟨payload, rfl, Store.has_eq_false.mpr hfree, fun quorumHash => ?_⟩
      rw [hw]
      by_cases hhash : quorumHash = hashQuorumPayload i.env payload
      · simp [isQuorumConsumed, hhash]
      · simp [isQuorumConsumed, hhash]
    | _ => exact .inr ⟨rfl, fun _ => by rw [isQuorumConsumed, Store.has, exec_keeps hok rfl]; rfl⟩
  · refine .inr ⟨?_, fun _ => by rw [hsame]⟩
    simp [consumption, hperformed]

structure ConsumedAre (crypto : Crypto) (hist : List (Step World Input)) (w : World) : Prop where
  consumed : ∀ quorumHash, isQuorumConsumed w.payroll quorumHash = true ↔
    ∃ p ∈ consumptions hist, crypto.sha256 (quorumPreimage crypto p) = quorumHash
  once : ((consumptions hist).map fun p => crypto.sha256 (quorumPreimage crypto p)).Nodup

theorem ConsumedAre.next (h : ConsumedAre crypto hist w) (hi : i.env.crypto = crypto) :
    ConsumedAre crypto (hist ++ [⟨w, i, next w i⟩]) (next w i) := by
  rcases next_consumption w i with ⟨payload, hst, hfree, hafter⟩ | ⟨hst, hafter⟩
  · rw [hashQuorumPayload_eq hi] at hfree hafter
    have hsnoc : consumptions (hist ++ [⟨w, i, Payroll.next w i⟩]) =
        consumptions hist ++ [payload] := by
      rw [consumptions_snoc, hst]
      rfl
    constructor
    · intro quorumHash
      rw [hsnoc, hafter, h.consumed]
      constructor
      · rintro (rfl | ⟨p, hp, heq⟩)
        · exact ⟨payload, by simp, rfl⟩
        · exact ⟨p, by simp [hp], heq⟩
      · rintro ⟨p, hp, heq⟩
        rcases List.mem_append.mp hp with hp | hp
        · exact .inr ⟨p, hp, heq⟩
        · obtain rfl := List.mem_singleton.mp hp
          exact .inl heq.symm
    · rw [hsnoc, List.map_append, List.nodup_append']
      refine ⟨h.once, by simp, ?_⟩
      rw [List.map_singleton, List.disjoint_singleton]
      intro hmem
      obtain ⟨p, hp, heq⟩ := List.mem_map.mp hmem
      rw [(h.consumed _).mpr ⟨p, hp, heq⟩] at hfree
      cases hfree
  · have hsnoc : consumptions (hist ++ [⟨w, i, Payroll.next w i⟩]) = consumptions hist := by
      rw [consumptions_snoc, hst]
      exact List.append_nil _
    constructor
    · intro quorumHash
      rw [hsnoc, hafter]
      exact h.consumed quorumHash
    · rw [hsnoc]
      exact h.once

theorem consumed_are (hcrypto : ∀ i ∈ inputs, i.env.crypto = crypto) :
    ConsumedAre crypto (steps next World.genesis inputs) (runFrom next World.genesis inputs) := by
  induction inputs using List.reverseRecOn with
  | nil => exact ⟨fun _ => by simp [steps, consumptions, runFrom, World.genesis, isQuorumConsumed],
      List.nodup_nil⟩
  | append_singleton inputs i ih =>
    obtain ⟨hinputs, hi⟩ := List.forall_mem_append.mp hcrypto
    rw [runFrom_snoc, steps_snoc]
    exact (ih hinputs).next (hi i (List.mem_singleton.mpr rfl))

/-- With a serialisation that is a prefix code the hashed string determines the
payload. In every run each payload is accepted at most once; and among payloads
of which no two collide, a payload counts as consumed exactly when it is one of
those accepted. -/
theorem quorum_bound_and_single_use (crypto : Crypto) (hcodes : XdrPrefixCodes crypto) :
    (∀ p q : QuorumApprovalPayload, p.Typed → q.Typed →
      quorumPreimage crypto p = quorumPreimage crypto q → p = q) ∧
    ∀ inputs : List Input, (∀ i ∈ inputs, i.env.crypto = crypto) →
      (consumptions (steps next World.genesis inputs)).Nodup ∧
      ∀ payloads : Set QuorumApprovalPayload, NoCollision crypto payloads →
        (∀ p ∈ payloads, p.Typed) →
        (∀ p ∈ consumptions (steps next World.genesis inputs), p ∈ payloads) →
        ∀ e q, e.crypto = crypto → q ∈ payloads →
          (isQuorumConsumed (runFrom next World.genesis inputs).payroll
            (hashQuorumPayload e q) = true ↔ q ∈ consumptions (steps next World.genesis inputs)) := by
  refine ⟨fun p q => quorumPreimage_inj hcodes, fun inputs hcrypto => ?_⟩
  have hare := consumed_are hcrypto
  refine ⟨hare.once.of_map _, fun payloads hfree htyped hall e q he hq => ?_⟩
  rw [hashQuorumPayload_eq he, hare.consumed]
  constructor
  · rintro ⟨p, hp, heq⟩
    obtain rfl := hfree.hash_inj hcodes htyped (hall p hp) hq heq
    exact hp
  · exact fun hq => ⟨q, hq, rfl⟩

end

namespace Sample

/-- SHA-256 over a serialisation that delimits addresses and symbols; digests
are as they are. -/
def hashing : Crypto where
  sha256 := sha256
  addressToXdr a := delimited (List.replicate a.id 0)
  symbolToXdr symbol := delimited symbol.toByteArray.data.toList
  bytesToXdr bytes := bytes.toList

def hashingEnv (auths : List Address) : Env := { env auths with crypto := hashing }

theorem hashing_codes : XdrPrefixCodes hashing where
  bytes := .of_length List.Vector.toList_injective fun bytes => bytes.toList_length
  address := by
    refine prefixCode_delimited.comp (f := fun a : Address => List.replicate a.id 0) ?_
    rintro ⟨a⟩ ⟨b⟩ h
    have hlength := congrArg List.length h
    simp only [List.length_replicate] at hlength
    rw [hlength]
  symbol := by
    refine prefixCode_delimited.comp (f := fun s : Symbol => s.toByteArray.data.toList) ?_
    intro s t h
    exact String.toByteArray_inj.mp (ByteArray.ext (Array.toList_inj.mp h))

def secondApproval : QuorumApprovalPayload := { approval with nonce := digest 3 }

def replayed : List Input :=
  [⟨hashingEnv [], .payroll (.initializePayroll addrs)⟩,
    ⟨hashingEnv [admin], .payroll (.verifyAndConsumeQuorum approval [admin] 1)⟩,
    ⟨hashingEnv [admin], .payroll (.verifyAndConsumeQuorum approval [admin] 1)⟩]

theorem approvals_apart : NoCollision hashing ({approval, secondApproval} : Set _) := by
  have hne : hashing.sha256 (quorumPreimage hashing approval) ≠
      hashing.sha256 (quorumPreimage hashing secondApproval) := by decide +kernel
  rintro p (rfl | rfl) q (rfl | rfl) ⟨hdiffer, heq⟩
  · exact hdiffer rfl
  · exact hne heq
  · exact hne heq.symm
  · exact hdiffer rfl

end Sample

theorem quorum_replay_rejected :
    let w := runFrom next World.genesis Sample.replayed
    consumptions (steps next World.genesis Sample.replayed) = [Sample.approval] ∧
      isQuorumConsumed w.payroll (hashQuorumPayload (Sample.hashingEnv []) Sample.approval) = true ∧
      isQuorumConsumed w.payroll
        (hashQuorumPayload (Sample.hashingEnv []) Sample.secondApproval) = false := by
  intro w
  have hconsumed : consumptions (steps next World.genesis Sample.replayed) = [Sample.approval] := by
    decide +kernel
  have huse := (quorum_bound_and_single_use Sample.hashing Sample.hashing_codes).2 Sample.replayed
    (by simp [Sample.replayed, Sample.hashingEnv])
  have hiff := huse.2 {Sample.approval, Sample.secondApproval} Sample.approvals_apart
    (by rintro p (rfl | rfl) <;> decide) (by simp [hconsumed]) (Sample.hashingEnv [])
  refine ⟨hconsumed, (hiff Sample.approval rfl (by simp)).mpr (by simp [hconsumed]), ?_⟩
  refine Bool.eq_false_iff.mpr fun hyes => ?_
  have hmem := (hiff Sample.secondApproval rfl (by simp)).mp hyes
  rw [hconsumed, List.mem_singleton] at hmem
  revert hmem
  decide

end ZkPayroll.Payroll
