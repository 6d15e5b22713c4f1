import ZkPayroll.Circuits.TextLaws
import ZkPayroll.Circuits.Payment

/-!
# From the generator to the test

The way of a proof through `proof_bytes.json`: what the generator writes is what
the helper reads, for every proof it can write at all. With the proof it makes
up, the public inputs the tests get are those of the payment circuit, and the
circuit has a proof for them.
-/

namespace ZkPayroll.Circuits

open Host

structure ProofValues where
  ax : Nat
  ay : Nat
  bx0 : Nat
  bx1 : Nat
  by0 : Nat
  by1 : Nat
  cx : Nat
  cy : Nat
  salaryCommitment : Nat
  paymentNullifier : Nat
  recipientHash : Nat

def Holds (array : List Text) (i n : Nat) : Prop :=
  ∃ s, array[i]? = some s ∧ bigInt s = .ok (n : Int) ∧ n < 256 ^ 32

structure ProofValues.Written (v : ProofValues) (proof : SnarkProof) (publicSignals : List Text) :
    Prop where
  piA : Holds proof.piA 0 v.ax ∧ Holds proof.piA 1 v.ay
  piB : ∃ b0 b1, proof.piB[0]? = some b0 ∧ proof.piB[1]? = some b1 ∧
    (Holds b0 0 v.bx0 ∧ Holds b0 1 v.bx1) ∧ Holds b1 0 v.by0 ∧ Holds b1 1 v.by1
  piC : Holds proof.piC 0 v.cx ∧ Holds proof.piC 1 v.cy
  signals : Holds publicSignals 0 v.salaryCommitment ∧ Holds publicSignals 1 v.paymentNullifier ∧
    Holds publicSignals 2 v.recipientHash

def beBytes (width n : Nat) : BytesN width := ⟨valueBytes width n, length_valueBytes width n⟩

def be32 (n : Nat) : BytesN 32 := beBytes 32 n

def ProofValues.generated (v : ProofValues) : GeneratedProof where
  piA := be32 v.ax ++ be32 v.ay
  piB := be32 v.bx0 ++ be32 v.bx1 ++ be32 v.by0 ++ be32 v.by1
  piC := be32 v.cx ++ be32 v.cy
  salaryCommitment := be32 v.salaryCommitment
  paymentNullifier := be32 v.paymentNullifier
  recipientHash := be32 v.recipientHash

def GeneratedProof.entries (p : GeneratedProof) : List (Text × Text) :=
  [("pi_a".toList, hexText p.piA.toList), ("pi_b".toList, hexText p.piB.toList),
    ("pi_c".toList, hexText p.piC.toList),
    ("salary_commitment".toList, hexText p.salaryCommitment.toList),
    ("payment_nullifier".toList, hexText p.paymentNullifier.toList),
    ("recipient_hash".toList, hexText p.recipientHash.toList)]

-- ---------------------------------------------------------------------------
-- Writing
-- ---------------------------------------------------------------------------

section
variable {array : List Text} {proof : SnarkProof} {publicSignals : List Text}

theorem element_ok {array : List α} : element array i msg = .ok a ↔ array[i]? = some a := by
  unfold element
  split <;> simp [pure, Except.pure, throw, throwThe, MonadExceptOf.throw, *]

theorem feAt_ok : feAt array i = .ok hex ↔
    ∃ n, Holds array i n ∧ hex = feText n := by
  simp only [feAt, fe, bind_ok, element_ok, fieldElemToHex32_ok]
  constructor
  · rintro ⟨s, hs, _, hn, n, rfl, hlt, hhex⟩
    exact ⟨n, ⟨s, hs, hn, hlt⟩, hhex⟩
  · rintro ⟨n, ⟨s, hs, hn, hlt⟩, hhex⟩
    exact ⟨s, hs, n, hn, n, rfl, hlt, hhex⟩

theorem hexText_append (front : BytesN m) (back : BytesN n) :
    hexText (front ++ back : BytesN (m + n)).toList =
      hexText front.toList ++ hexText back.toList := by
  rw [List.Vector.toList_append, hexText, List.flatMap_append]
  rfl

theorem toList_be32 (n : Nat) : (be32 n).toList = valueBytes 32 n := by
  rw [be32, beBytes, List.Vector.toList_mk]

theorem hexText_be32 (n : Nat) : hexText (be32 n).toList = feText n := by
  rw [feText, toList_be32]

/-- The writer writes the proofs whose elements are numbers of 32 bytes, and no
others. -/
theorem writeProofBytesFile_ok : writeProofBytesFile proof publicSignals = .ok text ↔
    ∃ v : ProofValues, v.Written proof publicSignals ∧ text = stringify v.generated.entries := by
  simp only [writeProofBytesFile, bind_ok, feAt_ok, element_ok, pure_ok]
  constructor
  · rintro ⟨_, ⟨ax, hax, rfl⟩, _, ⟨ay, hay, rfl⟩, b0, hb0, _, ⟨bx0, hbx0, rfl⟩, _, ⟨bx1, hbx1, rfl⟩,
      b1, hb1, _, ⟨by0, hby0, rfl⟩, _, ⟨by1, hby1, rfl⟩, _, ⟨cx, hcx, rfl⟩, _, ⟨cy, hcy, rfl⟩,
      _, ⟨commitment, hcommitment, rfl⟩, _, ⟨nullifier, hnullifier, rfl⟩,
      _, ⟨recipient, hrecipient, rfl⟩, rfl⟩
    refine ⟨⟨ax, ay, bx0, bx1, by0, by1, cx, cy, commitment, nullifier, recipient⟩,
      ⟨⟨hax, hay⟩, ⟨b0, b1, hb0, hb1, ⟨hbx0, hbx1⟩, hby0, hby1⟩, ⟨hcx, hcy⟩,
        hcommitment, hnullifier, hrecipient⟩, ?_⟩
    simp only [GeneratedProof.entries, ProofValues.generated, hexText_append, hexText_be32]
  · rintro ⟨v, ⟨⟨hax, hay⟩, ⟨b0, b1, hb0, hb1, ⟨hbx0, hbx1⟩, hby0, hby1⟩, ⟨hcx, hcy⟩,
      hcommitment, hnullifier, hrecipient⟩, rfl⟩
    refine ⟨_, ⟨_, hax, rfl⟩, _, ⟨_, hay, rfl⟩, b0, hb0, _, ⟨_, hbx0, rfl⟩, _, ⟨_, hbx1, rfl⟩,
      b1, hb1, _, ⟨_, hby0, rfl⟩, _, ⟨_, hby1, rfl⟩, _, ⟨_, hcx, rfl⟩, _, ⟨_, hcy, rfl⟩,
      _, ⟨_, hcommitment, rfl⟩, _, ⟨_, hnullifier, rfl⟩, _, ⟨_, hrecipient, rfl⟩, ?_⟩
    simp only [GeneratedProof.entries, ProofValues.generated, hexText_append, hexText_be32]

end

-- ---------------------------------------------------------------------------
-- Reading
-- ---------------------------------------------------------------------------

theorem hexText_unquoted (bytes : List UInt8) : 34 ∉ utf8 (hexText bytes) := by
  have hall : ∀ d : Fin 16, digitByte d ≠ 34 := by decide
  intro hmem
  rw [utf8_hexText, List.mem_flatMap] at hmem
  obtain ⟨b, -, hb⟩ := hmem
  have hlt := b.toNat_lt
  simp only [List.mem_cons, List.not_mem_nil, or_false] at hb
  rcases hb with hb | hb
  · exact hall ⟨b.toNat / 16, by omega⟩ hb.symm
  · exact hall ⟨b.toNat % 16, by omega⟩ hb.symm

/-- A field of the file of a proof: its name has an underscore, which no
hexadecimal text has. -/
theorem extractStrField_entries (p : GeneratedProof) {field : Str} (hname : IsName field)
    (hunderscore : 95 ∈ field) :
    extractStrField (utf8 (stringify p.entries)) field =
      (p.entries.map fun entry => (utf8 entry.1, utf8 entry.2)).lookup field := by
  have hhex : ∀ bytes, utf8 (hexText bytes) ≠ field := by
    rintro bytes rfl
    have hall : ∀ d : Fin 16, digitByte d ≠ 95 := by decide
    rw [utf8_hexText, List.mem_flatMap] at hunderscore
    obtain ⟨b, -, hb⟩ := hunderscore
    have hlt := b.toNat_lt
    simp only [List.mem_cons, List.not_mem_nil, or_false] at hb
    rcases hb with hb | hb
    · exact hall ⟨b.toNat / 16, by omega⟩ hb.symm
    · exact hall ⟨b.toNat % 16, by omega⟩ hb.symm
  have hentry : ∀ (name : Str) (bytes : List UInt8), 34 ∉ name →
      Readable field (name, utf8 (hexText bytes)) := fun name bytes hquote =>
    ⟨hquote, hexText_unquoted bytes, hhex bytes⟩
  have hreadable : ∀ entry ∈ p.entries.map fun entry => (utf8 entry.1, utf8 entry.2),
      Readable field entry := by
    simp only [GeneratedProof.entries, List.map_cons, List.map_nil, List.forall_mem_cons]
    exact ⟨hentry _ _ (by decide), hentry _ _ (by decide), hentry _ _ (by decide),
      hentry _ _ (by decide), hentry _ _ (by decide), hentry _ _ (by decide), by simp⟩
  have hbrace : (34 : UInt8) ∉ utf8 "\x7b".toList := by decide
  have hclose : (34 : UInt8) ∉ utf8 "\n\x7d".toList := by decide
  rw [utf8_stringify, List.append_assoc, extractStrField_skip hbrace,
    extractStrField_lines hname _ _ hclose hreadable]

theorem parseProofBytes_entries (p : GeneratedProof) :
    parseProofBytes (utf8 (stringify p.entries)) = pure p := by
  have hfield : ∀ (name : Str) (bytes : List UInt8), IsName name → 95 ∈ name →
      (p.entries.map fun entry => (utf8 entry.1, utf8 entry.2)).lookup name =
        some (utf8 (hexText bytes)) →
      (OptionT.mk (pure (extractStrField (utf8 (stringify p.entries)) name)) : OptionT Result Str) =
        pure (utf8 (hexText bytes)) := by
    intro name bytes hname hunderscore hlookup
    rw [extractStrField_entries p hname hunderscore, hlookup]
    rfl
  have hdecode : ∀ {n : Nat} (v : BytesN n),
      (OptionT.mk (hexDecode n (utf8 (hexText v.toList))) : OptionT Result (BytesN n)) = pure v := by
    intro n v
    rw [hexDecode_hexText]
    rfl
  have hpiA := hfield (utf8 "pi_a".toList) p.piA.toList
    ⟨by decide, by decide, by decide⟩ (by decide) rfl
  have hpiB := hfield (utf8 "pi_b".toList) p.piB.toList
    ⟨by decide, by decide, by decide⟩ (by decide) rfl
  have hpiC := hfield (utf8 "pi_c".toList) p.piC.toList
    ⟨by decide, by decide, by decide⟩ (by decide) rfl
  have hcommitment := hfield (utf8 "salary_commitment".toList) p.salaryCommitment.toList
    ⟨by decide, by decide, by decide⟩ (by decide) rfl
  have hnullifier := hfield (utf8 "payment_nullifier".toList) p.paymentNullifier.toList
    ⟨by decide, by decide, by decide⟩ (by decide) rfl
  have hrecipient := hfield (utf8 "recipient_hash".toList) p.recipientHash.toList
    ⟨by decide, by decide, by decide⟩ (by decide) rfl
  simp only [parseProofBytes, hpiA, hpiB, hpiC, hcommitment, hnullifier, hrecipient, pure_bind,
    hdecode]

/-- What the generator writes, the helper reads: the bytes of every element of the
proof and of the public signals, and nothing else. -/
theorem proof_file_roundtrip (proof : SnarkProof) (publicSignals : List Text) (text : Text) :
    writeProofBytesFile proof publicSignals = .ok text ↔
      ∃ v : ProofValues, v.Written proof publicSignals ∧ text = stringify v.generated.entries ∧
        parseProofBytes (utf8 text) = pure v.generated := by
  rw [writeProofBytesFile_ok]
  constructor
  · rintro ⟨v, hwritten, rfl⟩
    exact ⟨v, hwritten, rfl, parseProofBytes_entries v.generated⟩
  · rintro ⟨v, hwritten, htext, -⟩
    exact ⟨v, hwritten, htext⟩

-- ---------------------------------------------------------------------------
-- The proof made up
-- ---------------------------------------------------------------------------

def mockValues (salary blinding : Nat) : ProofValues :=
  let s := salary % bn254R
  let b := blinding % bn254R
  let commitment := (s + b * 7) % bn254R
  let nullifier := (commitment * 13 + 1) % bn254R
  let recipient := (b * 31 + 17) % bn254R
  { ax := (s * 3 + 1) % bn254R, ay := (b * 5 + 2) % bn254R,
    bx0 := (s * 17 + 5) % bn254R, bx1 := (b * 19 + 6) % bn254R,
    by0 := (s * 23 + 7) % bn254R, by1 := (b * 29 + 8) % bn254R,
    cx := (commitment * 7 + 3) % bn254R, cy := (nullifier * 11 + 4) % bn254R,
    salaryCommitment := commitment, paymentNullifier := nullifier, recipientHash := recipient }

theorem modR_nat (n : Nat) : modR (n : Int) = ((n % bn254R : Nat) : Int) := by
  rw [modR, Int.ofNat_tmod]

theorem holds_mod (array : List Text) (i n : Nat)
    (h : array[i]? = some (Nat.toDigits 10 (n % bn254R))) : Holds array i (n % bn254R) := by
  have hpos : 0 < bn254R := by decide
  have hfits : bn254R < 256 ^ 32 := by decide
  exact ⟨_, h, bigInt_toDigits _, (Nat.mod_lt n hpos).trans hfits⟩

theorem mockValues_written (salary blinding : Nat) :
    (mockValues salary blinding).Written (mockProof salary blinding).1
      (mockProof salary blinding).2 := by
  -- the remainders become those of numbers, the inner ones first
  simp only [mockProof, modR_nat]
  norm_cast
  simp only [modR_nat]
  norm_cast
  simp only [modR_nat]
  norm_cast
  simp only [modR_nat]
  exact ⟨⟨holds_mod _ _ _ rfl, holds_mod _ _ _ rfl⟩,
    ⟨_, _, rfl, rfl, ⟨holds_mod _ _ _ rfl, holds_mod _ _ _ rfl⟩, holds_mod _ _ _ rfl,
      holds_mod _ _ _ rfl⟩,
    ⟨holds_mod _ _ _ rfl, holds_mod _ _ _ rfl⟩,
    holds_mod _ _ _ rfl, holds_mod _ _ _ rfl, holds_mod _ _ _ rfl⟩

/-- A public input as the field element the verifier takes it for. -/
def frOfBytes (b : BytesN 32) : Fr := (bytesValue b.toList : Nat)

/-- The public inputs of a proof as the helper returns it. -/
def GeneratedProof.signals (p : GeneratedProof) : PublicSignals :=
  ⟨frOfBytes p.salaryCommitment, frOfBytes p.paymentNullifier, frOfBytes p.recipientHash⟩

theorem frOfBytes_be32 (n : Nat) : frOfBytes (be32 (n % bn254R)) = (n : Fr) := by
  have hpos : 0 < bn254R := by decide
  have hfits : bn254R < 256 ^ 32 := by decide
  rw [frOfBytes, toList_be32, bytesValue_valueBytes,
    Nat.mod_eq_of_lt ((Nat.mod_lt n hpos).trans hfits), ZMod.natCast_mod]

theorem mockValues_signals (salary blinding : Nat) :
    (mockValues salary blinding).generated.signals = publicSignals salary blinding := by
  simp only [GeneratedProof.signals, ProofValues.generated, mockValues, frOfBytes_be32,
    publicSignals, Nat.cast_add, Nat.cast_mul, ZMod.natCast_mod, Nat.cast_ofNat, Nat.cast_one]

theorem generateProof_mock {node : NodeHost}
    (hmock : node.fullProve = none ∨ node.hasArtifacts = false) (salary blinding : Nat) :
    generateProof node [Nat.toDigits 10 salary, Nat.toDigits 10 blinding] =
      .ok (stringify (mockValues salary blinding).generated.entries) := by
  have hwrite := writeProofBytesFile_ok.mpr ⟨_, mockValues_written salary blinding, rfl⟩
  simp only [generateProof, List.getElem?_cons_zero, List.getElem?_cons_succ, Option.getD_some,
    bigInt_toDigits, bind, Except.bind]
  rcases hmock with hmock | hmock
  · simp only [hmock, hwrite]
  · cases node.fullProve <;> simp only [hmock, hwrite]

/-- A run of the script without the circuit writes a proof for every two numbers.
The circuit has one for its public signals exactly when the salary, taken to the
field, has 64 bits. -/
theorem made_up_proof_in_circuit (node : NodeHost)
    (hmock : node.fullProve = none ∨ node.hasArtifacts = false) (salary blinding : Nat) :
    ∃ text p, generateProof node [Nat.toDigits 10 salary, Nat.toDigits 10 blinding] = .ok text ∧
      parseProofBytes (utf8 text) = pure p ∧
      ((∃ w, PaymentProof w ∧ w.outputs = p.signals) ↔ salary % bn254R < 2 ^ 64) := by
  refine ⟨_, _, generateProof_mock hmock salary blinding, parseProofBytes_entries _, ?_⟩
  rw [mockValues_signals, exists_proof_iff, ← ZMod.val_natCast]

theorem made_up_proof_of_5000 :
    ∃ text p, generateProof ⟨none, false⟩ [Nat.toDigits 10 5000, Nat.toDigits 10 123] = .ok text ∧
      parseProofBytes (utf8 text) = pure p ∧
      ((∃ w, PaymentProof w ∧ w.outputs = p.signals) ↔ 5000 % bn254R < 2 ^ 64) :=
  made_up_proof_in_circuit ⟨none, false⟩ (.inl rfl) 5000 123

/-- The helper, on a machine where the script runs and makes up its proof, returns
the public inputs of a proof the circuit has for the salary and the blinding
factor it was asked for. -/
theorem helper_matches_circuit (h : HelperHost)
    (hmock : h.node.fullProve = none ∨ h.node.hasArtifacts = false) (salary blinding : UInt64) :
    ∃ p w, tryGenerateProof h salary blinding =
        (if h.nodeAvailable && h.scriptFound && h.outDirCreated && h.spawned && h.bytesRead then
          pure p else failure) ∧
      PaymentProof w ∧ w.salary = (salary.toNat : Fr) ∧ w.blinding = (blinding.toNat : Fr) ∧
      p.signals = w.outputs := by
  have hsalary : (salary.toNat : Fr).val < 2 ^ 64 := by
    rw [ZMod.val_natCast]
    exact (Nat.mod_le _ _).trans_lt salary.toNat_lt
  refine ⟨_, assignment salary.toNat blinding.toNat, ?_, paymentProof_iff.mpr ⟨hsalary, rfl⟩, rfl,
    rfl, mockValues_signals salary.toNat blinding.toNat⟩
  rw [tryGenerateProof, argument_eq, argument_eq, generateProof_mock hmock]
  simp only [parseProofBytes_entries]
  cases h.nodeAvailable && h.scriptFound && h.outDirCreated && h.spawned <;> cases h.bytesRead <;>
    simp

theorem helper_returns_5000 :
    ∃ p w, tryGenerateProof ⟨true, true, true, true, true, ⟨none, true⟩⟩ 5000 123 = pure p ∧
      PaymentProof w ∧ w.salary = 5000 ∧ w.blinding = 123 ∧ p.signals = w.outputs :=
  helper_matches_circuit ⟨true, true, true, true, true, ⟨none, true⟩⟩ (.inl rfl) 5000 123

end ZkPayroll.Circuits
