import Mathlib.Data.Vector.Basic

/-!
# SHA-256

The hash of FIPS 180-4 on lists of bytes, as a function that evaluates. A
development that only needs some hash takes it as a parameter; where a concrete
digest matters, this is the function to put there.

A hash to 32 bytes cannot be injective. What a proof may assume, or has to
leave open, is that two given strings do not collide.
-/

namespace ZkPayroll.Host

def Collision (hash : α → β) (x y : α) : Prop := x ≠ y ∧ hash x = hash y

theorem eq_of_not_collision {hash : α → β} (h : ¬ Collision hash x y) (heq : hash x = hash y) :
    x = y := by
  by_contra hne
  exact h ⟨hne, heq⟩

theorem hash_ne_of_not_collision {hash : α → β} (h : ¬ Collision hash x y) (hne : x ≠ y) :
    hash x ≠ hash y := fun heq => h ⟨hne, heq⟩

namespace Sha256

abbrev Word := BitVec 32

def bigSigma0 (x : Word) : Word := x.rotateRight 2 ^^^ x.rotateRight 13 ^^^ x.rotateRight 22

def bigSigma1 (x : Word) : Word := x.rotateRight 6 ^^^ x.rotateRight 11 ^^^ x.rotateRight 25

def smallSigma0 (x : Word) : Word := x.rotateRight 7 ^^^ x.rotateRight 18 ^^^ x >>> 3

def smallSigma1 (x : Word) : Word := x.rotateRight 17 ^^^ x.rotateRight 19 ^^^ x >>> 10

def ch (x y z : Word) : Word := (x &&& y) ^^^ (~~~x &&& z)

def maj (x y z : Word) : Word := (x &&& y) ^^^ (x &&& z) ^^^ (y &&& z)

/-- The cube roots of the first 64 primes, the first 32 bits after the point. -/
def constants : List Word :=
  [0x428a2f98, 0x71374491, 0xb5c0fbcf, 0xe9b5dba5, 0x3956c25b, 0x59f111f1, 0x923f82a4, 0xab1c5ed5,
    0xd807aa98, 0x12835b01, 0x243185be, 0x550c7dc3, 0x72be5d74, 0x80deb1fe, 0x9bdc06a7, 0xc19bf174,
    0xe49b69c1, 0xefbe4786, 0x0fc19dc6, 0x240ca1cc, 0x2de92c6f, 0x4a7484aa, 0x5cb0a9dc, 0x76f988da,
    0x983e5152, 0xa831c66d, 0xb00327c8, 0xbf597fc7, 0xc6e00bf3, 0xd5a79147, 0x06ca6351, 0x14292967,
    0x27b70a85, 0x2e1b2138, 0x4d2c6dfc, 0x53380d13, 0x650a7354, 0x766a0abb, 0x81c2c92e, 0x92722c85,
    0xa2bfe8a1, 0xa81a664b, 0xc24b8b70, 0xc76c51a3, 0xd192e819, 0xd6990624, 0xf40e3585, 0x106aa070,
    0x19a4c116, 0x1e376c08, 0x2748774c, 0x34b0bcb5, 0x391c0cb3, 0x4ed8aa4a, 0x5b9cca4f, 0x682e6ff3,
    0x748f82ee, 0x78a5636f, 0x84c87814, 0x8cc70208, 0x90befffa, 0xa4506ceb, 0xbef9a3f7, 0xc67178f2]

structure Working where
  a : Word
  b : Word
  c : Word
  d : Word
  e : Word
  f : Word
  g : Word
  h : Word

/-- The square roots of the first eight primes. -/
def initial : Working :=
  ⟨0x6a09e667, 0xbb67ae85, 0x3c6ef372, 0xa54ff53a, 0x510e527f, 0x9b05688c, 0x1f83d9ab, 0x5be0cd19⟩

/-- The message schedule, newest word first: `n` more words. -/
def schedule : (n : Nat) → List Word → List Word
  | 0, w => w
  | n + 1, w =>
    schedule n
      ((smallSigma1 (w.getD 1 0) + w.getD 6 0 + smallSigma0 (w.getD 14 0) + w.getD 15 0) :: w)

def round (v : Working) (constant word : Word) : Working :=
  let t1 := v.h + bigSigma1 v.e + ch v.e v.f v.g + constant + word
  let t2 := bigSigma0 v.a + maj v.a v.b v.c
  ⟨t1 + t2, v.a, v.b, v.c, v.d + t1, v.e, v.f, v.g⟩

def compress (v : Working) (block : List Word) : Working :=
  let words := (schedule 48 block.reverse).reverse
  let r := (constants.zip words).foldl (fun v kw => round v kw.1 kw.2) v
  ⟨v.a + r.a, v.b + r.b, v.c + r.c, v.d + r.d, v.e + r.e, v.f + r.f, v.g + r.g, v.h + r.h⟩

def bigEndian : (n value : Nat) → List UInt8
  | 0, _ => []
  | n + 1, value => UInt8.ofNat (value / 256 ^ n) :: bigEndian n value

/-- The marker bit, zeros up to 8 bytes before the end of a block, and the
length in bits. -/
def pad (message : List UInt8) : List UInt8 :=
  message ++ 0x80 :: List.replicate ((119 - message.length % 64) % 64) 0 ++
    bigEndian 8 (8 * message.length)

def pieces (size : Nat) : (count : Nat) → List α → List (List α)
  | 0, _ => []
  | count + 1, l => l.take size :: pieces size count (l.drop size)

def toWord (bytes : List UInt8) : Word :=
  bytes.foldl (fun acc byte => (acc <<< 8) ||| byte.toBitVec.setWidth 32) 0

def Working.bytes (v : Working) : List UInt8 :=
  [v.a, v.b, v.c, v.d, v.e, v.f, v.g, v.h].flatMap fun word => bigEndian 4 word.toNat

def digestBytes (message : List UInt8) : List UInt8 :=
  let padded := pad message
  let blocks := (pieces 64 (padded.length / 64) padded).map fun block =>
    (pieces 4 16 block).map toWord
  (blocks.foldl compress initial).bytes

@[simp] theorem length_bigEndian (n value : Nat) : (bigEndian n value).length = n := by
  induction n with
  | zero => rfl
  | succ n ih => simp [bigEndian, ih]

theorem length_digestBytes (message : List UInt8) : (digestBytes message).length = 32 := by
  simp [digestBytes, Working.bytes]

-- the test vector "abc" of the standard
example : digestBytes [0x61, 0x62, 0x63] =
    [0xba, 0x78, 0x16, 0xbf, 0x8f, 0x01, 0xcf, 0xea, 0x41, 0x41, 0x40, 0xde, 0x5d, 0xae, 0x22, 0x23,
      0xb0, 0x03, 0x61, 0xa3, 0x96, 0x17, 0x7a, 0x9c, 0xb4, 0x10, 0xff, 0x61, 0xf2, 0x00, 0x15,
      0xad] := by
  decide +kernel

end Sha256

def sha256 (message : List UInt8) : List.Vector UInt8 32 :=
  ⟨Sha256.digestBytes message, Sha256.length_digestBytes message⟩

end ZkPayroll.Host
