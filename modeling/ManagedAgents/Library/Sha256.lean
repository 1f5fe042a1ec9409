import Mathlib.Data.BitVec
import Mathlib.Data.List.Basic

/-!
# SHA-256

The digest of a list of bytes as 64 hexadecimal digits: padding to blocks of
64 bytes, a schedule of 64 words for each block and one round for each word.
-/

namespace Sha256

abbrev Word := BitVec 32

structure Working where
  a : Word
  b : Word
  c : Word
  d : Word
  e : Word
  f : Word
  g : Word
  h : Word

/-- The fractional parts of the square roots of the first eight primes. -/
def initialHash : Working where
  a := 0x6a09e667
  b := 0xbb67ae85
  c := 0x3c6ef372
  d := 0xa54ff53a
  e := 0x510e527f
  f := 0x9b05688c
  g := 0x1f83d9ab
  h := 0x5be0cd19

/-- The fractional parts of the cube roots of the first 64 primes. -/
def roundConstants : List Word :=
  [0x428a2f98, 0x71374491, 0xb5c0fbcf, 0xe9b5dba5, 0x3956c25b, 0x59f111f1,
   0x923f82a4, 0xab1c5ed5, 0xd807aa98, 0x12835b01, 0x243185be, 0x550c7dc3,
   0x72be5d74, 0x80deb1fe, 0x9bdc06a7, 0xc19bf174, 0xe49b69c1, 0xefbe4786,
   0x0fc19dc6, 0x240ca1cc, 0x2de92c6f, 0x4a7484aa, 0x5cb0a9dc, 0x76f988da,
   0x983e5152, 0xa831c66d, 0xb00327c8, 0xbf597fc7, 0xc6e00bf3, 0xd5a79147,
   0x06ca6351, 0x14292967, 0x27b70a85, 0x2e1b2138, 0x4d2c6dfc, 0x53380d13,
   0x650a7354, 0x766a0abb, 0x81c2c92e, 0x92722c85, 0xa2bfe8a1, 0xa81a664b,
   0xc24b8b70, 0xc76c51a3, 0xd192e819, 0xd6990624, 0xf40e3585, 0x106aa070,
   0x19a4c116, 0x1e376c08, 0x2748774c, 0x34b0bcb5, 0x391c0cb3, 0x4ed8aa4a,
   0x5b9cca4f, 0x682e6ff3, 0x748f82ee, 0x78a5636f, 0x84c87814, 0x8cc70208,
   0x90befffa, 0xa4506ceb, 0xbef9a3f7, 0xc67178f2]

/-! ## Padding -/

/-- The big-endian bytes of the lowest `count` bytes of a number. -/
def bigEndian : ℕ → ℕ → List UInt8
  | 0, _ => []
  | count + 1, value => bigEndian count (value / 256) ++ [UInt8.ofNat value]

def padding (length : ℕ) : List UInt8 :=
  0x80 :: (List.replicate ((119 - length % 64) % 64) 0 ++ bigEndian 8 (8 * length))

/-! ## The message schedule -/

def smallSigma0 (x : Word) : Word :=
  x.rotateRight 7 ^^^ x.rotateRight 18 ^^^ (x >>> 3)

def smallSigma1 (x : Word) : Word :=
  x.rotateRight 17 ^^^ x.rotateRight 19 ^^^ (x >>> 10)

/-- The big-endian words of a list of bytes. -/
def words : List UInt8 → List Word
  | first :: second :: third :: fourth :: rest =>
      BitVec.ofNat 32
        (((first.toNat * 256 + second.toNat) * 256 + third.toNat) * 256 +
          fourth.toNat) :: words rest
  | _ => []

/-- Extend a schedule which is given with its last word first. -/
def extend : ℕ → List Word → List Word
  | 0, schedule => schedule
  | count + 1, schedule =>
      extend count
        ((smallSigma1 (schedule.getD 1 0) + schedule.getD 6 0 +
          smallSigma0 (schedule.getD 14 0) + schedule.getD 15 0) :: schedule)

def schedule (block : List UInt8) : List Word :=
  (extend 48 (words block).reverse).reverse

/-! ## Compression -/

def bigSigma0 (x : Word) : Word :=
  x.rotateRight 2 ^^^ x.rotateRight 13 ^^^ x.rotateRight 22

def bigSigma1 (x : Word) : Word :=
  x.rotateRight 6 ^^^ x.rotateRight 11 ^^^ x.rotateRight 25

def choose (x y z : Word) : Word :=
  (x &&& y) ^^^ (~~~x &&& z)

def majority (x y z : Word) : Word :=
  (x &&& y) ^^^ (x &&& z) ^^^ (y &&& z)

def round (state : Working) (input : Word × Word) : Working :=
  let first :=
    state.h + bigSigma1 state.e + choose state.e state.f state.g + input.1 + input.2
  let second := bigSigma0 state.a + majority state.a state.b state.c
  { a := first + second
    b := state.a
    c := state.b
    d := state.c
    e := state.d + first
    f := state.e
    g := state.f
    h := state.g }

def compress (state : Working) (block : List UInt8) : Working :=
  let last := (roundConstants.zip (schedule block)).foldl round state
  { a := state.a + last.a
    b := state.b + last.b
    c := state.c + last.c
    d := state.d + last.d
    e := state.e + last.e
    f := state.f + last.f
    g := state.g + last.g
    h := state.h + last.h }

/-! ## The digest -/

/-- Compress the given number of blocks. -/
def compressAll : ℕ → Working → List UInt8 → Working
  | 0, state, _ => state
  | count + 1, state, bytes =>
      compressAll count (compress state (bytes.take 64)) (bytes.drop 64)

def digest (bytes : List UInt8) : List UInt8 :=
  let padded := bytes ++ padding bytes.length
  let last := compressAll (padded.length / 64) initialHash padded
  [last.a, last.b, last.c, last.d, last.e, last.f, last.g, last.h].flatMap fun word =>
    bigEndian 4 word.toNat

def hexDigits (byte : UInt8) : List Char :=
  [Nat.digitChar (byte.toNat / 16), Nat.digitChar (byte.toNat % 16)]

def hexdigest (bytes : List UInt8) : String :=
  String.ofList ((digest bytes).flatMap hexDigits)

example : hexdigest [97, 98, 99] =
    "ba7816bf8f01cfea414140de5dae2223b00361a396177a9cb410ff61f20015ad" := by
  decide +kernel

theorem bigEndian_length (count value : ℕ) : (bigEndian count value).length = count := by
  induction count generalizing value with
  | zero => rfl
  | succ count ih => simp [bigEndian, ih]

theorem digest_length (bytes : List UInt8) : (digest bytes).length = 32 := by
  simp [digest, bigEndian_length]

theorem hexdigest_length (bytes : List UInt8) : (hexdigest bytes).length = 64 := by
  have hdigits : ∀ byte, (hexDigits byte).length = 2 := fun _ => rfl
  rw [hexdigest, String.length_ofList, List.length_flatMap]
  simp [hdigits, digest_length]

end Sha256
