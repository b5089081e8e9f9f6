/-!
# SHA-256

The digest of a list of bytes. The bytes are padded to whole blocks of sixteen words, and each block
stirs eight words of state in sixty-four rounds.
-/

namespace Dataflow

/-- Eight words. -/
structure Digest where
  a : UInt32
  b : UInt32
  c : UInt32
  d : UInt32
  e : UInt32
  f : UInt32
  g : UInt32
  h : UInt32
deriving DecidableEq, Inhabited

namespace Digest

/-- The words of a digest, in order. -/
def words (x : Digest) : List UInt32 := [x.a, x.b, x.c, x.d, x.e, x.f, x.g, x.h]

/-- The sum of two digests, word by word. -/
def add (x y : Digest) : Digest :=
  ⟨x.a + y.a, x.b + y.b, x.c + y.c, x.d + y.d, x.e + y.e, x.f + y.f, x.g + y.g, x.h + y.h⟩

/-- The eight hexadecimal digits of a word. -/
def wordHex (w : UInt32) : List Char :=
  ([28, 24, 20, 16, 12, 8, 4, 0] : List UInt32).map fun shift =>
    Nat.digitChar ((w >>> shift) &&& 15).toNat

/-- A digest as sixty-four hexadecimal digits. -/
def hex (x : Digest) : String := String.ofList (x.words.flatMap wordHex)

end Digest

namespace Sha256

/-! ### Tables -/

/-- The first thirty-two bits after the point of the cube roots of the first sixty-four primes. -/
def roundConstants : List UInt32 :=
  [
    0x428a2f98, 0x71374491, 0xb5c0fbcf, 0xe9b5dba5, 0x3956c25b, 0x59f111f1, 0x923f82a4, 0xab1c5ed5,
    0xd807aa98, 0x12835b01, 0x243185be, 0x550c7dc3, 0x72be5d74, 0x80deb1fe, 0x9bdc06a7, 0xc19bf174,
    0xe49b69c1, 0xefbe4786, 0x0fc19dc6, 0x240ca1cc, 0x2de92c6f, 0x4a7484aa, 0x5cb0a9dc, 0x76f988da,
    0x983e5152, 0xa831c66d, 0xb00327c8, 0xbf597fc7, 0xc6e00bf3, 0xd5a79147, 0x06ca6351, 0x14292967,
    0x27b70a85, 0x2e1b2138, 0x4d2c6dfc, 0x53380d13, 0x650a7354, 0x766a0abb, 0x81c2c92e, 0x92722c85,
    0xa2bfe8a1, 0xa81a664b, 0xc24b8b70, 0xc76c51a3, 0xd192e819, 0xd6990624, 0xf40e3585, 0x106aa070,
    0x19a4c116, 0x1e376c08, 0x2748774c, 0x34b0bcb5, 0x391c0cb3, 0x4ed8aa4a, 0x5b9cca4f, 0x682e6ff3,
    0x748f82ee, 0x78a5636f, 0x84c87814, 0x8cc70208, 0x90befffa, 0xa4506ceb, 0xbef9a3f7, 0xc67178f2]

/-- The first thirty-two bits after the point of the square roots of the first eight primes. -/
def initial : Digest :=
  ⟨0x6a09e667, 0xbb67ae85, 0x3c6ef372, 0xa54ff53a,
    0x510e527f, 0x9b05688c, 0x1f83d9ab, 0x5be0cd19⟩

/-! ### Words -/

/-- Turn a word to the right by less than its width. -/
def rotate (w n : UInt32) : UInt32 := (w >>> n) ||| (w <<< (32 - n))

/-- Take each bit from `y` or `z` as the bit of `x` says. -/
def choose (x y z : UInt32) : UInt32 := (x &&& y) ^^^ (~~~x &&& z)

/-- Take each bit that at least two of three words have. -/
def majority (x y z : UInt32) : UInt32 := (x &&& y) ^^^ (x &&& z) ^^^ (y &&& z)

/-! ### Blocks -/

/-- Four bytes to a word, the first byte the highest. -/
def wordsOfBytes : List UInt8 → List UInt32
  | p :: q :: r :: s :: rest =>
    ((p.toUInt32 <<< 24) ||| (q.toUInt32 <<< 16) ||| (r.toUInt32 <<< 8) ||| s.toUInt32) ::
      wordsOfBytes rest
  | _ => []

/-- The eight bytes of a number, the first byte the highest. -/
def bytesOfWord (w : UInt64) : List UInt8 :=
  ([56, 48, 40, 32, 24, 16, 8, 0] : List UInt64).map fun shift => (w >>> shift).toUInt8

/-- What follows so many bytes: a one bit, zeros up to a whole number of blocks, and in the last
eight bytes the number of bits. -/
def padding (size : Nat) : List UInt8 :=
  0x80 :: (List.replicate ((119 - size % 64) % 64) 0 ++ bytesOfWord (UInt64.ofNat (8 * size)))

/-- One more word of a schedule: it depends on the four words that stand 2, 7, 15 and 16 places
before it. -/
def nextWord (ws : Array UInt32) : UInt32 :=
  let back (n : Nat) : UInt32 := ws.getD (ws.size - n) 0
  let x := back 15
  let y := back 2
  back 16 + (rotate x 7 ^^^ rotate x 18 ^^^ (x >>> 3)) +
    back 7 + (rotate y 17 ^^^ rotate y 19 ^^^ (y >>> 10))

/-- Lengthen a schedule by a number of words. -/
def extend : Nat → Array UInt32 → Array UInt32
  | 0, ws => ws
  | n + 1, ws => extend n (ws.push (nextWord ws))

/-- The sixty-four words that a block contributes. -/
def schedule (block : List UInt32) : List UInt32 := (extend 48 block.toArray).toList

/-- One round; `w` is a round constant plus a word of the schedule. -/
def round (x : Digest) (w : UInt32) : Digest :=
  let t := x.h + (rotate x.e 6 ^^^ rotate x.e 11 ^^^ rotate x.e 25) + choose x.e x.f x.g + w
  let u := (rotate x.a 2 ^^^ rotate x.a 13 ^^^ rotate x.a 22) + majority x.a x.b x.c
  ⟨t + u, x.a, x.b, x.c, x.d + t, x.e, x.f, x.g⟩

/-- Stir a block into the state. -/
def compress (x : Digest) (block : List UInt32) : Digest :=
  x.add ((List.zipWith (· + ·) roundConstants (schedule block)).foldl round x)

/-- Stir all blocks into the state. -/
def absorb (x : Digest) : List UInt32 → Digest
  | [] => x
  | w :: ws => absorb (compress x (w :: ws.take 15)) (ws.drop 15)
termination_by ws => ws.length
decreasing_by
  simp only [List.length_drop, List.length_cons]
  omega

/-- The digest of a list of bytes. -/
def digest (bytes : List UInt8) : Digest :=
  absorb initial (wordsOfBytes (bytes ++ padding bytes.length))

end Sha256

end Dataflow
