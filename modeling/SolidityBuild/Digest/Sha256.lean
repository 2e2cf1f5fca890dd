import SolidityBuild.Text.Utf8

/-!
SHA-256. A message is padded to whole blocks of 64 octets; each block is spread over a schedule of 64
words, one per round, and the eight working words after the rounds are added to those before them.
-/

set_option autoImplicit false

namespace SolidityBuild

namespace Sha256

/-- The eight words that a block transforms. -/
structure Working where
  a : UInt32
  b : UInt32
  c : UInt32
  d : UInt32
  e : UInt32
  f : UInt32
  g : UInt32
  h : UInt32
deriving DecidableEq, Repr

/-- The words before the first block: fractions of the square roots of the first eight primes. -/
def initial : Working :=
  ⟨0x6a09e667, 0xbb67ae85, 0x3c6ef372, 0xa54ff53a, 0x510e527f, 0x9b05688c, 0x1f83d9ab, 0x5be0cd19⟩

/-- The constants of the rounds: fractions of the cube roots of the first 64 primes. -/
def roundConstants : List UInt32 := [
  0x428a2f98, 0x71374491, 0xb5c0fbcf, 0xe9b5dba5, 0x3956c25b, 0x59f111f1, 0x923f82a4, 0xab1c5ed5,
  0xd807aa98, 0x12835b01, 0x243185be, 0x550c7dc3, 0x72be5d74, 0x80deb1fe, 0x9bdc06a7, 0xc19bf174,
  0xe49b69c1, 0xefbe4786, 0x0fc19dc6, 0x240ca1cc, 0x2de92c6f, 0x4a7484aa, 0x5cb0a9dc, 0x76f988da,
  0x983e5152, 0xa831c66d, 0xb00327c8, 0xbf597fc7, 0xc6e00bf3, 0xd5a79147, 0x06ca6351, 0x14292967,
  0x27b70a85, 0x2e1b2138, 0x4d2c6dfc, 0x53380d13, 0x650a7354, 0x766a0abb, 0x81c2c92e, 0x92722c85,
  0xa2bfe8a1, 0xa81a664b, 0xc24b8b70, 0xc76c51a3, 0xd192e819, 0xd6990624, 0xf40e3585, 0x106aa070,
  0x19a4c116, 0x1e376c08, 0x2748774c, 0x34b0bcb5, 0x391c0cb3, 0x4ed8aa4a, 0x5b9cca4f, 0x682e6ff3,
  0x748f82ee, 0x78a5636f, 0x84c87814, 0x8cc70208, 0x90befffa, 0xa4506ceb, 0xbef9a3f7, 0xc67178f2]

/-- Rotation to the right. -/
def rotate (n : UInt32) (x : UInt32) : UInt32 := (x >>> n) ||| (x <<< (32 - n))

/-- The word that four octets spell, the most significant first. -/
def word (a b c d : UInt8) : UInt32 :=
  (a.toUInt32 <<< 24) ||| (b.toUInt32 <<< 16) ||| (c.toUInt32 <<< 8) ||| d.toUInt32

/-- The words of octets; octets that fill no word are left out. -/
def words : Octets → List UInt32
  | a :: b :: c :: d :: rest => word a b c d :: words rest
  | _ => []

/-- The octets of a number, `count` of them, the most significant first. -/
def octets : (count : Nat) → (n : Nat) → Octets
  | 0, _ => []
  | count + 1, n => octets count (n / 256) ++ [UInt8.ofNat (n % 256)]

/-- The message followed by a one bit, zeros up to a whole number of blocks, and its length in bits. -/
def pad (message : Octets) : Octets :=
  let size := message.length
  message ++ [0x80] ++ List.replicate ((119 - size % 64) % 64) 0 ++ octets 8 (8 * size)

/-- The next word of a schedule from the sixteen before it. -/
def nextWord : List UInt32 → UInt32
  | w0 :: w1 :: _ :: _ :: _ :: _ :: _ :: _ :: _ :: w9 :: _ :: _ :: _ :: _ :: w14 :: _ =>
    let s0 := rotate 7 w1 ^^^ rotate 18 w1 ^^^ (w1 >>> 3)
    let s1 := rotate 17 w14 ^^^ rotate 19 w14 ^^^ (w14 >>> 10)
    w0 + s0 + w9 + s1
  | _ => 0

/-- One round. -/
def round (x : Working) (k w : UInt32) : Working :=
  let s1 := rotate 6 x.e ^^^ rotate 11 x.e ^^^ rotate 25 x.e
  let choice := (x.e &&& x.f) ^^^ (~~~x.e &&& x.g)
  let t1 := x.h + s1 + choice + k + w
  let s0 := rotate 2 x.a ^^^ rotate 13 x.a ^^^ rotate 22 x.a
  let majority := (x.a &&& x.b) ^^^ (x.a &&& x.c) ^^^ (x.b &&& x.c)
  ⟨t1 + (s0 + majority), x.a, x.b, x.c, x.d + t1, x.e, x.f, x.g⟩

/-- The rounds with the given constants; `window` holds the next sixteen words of the schedule. -/
def rounds : List UInt32 → (window : List UInt32) → Working → Working
  | [], _, x => x
  | _ :: _, [], x => x
  | k :: ks, w :: window, x =>
    rounds ks (window ++ [nextWord (w :: window)]) (round x k w)

/-- The working words after one block. -/
def compress (x : Working) (block : List UInt32) : Working :=
  let y := rounds roundConstants block x
  ⟨x.a + y.a, x.b + y.b, x.c + y.c, x.d + y.d, x.e + y.e, x.f + y.f, x.g + y.g, x.h + y.h⟩

/-- The working words after `blocks` blocks of sixteen words. -/
def compressAll : (blocks : Nat) → Working → List UInt32 → Working
  | 0, x, _ => x
  | blocks + 1, x, ws => compressAll blocks (compress x (ws.take 16)) (ws.drop 16)

/-- The digest of a message as eight words. -/
def digest (message : Octets) : Working :=
  let ws := words (pad message)
  compressAll (ws.length / 16) initial ws

/-- A digest in hexadecimal. -/
def hexText (x : Working) : Text :=
  [x.a, x.b, x.c, x.d, x.e, x.f, x.g, x.h].flatMap fun w =>
    [28, 24, 20, 16, 12, 8, 4, 0].map fun s => CodePoint.ofHexDigit ((w >>> s).toNat)

end Sha256

/-- The SHA-256 digest of a message in hexadecimal. -/
def sha256 (message : Octets) : Text := Sha256.hexText (Sha256.digest message)

end SolidityBuild
