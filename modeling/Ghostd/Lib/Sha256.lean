import Ghostd.Lib.Text

/-!
# `Ghostd.Lib.Sha256`: the SHA-256 digest

The digest of a list of bytes as FIPS 180-4 defines it, on numbers below `2 ^ 32`. Every loop
is a recursion over a list, so that a digest can be evaluated.
-/

set_option autoImplicit false

namespace Ghostd.Lib

namespace Sha256

/-- Addition of words. -/
def add (x y : Nat) : Nat := (x + y) % 2 ^ 32

/-- Rotation of a word to the right. -/
def rotr (n x : Nat) : Nat := (x >>> n ||| x <<< (32 - n)) % 2 ^ 32

/-- The complement of a word. -/
def complement (x : Nat) : Nat := x ^^^ 0xffffffff

/-- The first 32 bits of the fractional parts of the cube roots of the first 64 primes. -/
def roundConstants : List Nat :=
  [0x428a2f98, 0x71374491, 0xb5c0fbcf, 0xe9b5dba5, 0x3956c25b, 0x59f111f1, 0x923f82a4, 0xab1c5ed5,
   0xd807aa98, 0x12835b01, 0x243185be, 0x550c7dc3, 0x72be5d74, 0x80deb1fe, 0x9bdc06a7, 0xc19bf174,
   0xe49b69c1, 0xefbe4786, 0x0fc19dc6, 0x240ca1cc, 0x2de92c6f, 0x4a7484aa, 0x5cb0a9dc, 0x76f988da,
   0x983e5152, 0xa831c66d, 0xb00327c8, 0xbf597fc7, 0xc6e00bf3, 0xd5a79147, 0x06ca6351, 0x14292967,
   0x27b70a85, 0x2e1b2138, 0x4d2c6dfc, 0x53380d13, 0x650a7354, 0x766a0abb, 0x81c2c92e, 0x92722c85,
   0xa2bfe8a1, 0xa81a664b, 0xc24b8b70, 0xc76c51a3, 0xd192e819, 0xd6990624, 0xf40e3585, 0x106aa070,
   0x19a4c116, 0x1e376c08, 0x2748774c, 0x34b0bcb5, 0x391c0cb3, 0x4ed8aa4a, 0x5b9cca4f, 0x682e6ff3,
   0x748f82ee, 0x78a5636f, 0x84c87814, 0x8cc70208, 0x90befffa, 0xa4506ceb, 0xbef9a3f7, 0xc67178f2]

/-- The eight words of the running digest. -/
structure Words where
  a : Nat
  b : Nat
  c : Nat
  d : Nat
  e : Nat
  f : Nat
  g : Nat
  h : Nat

/-- The digest before the first block. -/
def initial : Words :=
  ⟨0x6a09e667, 0xbb67ae85, 0x3c6ef372, 0xa54ff53a, 0x510e527f, 0x9b05688c, 0x1f83d9ab, 0x5be0cd19⟩

/-- One round with its message word and constant. -/
def round (s : Words) (w k : Nat) : Words :=
  let s1 := rotr 6 s.e ^^^ rotr 11 s.e ^^^ rotr 25 s.e
  let ch := (s.e &&& s.f) ^^^ (complement s.e &&& s.g)
  let t1 := add (add (add s.h s1) (add ch k)) w
  let s0 := rotr 2 s.a ^^^ rotr 13 s.a ^^^ rotr 22 s.a
  let maj := (s.a &&& s.b) ^^^ (s.a &&& s.c) ^^^ (s.b &&& s.c)
  ⟨add t1 (add s0 maj), s.a, s.b, s.c, add s.d t1, s.e, s.f, s.g⟩

/-- The message word after the sixteen given, the latest of which stands first. -/
def nextWord (w : List Nat) : Nat :=
  let x := w.getD 1 0
  let y := w.getD 14 0
  add (add (rotr 17 x ^^^ rotr 19 x ^^^ x >>> 10) (w.getD 6 0))
    (add (rotr 7 y ^^^ rotr 18 y ^^^ y >>> 3) (w.getD 15 0))

/-- `n` further message words, the latest first. -/
def extend : Nat → List Nat → List Nat
  | 0, w => w
  | n + 1, w => extend n (nextWord w :: w)

/-- Four bytes at a time as words. -/
def toWords : List Nat → List Nat
  | a :: b :: c :: d :: rest => (((a * 256 + b) * 256 + c) * 256 + d) :: toWords rest
  | _ => []

/-- The digest after one block of 64 bytes. -/
def compress (s : Words) (block : List Nat) : Words :=
  let w := (extend 48 (toWords block).reverse).reverse
  let t := (w.zip roundConstants).foldl (fun s p => round s p.1 p.2) s
  ⟨add s.a t.a, add s.b t.b, add s.c t.c, add s.d t.d, add s.e t.e, add s.f t.f, add s.g t.g,
    add s.h t.h⟩

/-- A number as bytes, the highest first. -/
def bigEndian (width n : Nat) : List Nat :=
  (List.range width).map fun i => n / 256 ^ (width - 1 - i) % 256

/-- The message with a one bit, zeros and its length in bits. -/
def padded (bytes : List Nat) : List Nat :=
  bytes ++ 0x80 :: List.replicate ((119 - bytes.length % 64) % 64) 0 ++
    bigEndian 8 (8 * bytes.length)

/-- The given number of blocks, one after the other. -/
def digest : Nat → Words → List Nat → Words
  | 0, s, _ => s
  | n + 1, s, bytes => digest n (compress s (bytes.take 64)) (bytes.drop 64)

end Sha256

/-- `sha256.Sum256`. -/
def sha256 (bytes : List Nat) : List Nat :=
  let text := Sha256.padded bytes
  let s := Sha256.digest (text.length / 64) Sha256.initial text
  [s.a, s.b, s.c, s.d, s.e, s.f, s.g, s.h].flatMap (Sha256.bigEndian 4)

end Ghostd.Lib
