/-
The SHA-256 digest, by which contents are told apart.

A message is padded to blocks of sixteen words, each block is expanded to sixty-four
words, and a state of eight words is carried through one round a word and added to
what it was before the block.  `Sha256.hex` gives the digest in lowercase
hexadecimal.
-/
namespace PlanHistory

namespace Sha256

/-- The eight words carried from block to block. -/
structure State where
  a : UInt32
  b : UInt32
  c : UInt32
  d : UInt32
  e : UInt32
  f : UInt32
  g : UInt32
  h : UInt32

/-- The state before the first block. -/
def initial : State :=
  ⟨0x6a09e667, 0xbb67ae85, 0x3c6ef372, 0xa54ff53a, 0x510e527f, 0x9b05688c, 0x1f83d9ab,
    0x5be0cd19⟩

/-- The constant of each of the sixty-four rounds. -/
def roundConstants : List UInt32 :=
  [0x428a2f98, 0x71374491, 0xb5c0fbcf, 0xe9b5dba5, 0x3956c25b, 0x59f111f1, 0x923f82a4,
    0xab1c5ed5, 0xd807aa98, 0x12835b01, 0x243185be, 0x550c7dc3, 0x72be5d74, 0x80deb1fe,
    0x9bdc06a7, 0xc19bf174, 0xe49b69c1, 0xefbe4786, 0x0fc19dc6, 0x240ca1cc, 0x2de92c6f,
    0x4a7484aa, 0x5cb0a9dc, 0x76f988da, 0x983e5152, 0xa831c66d, 0xb00327c8, 0xbf597fc7,
    0xc6e00bf3, 0xd5a79147, 0x06ca6351, 0x14292967, 0x27b70a85, 0x2e1b2138, 0x4d2c6dfc,
    0x53380d13, 0x650a7354, 0x766a0abb, 0x81c2c92e, 0x92722c85, 0xa2bfe8a1, 0xa81a664b,
    0xc24b8b70, 0xc76c51a3, 0xd192e819, 0xd6990624, 0xf40e3585, 0x106aa070, 0x19a4c116,
    0x1e376c08, 0x2748774c, 0x34b0bcb5, 0x391c0cb3, 0x4ed8aa4a, 0x5b9cca4f, 0x682e6ff3,
    0x748f82ee, 0x78a5636f, 0x84c87814, 0x8cc70208, 0x90befffa, 0xa4506ceb, 0xbef9a3f7,
    0xc67178f2]

/-- A word turned right by `n` bits. -/
def rotateRight (x : UInt32) (n : UInt32) : UInt32 :=
  (x >>> n) ||| (x <<< (32 - n))

/-- The sixteen words of a block followed by `count` more, each made of four before
it.  The words are kept last first. -/
def expand : Nat → List UInt32 → List UInt32
  | 0, words => words
  | count + 1, words =>
    let early := words.getD 14 0
    let late := words.getD 1 0
    let fromEarly := rotateRight early 7 ^^^ rotateRight early 18 ^^^ (early >>> 3)
    let fromLate := rotateRight late 17 ^^^ rotateRight late 19 ^^^ (late >>> 10)
    expand count ((words.getD 15 0 + fromEarly + words.getD 6 0 + fromLate) :: words)

/-- One round, under the sum of its constant and its word. -/
def round (s : State) (k : UInt32) (w : UInt32) : State :=
  let fromE := rotateRight s.e 6 ^^^ rotateRight s.e 11 ^^^ rotateRight s.e 25
  let choice := (s.e &&& s.f) ^^^ (~~~s.e &&& s.g)
  let first := s.h + fromE + choice + k + w
  let fromA := rotateRight s.a 2 ^^^ rotateRight s.a 13 ^^^ rotateRight s.a 22
  let majority := (s.a &&& s.b) ^^^ (s.a &&& s.c) ^^^ (s.b &&& s.c)
  ⟨first + (fromA + majority), s.a, s.b, s.c, s.d + first, s.e, s.f, s.g⟩

/-- The state after a block of sixteen words. -/
def absorb (s : State) (block : List UInt32) : State :=
  let words := (expand 48 block.reverse).reverse
  let t := (roundConstants.zip words).foldl (fun s kw => round s kw.1 kw.2) s
  ⟨s.a + t.a, s.b + t.b, s.c + t.c, s.d + t.d, s.e + t.e, s.f + t.f, s.g + t.g, s.h + t.h⟩

/-- The bytes of a number, `count` of them, the highest first. -/
def bigEndian (n : Nat) : Nat → List UInt8
  | 0 => []
  | count + 1 => UInt8.ofNat (n / Nat.pow 256 count) :: bigEndian n count

/-- A message followed by a one bit, zeros and its length in bits, a whole number of
blocks in all. -/
def padded (message : List UInt8) : List UInt8 :=
  let length := message.length
  let zeros := (119 - length % 64) % 64
  message ++ 0x80 :: List.replicate zeros 0 ++ bigEndian (8 * length) 8

/-- Four bytes each as words, the highest byte first. -/
def words : List UInt8 → List UInt32
  | a :: b :: c :: d :: rest =>
    (a.toUInt32 <<< 24 ||| b.toUInt32 <<< 16 ||| c.toUInt32 <<< 8 ||| d.toUInt32) :: words rest
  | _ => []

/-- The state after `count` blocks of the given words. -/
def absorbAll (s : State) : Nat → List UInt32 → State
  | 0, _ => s
  | count + 1, ws => absorbAll (absorb s (ws.take 16)) count (ws.drop 16)

/-- The eight words of the digest. -/
def digest (message : ByteArray) : State :=
  let ws := words (padded message.toList)
  absorbAll initial (ws.length / 16) ws

/-- Two lowercase hexadecimal digits for a byte. -/
def byteHex (byte : UInt8) : List Char :=
  [Nat.digitChar (byte.toNat / 16), Nat.digitChar (byte.toNat % 16)]

/-- The digest of a message in lowercase hexadecimal. -/
def hex (message : ByteArray) : String :=
  let s := digest message
  String.ofList <| [s.a, s.b, s.c, s.d, s.e, s.f, s.g, s.h].flatMap fun word =>
    (bigEndian word.toNat 4).flatMap byteHex

end Sha256

end PlanHistory
