/-
  Foundation/Sha256.lean --- SHA-256, to be evaluated.

  Nothing is proved about the digest; a development over a digest that is left open
  takes it from here where it needs one that computes.
-/
import Mathlib.Data.List.Basic
import Mathlib.Data.String.Basic

set_option autoImplicit false

namespace YawnApp.Foundation.Sha256

/-- The words the sixty-four rounds add. -/
def roundWords : List UInt32 := [
  0x428a2f98, 0x71374491, 0xb5c0fbcf, 0xe9b5dba5, 0x3956c25b, 0x59f111f1, 0x923f82a4, 0xab1c5ed5,
  0xd807aa98, 0x12835b01, 0x243185be, 0x550c7dc3, 0x72be5d74, 0x80deb1fe, 0x9bdc06a7, 0xc19bf174,
  0xe49b69c1, 0xefbe4786, 0x0fc19dc6, 0x240ca1cc, 0x2de92c6f, 0x4a7484aa, 0x5cb0a9dc, 0x76f988da,
  0x983e5152, 0xa831c66d, 0xb00327c8, 0xbf597fc7, 0xc6e00bf3, 0xd5a79147, 0x06ca6351, 0x14292967,
  0x27b70a85, 0x2e1b2138, 0x4d2c6dfc, 0x53380d13, 0x650a7354, 0x766a0abb, 0x81c2c92e, 0x92722c85,
  0xa2bfe8a1, 0xa81a664b, 0xc24b8b70, 0xc76c51a3, 0xd192e819, 0xd6990624, 0xf40e3585, 0x106aa070,
  0x19a4c116, 0x1e376c08, 0x2748774c, 0x34b0bcb5, 0x391c0cb3, 0x4ed8aa4a, 0x5b9cca4f, 0x682e6ff3,
  0x748f82ee, 0x78a5636f, 0x84c87814, 0x8cc70208, 0x90befffa, 0xa4506ceb, 0xbef9a3f7, 0xc67178f2]

def firstState : List UInt32 := [
  0x6a09e667, 0xbb67ae85, 0x3c6ef372, 0xa54ff53a, 0x510e527f, 0x9b05688c, 0x1f83d9ab, 0x5be0cd19]

def rotateRight (x : UInt32) (n : UInt32) : UInt32 := (x >>> n) ||| (x <<< (32 - n))

/-- The bytes of a number, the highest first. -/
def bigEndian : Nat → Nat → List Nat
  | 0, _ => []
  | width + 1, n => bigEndian width (n / 256) ++ [n % 256]

/-- The message with its padding and its length in bits. -/
def padded (message : List Nat) : List Nat :=
  message ++ [0x80] ++ List.replicate ((119 - message.length % 64) % 64) 0 ++
    bigEndian 8 (message.length * 8)

def wordsOf : List Nat → List UInt32
  | a :: b :: c :: d :: rest =>
    UInt32.ofNat (((a * 256 + b) * 256 + c) * 256 + d) :: wordsOf rest
  | _ => []

/-- The message schedule, the latest word first. -/
def schedule : Nat → List UInt32 → List UInt32
  | 0, latest => latest
  | rounds + 1, latest =>
    let x := latest.getD 14 0
    let y := latest.getD 1 0
    let low := rotateRight x 7 ^^^ rotateRight x 18 ^^^ (x >>> 3)
    let high := rotateRight y 17 ^^^ rotateRight y 19 ^^^ (y >>> 10)
    schedule rounds ((latest.getD 15 0 + low + latest.getD 6 0 + high) :: latest)

def round (state : List UInt32) (word : UInt32 × UInt32) : List UInt32 :=
  match state with
  | [a, b, c, d, e, f, g, h] =>
    let high := rotateRight e 6 ^^^ rotateRight e 11 ^^^ rotateRight e 25
    let choice := (e &&& f) ^^^ (~~~e &&& g)
    let first := h + high + choice + word.1 + word.2
    let low := rotateRight a 2 ^^^ rotateRight a 13 ^^^ rotateRight a 22
    let majority := (a &&& b) ^^^ (a &&& c) ^^^ (b &&& c)
    [first + low + majority, a, b, c, d + first, e, f, g]
  | other => other

def compress (state block : List UInt32) : List UInt32 :=
  let words := (schedule 48 block.reverse).reverse
  List.zipWith (· + ·) state ((roundWords.zip words).foldl round state)

/-- The blocks one after another; `blocks` bounds their number. -/
def absorb : Nat → List UInt32 → List UInt32 → List UInt32
  | 0, state, _ => state
  | blocks + 1, state, words =>
    if words.isEmpty then state else absorb blocks (compress state (words.take 16)) (words.drop 16)

def digest (message : List Nat) : List Nat :=
  let words := wordsOf (padded message)
  (absorb (words.length / 16) firstState words).flatMap fun word => bigEndian 4 word.toNat

/-- The digest of a text in hexadecimal. -/
def hexDigest (text : List Char) : String :=
  String.ofList (((digest ((text.flatMap String.utf8EncodeChar).map UInt8.toNat)).flatMap
    fun byte => [Nat.digitChar (byte / 16), Nat.digitChar (byte % 16)]))

example : hexDigest "abc".toList =
    "ba7816bf8f01cfea414140de5dae2223b00361a396177a9cb410ff61f20015ad" := by decide +kernel

end YawnApp.Foundation.Sha256
