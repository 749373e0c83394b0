import Covenant.Text

/-!
# SHA-256

The 256-bit digest of a text: the message is padded to whole blocks of 64 bytes, and each block
is compressed into a state of eight words.
-/

set_option autoImplicit false

namespace Covenant.Digest

/-- The first bits of the fractional parts of the cube roots of the first primes. -/
def roundWords : List UInt32 :=
  [0x428a2f98, 0x71374491, 0xb5c0fbcf, 0xe9b5dba5, 0x3956c25b, 0x59f111f1, 0x923f82a4, 0xab1c5ed5,
    0xd807aa98, 0x12835b01, 0x243185be, 0x550c7dc3, 0x72be5d74, 0x80deb1fe, 0x9bdc06a7, 0xc19bf174,
    0xe49b69c1, 0xefbe4786, 0x0fc19dc6, 0x240ca1cc, 0x2de92c6f, 0x4a7484aa, 0x5cb0a9dc, 0x76f988da,
    0x983e5152, 0xa831c66d, 0xb00327c8, 0xbf597fc7, 0xc6e00bf3, 0xd5a79147, 0x06ca6351, 0x14292967,
    0x27b70a85, 0x2e1b2138, 0x4d2c6dfc, 0x53380d13, 0x650a7354, 0x766a0abb, 0x81c2c92e, 0x92722c85,
    0xa2bfe8a1, 0xa81a664b, 0xc24b8b70, 0xc76c51a3, 0xd192e819, 0xd6990624, 0xf40e3585, 0x106aa070,
    0x19a4c116, 0x1e376c08, 0x2748774c, 0x34b0bcb5, 0x391c0cb3, 0x4ed8aa4a, 0x5b9cca4f, 0x682e6ff3,
    0x748f82ee, 0x78a5636f, 0x84c87814, 0x8cc70208, 0x90befffa, 0xa4506ceb, 0xbef9a3f7, 0xc67178f2]

structure State where
  a : UInt32
  b : UInt32
  c : UInt32
  d : UInt32
  e : UInt32
  f : UInt32
  g : UInt32
  h : UInt32

def State.initial : State :=
  ⟨0x6a09e667, 0xbb67ae85, 0x3c6ef372, 0xa54ff53a, 0x510e527f, 0x9b05688c, 0x1f83d9ab, 0x5be0cd19⟩

def rotate (word : UInt32) (count : UInt32) : UInt32 :=
  (word >>> count) ||| (word <<< (32 - count))

def toWords : Text → List UInt32
  | a :: b :: c :: d :: rest =>
    ((a.toUInt32 <<< 24) ||| (b.toUInt32 <<< 16) ||| (c.toUInt32 <<< 8) ||| d.toUInt32)
      :: toWords rest
  | _ => []

def bigEndian (width number : Nat) : Text :=
  (List.range width).reverse.map (fun place => UInt8.ofNat (number / Nat.pow 256 place % 256))

def pad (message : Text) : Text :=
  let zeros := (119 - message.length % 64) % 64
  message ++ (0x80 :: List.replicate zeros 0) ++ bigEndian 8 (message.length * 8)

/-- Extends the schedule, whose words stand in `recent` latest first, by `count` words. -/
def extend : Nat → List UInt32 → List UInt32
  | 0, recent => recent
  | count + 1, recent =>
    let at? (place : Nat) : UInt32 := recent.getD (place - 1) 0
    let far := at? 15
    let near := at? 2
    let sigma0 := rotate far 7 ^^^ rotate far 18 ^^^ (far >>> 3)
    let sigma1 := rotate near 17 ^^^ rotate near 19 ^^^ (near >>> 10)
    extend count ((at? 16 + sigma0 + at? 7 + sigma1) :: recent)

def schedule (words : List UInt32) : List UInt32 := (extend 48 words.reverse).reverse

def step (state : State) (pair : UInt32 × UInt32) : State :=
  let sum1 := rotate state.e 6 ^^^ rotate state.e 11 ^^^ rotate state.e 25
  let choice := (state.e &&& state.f) ^^^ (~~~state.e &&& state.g)
  let first := state.h + sum1 + choice + pair.1 + pair.2
  let sum0 := rotate state.a 2 ^^^ rotate state.a 13 ^^^ rotate state.a 22
  let majority := (state.a &&& state.b) ^^^ (state.a &&& state.c) ^^^ (state.b &&& state.c)
  let second := sum0 + majority
  ⟨first + second, state.a, state.b, state.c, state.d + first, state.e, state.f, state.g⟩

def compress (state : State) (block : List UInt32) : State :=
  let last := (roundWords.zip (schedule block)).foldl step state
  ⟨state.a + last.a, state.b + last.b, state.c + last.c, state.d + last.d,
    state.e + last.e, state.f + last.f, state.g + last.g, state.h + last.h⟩

def compressAll : Nat → State → List UInt32 → State
  | 0, state, _ => state
  | blocks + 1, state, words => compressAll blocks (compress state (words.take 16)) (words.drop 16)

def sha256 (message : Text) : Text :=
  let padded := pad message
  let state := compressAll (padded.length / 64) State.initial (toWords padded)
  [state.a, state.b, state.c, state.d, state.e, state.f, state.g, state.h].flatMap
    (fun word => bigEndian 4 word.toNat)

end Covenant.Digest
