import LocalNet.Bytes

/-!
The SHA-256 digest.
-/

namespace LocalNet.Digest.Sha256

def roundConstants : List UInt32 :=
  [ 0x428A2F98, 0x71374491, 0xB5C0FBCF, 0xE9B5DBA5, 0x3956C25B, 0x59F111F1,
    0x923F82A4, 0xAB1C5ED5, 0xD807AA98, 0x12835B01, 0x243185BE, 0x550C7DC3,
    0x72BE5D74, 0x80DEB1FE, 0x9BDC06A7, 0xC19BF174, 0xE49B69C1, 0xEFBE4786,
    0x0FC19DC6, 0x240CA1CC, 0x2DE92C6F, 0x4A7484AA, 0x5CB0A9DC, 0x76F988DA,
    0x983E5152, 0xA831C66D, 0xB00327C8, 0xBF597FC7, 0xC6E00BF3, 0xD5A79147,
    0x06CA6351, 0x14292967, 0x27B70A85, 0x2E1B2138, 0x4D2C6DFC, 0x53380D13,
    0x650A7354, 0x766A0ABB, 0x81C2C92E, 0x92722C85, 0xA2BFE8A1, 0xA81A664B,
    0xC24B8B70, 0xC76C51A3, 0xD192E819, 0xD6990624, 0xF40E3585, 0x106AA070,
    0x19A4C116, 0x1E376C08, 0x2748774C, 0x34B0BCB5, 0x391C0CB3, 0x4ED8AA4A,
    0x5B9CCA4F, 0x682E6FF3, 0x748F82EE, 0x78A5636F, 0x84C87814, 0x8CC70208,
    0x90BEFFFA, 0xA4506CEB, 0xBEF9A3F7, 0xC67178F2 ]

structure State where
  a : UInt32
  b : UInt32
  c : UInt32
  d : UInt32
  e : UInt32
  f : UInt32
  g : UInt32
  h : UInt32
  deriving DecidableEq, Repr

def initial : State :=
  ⟨0x6A09E667, 0xBB67AE85, 0x3C6EF372, 0xA54FF53A,
    0x510E527F, 0x9B05688C, 0x1F83D9AB, 0x5BE0CD19⟩

def rotate (word count : UInt32) : UInt32 :=
  (word >>> count) ||| (word <<< (32 - count))

/-- A one bit, zeros, and the length in bits fill up the last block. -/
def pad (message : Bytes) : Bytes :=
  let zeros := (64 - (message.length + 9) % 64) % 64
  message ++ [0x80] ++ List.replicate zeros 0 ++ Bytes.ofNat 8 (message.length * 8)

def words : (fuel : Nat) → Bytes → List UInt32
  | 0, _ => []
  | fuel + 1, bytes => UInt32.ofNat (Bytes.toNat (bytes.take 4)) :: words fuel (bytes.drop 4)

def nextWord (window : Array UInt32) (index : Nat) : UInt32 :=
  let early := window.getD (index - 15) 0
  let late := window.getD (index - 2) 0
  let small := rotate early 7 ^^^ rotate early 18 ^^^ (early >>> 3)
  let large := rotate late 17 ^^^ rotate late 19 ^^^ (late >>> 10)
  window.getD (index - 16) 0 + small + window.getD (index - 7) 0 + large

def schedule (block : Bytes) : List UInt32 :=
  ((List.range' 16 48).foldl (fun window index => window.push (nextWord window index))
    (words 16 block).toArray).toList

def round (state : State) (constant word : UInt32) : State :=
  let mixE := rotate state.e 6 ^^^ rotate state.e 11 ^^^ rotate state.e 25
  let choice := (state.e &&& state.f) ^^^ ((~~~state.e) &&& state.g)
  let first := state.h + mixE + choice + constant + word
  let mixA := rotate state.a 2 ^^^ rotate state.a 13 ^^^ rotate state.a 22
  let majority := (state.a &&& state.b) ^^^ (state.a &&& state.c) ^^^ (state.b &&& state.c)
  ⟨first + mixA + majority, state.a, state.b, state.c, state.d + first, state.e, state.f, state.g⟩

def compress (state : State) (block : Bytes) : State :=
  let mixed := (roundConstants.zip (schedule block)).foldl
    (fun current pair => round current pair.1 pair.2) state
  ⟨state.a + mixed.a, state.b + mixed.b, state.c + mixed.c, state.d + mixed.d,
    state.e + mixed.e, state.f + mixed.f, state.g + mixed.g, state.h + mixed.h⟩

def absorb : (blocks : Nat) → State → Bytes → State
  | 0, state, _ => state
  | blocks + 1, state, bytes => absorb blocks (compress state (bytes.take 64)) (bytes.drop 64)

def hash (message : Bytes) : Bytes :=
  let padded := pad message
  let state := absorb (padded.length / 64) initial padded
  [state.a, state.b, state.c, state.d, state.e, state.f, state.g, state.h].flatMap
    fun word => Bytes.ofNat 4 word.toNat

end LocalNet.Digest.Sha256
