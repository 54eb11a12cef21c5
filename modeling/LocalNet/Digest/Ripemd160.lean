import LocalNet.Bytes

/-!
The RIPEMD-160 digest: two lines of eighty steps each, which meet at the end of a block.
-/

namespace LocalNet.Digest.Ripemd160

structure State where
  a : UInt32
  b : UInt32
  c : UInt32
  d : UInt32
  e : UInt32
  deriving DecidableEq, Repr

def initial : State :=
  ⟨0x67452301, 0xEFCDAB89, 0x98BADCFE, 0x10325476, 0xC3D2E1F0⟩

def rotate (word count : UInt32) : UInt32 :=
  (word <<< count) ||| (word >>> (32 - count))

def mix (turn : Nat) (x y z : UInt32) : UInt32 :=
  match turn with
  | 0 => x ^^^ y ^^^ z
  | 1 => (x &&& y) ||| ((~~~x) &&& z)
  | 2 => (x ||| (~~~y)) ^^^ z
  | 3 => (x &&& z) ||| (y &&& (~~~z))
  | _ => x ^^^ (y ||| (~~~z))

/-- One step uses the word at `index`, turned by `shift`. -/
structure Step where
  index : Nat
  shift : UInt32

def steps (indices : List Nat) (shifts : List UInt32) : List Step :=
  (indices.zip shifts).map fun pair => ⟨pair.1, pair.2⟩

def leftSteps : List Step :=
  steps
    [0, 1, 2, 3, 4, 5, 6, 7, 8, 9, 10, 11, 12, 13, 14, 15,
      7, 4, 13, 1, 10, 6, 15, 3, 12, 0, 9, 5, 2, 14, 11, 8,
      3, 10, 14, 4, 9, 15, 8, 1, 2, 7, 0, 6, 13, 11, 5, 12,
      1, 9, 11, 10, 0, 8, 12, 4, 13, 3, 7, 15, 14, 5, 6, 2,
      4, 0, 5, 9, 7, 12, 2, 10, 14, 1, 3, 8, 11, 6, 15, 13]
    [11, 14, 15, 12, 5, 8, 7, 9, 11, 13, 14, 15, 6, 7, 9, 8,
      7, 6, 8, 13, 11, 9, 7, 15, 7, 12, 15, 9, 11, 7, 13, 12,
      11, 13, 6, 7, 14, 9, 13, 15, 14, 8, 13, 6, 5, 12, 7, 5,
      11, 12, 14, 15, 14, 15, 9, 8, 9, 14, 5, 6, 8, 6, 5, 12,
      9, 15, 5, 11, 6, 8, 13, 12, 5, 12, 13, 14, 11, 8, 5, 6]

def rightSteps : List Step :=
  steps
    [5, 14, 7, 0, 9, 2, 11, 4, 13, 6, 15, 8, 1, 10, 3, 12,
      6, 11, 3, 7, 0, 13, 5, 10, 14, 15, 8, 12, 4, 9, 1, 2,
      15, 5, 1, 3, 7, 14, 6, 9, 11, 8, 12, 2, 10, 0, 4, 13,
      8, 6, 4, 1, 3, 11, 15, 0, 5, 12, 2, 13, 9, 7, 10, 14,
      12, 15, 10, 4, 1, 5, 8, 7, 6, 2, 13, 14, 0, 3, 9, 11]
    [8, 9, 9, 11, 13, 15, 15, 5, 7, 7, 8, 11, 14, 14, 12, 6,
      9, 13, 15, 7, 12, 8, 9, 11, 7, 7, 12, 7, 6, 15, 13, 11,
      9, 7, 15, 11, 8, 6, 6, 14, 12, 13, 5, 14, 13, 13, 7, 5,
      15, 5, 8, 11, 14, 14, 6, 14, 6, 9, 12, 9, 12, 5, 15, 8,
      8, 5, 12, 9, 12, 5, 14, 6, 8, 13, 6, 5, 15, 13, 11, 11]

def leftConstants : List UInt32 :=
  [0, 0x5A827999, 0x6ED9EBA1, 0x8F1BBCDC, 0xA953FD4E]

def rightConstants : List UInt32 :=
  [0x50A28BE6, 0x5C4DD124, 0x6D703EF3, 0x7A6D76E9, 0]

def advance (block : Array UInt32) (mixed constant : UInt32) (step : Step) (state : State) :
    State :=
  let sum := state.a + mixed + block.getD step.index 0 + constant
  ⟨state.e, rotate sum step.shift + state.e, state.b, rotate state.c 10, state.d⟩

def runLine (block : Array UInt32) (constants : List UInt32) (turnOf : Nat → Nat)
    (line : List Step) (state : State) : State :=
  (line.zipIdx).foldl
    (fun current numbered =>
      let turn := numbered.2 / 16
      let mixed := mix (turnOf turn) current.b current.c current.d
      advance block mixed (constants.getD turn 0) numbered.1 current)
    state

def littleWord (bytes : Bytes) : UInt32 :=
  UInt32.ofNat (Bytes.toNat bytes.reverse)

def words : (fuel : Nat) → Bytes → List UInt32
  | 0, _ => []
  | fuel + 1, bytes => littleWord (bytes.take 4) :: words fuel (bytes.drop 4)

def compress (state : State) (bytes : Bytes) : State :=
  let block := (words 16 bytes).toArray
  let left := runLine block leftConstants id leftSteps state
  let right := runLine block rightConstants (4 - ·) rightSteps state
  ⟨state.b + left.c + right.d, state.c + left.d + right.e, state.d + left.e + right.a,
    state.e + left.a + right.b, state.a + left.b + right.c⟩

def pad (message : Bytes) : Bytes :=
  let zeros := (64 - (message.length + 9) % 64) % 64
  message ++ [0x80] ++ List.replicate zeros 0 ++ (Bytes.ofNat 8 (message.length * 8)).reverse

def absorb : (blocks : Nat) → State → Bytes → State
  | 0, state, _ => state
  | blocks + 1, state, bytes => absorb blocks (compress state (bytes.take 64)) (bytes.drop 64)

def hash (message : Bytes) : Bytes :=
  let padded := pad message
  let state := absorb (padded.length / 64) initial padded
  [state.a, state.b, state.c, state.d, state.e].flatMap
    fun word => (Bytes.ofNat 4 word.toNat).reverse

end LocalNet.Digest.Ripemd160
