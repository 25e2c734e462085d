/-!
# Keyed blocks

The block function of a stream cipher with eight rounds. A key of eight words and a block number
give sixteen words; the words of block 0, block 1 and so on form one endless word sequence.

## Main definitions

* `Key`: eight words
* `Key.ofSeed`: the key grown from a 64-bit seed
* `Key.block`: the words of one block
* `Key.word`: the word at a position of the sequence
-/

namespace Swarm.Random

/-- A key. -/
structure Key where
  words : Array UInt32
deriving Repr, DecidableEq, Inhabited

/-- Advance the state that keys are grown from. -/
def seedStep (state : UInt64) : UInt64 :=
  state * 6364136223846793005 + 11634580027462260723

/-- Rotate a word to the left. -/
def rotateLeft (x : UInt32) (n : UInt32) : UInt32 :=
  (x <<< n) ||| (x >>> (32 - n))

/-- Rotate a word to the right by an amount below 32. -/
def rotateRight (x : UInt32) (n : UInt32) : UInt32 :=
  (x >>> n) ||| (x <<< ((32 - n) % 32))

/-- The key word read off a state. -/
def seedWord (state : UInt64) : UInt32 :=
  rotateRight (((state >>> 18) ^^^ state) >>> 27).toUInt32 (state >>> 59).toUInt32

/-- The first `n` key words grown from a state. -/
def seedWords : Nat → UInt64 → List UInt32
  | 0, _ => []
  | n + 1, state => seedWord (seedStep state) :: seedWords n (seedStep state)

/-- The key of a seed. -/
def Key.ofSeed (seed : UInt64) : Key :=
  ⟨(seedWords 8 seed).toArray⟩

/-- The sixteen words of a block under work, four rows of four. -/
structure Grid where
  (a0 a1 a2 a3 b0 b1 b2 b3 c0 c1 c2 c3 d0 d1 d2 d3 : UInt32)

/-- Mix four words. -/
@[inline] def quarter (a b c d : UInt32) : UInt32 × UInt32 × UInt32 × UInt32 :=
  let a := a + b
  let d := rotateLeft (d ^^^ a) 16
  let c := c + d
  let b := rotateLeft (b ^^^ c) 12
  let a := a + b
  let d := rotateLeft (d ^^^ a) 8
  let c := c + d
  let b := rotateLeft (b ^^^ c) 7
  (a, b, c, d)

/-- Mix the columns, then the diagonals. -/
def Grid.doubleRound (g : Grid) : Grid :=
  let (a0, b0, c0, d0) := quarter g.a0 g.b0 g.c0 g.d0
  let (a1, b1, c1, d1) := quarter g.a1 g.b1 g.c1 g.d1
  let (a2, b2, c2, d2) := quarter g.a2 g.b2 g.c2 g.d2
  let (a3, b3, c3, d3) := quarter g.a3 g.b3 g.c3 g.d3
  let (a0, b1, c2, d3) := quarter a0 b1 c2 d3
  let (a1, b2, c3, d0) := quarter a1 b2 c3 d0
  let (a2, b3, c0, d1) := quarter a2 b3 c0 d1
  let (a3, b0, c1, d2) := quarter a3 b0 c1 d2
  ⟨a0, a1, a2, a3, b0, b1, b2, b3, c0, c1, c2, c3, d0, d1, d2, d3⟩

/-- Add two grids word by word and list the words. -/
def Grid.sum (g h : Grid) : Array UInt32 :=
  #[g.a0 + h.a0, g.a1 + h.a1, g.a2 + h.a2, g.a3 + h.a3,
    g.b0 + h.b0, g.b1 + h.b1, g.b2 + h.b2, g.b3 + h.b3,
    g.c0 + h.c0, g.c1 + h.c1, g.c2 + h.c2, g.c3 + h.c3,
    g.d0 + h.d0, g.d1 + h.d1, g.d2 + h.d2, g.d3 + h.d3]

/-- The grid a block starts from: four constants, the key, the block number and two zeros. -/
def Key.grid (key : Key) (number : Nat) : Grid :=
  let k (i : Nat) : UInt32 := key.words.getD i 0
  ⟨0x61707865, 0x3320646e, 0x79622d32, 0x6b206574,
    k 0, k 1, k 2, k 3, k 4, k 5, k 6, k 7,
    UInt32.ofNat number, UInt32.ofNat (number / Nat.pow 2 32), 0, 0⟩

/-- The words of one block. -/
def Key.block (key : Key) (number : Nat) : Array UInt32 :=
  let start := key.grid number
  start.doubleRound.doubleRound.doubleRound.doubleRound.sum start

/-- The word at a position of the sequence. -/
def Key.word (key : Key) (position : Nat) : UInt32 :=
  (key.block (position / 16)).getD (position % 16) 0

end Swarm.Random
