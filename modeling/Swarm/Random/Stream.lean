import Swarm.Random.Block

/-!
# Random streams

A stream is a key and the position of the next word. Every draw is a function from a stream to a
result and the stream after it, so copying a stream and drawing from the copy leaves the first
one alone.

## Main definitions

* `Stream`, `Stream.ofSeed`
* `Stream.next32`, `Stream.next64`: raw words
* `Stream.below`: an integer below a bound
* `Stream.unit`: a double in `[0, 1)`
* `Stream.shuffle`: a random permutation of a list
* `Stream.pick`: a random member of a list
* `Stream.bytes`: a run of bytes

## Design notes

A bounded draw multiplies a word by the bound and answers the high half of the product. Words
whose low half lies outside a zone are drawn again, so the number of words a draw takes is not
bounded in advance; `drawLimit` bounds it in the definition. Each attempt succeeds with
probability at least one half.
-/

namespace Swarm.Random

/-- A deterministic random stream. -/
structure Stream where
  key : Key
  /-- Position of the next word in the key's word sequence. -/
  position : Nat
deriving Repr, DecidableEq, Inhabited

namespace Stream

/-- The stream of a seed, at its start. -/
def ofSeed (seed : UInt64) : Stream :=
  ⟨Key.ofSeed seed, 0⟩

/-- The next word. -/
def next32 (s : Stream) : UInt32 × Stream :=
  (s.key.word s.position, { s with position := s.position + 1 })

/-- The next two words as one, low half first. -/
def next64 (s : Stream) : UInt64 × Stream :=
  let (low, s) := s.next32
  let (high, s) := s.next32
  (high.toUInt64 <<< 32 ||| low.toUInt64, s)

/-- A double in `[0, 1)` with 53 random bits. -/
def unit (s : Stream) : Float × Stream :=
  let (word, s) := s.next64
  ((word >>> 11).toFloat.scaleB (-53), s)

/-- Attempts a bounded draw makes. -/
def drawLimit : Nat := 4096

/-- The largest low half that is accepted for a bound, in words of `width` bits: the bound
shifted up to the top bit, less one. -/
def zone (width bound : Nat) : Nat :=
  bound * Nat.pow 2 (width - 1 - bound.log2) - 1

/-- Draw words of `width` bits until the low half of the product with the bound is accepted, and
answer the high half. -/
def attempt (width : Nat) (draw : Stream → Nat × Stream) (bound : Nat) :
    Nat → Stream → Nat × Stream
  | 0, s => (0, s)
  | fuel + 1, s =>
    let (word, s) := draw s
    let product := word * bound
    if product % Nat.pow 2 width ≤ zone width bound then (product / Nat.pow 2 width, s)
    else attempt width draw bound fuel s

/-- An integer below a 64-bit bound; zero, without a draw, if the bound is zero. -/
def below (bound : Nat) (s : Stream) : Nat × Stream :=
  if bound = 0 then (0, s)
  else attempt 64 (fun s => let (w, s) := s.next64; (w.toNat, s)) bound drawLimit s

/-- An integer below a positive 32-bit bound. -/
def index (bound : Nat) (s : Stream) : Nat × Stream :=
  attempt 32 (fun s => let (w, s) := s.next32; (w.toNat, s)) bound drawLimit s

/-- Swap the places `i`, `i - 1`, …, `1` of an array each with a random place up to it. -/
def shuffleFrom {α : Type} : Nat → Array α → Stream → Array α × Stream
  | 0, xs, s => (xs, s)
  | i + 1, xs, s =>
    let (j, s) := s.index (i + 2)
    shuffleFrom i (xs.swapIfInBounds (i + 1) j) s

theorem shuffleFrom_perm {α : Type} (i : Nat) (xs : Array α) (s : Stream) :
    (shuffleFrom i xs s).1.Perm xs := by
  induction i generalizing xs s with
  | zero => exact Array.Perm.refl _
  | succ i ih =>
    refine (ih _ _).trans ?_
    unfold Array.swapIfInBounds
    split
    · split
      · exact Array.swap_perm _ _
      · exact Array.Perm.refl _
    · exact Array.Perm.refl _

/-- A random permutation of a list. -/
def shuffle {α : Type} (xs : List α) (s : Stream) : List α × Stream :=
  let (ys, s) := shuffleFrom (xs.length - 1) xs.toArray s
  (ys.toList, s)

theorem shuffle_perm {α : Type} (xs : List α) (s : Stream) : (s.shuffle xs).1.Perm xs := by
  have h := shuffleFrom_perm (xs.length - 1) xs.toArray s
  rw [Array.perm_iff_toList_perm] at h
  exact h

/-- A random member of a list; `none`, without a draw, if it is empty. -/
def pick {α : Type} (xs : List α) (s : Stream) : Option α × Stream :=
  if xs.isEmpty then (none, s)
  else
    let (i, s) := s.below xs.length
    (xs[i]?, s)

/-- The four bytes of a word, low byte first. -/
def wordBytes (w : UInt32) : List UInt8 :=
  [w.toUInt8, (w >>> 8).toUInt8, (w >>> 16).toUInt8, (w >>> 24).toUInt8]

/-- The bytes of the next `n` words. -/
def wordRun : Nat → Stream → List UInt8 × Stream
  | 0, s => ([], s)
  | n + 1, s =>
    let (w, s) := s.next32
    let (rest, s) := wordRun n s
    (wordBytes w ++ rest, s)

/-- The next `n` bytes; what is left of the last word is dropped. -/
def bytes (n : Nat) (s : Stream) : List UInt8 × Stream :=
  let (all, s) := wordRun ((n + 3) / 4) s
  (all.take n, s)

end Stream

end Swarm.Random
