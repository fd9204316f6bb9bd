/-!
# A stream of random numbers

The numbers are those of the standard generator of `rand` 0.8, the key stream of ChaCha with twelve
rounds: block `n` is a fixed scrambling of four constants, eight key words and the number `n`, so every
number of the stream is a function of the key and of its place.  The key is stretched from a seed of 64
bits as `rand` 0.8 does it, by a linear congruential sequence whose states are scrambled to words.
`Generator` walks along the stream in words of 64 bits.
-/

namespace ProximityNet

/-- Four words that are worked on side by side. -/
structure Quad where
  a : UInt32
  b : UInt32
  c : UInt32
  d : UInt32
deriving DecidableEq

namespace Quad

def map₂ (f : UInt32 → UInt32 → UInt32) (p q : Quad) : Quad :=
  ⟨f p.a q.a, f p.b q.b, f p.c q.c, f p.d q.d⟩

def add (p q : Quad) : Quad := map₂ (· + ·) p q

def xor (p q : Quad) : Quad := map₂ (· ^^^ ·) p q

/-- Each word rotated to the left by `n` bits. -/
def rotate (n : UInt32) (q : Quad) : Quad :=
  map₂ (fun x _ => (x <<< n) ||| (x >>> (32 - n))) q q

/-- The words moved on by one place to the left, the first to the end. -/
def shift (q : Quad) : Quad := ⟨q.b, q.c, q.d, q.a⟩

end Quad

/-- Sixteen words in four rows. -/
structure Block where
  first : Quad
  second : Quad
  third : Quad
  fourth : Quad
deriving DecidableEq

namespace Block

def add (x y : Block) : Block :=
  ⟨x.first.add y.first, x.second.add y.second, x.third.add y.third, x.fourth.add y.fourth⟩

/-- The quarter rounds of the four columns. -/
def mixColumns (x : Block) : Block :=
  let a := x.first.add x.second
  let d := (x.fourth.xor a).rotate 16
  let c := x.third.add d
  let b := (x.second.xor c).rotate 12
  let a := a.add b
  let d := (d.xor a).rotate 8
  let c := c.add d
  let b := (b.xor c).rotate 7
  ⟨a, b, c, d⟩

/-- The rows moved so that the diagonals become columns. -/
def slant (x : Block) : Block :=
  ⟨x.first, x.second.shift, x.third.shift.shift, x.fourth.shift.shift.shift⟩

/-- The rows moved back. -/
def unslant (x : Block) : Block :=
  ⟨x.first, x.second.shift.shift.shift, x.third.shift.shift, x.fourth.shift⟩

/-- A round of the columns and a round of the diagonals. -/
def mixTwice (x : Block) : Block := x.mixColumns.slant.mixColumns.unslant

/-- `n` times two rounds. -/
def mix : Nat → Block → Block
  | 0, x => x
  | n + 1, x => mix n x.mixTwice

/-- Twelve rounds, and the sum with what they began with. -/
def scramble (x : Block) : Block := (mix 6 x).add x

/-- The two words at an even place and the next one as one word of 64 bits, the first one low. -/
def pair (x : Block) (place : Nat) : UInt64 :=
  let join (low high : UInt32) : UInt64 := low.toUInt64 ||| (high.toUInt64 <<< 32)
  match place with
  | 0 => join x.first.a x.first.b
  | 1 => join x.first.c x.first.d
  | 2 => join x.second.a x.second.b
  | 3 => join x.second.c x.second.d
  | 4 => join x.third.a x.third.b
  | 5 => join x.third.c x.third.d
  | 6 => join x.fourth.a x.fourth.b
  | _ => join x.fourth.c x.fourth.d

end Block

/-- The key of a stream. -/
structure StreamKey where
  low : Quad
  high : Quad
deriving DecidableEq

namespace StreamKey

/-- The state that follows a state of the sequence that a seed is stretched with. -/
def nextSeed (s : UInt64) : UInt64 := s * 6364136223846793005 + 11634580027462260723

/-- The word that a state of this sequence gives. -/
def seedWord (s : UInt64) : UInt32 :=
  let x := (((s >>> 18) ^^^ s) >>> 27).toUInt32
  let n := (s >>> 59).toUInt32
  (x >>> n) ||| (x <<< (32 - n))

/-- The next four words of the sequence, and its state behind them. -/
def seedQuad (s : UInt64) : Quad × UInt64 :=
  let s₁ := nextSeed s
  let s₂ := nextSeed s₁
  let s₃ := nextSeed s₂
  let s₄ := nextSeed s₃
  (⟨seedWord s₁, seedWord s₂, seedWord s₃, seedWord s₄⟩, s₄)

/-- The key that a seed is stretched to. -/
def ofSeed (seed : UInt64) : StreamKey :=
  let (low, s) := seedQuad seed
  ⟨low, (seedQuad s).1⟩

/-- The block numbered `n`. -/
def block (key : StreamKey) (n : UInt64) : Block :=
  Block.scramble
    ⟨⟨0x61707865, 0x3320646e, 0x79622d32, 0x6b206574⟩, key.low, key.high,
      ⟨n.toUInt32, (n >>> 32).toUInt32, 0, 0⟩⟩

/-- The word of 64 bits at a place of the stream. -/
def word (key : StreamKey) (place : Nat) : UInt64 :=
  (key.block (UInt64.ofNat (place / 8))).pair (place % 8)

end StreamKey

/-- A stream of random numbers and how many were drawn from it. -/
structure Generator where
  key : StreamKey
  drawn : Nat
deriving DecidableEq

namespace Generator

/-- The stream of a seed, from its start. -/
def ofSeed (seed : Nat) : Generator := ⟨.ofSeed (UInt64.ofNat seed), 0⟩

/-- The next word of the stream. -/
def next (g : Generator) : UInt64 × Generator :=
  (g.key.word g.drawn, { g with drawn := g.drawn + 1 })

end Generator

end ProximityNet
