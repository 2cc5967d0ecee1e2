import PromptDraw.Draw.Shuffle

/-!
A permuted congruential generator with 64 bits of state and 32 bits of output.
A seed fixes its state and its increment, and with them every draw. Positions
are drawn without bias: a word is widened by the number of positions and
refused when it falls into the last, incomplete share of the range.
-/

namespace PromptDraw

structure Generator where
  state : UInt64
  increment : UInt64
deriving DecidableEq, Repr

namespace Generator

def multiplier : UInt64 := 6364136223846793005

/-- The word that a state gives: some of its bits, rotated by its highest five. -/
def output (state : UInt64) : UInt32 :=
  let word := (((state >>> 18) ^^^ state) >>> 27).toUInt32
  let turn := (state >>> 59).toUInt32
  (word >>> turn) ||| (word <<< ((32 - turn) % 32))

def step (g : Generator) : Generator :=
  { g with state := g.state * multiplier + g.increment }

def next (g : Generator) : UInt32 × Generator :=
  (output g.state, g.step)

/-- The next four bytes of the sequence that a seed spreads out into. -/
def spread (seed : UInt64) : UInt32 × UInt64 :=
  let state := seed * multiplier + 11634580027462260723
  (output state, state)

def ofSeed (seed : UInt64) : Generator :=
  let (a, seed) := spread seed
  let (b, seed) := spread seed
  let (c, seed) := spread seed
  let (d, _) := spread seed
  let state := a.toUInt64 ||| (b.toUInt64 <<< 32)
  let increment := c.toUInt64 ||| (d.toUInt64 <<< 32) ||| 1
  step ⟨state + increment, increment⟩

/-- The next two words as one number, the first in the low half. -/
def nextPair (g : Generator) : Nat × Generator :=
  let (low, g) := g.next
  let (high, g) := g.next
  (low.toNat + high.toNat * UInt32.size, g)

/-- Draws a number of `width` bits: one word, or two where the width is beyond
one word. -/
def nextWide (width : Nat) (g : Generator) : Nat × Generator :=
  if width = 32 then
    let (word, g) := g.next
    (word.toNat, g)
  else g.nextPair

/-- The number of bits drawn for one of `n` positions. -/
def widthFor (n : Nat) : Nat :=
  if n < UInt32.size then 32 else 64

/-- The last number of `width` bits, after widening by `n`, whose low half is
not in the incomplete share: a multiple of `n` less one. -/
def zone (width n : Nat) : Nat :=
  (n <<< (width - 1 - n.log2)) - 1

/-- Draws until a number is accepted, at most `fuel` times, and gives its share
of the range `0` to `n - 1`. A generator runs through all its states before one
returns, so as many draws as there are states always suffice. -/
def belowWithin (n width : Nat) : (fuel : Nat) → StateM Generator Nat
  | 0 => pure 0
  | fuel + 1 => do
    let value ← nextWide width
    let wide := value * n
    if wide % (1 <<< width) ≤ zone width n then return wide >>> width
    else belowWithin n width fuel

def position (last : Nat) : StateM Generator (Fin (last + 1)) := do
  let value ← belowWithin (last + 1) (widthFor (last + 1)) UInt64.size
  return Fin.ofNat (last + 1) value

instance : IndexSource Generator where
  draw := position

end Generator

end PromptDraw
