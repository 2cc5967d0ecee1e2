/-!
Shuffling by exchanges: from the last position down to the second, the item at
a position changes places with one drawn from the positions up to it. The draws
depend on the number of items alone, so they form a `Plan` that is drawn first
and carried out afterwards.
-/

namespace PromptDraw

/-- The draws for shuffling `n` items: for each position from the last down to
the first, a position that is not behind it. -/
def Plan : Nat → Type
  | 0 => Unit
  | n + 1 => Fin (n + 1) × Plan n

/-- A source of positions: `draw last` gives one of the positions `0` to `last`. -/
class IndexSource (σ : Type) where
  draw : (last : Nat) → StateM σ (Fin (last + 1))

namespace Plan

variable {α σ : Type}

/-- Draws a plan. The first position has nothing to change places with, so
nothing is drawn for it. -/
def draw [IndexSource σ] : (n : Nat) → StateM σ (Plan n)
  | 0 => pure ()
  | 1 => pure (0, ())
  | n + 2 => do
    let position ← IndexSource.draw (n + 1)
    let rest ← draw (n + 1)
    return (position, rest)

/-- Carries out a plan on the first `n` items of an array. -/
def permute : (n : Nat) → Plan n → Array α → Array α
  | 0, _, items => items
  | n + 1, (position, rest), items => permute n rest (items.swapIfInBounds n position)

/-- The items of a list in the order into which a plan for them brings them. -/
def apply (items : List α) (plan : Plan items.length) : List α :=
  (permute items.length plan items.toArray).toList

end Plan

def shuffle {α σ : Type} [IndexSource σ] (items : List α) : StateM σ (List α) := do
  let plan ← Plan.draw items.length
  return plan.apply

end PromptDraw
