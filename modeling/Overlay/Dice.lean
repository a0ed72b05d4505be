import Overlay.Coordinate
import Overlay.Duration

/-!
Random choices as data.

A source answers with an offer for every draw, which may depend on how many draws went before; an
offered index is reduced below the limit that was asked for, so every index drawn is in range
(`index_lt`). All draws are remembered.
-/

set_option autoImplicit false

namespace Overlay

/-- One draw: an index below a limit, or a fraction of one. -/
inductive Draw
  | index (limit : Nat)
  | fraction
deriving DecidableEq, Inhabited, Repr

/-- How many draws of each kind went before. -/
structure DrawCount where
  indices : Nat
  fractions : Nat
deriving DecidableEq, Inhabited, Repr

/-- A source of random choices. -/
structure Dice where
  /-- The number offered where an index below the limit is wanted. -/
  offer : DrawCount → Nat → Nat
  /-- The fraction that is drawn next. -/
  portion : DrawCount → Binary64
  count : DrawCount
  /-- The draws so far, newest first. -/
  drawn : List Draw

/-- A computation that may draw from a source. -/
abbrev Chance := StateM Dice

namespace Dice

/-- A source that has not been used. -/
def ofOffers (offer : DrawCount → Nat → Nat) (portion : DrawCount → Binary64) : Dice :=
  ⟨offer, portion, ⟨0, 0⟩, []⟩

/-- The index a source gives: its offer below the limit, and zero where no index exists. -/
def pick (dice : Dice) (limit : Nat) : Nat := dice.offer dice.count limit % limit

/-- Draws an index. A limit of zero uses up nothing. -/
def index (limit : Nat) : Chance Nat := fun dice =>
  if limit = 0 then (0, { dice with drawn := .index limit :: dice.drawn })
  else
    (dice.pick limit,
      { dice with
        count := { dice.count with indices := dice.count.indices + 1 }
        drawn := .index limit :: dice.drawn })

/-- Draws a fraction. -/
def fraction : Chance Binary64 := fun dice =>
  (dice.portion dice.count,
    { dice with
      count := { dice.count with fractions := dice.count.fractions + 1 }
      drawn := .fraction :: dice.drawn })

theorem index_lt (dice : Dice) (limit : Nat) (positive : 0 < limit) :
    (index limit dice).1 < limit := by
  have nonzero : limit ≠ 0 := by omega
  simp only [index, nonzero, ↓reduceIte]
  exact Nat.mod_lt _ positive

/-- Up to `count` distinct items of a list in random order: each time one of the items left is
drawn, and the first of them moves to the place that became free. -/
def deal {α : Type} : Nat → List α → Chance (List α)
  | 0, _ => pure []
  | _ + 1, [] => pure []
  | count + 1, first :: rest => do
    let index ← index (rest.length + 1)
    let chosen := (first :: rest)[index]?.getD first
    let others := if index = 0 then rest else rest.set (index - 1) first
    let more ← deal count others
    pure (chosen :: more)

/-- A direction: three fractions spread over plus and minus one, brought to length one. -/
def direction : Chance Coordinate := do
  let spread := fun (share : Binary64) => share * Binary64.ofNat 2 - Binary64.one
  let x ← fraction
  let y ← fraction
  let z ← fraction
  pure (Point.unit ⟨spread x, spread y, spread z⟩)

/-- A span lengthened by a random fraction of itself. -/
def jittered (span : Duration) : Chance Duration := do
  let share ← fraction
  pure (span.jittered share)

/-- The same number and the same fraction at every draw. -/
def constant (number : Nat) (share : Binary64) : Dice :=
  ofOffers (fun _ _ => number) fun _ => share

/-- The largest fraction that `constant` is given: the double below one by the spacing above it. -/
def largestShare : Binary64 := Binary64.one - Scalar.epsilon

/-- A fraction moved into the range from zero up to `largestShare`. -/
def share (number : Binary64) : Binary64 := Scalar.clamp .zero largestShare number

/-- Numbers and fractions from two lists, each read over and over; an empty list gives zeros. -/
def cyclic (numbers : Array Nat) (shares : Array Binary64) : Dice :=
  ofOffers (fun count _ => numbers.getD (count.indices % numbers.size) 0)
    fun count => shares.getD (count.fractions % shares.size) .zero

/-- Always the last index, and no fraction. -/
def last : Dice := ofOffers (fun _ limit => limit - 1) fun _ => .zero

end Dice

/-- A linear congruential generator on sixty-four bits. -/
structure Congruential where
  multiplier : UInt64
  increment : UInt64
deriving DecidableEq, Inhabited, Repr

namespace Congruential

/-- The map that takes one step of `second` after `first`. -/
def andThen (first second : Congruential) : Congruential :=
  { multiplier := second.multiplier * first.multiplier
    increment := second.multiplier * first.increment + second.increment }

def apply (generator : Congruential) (state : UInt64) : UInt64 :=
  generator.multiplier * state + generator.increment

/-- The map that takes the given number of steps at once, by repeated squaring. -/
def steps (generator : Congruential) (count : Nat) : Congruential :=
  if count = 0 then ⟨1, 0⟩
  else
    let halved := (generator.andThen generator).steps (count / 2)
    if count % 2 = 0 then halved else generator.andThen halved
termination_by count
decreasing_by omega

/-- The generator that `Dice.congruential` runs on. -/
def standard : Congruential := ⟨6364136223846793005, 1442695040888963407⟩

end Congruential

namespace Dice

/-- Indices and fractions from one generator: the upper bits of the state after one more step. -/
def congruential (seed : UInt64) : Dice :=
  let state := fun (count : DrawCount) =>
    (Congruential.standard.steps (count.indices + count.fractions + 1)).apply seed
  ofOffers (fun count _ => (state count >>> 33).toNat) fun count =>
    Binary64.ofNat (state count >>> 11).toNat / Binary64.ofNat (Nat.pow 2 53)

end Dice

end Overlay
