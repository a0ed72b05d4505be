import Overlay.Distance

/-!
The most recent latency samples of one neighbor, at most a fixed number of them.
-/

set_option autoImplicit false

namespace Overlay

/-- Which summary of a full window is the neighbor's distance. -/
inductive DistanceMode
  | min
  | mean
deriving DecidableEq, Inhabited, Repr

/-- The latest samples, oldest first. -/
structure SampleWindow where
  capacity : Nat
  samples : List Binary64
deriving DecidableEq, Inhabited, Repr

namespace SampleWindow

/-- An empty window; it has room for one sample at least. -/
def empty (capacity : Nat) : SampleWindow := ⟨max capacity 1, []⟩

def size (window : SampleWindow) : Nat := window.samples.length

def isFull (window : SampleWindow) : Bool := window.size == window.capacity

/-- Adds a sample; a full window gives up its oldest one. -/
def push (window : SampleWindow) (sample : Binary64) : SampleWindow :=
  { window with
    samples := (if window.isFull then window.samples.drop 1 else window.samples) ++ [sample] }

/-- The least sample; infinite without samples. -/
def least (samples : List Binary64) : Binary64 := samples.foldl Binary64.min .infinity

/-- The arithmetic mean, added up from the oldest sample on. -/
def mean (samples : List Binary64) : Binary64 :=
  samples.foldl (· + ·) .negativeZero / Binary64.ofNat samples.length

/-- The distance that the samples give; unknown until the window is full. -/
def distance (window : SampleWindow) (mode : DistanceMode) : Distance :=
  if window.isFull then
    .millis (match mode with
      | .min => least window.samples
      | .mean => mean window.samples)
  else .unknown

@[simp] theorem samples_empty (capacity : Nat) : (empty capacity).samples = [] := rfl

@[simp] theorem capacity_push (window : SampleWindow) (sample : Binary64) :
    (window.push sample).capacity = window.capacity := rfl

end SampleWindow

end Overlay
