/-!
The exchange algorithms and the policy each one follows.
-/

set_option autoImplicit false

namespace Overlay

/-- Which entry a full cache gives up. -/
inductive Eviction
  | random
  | oldest
deriving DecidableEq, Inhabited, Repr

/-- Which cached peer a round turns to. -/
inductive Selection
  | random
  | oldest
deriving DecidableEq, Inhabited, Repr

def Eviction.name : Eviction → String
  | .random => "random"
  | .oldest => "oldest"

def Selection.name : Selection → String
  | .random => "random"
  | .oldest => "oldest"

/-- What tells one algorithm from another. -/
structure Policy where
  selection : Selection
  eviction : Eviction
  /-- Peers that answered are kept apart for a second attempt after a failed one. -/
  keepsFallback : Bool
deriving DecidableEq, Inhabited, Repr

/-- An exchange algorithm. -/
inductive Algorithm
  | arrg
  | cyclon
deriving DecidableEq, Inhabited, Repr

namespace Algorithm

/-- Every algorithm, in the order in which they run by default. -/
def all : List Algorithm := [.arrg, .cyclon]

/-- The name used in messages, settings and metrics. -/
def name : Algorithm → String
  | .arrg => "arrg"
  | .cyclon => "cyclon"

def ofName? (name : String) : Option Algorithm := all.find? (·.name == name)

def policy : Algorithm → Policy
  | .arrg => ⟨.random, .random, true⟩
  | .cyclon => ⟨.oldest, .oldest, false⟩

end Algorithm

end Overlay
