import Overlay.Dice

/-!
What a random choice is sure to bring, whatever its source offers.

`Ensures` looks at the answer only, so it may be used one draw after the other: the source that a
later draw meets does not matter. `DrawsAtMost` counts the draws that are added to those that the
source remembers. What a choice may bring is shown with a source that offers given numbers
(`Dictates`).
-/

set_option autoImplicit false

namespace Overlay.Chance

variable {α β : Type}

/-- Every answer that the choice can give has a property. -/
def Ensures (chance : Chance α) (post : α → Prop) : Prop := ∀ dice, post (chance dice).1

theorem ensures_pure (value : α) (post : α → Prop) :
    Ensures (pure value) post ↔ post value :=
  ⟨fun holds => holds .last, fun holds _ => holds⟩

theorem Ensures.bind {chance : Chance α} {next : α → Chance β} {middle : α → Prop}
    {post : β → Prop} (first : Ensures chance middle)
    (second : ∀ value, middle value → Ensures (next value) post) :
    Ensures (chance >>= next) post :=
  fun dice => second _ (first dice) _

theorem Ensures.mono {chance : Chance α} {weak strong : α → Prop} (holds : Ensures chance strong)
    (implies : ∀ value, strong value → weak value) : Ensures chance weak :=
  fun dice => implies _ (holds dice)

/-- A choice without a promise still answers. -/
theorem ensures_true (chance : Chance α) : Ensures chance fun _ => True := fun _ => trivial

theorem ensures_index (limit : Nat) (positive : 0 < limit) :
    Ensures (Dice.index limit) (· < limit) :=
  fun dice => Dice.index_lt dice limit positive

section Draws

/-- However the source offers, the choice ends after so many draws at most. -/
def DrawsAtMost (chance : Chance α) (limit : Nat) : Prop :=
  ∀ dice, ∃ draws, (chance dice).2.drawn = draws ++ dice.drawn ∧ draws.length ≤ limit

variable {chance : Chance α} {next : α → Chance β} {few more limit : Nat}

theorem drawsAtMost_pure (value : α) : DrawsAtMost (pure value) 0 :=
  fun _ => ⟨[], rfl, Nat.le_refl 0⟩

theorem drawsAtMost_index (limit : Nat) : DrawsAtMost (Dice.index limit) 1 := by
  refine fun dice => ⟨[.index limit], ?_, Nat.le_refl 1⟩
  simp only [Dice.index]
  split
  · rfl
  · rfl

theorem DrawsAtMost.mono (bounded : DrawsAtMost chance few) (enough : few ≤ limit) :
    DrawsAtMost chance limit := fun dice =>
  let ⟨draws, drawn, length⟩ := bounded dice
  ⟨draws, drawn, Nat.le_trans length enough⟩

theorem DrawsAtMost.bind (first : DrawsAtMost chance few)
    (second : ∀ value, DrawsAtMost (next value) more) :
    DrawsAtMost (chance >>= next) (few + more) := by
  intro dice
  obtain ⟨early, drawnEarly, lengthEarly⟩ := first dice
  obtain ⟨late, drawnLate, lengthLate⟩ := second (chance dice).1 (chance dice).2
  refine ⟨late ++ early, ?_, ?_⟩
  · calc
      ((chance >>= next) dice).2.drawn = late ++ (chance dice).2.drawn := drawnLate
      _ = (late ++ early) ++ dice.drawn := by rw [drawnEarly, List.append_assoc]
  · rw [List.length_append]
    omega

end Draws

end Overlay.Chance

namespace Overlay.Dice

/-- The source offers these numbers next, whatever is asked for. -/
def Dictates (dice : Dice) (numbers : List Nat) : Prop :=
  ∀ place number, numbers[place]? = some number → ∀ limit,
    dice.offer { dice.count with indices := dice.count.indices + place } limit = number

/-- A source may go on with any numbers. -/
theorem exists_dictates (dice : Dice) (numbers : List Nat) :
    ∃ offer, { dice with offer }.Dictates numbers := by
  refine ⟨fun count _ => numbers[count.indices - dice.count.indices]?.getD 0, ?_⟩
  intro place number told limit
  change numbers[dice.count.indices + place - dice.count.indices]?.getD 0 = number
  rw [Nat.add_sub_cancel_left, told, Option.getD_some]

variable {dice : Dice} {first limit : Nat} {rest : List Nat}

/-- Of the numbers that a source offers next, the first is drawn where it is below the limit. -/
theorem Dictates.index (dictates : dice.Dictates (first :: rest)) (inside : first < limit) :
    (Dice.index limit dice).1 = first ∧ (Dice.index limit dice).2.Dictates rest := by
  have positive : limit ≠ 0 := Nat.ne_zero_of_lt inside
  simp only [Dice.index, positive, ↓reduceIte]
  constructor
  · have offered : dice.offer dice.count limit = first := dictates 0 first rfl limit
    rw [Dice.pick, offered, Nat.mod_eq_of_lt inside]
  · intro place number told limit
    have later := dictates (place + 1) number told limit
    rwa [Nat.add_comm place 1, ← Nat.add_assoc] at later

end Overlay.Dice
