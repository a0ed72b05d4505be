import Mathlib.Data.List.Perm.Basic
import Mathlib.Data.List.Perm.Subperm
import Overlay.PeerCache.Sampling
import Overlay.Proofs.Chance

/-!
What a sample is.

Whatever the source offers, a sample is as large as it was asked to be, or the whole cache where
that is not larger, and its places are different ones (`sample_places`). That takes nine draws for
each entry at most: eight to pick a place that may be taken already, and one to deal what is then
missing (`sample_drawsAtMost`). No choice of places is left out: where the source offers them one
after the other, they are the sample (`sample_dictated`).
-/

set_option autoImplicit false

namespace Overlay.PeerCache

open Chance

section Deal

variable {α : Type}

/-- The item dealt and those left, with the first of them in the place that became free, are the
items that there were. -/
theorem perm_dealt {first : α} {rest : List α} {place : Nat} (inside : place < rest.length + 1) :
    ((first :: rest)[place]?.getD first ::
      if place = 0 then rest else rest.set (place - 1) first).Perm (first :: rest) := by
  cases place with
  | zero => exact .refl _
  | succ place =>
      have behind : place < rest.length := Nat.lt_of_succ_lt_succ inside
      have chosen : (first :: rest)[place + 1]?.getD first = rest[place] := by
        rw [List.getElem?_cons_succ, List.getElem?_eq_getElem behind, Option.getD_some]
      rw [chosen, if_neg (Nat.succ_ne_zero place), Nat.add_sub_cancel]
      calc
        (rest[place] :: rest.set place first).Perm (rest[place] :: first :: rest.eraseIdx place) :=
          (List.set_perm_cons_eraseIdx behind first).cons _
        List.Perm _ (first :: rest[place] :: rest.eraseIdx place) := .swap _ _ _
        List.Perm _ (first :: rest) := (List.getElem_cons_eraseIdx_perm behind).cons first

theorem deal_subperm (count : Nat) (items : List α) :
    (Dice.deal count items).Ensures fun dealt =>
      dealt.Subperm items ∧ dealt.length = min count items.length := by
  induction count generalizing items with
  | zero => exact (ensures_pure _ _).mpr ⟨items.nil_subperm, (Nat.zero_min _).symm⟩
  | succ count ih =>
      cases items with
      | nil => exact (ensures_pure _ _).mpr ⟨.refl _, rfl⟩
      | cons first rest =>
          refine (ensures_index _ (Nat.succ_pos _)).bind fun place inside => ?_
          refine (ih _).bind fun more dealt => (ensures_pure _ _).mpr ?_
          obtain ⟨part, length⟩ := dealt
          refine ⟨((List.subperm_cons _).mpr part).trans (perm_dealt inside).subperm, ?_⟩
          have left : (if place = 0 then rest else rest.set (place - 1) first).length =
              rest.length := by
            split
            · rfl
            · exact List.length_set
          rw [List.length_cons, length, left, List.length_cons, Nat.succ_min_succ]

theorem deal_drawsAtMost (count : Nat) (items : List α) :
    (Dice.deal count items).DrawsAtMost count := by
  induction count generalizing items with
  | zero => exact drawsAtMost_pure _
  | succ count ih =>
      cases items with
      | nil => exact (drawsAtMost_pure _).mono (Nat.zero_le _)
      | cons first rest =>
          refine ((drawsAtMost_index _).bind fun place =>
            (ih _).bind fun more => drawsAtMost_pure _).mono ?_
          omega

end Deal

/-- Different places below a length. -/
structure Places (length : Nat) (places : List Nat) : Prop where
  distinct : places.Nodup
  inside : ∀ place ∈ places, place < length

namespace Places

variable {length place : Nat} {places more : List Nat}

theorem empty (length : Nat) : Places length [] := ⟨List.nodup_nil, nofun⟩

theorem range (length : Nat) : Places length (List.range length) :=
  ⟨List.nodup_range, fun _ => List.mem_range.mp⟩

theorem append (first : Places length places) (second : Places length more)
    (apart : ∀ place ∈ more, place ∉ places) : Places length (places ++ more) where
  distinct := List.nodup_append.mpr ⟨first.distinct, second.distinct,
    fun _ before _ later same => apart _ later (same ▸ before)⟩
  inside := fun place held =>
    (List.mem_append.mp held).elim (first.inside place) (second.inside place)

/-- The places that are left. -/
theorem length_others (picked : Places length places) :
    places.length + ((List.range length).filter (· ∉ places)).length = length := by
  have all : (places ++ (List.range length).filter (· ∉ places)).Perm (List.range length) := by
    refine (List.perm_ext_iff_of_nodup ?_ List.nodup_range).mpr fun place => ?_
    · refine List.nodup_append.mpr ⟨picked.distinct, List.nodup_range.filter _, ?_⟩
      rintro place taken other left rfl
      simpa [taken] using (List.mem_filter.mp left).2
    · by_cases taken : place ∈ places
      · simp [taken, picked.inside place taken]
      · simp [taken]
  have same := all.length_eq
  rwa [List.length_append, List.length_range] at same

end Places

variable {length count : Nat}

theorem pickPlaces_places {draws : Nat} {picked : List Nat} (positive : 0 < length)
    (places : Places length picked) (few : picked.length ≤ count) :
    (pickPlaces length count draws picked).Ensures fun picked =>
      Places length picked ∧ picked.length ≤ count := by
  induction draws generalizing picked with
  | zero => exact (ensures_pure _ _).mpr ⟨places, few⟩
  | succ draws ih =>
      rw [pickPlaces]
      split
      · exact (ensures_pure _ _).mpr ⟨places, few⟩
      · next wanting =>
          refine (ensures_index length positive).bind fun place inside => ?_
          split
          · exact ih places few
          · next free =>
              refine ih (places.append ⟨List.pairwise_singleton _ _, ?_⟩ ?_) ?_
              · rintro other alone
                rwa [List.mem_singleton.mp alone]
              · rintro other alone
                rwa [List.mem_singleton.mp alone]
              · rw [List.length_append, List.length_singleton]
                omega

theorem pickPlaces_drawsAtMost (length count draws : Nat) (picked : List Nat) :
    (pickPlaces length count draws picked).DrawsAtMost draws := by
  induction draws generalizing picked with
  | zero => exact drawsAtMost_pure _
  | succ draws ih =>
      rw [pickPlaces]
      split
      · exact (drawsAtMost_pure _).mono (Nat.zero_le _)
      · exact ((drawsAtMost_index length).bind fun place => ih _).mono (Nat.le_of_eq (by omega))

/-- Where the source offers different places, they are picked as they come. -/
theorem pickPlaces_dictated {draws : Nat} {picked wanted : List Nat} {dice : Dice}
    (dictates : dice.Dictates wanted) (places : Places length (picked ++ wanted))
    (full : picked.length + wanted.length = count) (enough : wanted.length ≤ draws) :
    (pickPlaces length count draws picked dice).1 = picked ++ wanted := by
  induction wanted generalizing draws picked dice with
  | nil =>
      have done : count ≤ picked.length := Nat.le_of_eq full.symm
      rw [List.append_nil]
      cases draws with
      | zero => rfl
      | succ draws =>
          rw [pickPlaces, if_pos done]
          rfl
  | cons first rest ih =>
      rw [List.length_cons] at full enough
      obtain ⟨draws, rfl⟩ : ∃ fewer, draws = fewer + 1 := ⟨draws - 1, by omega⟩
      have inside : first < length := places.inside first (by simp)
      have free : first ∉ picked := fun taken =>
        (List.nodup_append.mp places.distinct).2.2 first taken first List.mem_cons_self rfl
      obtain ⟨offered, later⟩ := dictates.index inside
      have next : (pickPlaces length count (draws + 1) picked dice).1 =
          (pickPlaces length count draws (picked ++ [first]) (Dice.index length dice).2).1 := by
        rw [pickPlaces, if_neg (by omega)]
        change (pickPlaces length count draws (if (Dice.index length dice).1 ∈ picked then picked
          else picked ++ [(Dice.index length dice).1]) (Dice.index length dice).2).1 = _
        rw [offered, if_neg free]
      have moved : picked ++ [first] ++ rest = picked ++ first :: rest := List.append_assoc _ _ _
      rw [next, ih later (by rwa [moved]) (by simp; omega) (by omega), moved]

theorem samplePlaces_places (fits : count < length) :
    (samplePlaces length count).Ensures fun places =>
      Places length places ∧ places.length = count := by
  have positive : 0 < length := Nat.zero_lt_of_lt fits
  refine (pickPlaces_places positive (.empty length) (Nat.zero_le _)).bind fun picked both => ?_
  obtain ⟨places, few⟩ := both
  refine (deal_subperm _ _).bind fun dealt both => (ensures_pure _ _).mpr ?_
  obtain ⟨part, enough⟩ := both
  have left (place : Nat) (held : place ∈ dealt) : place < length ∧ place ∉ picked := by
    simpa using part.subset held
  have others := places.length_others
  refine ⟨places.append ⟨?_, fun place held => (left place held).1⟩
    fun place held => (left place held).2, ?_⟩
  · obtain ⟨kept, same, part⟩ := part
    exact same.nodup_iff.mp (part.nodup (List.nodup_range.filter _))
  · rw [List.length_append]
    omega

theorem samplePlaces_drawsAtMost (length count : Nat) :
    (samplePlaces length count).DrawsAtMost (9 * count) := by
  refine ((pickPlaces_drawsAtMost length count _ []).bind fun picked =>
    ((deal_drawsAtMost (count - picked.length) _).mono (Nat.sub_le _ _)).bind fun dealt =>
      drawsAtMost_pure _).mono ?_
  rw [drawsPerEntry]
  omega

theorem samplePlaces_dictated {wanted : List Nat} {dice : Dice} (dictates : dice.Dictates wanted)
    (places : Places length wanted) (full : wanted.length = count) :
    (samplePlaces length count dice).1 = wanted := by
  have enough : wanted.length ≤ count * drawsPerEntry := by
    rw [full, drawsPerEntry]
    omega
  have picked : (pickPlaces length count (count * drawsPerEntry) [] dice).1 = wanted :=
    pickPlaces_dictated dictates places (by simpa using full) enough
  have undealt (items : List Nat) (dice : Dice) :
      (Dice.deal (count - wanted.length) items dice).1 = [] := by
    rw [full, Nat.sub_self]
    rfl
  let first := pickPlaces length count (count * drawsPerEntry) [] dice
  change first.1 ++ (Dice.deal (count - first.1.length) _ first.2).1 = wanted
  rw [picked, undealt, List.append_nil]

section Entries

variable {entries taken : List Entry} {places : List Nat}

/-- At every place below the length there is an entry. -/
theorem map_some_filterMap (inside : Places entries.length places) :
    (places.filterMap (entries[·]?)).map some = places.map (entries[·]?) := by
  have all := inside.inside
  clear inside
  induction places with
  | nil => rfl
  | cons place rest ih =>
      have there := List.getElem?_eq_getElem (all place List.mem_cons_self)
      have behind := ih fun other held => all other (List.mem_cons_of_mem place held)
      rw [List.filterMap_cons_some there, List.map_cons, List.map_cons, behind, there]

theorem map_some_range (entries : List Entry) :
    entries.map some = (List.range entries.length).map (entries[·]?) := by
  refine List.ext_getElem (by simp) fun place inside _ => ?_
  rw [List.length_map] at inside
  simp [inside]

/-- Entries at different places are among all entries, each as often as it stands there. -/
theorem subperm_of_places (inside : Places entries.length places)
    (stand : taken.map some = places.map (entries[·]?)) : taken.Subperm entries := by
  have among : places.Subperm (List.range entries.length) :=
    inside.distinct.subperm fun place held => List.mem_range.mpr (inside.inside place held)
  obtain ⟨chosen, same, part⟩ := among
  refine (List.map_subperm_map_iff fun _ _ => Option.some.inj).mp ?_
  rw [stand, map_some_range entries]
  exact ⟨_, same.map _, part.map _⟩

end Entries

/-- A sample is as large as it can be, and stands at different places of the cache. -/
theorem sample_places (cache : PeerCache) (count : Nat) :
    (cache.sample count).Ensures fun taken => ∃ places, Places cache.size places ∧
      places.length = min count cache.size ∧ taken.map some = places.map (cache.entries[·]?) := by
  rw [sample]
  split
  · next whole =>
      refine (ensures_pure _ _).mpr ⟨_, .range cache.size, ?_, map_some_range cache.entries⟩
      rw [List.length_range, Nat.min_eq_right whole]
  · next part =>
      have fits : count < cache.size := Nat.lt_of_not_le part
      refine (samplePlaces_places fits).bind fun places both => (ensures_pure _ _).mpr ?_
      refine ⟨places, both.1, ?_, map_some_filterMap both.1⟩
      rw [both.2, Nat.min_eq_left (Nat.le_of_lt fits)]

/-- A sample is as large as it was asked to be, or as the cache. -/
theorem sample_length (cache : PeerCache) (count : Nat) :
    (cache.sample count).Ensures fun taken => taken.length = min count cache.size := by
  refine (sample_places cache count).mono fun taken found => ?_
  obtain ⟨places, _, length, stand⟩ := found
  have same := congrArg List.length stand
  rwa [List.length_map, List.length_map, length] at same

/-- A sample has no more copies than the cache has. -/
theorem sample_subperm (cache : PeerCache) (count : Nat) :
    (cache.sample count).Ensures fun taken => taken.Subperm cache.entries := by
  refine (sample_places cache count).mono fun taken found => ?_
  obtain ⟨places, inside, _, stand⟩ := found
  exact subperm_of_places inside stand

theorem sample_drawsAtMost (cache : PeerCache) (count : Nat) :
    (cache.sample count).DrawsAtMost (9 * count) := by
  rw [sample]
  split
  · exact (drawsAtMost_pure _).mono (Nat.zero_le _)
  · exact (samplePlaces_drawsAtMost cache.size count).bind fun places => drawsAtMost_pure _

/-- Where the source offers different places, the sample is what stands there. -/
theorem sample_dictated {cache : PeerCache} {wanted : List Nat} {dice : Dice}
    (dictates : dice.Dictates wanted) (places : Places cache.size wanted)
    (full : wanted.length = count) (fits : count < cache.size) :
    (cache.sample count dice).1.map some = wanted.map (cache.entries[·]?) := by
  have taken : (cache.sample count dice).1 = wanted.filterMap (cache.entries[·]?) := by
    rw [sample, if_neg (Nat.not_le.mpr fits)]
    change ((samplePlaces cache.size count dice).1).filterMap _ = _
    rw [samplePlaces_dictated dictates places full]
  rw [taken]
  exact map_some_filterMap places

end Overlay.PeerCache
