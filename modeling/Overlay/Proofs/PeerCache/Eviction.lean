import Overlay.Proofs.Chance
import Overlay.Proofs.PeerCache.Merge
import Mathlib.Data.List.Induction
import Mathlib.Data.Set.Function

/-!
Giving entries up. A victim is found as long as some entry is not protected (`victim_ensures`), so
trimming leaves a part of the entries in their old order, as few as were asked for
(`giveUp_ensures`).
-/

set_option autoImplicit false

namespace Overlay.PeerCache

variable {protect : Option PeerId} {entries : List Entry}

/-- An entry at this place may be given up. -/
def IsCandidate (protect : Option PeerId) (entries : List Entry) (place : Nat) : Prop :=
  ∃ entry, entries[place]? = some entry ∧ some entry.id ≠ protect

theorem IsCandidate.lt {place : Nat} (candidate : IsCandidate protect entries place) :
    place < entries.length := by
  obtain ⟨entry, found, _⟩ := candidate
  exact (List.getElem?_eq_some_iff.mp found).1

/-- Of two entries with their places, which one goes first where the oldest have to go: the one that
has survived more rounds, or of two that have survived as many the one further ahead. -/
def GoesFirst (first second : Entry × Nat) : Prop :=
  second.1.age < first.1.age ∨ first.1.age = second.1.age ∧ first.2 ≤ second.2

instance (first second : Entry × Nat) : Decidable (GoesFirst first second) :=
  inferInstanceAs (Decidable (_ ∨ _))

theorem GoesFirst.refl (item : Entry × Nat) : GoesFirst item item := Or.inr ⟨rfl, Nat.le_refl _⟩

/-- The entry, with its place, that goes before all others that are not protected. -/
structure Eldest (protect : Option PeerId) (items : List (Entry × Nat)) (item : Entry × Nat) :
    Prop where
  member : item ∈ items
  free : some item.1.id ≠ protect
  first : ∀ other ∈ items, some other.1.id ≠ protect → GoesFirst item other

/-- What `older` finds among entries whose places rise is the eldest one, and it finds one if there
is an entry that is not protected. The induction takes entries from the end, where `older` looks
last: an entry there has to have survived more rounds than all before it. -/
theorem foldl_older_spec (protect : Option PeerId) {items : List (Entry × Nat)}
    (rising : items.Pairwise (·.2 < ·.2)) :
    (∀ place age, items.foldl (older protect) none = some (place, age) →
      ∃ entry : Entry, entry.age = age ∧ Eldest protect items (entry, place)) ∧
    (items.foldl (older protect) none = none → ∀ item ∈ items, some item.1.id = protect) := by
  induction items using List.reverseRecOn with
  | nil => simp
  | append_singleton items last ih =>
      obtain ⟨earlier, -, ahead⟩ := List.pairwise_append.mp rising
      simp only [List.mem_singleton, forall_eq] at ahead
      obtain ⟨found, absent⟩ := ih earlier
      rw [List.foldl_append]
      generalize items.foldl (older protect) none = best at found absent
      simp only [List.foldl_cons, List.foldl_nil, older]
      by_cases guarded : some last.1.id = protect
      · simp only [guarded, ↓reduceIte]
        constructor
        · intro place age chosen
          obtain ⟨entry, same, member, free, first⟩ := found place age chosen
          refine ⟨entry, same, List.mem_append_left _ member, free, fun other held apart => ?_⟩
          rcases List.mem_append.mp held with before | atEnd
          · exact first other before apart
          · exact absurd (List.mem_singleton.mp atEnd ▸ guarded) apart
        · intro none item held
          rcases List.mem_append.mp held with before | atEnd
          · exact absent none item before
          · exact List.mem_singleton.mp atEnd ▸ guarded
      · have atEnd : last ∈ items ++ [last] := List.mem_append_right _ (List.mem_singleton_self last)
        simp only [guarded, ↓reduceIte]
        cases best with
        | none =>
            refine ⟨?_, nofun⟩
            rintro place age ⟨⟩
            refine ⟨last.1, rfl, atEnd, guarded, fun other held apart => ?_⟩
            rcases List.mem_append.mp held with before | same
            · exact absurd (absent rfl other before) apart
            · rw [List.mem_singleton.mp same]
              exact GoesFirst.refl last
        | some best =>
            obtain ⟨entry, aged, member, free, first⟩ := found best.1 best.2 rfl
            by_cases younger : last.1.age ≤ best.2
            · simp only [younger, ↓reduceIte]
              refine ⟨fun place age chosen => ?_, nofun⟩
              obtain rfl : best = (place, age) := Option.some.inj chosen
              refine ⟨entry, aged, List.mem_append_left _ member, free, fun other held apart => ?_⟩
              rcases List.mem_append.mp held with before | same
              · exact first other before apart
              · rw [List.mem_singleton.mp same]
                rw [← aged] at younger
                rcases UInt32.lt_or_eq_of_le younger with less | equal
                · exact Or.inl less
                · exact Or.inr ⟨equal.symm, Nat.le_of_lt (ahead _ member)⟩
            · simp only [younger, ↓reduceIte]
              refine ⟨?_, nofun⟩
              rintro place age ⟨⟩
              refine ⟨last.1, rfl, atEnd, guarded, fun other held apart => ?_⟩
              rcases List.mem_append.mp held with before | same
              · have longer : entry.age < last.1.age := by
                  rw [aged]
                  exact UInt32.not_le.mp younger
                rcases first other before apart with less | ⟨equal, -⟩
                · exact Or.inl (UInt32.lt_trans less longer)
                · exact Or.inl (equal ▸ longer)
              · rw [List.mem_singleton.mp same]
                exact GoesFirst.refl last

theorem rising_zipIdx (entries : List Entry) : entries.zipIdx.Pairwise (·.2 < ·.2) := by
  have places := List.pairwise_lt_range' (s := 0) (n := entries.length) 1
  rw [← List.zipIdx_map_snd, List.pairwise_map] at places
  exact places

theorem oldestIndex_eldest {place : Nat} (chosen : oldestIndex protect entries = some place) :
    ∃ entry, Eldest protect entries.zipIdx (entry, place) := by
  obtain ⟨⟨found, age⟩, best, rfl⟩ := Option.map_eq_some_iff.mp chosen
  obtain ⟨entry, -, eldest⟩ :=
    (foldl_older_spec protect (rising_zipIdx entries)).1 found age best
  exact ⟨entry, eldest⟩

theorem oldestIndex_candidate {place : Nat} (chosen : oldestIndex protect entries = some place) :
    IsCandidate protect entries place := by
  obtain ⟨entry, eldest⟩ := oldestIndex_eldest chosen
  exact ⟨entry, List.mem_zipIdx_iff_getElem?.mp eldest.member, eldest.free⟩

theorem guarded_of_oldestIndex (absent : oldestIndex protect entries = none) :
    ∀ entry ∈ entries, some entry.id = protect := by
  intro entry member
  obtain ⟨place, there⟩ := List.mem_iff_getElem?.mp member
  exact (foldl_older_spec protect (rising_zipIdx entries)).2 (Option.map_eq_none_iff.mp absent)
    (entry, place) (List.mem_zipIdx_iff_getElem?.mpr there)

theorem oldestIndex_isSome {entry : Entry} (member : entry ∈ entries)
    (free : some entry.id ≠ protect) : ∃ place, oldestIndex protect entries = some place :=
  Option.ne_none_iff_exists'.mp fun absent => free (guarded_of_oldestIndex absent entry member)

/-- Where the protected peer stands, if one is protected and it is there. -/
def protectedPlace (protect : Option PeerId) (entries : List Entry) : Option Nat :=
  protect.bind fun id => entries.findIdx? (·.id = id)

/-- Every entry may be given up but the one at the protected place. -/
theorem isCandidate_iff (distinct : (ids entries).Nodup) {place : Nat} :
    IsCandidate protect entries place ↔
      place < entries.length ∧ protectedPlace protect entries ≠ some place := by
  constructor
  · intro candidate
    refine ⟨candidate.lt, fun located => ?_⟩
    obtain ⟨id, rfl, found⟩ := Option.bind_eq_some_iff.mp located
    obtain ⟨there, same, -⟩ := List.findIdx?_eq_some_iff_getElem.mp found
    obtain ⟨entry, here, free⟩ := candidate
    rw [List.getElem?_eq_getElem there, Option.some.injEq] at here
    rw [← here] at free
    exact free (congrArg some (of_decide_eq_true same))
  · rintro ⟨inside, apart⟩
    refine ⟨entries[place], List.getElem?_eq_getElem inside, ?_⟩
    rintro rfl
    have held : ∃ entry ∈ entries, decide (entry.id = entries[place].id) = true :=
      ⟨entries[place], List.getElem_mem inside, decide_eq_true rfl⟩
    obtain ⟨found, located⟩ := Option.isSome_iff_exists.mp (List.findIdx?_isSome.trans
      (List.any_eq_true.mpr held))
    obtain ⟨there, same, -⟩ := List.findIdx?_eq_some_iff_getElem.mp located
    have named : (ids entries)[found]? = (ids entries)[place]? := by
      simpa [ids, there, inside] using same
    have equal : found = place :=
      (List.getElem?_inj (by simpa [ids] using there) distinct).mp named
    exact apart (equal ▸ located)

/-- The place of the entry that a number stands for when the one at a protected place is left
out. -/
def passing (guarded : Option Nat) (number : Nat) : Nat :=
  match guarded with
  | some skipped => if skipped ≤ number then number + 1 else number
  | none => number

/-- How many entries a random one is drawn from. -/
def drawable (protect : Option PeerId) (entries : List Entry) : Nat :=
  entries.length - (if (protectedPlace protect entries).isSome then 1 else 0)

theorem randomIndex_eq (protect : Option PeerId) (entries : List Entry) :
    randomIndex protect entries =
      if drawable protect entries = 0 then pure none
      else Dice.index (drawable protect entries) >>= fun number =>
        pure (some (passing (protectedPlace protect entries) number)) := rfl

theorem passing_lt {number : Nat} (inside : number < drawable protect entries) :
    passing (protectedPlace protect entries) number < entries.length := by
  rw [drawable] at inside
  cases located : protectedPlace protect entries with
  | none =>
      simp only [passing]
      omega
  | some skipped =>
      simp only [located, Option.isSome_some, ↓reduceIte] at inside
      simp only [passing]
      split
      · omega
      · omega

theorem passing_ne (guarded : Option Nat) (number : Nat) :
    guarded ≠ some (passing guarded number) := by
  cases guarded with
  | none => nofun
  | some skipped =>
      simp only [passing, ne_eq, Option.some.injEq]
      split
      · omega
      · omega

/-- The numbers stand for the places of the entries that may be given up, each for another one. -/
theorem passing_bijOn (distinct : (ids entries).Nodup) :
    Set.BijOn (passing (protectedPlace protect entries))
      {number | number < drawable protect entries} {place | IsCandidate protect entries place} := by
  refine ⟨fun number inside => ?_, fun one _ other _ same => ?_, fun place candidate => ?_⟩
  · exact (isCandidate_iff distinct).mpr ⟨passing_lt inside, passing_ne _ number⟩
  · cases located : protectedPlace protect entries with
    | none => simpa only [located, passing] using same
    | some skipped =>
        simp only [located, passing] at same
        split at same <;> split at same <;> omega
  · obtain ⟨inside, apart⟩ := (isCandidate_iff distinct).mp candidate
    rw [Set.mem_image]
    simp only [Set.mem_ofPred_eq, drawable]
    cases located : protectedPlace protect entries with
    | none => exact ⟨place, by simpa using inside, rfl⟩
    | some skipped =>
        rw [located, ne_eq, Option.some.injEq] at apart
        simp only [Option.isSome_some, ↓reduceIte, passing]
        by_cases behind : skipped < place
        · refine ⟨place - 1, by omega, ?_⟩
          rw [if_pos (by omega)]
          omega
        · have located' := Option.bind_eq_some_iff.mp located
          obtain ⟨id, -, found⟩ := located'
          obtain ⟨there, -⟩ := List.findIdx?_eq_some_iff_getElem.mp found
          exact ⟨place, by omega, if_neg (by omega)⟩

theorem drawable_pos (distinct : (ids entries).Nodup) {place : Nat}
    (candidate : IsCandidate protect entries place) : 0 < drawable protect entries := by
  obtain ⟨number, inside, -⟩ := (passing_bijOn distinct).surjOn candidate
  exact Nat.zero_lt_of_lt inside

theorem randomIndex_ensures (distinct : (ids entries).Nodup) {entry : Entry}
    (member : entry ∈ entries) (free : some entry.id ≠ protect) :
    (randomIndex protect entries).Ensures fun found =>
      ∃ place, found = some place ∧ IsCandidate protect entries place := by
  obtain ⟨place, there⟩ := List.mem_iff_getElem?.mp member
  have positive := drawable_pos distinct ⟨entry, there, free⟩
  rw [randomIndex_eq, if_neg (Nat.ne_zero_of_lt positive)]
  refine (Chance.ensures_index _ positive).bind fun number inside => ?_
  refine (Chance.ensures_pure _ _).mpr ⟨_, rfl, ?_⟩
  exact (passing_bijOn distinct).mapsTo inside

/-- A victim is found as long as some entry is not protected, and it is not the protected one. -/
theorem victim_ensures (eviction : Eviction) (distinct : (ids entries).Nodup) {entry : Entry}
    (member : entry ∈ entries) (free : some entry.id ≠ protect) :
    (victim eviction protect entries).Ensures fun found =>
      ∃ place, found = some place ∧ IsCandidate protect entries place := by
  cases eviction with
  | oldest =>
      obtain ⟨place, found⟩ := oldestIndex_isSome member free
      exact (Chance.ensures_pure _ _).mpr ⟨place, found, oldestIndex_candidate found⟩
  | random => exact randomIndex_ensures distinct member free

/-- Of two entries of different peers one is not protected, and without protection any one is. -/
theorem exists_free (distinct : (ids entries).Nodup)
    (nonempty : entries ≠ []) (several : protect.isSome → 1 < entries.length) :
    ∃ entry ∈ entries, some entry.id ≠ protect := by
  match entries with
  | [entry] =>
      cases protect with
      | none => exact ⟨entry, List.mem_singleton_self entry, nofun⟩
      | some id => exact absurd (several rfl) (by simp)
  | first :: second :: rest =>
      have apart : first.id ≠ second.id := by
        simp only [ids_cons, List.nodup_cons, List.mem_cons, not_or] at distinct
        exact distinct.1.1
      by_cases guarded : some first.id = protect
      · refine ⟨second, by simp, fun also => apart (Option.some.inj (guarded.trans also.symm))⟩
      · exact ⟨first, by simp, guarded⟩

/-- What is left is a part of the entries in their old order, smaller by as many as were to be given
up. Where a peer is protected, one entry at least has to be left. -/
theorem giveUp_ensures (eviction : Eviction) (excess : Nat) (distinct : (ids entries).Nodup)
    (within : excess ≤ entries.length) (spare : protect.isSome → excess < entries.length) :
    (giveUp eviction protect excess entries).Ensures fun kept =>
      kept.Sublist entries ∧ kept.length = entries.length - excess := by
  induction excess generalizing entries with
  | zero => exact (Chance.ensures_pure _ _).mpr ⟨List.Sublist.refl _, rfl⟩
  | succ excess ih =>
      have nonempty : entries ≠ [] := by
        rintro rfl
        simp at within
      obtain ⟨entry, member, free⟩ := exists_free distinct nonempty fun guarded => by
        have := spare guarded
        omega
      refine (victim_ensures eviction distinct member free).bind ?_
      rintro _ ⟨place, rfl, candidate⟩
      have shorter := List.length_eraseIdx_of_lt candidate.lt
      have part := List.eraseIdx_sublist entries place
      refine (ih (distinct.sublist (part.map Entry.id)) (by omega) fun guarded => ?_).mono ?_
      · have := spare guarded
        omega
      · rintro kept ⟨sub, length⟩
        exact ⟨sub.trans part, by omega⟩

/-- The protected peer is not among those that are given up. -/
theorem mem_ids_eraseIdx {id : PeerId} {place : Nat} (held : id ∈ ids entries)
    (candidate : IsCandidate (some id) entries place) : id ∈ ids (entries.eraseIdx place) := by
  obtain ⟨entry, stored, named⟩ := mem_ids.mp held
  obtain ⟨victim, there, free⟩ := candidate
  obtain ⟨other, here⟩ := List.mem_iff_getElem?.mp stored
  have apart : other ≠ place := by
    intro same
    rw [same, there] at here
    cases here
    exact free (congrArg some named)
  exact mem_ids.mpr ⟨entry, List.mem_eraseIdx_iff_getElem?.mpr ⟨other, apart, here⟩, named⟩

theorem giveUp_spares (eviction : Eviction) {id : PeerId} {excess : Nat}
    (distinct : (ids entries).Nodup) (held : id ∈ ids entries) (spare : excess < entries.length) :
    (giveUp eviction (some id) excess entries).Ensures fun kept => id ∈ ids kept := by
  induction excess generalizing entries with
  | zero => exact (Chance.ensures_pure _ _).mpr held
  | succ excess ih =>
      have nonempty : entries ≠ [] := by
        rintro rfl
        cases held
      obtain ⟨entry, member, free⟩ := exists_free distinct nonempty fun _ => by omega
      refine (victim_ensures eviction distinct member free).bind ?_
      rintro _ ⟨place, rfl, candidate⟩
      have shorter := List.length_eraseIdx_of_lt candidate.lt
      have part := List.eraseIdx_sublist entries place
      exact ih (distinct.sublist (part.map Entry.id)) (mem_ids_eraseIdx held candidate) (by omega)

/-- Trimming keeps a part of the entries in their old order, and exactly as many as the limit
admits. -/
theorem trim_ensures (cache : PeerCache) (limit : Nat) (distinct : (ids cache.entries).Nodup)
    (spare : protect.isSome → 0 < limit) :
    (cache.trim limit protect).Ensures fun kept =>
      kept = { cache with entries := kept.entries } ∧
        kept.entries.Sublist cache.entries ∧ kept.size = min cache.size limit := by
  by_cases fits : cache.size ≤ limit
  · rw [trim, Nat.sub_eq_zero_of_le fits]
    exact (Chance.ensures_pure _ _).mpr ⟨rfl, List.Sublist.refl _, (Nat.min_eq_left fits).symm⟩
  · refine (giveUp_ensures cache.eviction (cache.size - limit) distinct (Nat.sub_le _ _)
      fun guarded => ?_).bind ?_
    · have := spare guarded
      change cache.size - limit < cache.size
      omega
    · rintro kept ⟨sub, length⟩
      refine (Chance.ensures_pure _ _).mpr ⟨rfl, sub, ?_⟩
      change kept.length = min cache.size limit
      rw [length]
      change cache.size - (cache.size - limit) = min cache.size limit
      omega

theorem trim_spares (cache : PeerCache) {limit : Nat} {id : PeerId}
    (distinct : (ids cache.entries).Nodup) (held : id ∈ ids cache.entries) (spare : 0 < limit) :
    (cache.trim limit (some id)).Ensures fun kept => id ∈ ids kept.entries := by
  obtain ⟨entry, stored, _⟩ := mem_ids.mp held
  have some_left : cache.size - limit < cache.entries.length := by
    have positive : 0 < cache.size := List.length_pos_of_mem stored
    rw [PeerCache.size] at positive ⊢
    omega
  refine (giveUp_spares cache.eviction distinct held some_left).bind fun kept spared => ?_
  exact (Chance.ensures_pure _ _).mpr spared

end Overlay.PeerCache
