import Mathlib.Data.List.Perm.Basic
import Overlay.Proofs.PeerCache.Confirmation

/-!
Which entries trimming gives up.

Where the oldest have to go, those that may be given up wait in a queue: the ones that have survived
most rounds first, and of those that have survived as many the one further ahead. Every pass gives
up the head of the queue and leaves the rest of it as it is (`queue_eq_cons`), so all passes together
give up its first ones (`giveUp_oldest`). Where random ones have to go, every number that is drawn
stands for another entry that may be given up, and no entry is left out (`drawsAll`), so no way of
leaving as many as there may be is left out either (`giveUp_attains`).
-/

set_option autoImplicit false

namespace Overlay.PeerCache

variable {protect : Option PeerId} {entries kept : List Entry}

/-- Whether an entry may be given up. -/
def isFree (protect : Option PeerId) (entry : Entry) : Bool := some entry.id ≠ protect

theorem isFree_iff {entry : Entry} : isFree protect entry = true ↔ some entry.id ≠ protect :=
  decide_eq_true_iff

section Oldest

variable {items : List (Entry × Nat)}

/-- The entries that may be given up, with their places, in the order in which they go where the
oldest have to. -/
def queue (protect : Option PeerId) (items : List (Entry × Nat)) : List (Entry × Nat) :=
  (items.filter (isFree protect ·.1)).mergeSort fun first second =>
    decide (GoesFirst first second)

theorem queue_perm (protect : Option PeerId) (items : List (Entry × Nat)) :
    (queue protect items).Perm (items.filter (isFree protect ·.1)) :=
  List.mergeSort_perm _ _

theorem GoesFirst.trans {first second third : Entry × Nat} (one : GoesFirst first second)
    (two : GoesFirst second third) : GoesFirst first third := by
  simp only [GoesFirst, UInt32.lt_iff_toNat_lt, ← UInt32.toNat_inj] at *
  omega

theorem GoesFirst.total (first second : Entry × Nat) :
    GoesFirst first second ∨ GoesFirst second first := by
  simp only [GoesFirst, UInt32.lt_iff_toNat_lt, ← UInt32.toNat_inj]
  omega

theorem queue_pairwise (protect : Option PeerId) (items : List (Entry × Nat)) :
    (queue protect items).Pairwise GoesFirst := by
  have sorted : (queue protect items).Pairwise fun first second =>
      decide (GoesFirst first second) = true := by
    apply List.pairwise_mergeSort
    · intro first second third one two
      exact decide_eq_true ((of_decide_eq_true one).trans (of_decide_eq_true two))
    · intro first second
      simpa using GoesFirst.total first second
  exact sorted.imp of_decide_eq_true

theorem mem_queue {item : Entry × Nat} :
    item ∈ queue protect items ↔ item ∈ items ∧ some item.1.id ≠ protect := by
  rw [(queue_perm protect items).mem_iff, List.mem_filter, isFree_iff]

/-- Where places rise, an entry is given by its place. -/
theorem eq_of_place_eq (rising : items.Pairwise (·.2 < ·.2)) {one other : Entry × Nat}
    (held : one ∈ items) (also : other ∈ items) (same : one.2 = other.2) : one = other := by
  obtain ⟨first, inside, rfl⟩ := List.mem_iff_getElem.mp held
  obtain ⟨second, within, rfl⟩ := List.mem_iff_getElem.mp also
  have before := List.pairwise_iff_getElem.mp rising
  rcases Nat.lt_trichotomy first second with less | rfl | more
  · have := before first second inside within less
    omega
  · rfl
  · have := before second first within inside more
    omega

/-- What the search for the oldest finds among entries that once stood at rising places is the one
that goes first by these places, too. -/
theorem eldest_getElem (rising : items.Pairwise (·.2 < ·.2)) {place : Nat}
    (chosen : oldestIndex protect (items.map Prod.fst) = some place) :
    ∃ inside : place < items.length, Eldest protect items items[place] := by
  obtain ⟨entry, member, free, first⟩ := oldestIndex_eldest chosen
  have there : (items.map Prod.fst)[place]? = some entry := List.mem_zipIdx_iff_getElem?.mp member
  rw [List.getElem?_map, Option.map_eq_some_iff] at there
  obtain ⟨item, found, rfl⟩ := there
  obtain ⟨inside, rfl⟩ := List.getElem?_eq_some_iff.mp found
  refine ⟨inside, List.getElem_mem inside, free, fun other held apart => ?_⟩
  obtain ⟨index, within, rfl⟩ := List.mem_iff_getElem.mp held
  have listed : (items[index].1, index) ∈ (items.map Prod.fst).zipIdx := by
    simp [List.mem_zipIdx_iff_getElem?, within]
  rcases first _ listed apart with longer | ⟨same, ahead⟩
  · exact Or.inl longer
  · refine Or.inr ⟨same, ?_⟩
    rcases Nat.lt_or_eq_of_le ahead with less | rfl
    · exact Nat.le_of_lt (List.pairwise_iff_getElem.mp rising place index inside within less)
    · exact Nat.le_refl _

/-- There is only one order in which entries can go. -/
theorem queue_eq (rising : items.Pairwise (·.2 < ·.2)) {order : List (Entry × Nat)}
    (same : (items.filter (isFree protect ·.1)).Perm order) (ordered : order.Pairwise GoesFirst) :
    queue protect items = order := by
  have all := (queue_perm protect items).trans same
  refine all.eq_of_pairwise (fun one other queued also before behind => ?_)
    (queue_pairwise protect items) ordered
  have held := (mem_queue.mp queued).1
  have stored := (mem_queue.mp (all.mem_iff.mpr also)).1
  apply eq_of_place_eq rising held stored
  simp only [GoesFirst, UInt32.lt_iff_toNat_lt, ← UInt32.toNat_inj] at before behind
  omega

/-- The eldest entry is the head of the queue, and the others wait behind it in their order. -/
theorem queue_eq_cons (rising : items.Pairwise (·.2 < ·.2)) {place : Nat}
    (inside : place < items.length) (eldest : Eldest protect items items[place]) :
    queue protect items = items[place] :: queue protect (items.eraseIdx place) := by
  apply queue_eq rising
  · have free : isFree protect items[place].1 = true := isFree_iff.mpr eldest.free
    have split := (List.getElem_cons_eraseIdx_perm inside).symm.filter (isFree protect ·.1)
    rw [List.filter_cons, if_pos free] at split
    exact split.trans ((queue_perm _ _).symm.cons _)
  · refine List.pairwise_cons.mpr ⟨fun item waiting => ?_, queue_pairwise _ _⟩
    obtain ⟨held, free⟩ := mem_queue.mp waiting
    exact eldest.first item (List.mem_of_mem_eraseIdx held) free

/-- Taking an entry out and then some others is taking all of them out. -/
theorem filter_eraseIdx (rising : items.Pairwise (·.2 < ·.2)) {place : Nat}
    (inside : place < items.length) (others : List (Entry × Nat)) :
    (items.eraseIdx place).filter (· ∉ others) =
      items.filter (· ∉ items[place] :: others) := by
  have distinct : items.Nodup := rising.imp fun less equal => by
    rw [equal] at less
    exact Nat.lt_irrefl _ less
  rw [← List.erase_eq_eraseIdx_of_idxOf (distinct.idxOf_getElem place inside),
    distinct.erase_eq_filter, List.filter_filter]
  refine List.filter_congr fun item _ => ?_
  by_cases taken : item = items[place]
  · simp [taken]
  · simp [taken]

/-- The first of the queue go, as many as asked for, and the rest keeps its order. -/
theorem giveUp_oldest (protect : Option PeerId) (rising : items.Pairwise (·.2 < ·.2))
    (excess : Nat) :
    giveUp .oldest protect excess (items.map Prod.fst) =
      pure ((items.filter (· ∉ (queue protect items).take excess)).map Prod.fst) := by
  induction excess generalizing items with
  | zero => simp [giveUp]
  | succ excess ih =>
      rw [giveUp, victim, pure_bind]
      cases chosen : oldestIndex protect (items.map Prod.fst) with
      | none =>
          have guarded := guarded_of_oldestIndex chosen
          have empty : queue protect items = [] := by
            refine List.eq_nil_iff_forall_not_mem.mpr fun item waiting => ?_
            obtain ⟨held, free⟩ := mem_queue.mp waiting
            exact free (guarded item.1 (List.mem_map_of_mem held))
          simp [empty]
      | some place =>
          obtain ⟨inside, eldest⟩ := eldest_getElem rising chosen
          rw [queue_eq_cons rising inside eldest, List.take_succ_cons,
            ← filter_eraseIdx rising inside, ← ih (rising.eraseIdx place)]
          simp only [List.eraseIdx_map]

end Oldest

section Random

/-- What stands at another place than the protected one is not protected. -/
theorem free_of_apart (distinct : (ids entries).Nodup) {place : Nat} {entry : Entry}
    (there : entries[place]? = some entry) (apart : protectedPlace protect entries ≠ some place) :
    some entry.id ≠ protect := by
  have inside := (List.getElem?_eq_some_iff.mp there).1
  obtain ⟨_, here, free⟩ := (isCandidate_iff distinct).mpr ⟨inside, apart⟩
  rw [there, Option.some.injEq] at here
  rwa [here]

theorem drawable_eq_length (distinct : (ids entries).Nodup) :
    drawable protect entries = (entries.filter (isFree protect)).length := by
  rw [drawable]
  cases located : protectedPlace protect entries with
  | none =>
      have free (entry : Entry) (member : entry ∈ entries) : some entry.id ≠ protect := by
        obtain ⟨place, there⟩ := List.mem_iff_getElem?.mp member
        exact free_of_apart distinct there (by simp [located])
      rw [List.filter_eq_self.mpr fun entry member => isFree_iff.mpr (free entry member)]
      rfl
  | some skipped =>
      obtain ⟨id, rfl, found⟩ := Option.bind_eq_some_iff.mp located
      obtain ⟨inside, named, -⟩ := List.findIdx?_eq_some_iff_getElem.mp found
      have guarded : some entries[skipped].id = some id := congrArg some (of_decide_eq_true named)
      have free (entry : Entry) (member : entry ∈ entries.eraseIdx skipped) :
          some entry.id ≠ some id := by
        obtain ⟨place, apart, there⟩ := List.mem_eraseIdx_iff_getElem?.mp member
        exact free_of_apart distinct there (by simpa [located] using Ne.symm apart)
      have split := ((List.getElem_cons_eraseIdx_perm inside).filter (isFree (some id))).length_eq
      rw [List.filter_cons_of_neg fun free => isFree_iff.mp free guarded,
        List.filter_eq_self.mpr fun entry member => isFree_iff.mpr (free entry member),
        List.length_eraseIdx_of_lt inside] at split
      exact split

/-- A random entry is found by one draw of a number below the number of the entries that may be
given up. The numbers stand for these entries, each for another one and none left out. -/
def DrawsAll (protect : Option PeerId) (entries : List Entry) : Prop :=
  let candidates := (entries.filter (isFree protect)).length
  ∃ placed : Nat → Nat,
    Set.BijOn placed {number | number < candidates} {place | IsCandidate protect entries place} ∧
    (0 < candidates → randomIndex protect entries =
      Dice.index candidates >>= fun number => pure (some (placed number)))

theorem drawsAll (distinct : (ids entries).Nodup) : DrawsAll protect entries := by
  rw [DrawsAll, ← drawable_eq_length distinct]
  refine ⟨_, passing_bijOn distinct, fun several => ?_⟩
  rw [randomIndex_eq, if_neg (Nat.ne_zero_of_lt several)]

/-- Some item can go for fewer items to be left, and the fewer are among the others. -/
theorem exists_eraseIdx {α : Type} {part items : List α} (sub : part.Sublist items)
    (fewer : part.length < items.length) :
    ∃ place < items.length, part.Sublist (items.eraseIdx place) := by
  induction sub with
  | slnil => exact absurd fewer (Nat.lt_irrefl 0)
  | @cons part items first sub _ => exact ⟨0, by simp, sub⟩
  | @cons_cons part items first sub ih =>
      obtain ⟨place, inside, left⟩ := ih (Nat.lt_of_succ_lt_succ fewer)
      exact ⟨place + 1, Nat.succ_lt_succ inside, left.cons_cons first⟩

/-- Where so many are to be given up, there are draws that leave just these. -/
theorem giveUp_attains {excess : Nat} (distinct : (ids entries).Nodup)
    (sub : kept.Sublist entries) (size : kept.length + excess = entries.length)
    (spared : ∀ entry ∈ entries, some entry.id = protect → entry ∈ kept) :
    ∃ numbers, ∀ dice : Dice, dice.Dictates numbers →
      (giveUp .random protect excess entries dice).1 = kept := by
  induction excess generalizing entries with
  | zero => exact ⟨[], fun _ _ => (sub.eq_of_length size).symm⟩
  | succ excess ih =>
      obtain ⟨place, inside, left⟩ := exists_eraseIdx sub (by omega)
      have part := List.eraseIdx_sublist entries place
      have candidate : IsCandidate protect entries place := by
        refine ⟨entries[place], List.getElem?_eq_getElem inside, fun guarded => ?_⟩
        have stays := left.subset (spared _ (List.getElem_mem inside) guarded)
        have twice := (List.getElem_cons_eraseIdx_perm inside).map Entry.id
        have once := twice.nodup_iff.mpr distinct
        exact (List.nodup_cons.mp once).1 (List.mem_map_of_mem stays)
      have drawsAll : DrawsAll protect entries := drawsAll distinct
      obtain ⟨placed, bijective, drawn⟩ := drawsAll
      obtain ⟨number, below, rfl⟩ := bijective.surjOn candidate
      have shorter := List.length_eraseIdx_of_lt inside
      obtain ⟨numbers, leaves⟩ := ih (distinct.sublist (part.map Entry.id)) left (by omega)
        fun entry held => spared entry (part.subset held)
      refine ⟨number :: numbers, fun dice dictates => ?_⟩
      obtain ⟨offered, later⟩ := dictates.index below
      rw [giveUp, victim, drawn (Nat.zero_lt_of_lt below)]
      change (giveUp .random protect excess
        (entries.eraseIdx (placed (Dice.index _ dice).1)) (Dice.index _ dice).2).1 = kept
      rw [offered]
      exact leaves _ later

end Random

/-- What may be left of entries: as many as the limit admits, in their order, and the protected one
among them. -/
structure Trimmed (protect : Option PeerId) (limit : Nat) (entries kept : List Entry) : Prop where
  size : kept.length = min entries.length limit
  ordered : kept.Sublist entries
  spared : ∀ entry ∈ entries, some entry.id = protect → entry ∈ kept

variable {cache : PeerCache} {limit : Nat}

theorem trim_trimmed (distinct : (ids cache.entries).Nodup) (spare : protect.isSome → 0 < limit) :
    (cache.trim limit protect).Ensures fun after =>
      SameFrame cache after ∧ Trimmed protect limit cache.entries after.entries := by
  intro dice
  obtain ⟨frame, ordered, size⟩ := trim_ensures cache limit distinct spare dice
  refine ⟨frame, size, ordered, ?_⟩
  rintro entry member rfl
  have held := mem_ids_of_mem member
  obtain ⟨stored, left, named⟩ := mem_ids.mp (trim_spares cache distinct held (spare rfl) dice)
  rwa [List.inj_on_of_nodup_map distinct (ordered.subset left) member named] at left

/-- Trimming leaves exactly as many entries as the limit admits, in their order, and the protected
one among them. Where the oldest have to go, those given up are the first of the queue: the ones
that have survived most rounds, and of those that have survived as many the ones further ahead.
Where random ones have to go, each draw from what is left in between may fall on every entry that
may be given up, by one number for each; and whatever may be left is what some draws leave, however
many others went before. -/
theorem trim_exact (distinct : (ids cache.entries).Nodup) (spare : protect.isSome → 0 < limit) :
    ((cache.trim limit protect).Ensures fun after =>
      SameFrame cache after ∧ Trimmed protect limit cache.entries after.entries) ∧
    (cache.eviction = .oldest → (cache.trim limit protect).Ensures fun after =>
      after.entries = (cache.entries.zipIdx.filter
        (· ∉ (queue protect cache.entries.zipIdx).take (cache.size - limit))).map Prod.fst) ∧
    (cache.eviction = .random →
      (∀ left, left.Sublist cache.entries → DrawsAll protect left) ∧
      ∀ kept, Trimmed protect limit cache.entries kept → ∀ dice : Dice, ∃ offer,
        (cache.trim limit protect { dice with offer }).1.entries = kept) := by
  refine ⟨trim_trimmed distinct spare, fun oldest => ?_, fun random => ⟨fun left part => ?_, ?_⟩⟩
  · have given := giveUp_oldest protect (rising_zipIdx cache.entries) (cache.size - limit)
    rw [List.zipIdx_map_fst] at given
    rw [trim, oldest, given, pure_bind]
    exact (Chance.ensures_pure _ _).mpr rfl
  · exact drawsAll (distinct.sublist (part.map Entry.id))
  · rintro kept ⟨size, ordered, spared⟩ dice
    have enough : kept.length + (cache.size - limit) = cache.entries.length := by
      rw [size, PeerCache.size]
      omega
    obtain ⟨numbers, leaves⟩ := giveUp_attains distinct ordered enough spared
    obtain ⟨offer, dictates⟩ := dice.exists_dictates numbers
    refine ⟨offer, ?_⟩
    rw [trim, random]
    exact leaves _ dictates

/-- A cache of four peers. The first has survived most rounds, the third and the fourth as many as
each other. -/
def contested (eviction : Eviction) : PeerCache :=
  let held := fun (number : Nat) (age : UInt32) => { numbered number 0 40 with age }
  { empty (.ofNat 0) 5 1 eviction with entries := [held 1 9, held 2 1, held 3 4, held 4 4] }

/-- Two of the four peers have to go, and the first is protected. Where the oldest go, these are the
third and the fourth; where random ones go, the second and the fourth may be those. -/
theorem trim_exact_contested :
    (∀ eviction, (ids (contested eviction).entries).Nodup) ∧
    ((contested .oldest).trim 2 (some (.ofNat 1))).Ensures
      (fun after => ids after.entries = [.ofNat 1, .ofNat 2]) ∧
    ∃ offer, ids (((contested .random).trim 2 (some (.ofNat 1)) { Dice.last with offer }).1.entries)
      = [.ofNat 1, .ofNat 3] := by
  have distinct (eviction : Eviction) : (ids (contested eviction).entries).Nodup := by
    cases eviction <;> decide +kernel
  have spare : (some (PeerId.ofNat 1)).isSome → 0 < 2 := by decide
  refine ⟨distinct, ?_, ?_⟩
  · refine ((trim_exact (distinct .oldest) spare).2.1 rfl).mono fun after left => ?_
    have waiting : queue (some (.ofNat 1)) (contested .oldest).entries.zipIdx =
        [((contested .oldest).entries[2], 2), ((contested .oldest).entries[3], 3),
          ((contested .oldest).entries[1], 1)] :=
      queue_eq (rising_zipIdx _) (by decide +kernel) (by decide +kernel)
    rw [left, waiting]
    decide +kernel
  · have kept : Trimmed (some (.ofNat 1)) 2 (contested .random).entries
        [(contested .random).entries[0], (contested .random).entries[2]] :=
      ⟨by decide, by decide +kernel, by decide +kernel⟩
    obtain ⟨offer, left⟩ := ((trim_exact (distinct .random) spare).2.2 rfl).2 _ kept Dice.last
    refine ⟨offer, ?_⟩
    rw [left]
    decide +kernel

end Overlay.PeerCache
