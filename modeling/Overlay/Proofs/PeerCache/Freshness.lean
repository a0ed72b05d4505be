import Overlay.Proofs.Peer
import Overlay.Proofs.PeerCache.Invariant
import Overlay.Proofs.PeerCache.Origin

/-!
Copies of one peer are never exchanged for staler ones.

Copies are ordered by their keys: by epoch, then by expiry. Whichever rule decides between the copy
that is held and the one that comes in, the one with the greater key stays (`Fair`), so after an
operation no copy that is held is staler than one that was held before or that was brought
(`perform_renewed`). Over any number of operations the key of a peer can only grow for as long
as the peer stays (`run_never_reverts`).
-/

set_option autoImplicit false

namespace Overlay.PeerCache

/-- Of two copies a rule lets the one with the greater key win. -/
def Fair (wins : Entry → Entry → Bool) : Prop :=
  ∀ entry held,
    (wins entry held → held.key ≤ entry.key) ∧ (¬ wins entry held → entry.key ≤ held.key)

theorem isNewerThan_fair : Fair Entry.isNewerThan := by
  intro entry held
  rw [Entry.isNewerThan_iff, not_lt]
  exact ⟨le_of_lt, id⟩

theorem confirms_fair : Fair confirms := by
  intro entry held
  rw [confirms, Bool.not_eq_true', ← Bool.not_eq_true, Entry.isNewerThan_iff, not_lt, not_le]
  exact ⟨id, le_of_lt⟩

/-- What entries hold of a peer is not staler than any of the copies of that peer. -/
def Supersedes (entries copies : List Entry) : Prop :=
  ∀ copy ∈ copies, ∀ stored ∈ entries, stored.id = copy.id → copy.key ≤ stored.key

section Supersedes

variable {entries copies : List Entry}

theorem Supersedes.refl (distinct : (ids entries).Nodup) : Supersedes entries entries := by
  intro copy held stored also same
  rw [List.inj_on_of_nodup_map distinct also held same]

theorem Supersedes.mono {fewer fewerCopies : List Entry} (supersedes : Supersedes entries copies)
    (part : fewer ⊆ entries) (partCopies : fewerCopies ⊆ copies) : Supersedes fewer fewerCopies :=
  fun copy brought stored held => supersedes copy (partCopies brought) stored (part held)

/-- Two steps make one as long as the first has not lost any peer. -/
theorem Supersedes.trans {middle : List Entry} (later : Supersedes entries middle)
    (earlier : Supersedes middle copies) (known : ids copies ⊆ ids middle) :
    Supersedes entries copies := by
  intro copy brought stored held same
  obtain ⟨between, there, named⟩ := mem_ids.mp (known (mem_ids_of_mem brought))
  calc
    copy.key ≤ between.key := earlier copy brought between there named
    _ ≤ stored.key := later between there stored held (same.trans named.symm)

theorem supersedes_cons_left {stored : Entry} : Supersedes (stored :: entries) copies ↔
    (∀ copy ∈ copies, stored.id = copy.id → copy.key ≤ stored.key) ∧
      Supersedes entries copies := by
  simp only [Supersedes, List.forall_mem_cons, forall_and]

theorem supersedes_cons_right {copy : Entry} : Supersedes entries (copy :: copies) ↔
    (∀ stored ∈ entries, stored.id = copy.id → copy.key ≤ stored.key) ∧
      Supersedes entries copies := by
  simp only [Supersedes, List.forall_mem_cons]

/-- The winner stands where the held copy stood, and both rules let the greater key win. -/
theorem upsert_supersedes {wins : Entry → Entry → Bool} (fair : Fair wins) (entry : Entry)
    (distinct : (ids entries).Nodup) :
    Supersedes (upsert wins entry entries) (entry :: entries) := by
  induction entries with
  | nil => exact .refl (List.nodup_singleton entry.id)
  | cons held rest ih =>
      obtain ⟨absent, distinctRest⟩ := List.nodup_cons.mp distinct
      by_cases same : held.id = entry.id
      · have placed (winner : Entry) (named : winner.id = held.id)
            (overEntry : entry.key ≤ winner.key) (overHeld : held.key ≤ winner.key) :
            Supersedes (winner :: rest) (entry :: held :: rest) := by
          refine supersedes_cons_left.mpr ⟨fun copy brought equal => ?_, ?_⟩
          · rcases List.mem_cons.mp brought with rfl | before
            · exact overEntry
            rcases List.mem_cons.mp before with rfl | later
            · exact overHeld
            · exact absurd (named ▸ equal ▸ mem_ids_of_mem later) absent
          · refine supersedes_cons_right.mpr ⟨fun stored kept equal => ?_, ?_⟩
            · exact absurd (same ▸ equal ▸ mem_ids_of_mem kept) absent
            refine supersedes_cons_right.mpr ⟨fun stored kept equal => ?_, .refl distinctRest⟩
            exact absurd (equal ▸ mem_ids_of_mem kept) absent
        obtain ⟨won, lost⟩ := fair entry held
        rw [upsert, if_pos same]
        split
        · next wins => exact placed entry same.symm le_rfl (won wins)
        · next fails => exact placed held rfl (lost fails) le_rfl
      · rw [upsert, if_neg same]
        obtain ⟨overEntry, overRest⟩ := supersedes_cons_right.mp (ih distinctRest)
        refine supersedes_cons_left.mpr ⟨fun copy brought equal => ?_, ?_⟩
        · rcases List.mem_cons.mp brought with rfl | before
          · exact absurd equal same
          rcases List.mem_cons.mp before with rfl | later
          · exact le_rfl
          · exact absurd (equal ▸ mem_ids_of_mem later) absent
        · refine supersedes_cons_right.mpr ⟨overEntry, ?_⟩
          refine supersedes_cons_right.mpr ⟨fun stored kept equal => ?_, overRest⟩
          rcases mem_of_mem_upsert kept with rfl | later
          · exact absurd equal.symm same
          · exact absurd (equal ▸ mem_ids_of_mem later) absent

theorem merge_supersedes (incoming : List Entry) (distinct : (ids entries).Nodup) :
    Supersedes (merge incoming entries) (incoming ++ entries) := by
  induction incoming generalizing entries with
  | nil => exact .refl distinct
  | cons entry incoming ih =>
      have later := ih (nodup_ids_upsert Entry.isNewerThan entry distinct)
      have earlier := upsert_supersedes isNewerThan_fair entry distinct
      have held : Supersedes (merge (entry :: incoming) entries) (entry :: entries) := by
        have kept := later.mono (List.Subset.refl _) (List.subset_append_right incoming _)
        refine kept.trans earlier fun id known => ?_
        exact mem_ids_upsert.mpr (List.mem_cons.mp known)
      intro copy brought stored kept same
      rcases List.mem_cons.mp brought with rfl | other
      · exact held copy List.mem_cons_self stored kept same
      rcases List.mem_append.mp other with came | before
      · exact later copy (List.mem_append_left _ came) stored kept same
      · exact held copy (List.mem_cons_of_mem entry before) stored kept same

end Supersedes

/-- The copies that an operation brings. -/
def Operation.offered : Operation → List Entry
  | .add entry => [entry]
  | .addAll _ incoming => incoming
  | .replace entry _ => [entry]
  | _ => []

/-- What an operation that brings copies makes of a cache: a cache with one copy of a peer at most,
none of them staler than before or than those that were brought. -/
structure Renewed (cache after : PeerCache) (offered : List Entry) : Prop where
  frame : SameFrame cache after
  distinct : (ids after.entries).Nodup
  supersedes :
    Supersedes after.entries (offered.filter (·.id != cache.owner) ++ cache.entries)

section Renewed

variable {cache : PeerCache} {offered : List Entry}

theorem Renewed.refl (distinct : (ids cache.entries).Nodup) : Renewed cache cache [] :=
  ⟨.refl cache, distinct, .refl distinct⟩

/-- Entries may be dropped afterwards. -/
theorem Renewed.drop {middle after : PeerCache} (renewed : Renewed cache middle offered)
    (frame : SameFrame middle after) (part : after.entries ⊆ middle.entries)
    (distinct : (ids after.entries).Nodup) : Renewed cache after offered :=
  ⟨renewed.frame.trans frame, distinct, renewed.supersedes.mono part (List.Subset.refl _)⟩

theorem Renewed.trim {middle : PeerCache} (renewed : Renewed cache middle offered) (limit : Nat)
    (protect : Option PeerId) :
    (middle.trim limit protect).Ensures fun after => Renewed cache after offered := by
  refine (giveUp_sublist middle.eviction protect _ middle.entries).bind fun kept part => ?_
  refine (Chance.ensures_pure _ _).mpr (renewed.drop rfl part.subset ?_)
  exact renewed.distinct.sublist (part.map Entry.id)

theorem Renewed.cleanup {middle : PeerCache} (renewed : Renewed cache middle offered)
    (now : Timestamp) :
    (middle.cleanup now).Ensures fun after => Renewed cache after offered := by
  have swept : Renewed cache { middle with entries := middle.liveView now } offered :=
    renewed.drop rfl (fun _ member => (mem_liveView member).1) nodup_ids_liveView
  exact swept.trim _ _

variable (distinct : (ids cache.entries).Nodup)

include distinct

theorem renewed_upsert {wins : Entry → Entry → Bool} (fair : Fair wins) (entry : Entry) :
    Renewed cache { cache with entries := upsert wins entry cache.entries } [entry] where
  frame := rfl
  distinct := nodup_ids_upsert wins entry distinct
  supersedes := by
    refine (upsert_supersedes fair entry distinct).mono (List.Subset.refl _) fun copy member => ?_
    rcases List.mem_append.mp member with brought | held
    · exact List.mem_cons.mpr (Or.inl (List.mem_singleton.mp (List.mem_of_mem_filter brought)))
    · exact List.mem_cons_of_mem entry held

theorem add_renewed (entry : Entry) :
    (cache.add entry).Ensures fun answered => Renewed cache answered.2 [entry] := by
  rw [add]
  split
  · next own =>
      refine (Chance.ensures_pure _ _).mpr ⟨.refl cache, distinct, ?_⟩
      simpa [own] using Supersedes.refl distinct
  · refine ((renewed_upsert distinct isNewerThan_fair entry).trim _ _).bind fun after renewed => ?_
    exact (Chance.ensures_pure _ _).mpr renewed

theorem replace_renewed (entry : Entry) (limit : Nat) :
    (cache.replace entry limit).Ensures fun after => Renewed cache after [entry] := by
  rw [replace]
  split
  · next own =>
      refine (Chance.ensures_pure _ _).mpr ⟨.refl cache, distinct, ?_⟩
      simpa [own] using Supersedes.refl distinct
  · exact (renewed_upsert distinct confirms_fair entry).trim _ _

theorem addAll_renewed (now : Timestamp) (incoming : List Entry) :
    (cache.addAll now incoming).Ensures fun after => Renewed cache after incoming := by
  have merged : Renewed cache { cache with
      entries := merge (incoming.filter (·.id != cache.owner)) cache.entries } incoming :=
    ⟨rfl, nodup_ids_merge _ distinct, merge_supersedes _ distinct⟩
  exact merged.cleanup now

theorem growOlder_renewed : Renewed cache cache.growOlder [] where
  frame := rfl
  distinct := by
    change (ids (cache.entries.map Entry.older)).Nodup
    rw [ids, List.map_map]
    exact distinct
  supersedes := by
    intro copy held stored older same
    obtain ⟨before, there, rfl⟩ := List.mem_map.mp older
    exact Supersedes.refl distinct copy held before there same

theorem takeAt_renewed (place : Nat) : Renewed cache (cache.takeAt place).2 [] := by
  have part := List.eraseIdx_sublist cache.entries place
  exact (Renewed.refl distinct).drop rfl part.subset (distinct.sublist (part.map Entry.id))

/-- After an operation no copy is staler than one that was held before or that was brought. -/
theorem perform_renewed (operation : Operation) :
    (operation.perform cache).Ensures fun answered =>
      Renewed cache answered.2 operation.offered := by
  cases operation with
  | add entry =>
      exact (add_renewed distinct entry).bind fun _ renewed => (Chance.ensures_pure _ _).mpr renewed
  | addAll now incoming =>
      exact (addAll_renewed distinct now incoming).bind fun _ renewed =>
        (Chance.ensures_pure _ _).mpr renewed
  | replace entry limit =>
      exact (replace_renewed distinct entry limit).bind fun _ renewed =>
        (Chance.ensures_pure _ _).mpr renewed
  | removeRandom =>
      rw [Operation.perform, removeRandom]
      split
      · exact (Chance.ensures_pure _ _).mpr (.refl distinct)
      · exact fun dice => takeAt_renewed distinct _
  | removeOldest =>
      rw [Operation.perform, removeOldest]
      cases oldestIndex none cache.entries with
      | none => exact (Chance.ensures_pure _ _).mpr (.refl distinct)
      | some place => exact (Chance.ensures_pure _ _).mpr (takeAt_renewed distinct place)
  | cleanup now =>
      exact ((Renewed.refl distinct).cleanup now).bind fun _ renewed =>
        (Chance.ensures_pure _ _).mpr renewed
  | growOlder => exact (Chance.ensures_pure _ _).mpr (growOlder_renewed distinct)
  | _ => exact fun dice => .refl distinct

end Renewed

section Run

variable {cache : PeerCache} {operations : List Operation}

theorem run_append (first second : List Operation) : Operation.run cache (first ++ second) =
    Operation.run cache first >>= fun middle => Operation.run middle second := by
  induction first generalizing cache with
  | nil => rfl
  | cons operation rest ih =>
      simp only [List.cons_append, Operation.run, bind_assoc]
      exact bind_congr fun answered => ih

theorem run_renewed (distinct : (ids cache.entries).Nodup) (operations : List Operation) :
    (Operation.run cache operations).Ensures fun after =>
      SameFrame cache after ∧ (ids after.entries).Nodup := by
  induction operations generalizing cache with
  | nil => exact (Chance.ensures_pure _ _).mpr ⟨.refl cache, distinct⟩
  | cons operation rest ih =>
      refine (perform_renewed distinct operation).bind ?_
      rintro ⟨_, middle⟩ renewed
      exact (ih renewed.distinct).mono fun after kept => ⟨renewed.frame.trans kept.1, kept.2⟩

/-- The cache after the first operations, with what a source has to offer. -/
def Operation.after (cache : PeerCache) (operations : List Operation) (dice : Dice)
    (count : Nat) : PeerCache :=
  (Operation.run cache (operations.take count) dice).1

variable {dice : Dice}

theorem after_renewed (distinct : (ids cache.entries).Nodup) (dice : Dice) {count : Nat}
    {operation : Operation} (next : operations[count]? = some operation) :
    Renewed (Operation.after cache operations dice count)
      (Operation.after cache operations dice (count + 1)) operation.offered := by
  have before := run_renewed distinct (operations.take count) dice
  have step := perform_renewed before.2 operation
    (Operation.run cache (operations.take count) dice).2
  rw [Operation.after, Operation.after, List.take_add_one, next, run_append]
  exact step

theorem after_end {count : Nat} (done : operations[count]? = none) :
    Operation.after cache operations dice (count + 1) =
      Operation.after cache operations dice count := by
  rw [Operation.after, Operation.after, List.take_add_one, done, Option.toList_none,
    List.append_nil]

/-- As long as a peer stays, its key does not fall. The induction is on the last moment looked at;
the peer is there just before it, so the copy held then stands between the two. -/
theorem key_le_after (distinct : (ids cache.entries).Nodup) {id : PeerId} {first last : Nat}
    (order : first ≤ last)
    (stays : ∀ count, first ≤ count → count ≤ last →
      id ∈ ids (Operation.after cache operations dice count).entries) :
    ∀ early ∈ (Operation.after cache operations dice first).entries,
      ∀ late ∈ (Operation.after cache operations dice last).entries,
        early.id = id → late.id = id → early.key ≤ late.key := by
  have sound (count : Nat) := run_renewed distinct (operations.take count) dice
  induction last, order using Nat.le_induction with
  | base =>
      intro early held late also earlyId lateId
      exact Supersedes.refl (sound first).2 early held late also (lateId.trans earlyId.symm)
  | succ last order ih =>
      intro early held late also earlyId lateId
      obtain ⟨middle, there, middleId⟩ := mem_ids.mp (stays last order (Nat.le_succ last))
      have before := ih (fun count since upTo => stays count since (Nat.le_succ_of_le upTo))
        early held middle there earlyId middleId
      refine before.trans ?_
      cases next : operations[last]? with
      | none =>
          rw [after_end next] at also
          exact Supersedes.refl (sound last).2 middle there late also (lateId.trans middleId.symm)
      | some operation =>
          have renewed := after_renewed distinct dice next
          exact renewed.supersedes middle (List.mem_append_right _ there) late also
            (lateId.trans middleId.symm)

end Run

/-- Whatever is done to a cache that was empty, and whatever is drawn: as long as a peer stays in
the cache, the key of its copy does not fall, and after an operation a copy that is held is staler
neither than the copy of the same peer held before nor than any copy of it that was brought. -/
theorem run_never_reverts (owner : PeerId) (capacity : Nat) (version : UInt32)
    (eviction : Eviction) (operations : List Operation) (dice : Dice) :
    let state := Operation.after (empty owner capacity version eviction) operations dice
    (∀ id first last, first ≤ last →
      (∀ count, first ≤ count → count ≤ last → id ∈ ids (state count).entries) →
      ∀ early ∈ (state first).entries, ∀ late ∈ (state last).entries,
        early.id = id → late.id = id → early.key ≤ late.key) ∧
    ∀ count operation, operations[count]? = some operation →
      ∀ stored ∈ (state (count + 1)).entries,
        (∀ copy ∈ operation.offered, copy.id ≠ owner → copy.id = stored.id →
          copy.key ≤ stored.key) ∧
        ∀ held ∈ (state count).entries, held.id = stored.id → held.key ≤ stored.key := by
  intro state
  have distinct : (ids (empty owner capacity version eviction).entries).Nodup := List.nodup_nil
  refine ⟨fun id first last order stays => key_le_after distinct order stays, ?_⟩
  intro count operation next stored kept
  have renewed := after_renewed distinct dice next
  refine ⟨fun copy brought foreign same => ?_, fun held before same => ?_⟩
  · refine renewed.supersedes copy (List.mem_append_left _ ?_) stored kept same.symm
    have owned : (Operation.after (empty owner capacity version eviction) operations dice
        count).owner = owner := (run_renewed distinct _ dice).1.owner_eq
    rw [owned]
    exact List.mem_filter.mpr ⟨brought, bne_iff_ne.mpr foreign⟩
  · exact renewed.supersedes held (List.mem_append_right _ before) stored kept same.symm

/-- Operations that bring fresher, staler and equally fresh copies of one peer while others crowd
it. -/
def renewing : List Operation :=
  let copy := fun (number : Nat) (epoch expiry : UInt64) =>
    Entry.fresh { PeerRecord.fresh (.ofNat number) (.ofNumber number) "cluster" with epoch } ⟨0⟩
      expiry
  [.add (copy 1 4 50), .addAll ⟨5⟩ [copy 1 7 20, copy 2 0 40, copy 1 7 30, copy 1 6 90, copy 3 0 9],
    .growOlder, .removeRandom, .add (copy 1 7 30), .replace (copy 1 7 30) 1, .cleanup ⟨6⟩]

theorem run_never_reverts_renewing :
    let state := Operation.after (empty (.ofNat 0) 2 1 .random) renewing .last
    (∀ count ≤ 7, 1 ≤ count → .ofNat 1 ∈ ids (state count).entries) ∧
      ∀ early ∈ (state 1).entries, ∀ late ∈ (state 7).entries,
        early.id = .ofNat 1 → late.id = .ofNat 1 → early.key ≤ late.key := by
  have stays : ∀ count ≤ 7, 1 ≤ count → .ofNat 1 ∈ ids
      (Operation.after (empty (.ofNat 0) 2 1 .random) renewing .last count).entries := by
    decide +kernel
  refine ⟨stays, ?_⟩
  exact (run_never_reverts (.ofNat 0) 2 1 .random renewing .last).1 (.ofNat 1) 1 7 (by decide)
    fun count since upTo => stays count upTo since

end Overlay.PeerCache
