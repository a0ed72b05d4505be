import Mathlib.Logic.Function.Basic
import Overlay.Proofs.PeerCache.Lateness

/-!
What a sweep leaves.

A sweep goes through the entries once and keeps the place of each peer that it has met, so that a
fresher copy goes where the peer stands already (`sweep_eq_liveView`). What it leaves before anybody
has to go is one copy of each peer that has a live one: the first of the freshest
(`liveView_foremost`), in the order of the first live copies (`ids_merge_nil`). Trimming only takes
away from that, so that a second sweep at the same time finds nothing to do (`cleanup_settles`).
-/

set_option autoImplicit false

namespace Overlay.PeerCache

variable {cache : PeerCache} {now : Timestamp}

section Pass

/-- The place of the first copy of a peer. -/
def placeOf (entries : List Entry) (id : PeerId) : Option Nat :=
  (ids entries).findIdx? (· = id)

theorem placeOf_cons (first : Entry) (rest : List Entry) (id : PeerId) :
    placeOf (first :: rest) id =
      if first.id = id then some 0 else (placeOf rest id).map (· + 1) := by
  simp only [placeOf, ids_cons, List.findIdx?_cons, decide_eq_true_eq]

theorem placeOf_concat (entries : List Entry) (last : Entry) (id : PeerId) :
    placeOf (entries ++ [last]) id =
      (placeOf entries id).or (if last.id = id then some entries.length else none) := by
  simp only [placeOf, ids, List.map_append, List.map_cons, List.map_nil, List.findIdx?_append,
    List.findIdx?_singleton, List.length_map, decide_eq_true_eq]
  split
  · rw [Option.map_some, Nat.zero_add]
  · rfl

theorem placeOf_eq_none {entries : List Entry} {id : PeerId} :
    placeOf entries id = none ↔ id ∉ ids entries := by
  simp only [placeOf, List.findIdx?_eq_none_iff, decide_eq_false_iff_not]
  constructor
  · exact fun other held => other id held rfl
  · exact fun absent other held same => absent (same ▸ held)

/-- How a copy takes its place: that of the copy held, if it wins, or the one behind all others. -/
theorem upsert_eq_place (wins : Entry → Entry → Bool) (entry : Entry) (entries : List Entry) :
    upsert wins entry entries = match placeOf entries entry.id with
      | some place => entries.modify place fun held => if wins entry held then entry else held
      | none => entries ++ [entry] := by
  induction entries with
  | nil => rfl
  | cons first rest ih =>
      rw [placeOf_cons]
      by_cases same : first.id = entry.id
      · rw [upsert, if_pos same, if_pos same]
        rfl
      · rw [upsert, if_neg same, if_neg same, ih]
        cases placeOf rest entry.id with
        | none => rfl
        | some place => rfl

/-- How far a sweep has come: the copies that it keeps, and the place of each peer among them. -/
structure Pass where
  kept : List Entry
  places : PeerId → Option Nat

namespace Pass

def start : Pass := ⟨[], fun _ => none⟩

/-- One more entry that stays: in the place of its peer if it is fresher than the copy there, or in
a new place. -/
def keep (pass : Pass) (entry : Entry) : Pass :=
  match pass.places entry.id with
  | some place =>
    { pass with
      kept := pass.kept.modify place fun held => if entry.isNewerThan held then entry else held }
  | none =>
    { kept := pass.kept ++ [entry]
      places := Function.update pass.places entry.id (some pass.kept.length) }

/-- The places are those of the peers among the copies. -/
def Indexed (pass : Pass) : Prop := pass.places = placeOf pass.kept

theorem indexed_start : start.Indexed := rfl

variable {pass : Pass}

theorem Indexed.kept_keep (indexed : pass.Indexed) (entry : Entry) :
    (pass.keep entry).kept = upsert Entry.isNewerThan entry pass.kept := by
  rw [upsert_eq_place, ← indexed, keep]
  cases pass.places entry.id with
  | some place => rfl
  | none => rfl

theorem Indexed.keep (indexed : pass.Indexed) (entry : Entry) : (pass.keep entry).Indexed := by
  have kept := indexed.kept_keep entry
  funext id
  rw [kept, placeOf, ids_upsert]
  by_cases held : entry.id ∈ ids pass.kept
  · rw [if_pos held]
    cases there : pass.places entry.id with
    | none =>
        rw [indexed, placeOf_eq_none] at there
        exact absurd held there
    | some place =>
        simp only [Pass.keep, there]
        exact congrFun indexed id
  · rw [if_neg held]
    have absent : pass.places entry.id = none := by
      rw [indexed]
      exact placeOf_eq_none.mpr held
    have behind : (ids pass.kept ++ [entry.id]).findIdx? (· = id) =
        placeOf (pass.kept ++ [entry]) id := by
      simp only [placeOf, ids, List.map_append, List.map_cons, List.map_nil]
    rw [behind, placeOf_concat, ← indexed]
    simp only [Pass.keep, absent, Function.update_apply]
    by_cases named : id = entry.id
    · subst named
      simp [absent]
    · simp [named, Ne.symm named]

end Pass

/-- The entries that stay, in one pass through all of them. -/
def sweep (cache : PeerCache) (now : Timestamp) : List Entry :=
  (cache.entries.foldl
    (fun pass entry => if cache.isLive now entry then pass.keep entry else pass) Pass.start).kept

theorem kept_foldl {pass : Pass} (indexed : pass.Indexed) (entries : List Entry) :
    (entries.foldl (fun pass entry => if cache.isLive now entry then pass.keep entry else pass)
      pass).kept = merge (entries.filter (cache.isLive now)) pass.kept := by
  induction entries generalizing pass with
  | nil => rfl
  | cons entry rest ih =>
      rw [List.foldl_cons, List.filter_cons]
      by_cases live : cache.isLive now entry
      · rw [if_pos live, if_pos live, ih (indexed.keep entry), merge_cons, indexed.kept_keep]
      · rw [if_neg live, if_neg live, ih indexed]

theorem sweep_eq_liveView (cache : PeerCache) (now : Timestamp) :
    cache.sweep now = cache.liveView now :=
  kept_foldl Pass.indexed_start cache.entries

end Pass

/-- Among copies, this is the first of the freshest ones of its peer. -/
def Foremost (copies : List Entry) (entry : Entry) : Prop :=
  ∃ earlier later, copies = earlier ++ entry :: later ∧
    (∀ copy ∈ earlier, copy.id = entry.id → copy.key < entry.key) ∧
    ∀ copy ∈ later, copy.id = entry.id → copy.key ≤ entry.key

/-- A later copy takes the place of an earlier one only if it is strictly fresher. -/
theorem merge_foremost (copies : List Entry) :
    ∀ entry ∈ merge copies [], Foremost copies entry := by
  induction copies using List.reverseRecOn with
  | nil => exact nofun
  | append_singleton copies last ih =>
      intro entry stored
      have empty : (ids []).Nodup := List.nodup_nil
      rw [merge_append, merge_cons, merge_nil, mem_upsert_iff (nodup_ids_merge copies empty)]
        at stored
      rcases stored with ⟨rfl, fresher⟩ | ⟨held, beats⟩
      · rw [forall_merge_lt_iff empty, List.append_nil] at fresher
        exact ⟨copies, [], rfl, fresher, nofun⟩
      · obtain ⟨earlier, later, rfl, before, behind⟩ := ih entry held
        refine ⟨earlier, later ++ [last], by simp, before, fun copy member same => ?_⟩
        rcases List.mem_append.mp member with inside | atEnd
        · exact behind copy inside same
        · rw [List.mem_singleton.mp atEnd] at same ⊢
          exact beats same.symm

/-- Peers stand in the order of their first copies. -/
theorem ids_merge_nil (copies : List Entry) : ids (merge copies []) = (ids copies).eraseDups := by
  induction copies using List.reverseRecOn with
  | nil => rfl
  | append_singleton copies last ih =>
      have split : ids (copies ++ [last]) = ids copies ++ [last.id] := by
        simp only [ids, List.map_append, List.map_cons, List.map_nil]
      rw [merge_append, merge_cons, merge_nil, ids_upsert, ih, split, List.eraseDups_append]
      by_cases known : last.id ∈ ids copies
      · rw [if_pos (List.mem_eraseDups.mpr known)]
        simp [List.removeAll, known]
      · rw [if_neg (mt List.mem_eraseDups.mp known)]
        simp [List.removeAll, known, List.eraseDups_cons]

theorem liveView_foremost (cache : PeerCache) (now : Timestamp) :
    ∀ entry ∈ cache.liveView now, Foremost (cache.entries.filter (cache.isLive now)) entry :=
  merge_foremost _

/-- What a trimmed view holds is live and holds no peer twice, so sweeping it again leaves it. -/
theorem cleanup_settles (cache : PeerCache) (now : Timestamp) :
    (cache.cleanup now).Ensures fun after => after.cleanup now = pure after := by
  intro dice
  obtain ⟨sound, frame⟩ := cleanup_wellFormed cache now dice
  have part : (cache.cleanup now dice).1.entries.Sublist (cache.liveView now) :=
    trim_sublist _ _ _ dice
  generalize (cache.cleanup now dice).1 = after at sound frame part
  have live : ∀ entry ∈ after.entries, after.isLive now entry := by
    intro entry held
    rw [frame.isLive_eq]
    exact (mem_liveView (part.subset held)).2
  have same : { after with entries := after.liveView now } = after := by
    rw [liveView_eq sound.distinct live]
  rw [cleanup, same]
  exact trim_of_fits sound.bounded none

/-- Whatever a cache holds, the owner's copies and repeated ones included, a sweep leaves the
freshest live copy of each peer that has one, the first of them where several are as fresh, and the
peers in the order of their first live copies. Trimming takes from these, and no more than are too
many. A second sweep at the same time changes nothing and draws nothing. -/
theorem cleanup_freshest (cache : PeerCache) (now : Timestamp) :
    let live := cache.entries.filter fun entry =>
      entry.id ≠ cache.owner ∧ now < entry.expiresAt ∧ entry.record.version = cache.version
    let view := cache.sweep now
    cache.cleanup now = { cache with entries := view }.trim cache.capacity none ∧
    ids view = (ids live).eraseDups ∧ (∀ entry ∈ view, Foremost live entry) ∧
    (cache.cleanup now).Ensures fun after =>
      SameFrame cache after ∧ (ids after.entries).Nodup ∧
      (∀ entry ∈ after.entries, entry.id ≠ cache.owner ∧ now < entry.expiresAt ∧
        entry.record.version = cache.version) ∧
      after.entries.Sublist view ∧ after.size = min view.length cache.capacity ∧
      after.cleanup now = pure after := by
  intro live view
  have viewed : view = cache.liveView now := sweep_eq_liveView cache now
  have lives : live = cache.entries.filter (cache.isLive now) := List.filter_congr fun entry _ =>
    Bool.eq_iff_iff.mpr (decide_eq_true_iff.trans isLive_iff.symm)
  rw [viewed, lives]
  refine ⟨rfl, ids_merge_nil _, liveView_foremost cache now, fun dice => ?_⟩
  have settled := cleanup_settles cache now dice
  obtain ⟨sound, frame⟩ := cleanup_wellFormed cache now dice
  obtain ⟨-, part, size⟩ := @trim_ensures none { cache with entries := cache.liveView now }
    cache.capacity nodup_ids_liveView nofun dice
  refine ⟨frame, sound.distinct, fun entry held => ?_, part, size, settled⟩
  exact isLive_iff.mp (mem_liveView (part.subset held)).2

/-- The fresher copy goes where its peer stands, also where it ends earlier. -/
example :
    { empty (.ofNat 0) 5 1 .oldest with
      entries := [numbered 1 0 50, numbered 2 0 40, numbered 3 0 20, numbered 1 1 30] }.sweep ⟨20⟩ =
      [numbered 1 1 30, numbered 2 0 40] := by
  decide +kernel

end Overlay.PeerCache
