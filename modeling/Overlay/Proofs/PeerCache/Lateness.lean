import Overlay.Proofs.PeerCache.Batches

/-!
Copies that come too late.

A sweep drops what is over before it compares copies, but a merge compares copies before it sweeps.
So a copy that is over already when it comes brings nobody in, but one that is fresher than a live
copy takes that one's place and is swept out together with it. Late copies that overtake nobody and
take nobody's turn are as good as absent (`late_copies`).
-/

set_option autoImplicit false

namespace Overlay.PeerCache

section Merge

variable {entries incoming : List Entry} (distinct : (ids entries).Nodup)

include distinct

/-- A copy is stored if it is fresher than the one held of its peer, which stays otherwise. -/
theorem mem_upsert_iff {entry copy : Entry} :
    copy ∈ upsert Entry.isNewerThan entry entries ↔
      (copy = entry ∧ ∀ held ∈ entries, held.id = entry.id → held.key < entry.key) ∨
        (copy ∈ entries ∧ (copy.id = entry.id → entry.key ≤ copy.key)) := by
  induction entries with
  | nil => simp [upsert]
  | cons first rest ih =>
      obtain ⟨absent, distinctRest⟩ := List.nodup_cons.mp distinct
      have others : first.id = entry.id → ∀ held ∈ rest, held.id ≠ entry.id := by
        intro same held later equal
        exact absent (same.trans equal.symm ▸ mem_ids_of_mem later)
      by_cases same : first.id = entry.id
      · by_cases wins : entry.isNewerThan first
        · have fresher := Entry.isNewerThan_iff.mp wins
          have settled : upsert Entry.isNewerThan entry (first :: rest) = entry :: rest := by
            rw [upsert, if_pos same, if_pos wins]
          grind
        · have stale := not_lt.mp (mt Entry.isNewerThan_iff.mpr wins)
          have settled : upsert Entry.isNewerThan entry (first :: rest) = first :: rest := by
            rw [upsert, if_pos same, if_neg wins]
          grind
      · have settled : upsert Entry.isNewerThan entry (first :: rest) =
            first :: upsert Entry.isNewerThan entry rest := by
          rw [upsert, if_neg same]
        have inner := ih distinctRest
        grind

/-- Whatever was held or came is absorbed by what a merge leaves. -/
theorem merge_absorbs {copy : Entry} (there : copy ∈ incoming ++ entries) :
    Absorbs (merge incoming entries) copy := by
  have known : copy.id ∈ ids (merge incoming entries) := by
    rw [mem_ids_merge]
    exact (List.mem_append.mp there).imp mem_ids_of_mem mem_ids_of_mem
  obtain ⟨stored, kept, named⟩ := mem_ids.mp known
  exact ⟨stored, kept, named, merge_supersedes incoming distinct copy there stored kept named⟩

/-- To be fresher than all copies of a peer is to be fresher than the one that a merge leaves. -/
theorem forall_merge_lt_iff {entry : Entry} :
    (∀ held ∈ merge incoming entries, held.id = entry.id → held.key < entry.key) ↔
      ∀ copy ∈ incoming ++ entries, copy.id = entry.id → copy.key < entry.key := by
  constructor
  · intro fresher copy there same
    obtain ⟨stored, kept, named, stale⟩ := merge_absorbs distinct there
    exact lt_of_le_of_lt stale (fresher stored kept (named.trans same))
  · intro fresher held stored same
    exact fresher held (List.mem_append.mpr (mem_of_mem_merge stored)) same

/-- Dropping some copies beforehand lets a copy be left just if none of those dropped is fresher. -/
theorem mem_merge_filter {keep : Entry → Bool} {copy : Entry} (kept : keep copy)
    (apart : ∀ other ∈ incoming, ¬ keep other → other.id = copy.id → other.key ≠ copy.key) :
    copy ∈ merge incoming entries ↔ copy ∈ merge (incoming.filter keep) entries ∧
      ∀ other ∈ incoming, ¬ keep other → other.id = copy.id → other.key < copy.key := by
  induction incoming using List.reverseRecOn with
  | nil => simp
  | append_singleton incoming last ih =>
      have before := ih fun other came => apart other (List.mem_append_left _ came)
      have spread := nodup_ids_merge incoming distinct
      have spreadKept := nodup_ids_merge (incoming.filter keep) distinct
      have step : merge (incoming ++ [last]) entries =
          upsert Entry.isNewerThan last (merge incoming entries) := merge_append _ _ _
      rw [step, mem_upsert_iff spread, before, forall_merge_lt_iff distinct]
      by_cases stays : keep last
      · have same : (incoming ++ [last]).filter keep = incoming.filter keep ++ [last] := by
          simp [stays]
        have stepKept : merge (incoming.filter keep ++ [last]) entries =
          upsert Entry.isNewerThan last (merge (incoming.filter keep) entries) :=
            merge_append _ _ _
        rw [same, stepKept, mem_upsert_iff spreadKept, forall_merge_lt_iff distinct]
        simp only [List.mem_append, List.mem_filter, List.mem_singleton]
        grind
      · have same : (incoming ++ [last]).filter keep = incoming.filter keep := by
          simp [stays]
        have other : copy ≠ last := fun equal => stays (equal ▸ kept)
        have differ := apart last (by simp) stays
        rw [same]
        simp only [List.mem_append, List.mem_singleton]
        grind

end Merge

/-- Entries that are of the same peers in the same order are the same, if all of one are among the
other. -/
theorem eq_of_ids_eq {left right : List Entry} (distinct : (ids right).Nodup)
    (same : ids left = ids right) (part : left ⊆ right) : left = right := by
  induction left generalizing right with
  | nil =>
      cases right with
      | nil => rfl
      | cons => cases same
  | cons first rest ih =>
      cases right with
      | nil => cases same
      | cons other others =>
          obtain ⟨named, sameRest⟩ := List.cons.inj same
          obtain ⟨absent, distinctRest⟩ := List.nodup_cons.mp distinct
          have meets : first = other := by
            rcases List.mem_cons.mp (part List.mem_cons_self) with equal | later
            · exact equal
            · exact absurd (named ▸ mem_ids_of_mem later) absent
          have partRest : rest ⊆ others := by
            intro entry member
            rcases List.mem_cons.mp (part (List.mem_cons_of_mem first member)) with equal | later
            · have twice : other.id ∈ ids rest := equal ▸ mem_ids_of_mem member
              exact absurd (sameRest ▸ twice) absent
            · exact later
          rw [meets, ih distinctRest sameRest partRest]

/-- The places that a merge gives hang on the peers only. -/
theorem ids_merge_congr {left right : List Entry} (incoming : List Entry)
    (same : ids left = ids right) : ids (merge incoming left) = ids (merge incoming right) := by
  induction incoming generalizing left right with
  | nil => exact same
  | cons entry incoming ih =>
      apply ih
      rw [ids_upsert, ids_upsert, same]

/-- The copies of all peers but one. -/
def without (id : PeerId) (copies : List Entry) : List Entry := copies.filter (·.id != id)

theorem without_upsert (id : PeerId) (entry : Entry) (entries : List Entry) :
    without id (upsert Entry.isNewerThan entry entries) =
      if entry.id = id then without id entries
      else upsert Entry.isNewerThan entry (without id entries) := by
  induction entries with
  | nil =>
      by_cases named : entry.id = id
      · simp [upsert, without, named]
      · simp [upsert, without, named]
  | cons first rest ih =>
      unfold without at ih ⊢
      by_cases same : first.id = entry.id
      · have winner : (if entry.isNewerThan first then entry else first).id = entry.id := by
          split
          · rfl
          · exact same
        by_cases named : entry.id = id
        · simp [upsert, same, winner, named]
        · simp [upsert, same, winner, named]
      · have step : upsert Entry.isNewerThan entry (first :: rest) =
            first :: upsert Entry.isNewerThan entry rest := by
          rw [upsert, if_neg same]
        rw [step, List.filter_cons, List.filter_cons, ih]
        by_cases dropped : first.id = id
        · simp [dropped]
        · by_cases named : entry.id = id
          · simp [dropped, named]
          · simp [dropped, named, upsert, same]

/-- One peer's copies have no bearing on what a merge leaves of the others. -/
theorem without_merge (id : PeerId) (incoming entries : List Entry) :
    without id (merge incoming entries) = merge (without id incoming) (without id entries) := by
  induction incoming generalizing entries with
  | nil => rfl
  | cons entry incoming ih =>
      rw [merge_cons, ih, without_upsert]
      by_cases named : entry.id = id
      · simp [without, named]
      · simp [without, named]

/-- A copy whose peer has its place makes no difference where a fresher one comes after it. -/
theorem merge_overtaken {entries later : List Entry} (distinct : (ids entries).Nodup)
    {entry fresher : Entry} (placed : entry.id ∈ ids entries) (comes : fresher ∈ later)
    (same : fresher.id = entry.id) (newer : entry.key < fresher.key) :
    merge later (upsert Entry.isNewerThan entry entries) = merge later entries := by
  have sameIds : ids (upsert Entry.isNewerThan entry entries) = ids entries := by
    rw [ids_upsert, if_pos placed]
  refine eq_of_ids_eq (nodup_ids_merge later distinct) (ids_merge_congr later sameIds) ?_
  intro copy kept
  rw [← merge_cons] at kept
  have beaten : copy.id = entry.id → entry.key < copy.key := by
    intro named
    have there : fresher ∈ entry :: later ++ entries := by simp [comes]
    have supersedes := merge_supersedes (entry :: later) distinct
    exact lt_of_lt_of_le newer (supersedes fresher there copy kept (named.trans same.symm))
  -- Both merges are compared with the one that `entry` is kept out of wherever it stands.
  let keep := fun other : Entry => decide (other ≠ entry)
  have stays : keep copy := by
    refine decide_eq_true fun equal => ?_
    have less := beaten (congrArg Entry.id equal)
    rw [equal] at less
    exact lt_irrefl _ less
  have only (other : Entry) (dropped : ¬ keep other) : other = entry := by
    simpa [keep] using dropped
  have less (other : Entry) (dropped : ¬ keep other) (named : other.id = copy.id) :
      other.key < copy.key := by
    rw [only other dropped] at named ⊢
    exact beaten named.symm
  have apart (copies : List Entry) : ∀ other ∈ copies, ¬ keep other → other.id = copy.id →
      other.key ≠ copy.key := fun other _ dropped named => (less other dropped named).ne
  have filtered : (entry :: later).filter keep = later.filter keep := by simp [keep]
  rw [mem_merge_filter distinct stays (apart _)] at kept ⊢
  rw [filtered] at kept
  exact ⟨kept.1, fun other _ => less other⟩

section Late

variable {cache : PeerCache} {now : Timestamp}

/-- The copies that come in time. -/
def timely (now : Timestamp) (copies : List Entry) : List Entry :=
  copies.filter (!·.isExpired now)

theorem mem_timely {copy : Entry} {copies : List Entry} :
    copy ∈ timely now copies ↔ copy ∈ copies ∧ ¬ copy.isExpired now := by
  simp [timely]

/-- A live copy is not over, and neither is one of the same key. -/
theorem key_ne_of_expired {late copy : Entry} (expired : late.isExpired now)
    (timely : ¬ copy.isExpired now) : late.key ≠ copy.key := by
  intro same
  have expiry : late.expiresAt = copy.expiresAt := by
    have second := congrArg (fun key => (ofLex key).2) same
    exact congrArg Timestamp.mk (UInt64.toNat_inj.mp second)
  rw [Entry.isExpired, ← expiry] at timely
  exact timely expired

/-- A late copy among others, that were held, came before it or come after it, changes nothing:
nothing of its peer is live in any case, or the peer has its place already and a copy of it that is
held or in time is as fresh. -/
def Harmless (cache : PeerCache) (now : Timestamp) (held earlier later : List Entry)
    (late : Entry) : Prop :=
  (∀ copy ∈ held ++ (earlier ++ later), copy.id = late.id → ¬ cache.isLive now copy) ∨
    late.id ∈ ids (held ++ timely now earlier) ∧
      ∃ copy ∈ held ++ timely now (earlier ++ later), copy.id = late.id ∧ late.key ≤ copy.key

/-- Where nothing of a peer is live, its copies may as well be absent. -/
theorem filter_merge_without {id : PeerId} {entries incoming : List Entry}
    (dead : ∀ copy ∈ entries ++ incoming, copy.id = id → ¬ cache.isLive now copy) :
    (merge incoming entries).filter (cache.isLive now) =
      (merge (without id incoming) (without id entries)).filter (cache.isLive now) := by
  rw [← without_merge, without, List.filter_filter]
  apply List.filter_congr
  intro copy stored
  by_cases named : copy.id = id
  · have origin := mem_of_mem_merge stored
    have gone := dead copy (List.mem_append.mpr origin.symm) named
    simp [named, gone]
  · simp [named]

/-- A copy that is late itself is of no account to the others. -/
theorem Harmless.tail {held earlier later : List Entry} {first late : Entry}
    (harmless : Harmless cache now held (first :: earlier) later late)
    (expired : first.isExpired now) : Harmless cache now held earlier later late := by
  have same (copies : List Entry) : timely now (first :: copies) = timely now copies := by
    simp [timely, expired]
  simp only [Harmless, List.cons_append, same] at harmless
  refine harmless.imp_left fun dead copy there => dead copy ?_
  rcases List.mem_append.mp there with stored | came
  · exact List.mem_append_left _ stored
  · exact List.mem_append_right _ (List.mem_cons_of_mem first came)

/-- A copy in time does not have to be among those that are to come once it is merged. -/
theorem Harmless.upsert {held earlier later : List Entry} {first late : Entry}
    (harmless : Harmless cache now held (first :: earlier) later late)
    (distinct : (ids held).Nodup) (inTime : ¬ first.isExpired now) :
    Harmless cache now (upsert Entry.isNewerThan first held) earlier later late := by
  have same (copies : List Entry) : timely now (first :: copies) = first :: timely now copies := by
    simp [timely, inTime]
  simp only [Harmless, List.cons_append, same] at harmless
  rcases harmless with dead | ⟨placed, copy, there, named, fresh⟩
  · refine Or.inl fun copy there => dead copy ?_
    rcases List.mem_append.mp there with stored | came
    · have origin := mem_of_mem_upsert stored
      simp only [List.mem_append, List.mem_cons]
      tauto
    · simp only [List.mem_append, List.mem_cons] at came ⊢
      tauto
  · refine Or.inr ⟨?_, ?_⟩
    · simp only [ids, List.map_append, List.map_cons, List.mem_append, List.mem_cons] at placed
      rw [ids, List.map_append, List.mem_append]
      have known := @mem_ids_upsert Entry.isNewerThan first late.id held
      simp only [ids] at known
      tauto
    · by_cases later_on : copy ∈ timely now (earlier ++ later)
      · exact ⟨copy, List.mem_append_right _ later_on, named, fresh⟩
      · have before : copy ∈ [first] ++ held := by
          simp only [List.mem_append, List.mem_cons] at there ⊢
          tauto
        obtain ⟨stored, kept, same, fresher⟩ := merge_absorbs distinct before
        exact ⟨stored, List.mem_append_left _ kept, same.trans named, fresh.trans fresher⟩

/-- Copy by copy, the harmless ones among the late may be left out. -/
theorem filter_merge_timely {held batch : List Entry} (distinct : (ids held).Nodup)
    (harmless : ∀ earlier late later, batch = earlier ++ late :: later → late.isExpired now →
      Harmless cache now held earlier later late) :
    (merge batch held).filter (cache.isLive now) =
      (merge (timely now batch) held).filter (cache.isLive now) := by
  induction batch generalizing held with
  | nil => rfl
  | cons first rest ih =>
      by_cases expired : first.isExpired now
      · have same : timely now (first :: rest) = timely now rest := by simp [timely, expired]
        have kept : (merge rest held).filter (cache.isLive now) =
            (merge (timely now rest) held).filter (cache.isLive now) := by
          refine ih distinct fun earlier late later split overLate => ?_
          have outer := harmless (first :: earlier) late later (by rw [split]; rfl) overLate
          exact outer.tail expired
        rw [same, ← kept, merge_cons]
        rcases harmless [] first rest rfl expired with dead | ⟨placed, fresher, there, named, fresh⟩
        · rw [List.nil_append] at dead
          have deadHeld : ∀ copy ∈ upsert Entry.isNewerThan first held ++ rest,
              copy.id = first.id → ¬ cache.isLive now copy := by
            intro copy there
            rcases List.mem_append.mp there with stored | came
            · rcases mem_of_mem_upsert stored with rfl | before
              · intro _ live
                have lives := (isLive_iff.mp live).2.1
                exact absurd (of_decide_eq_true expired) (UInt64.not_le.mpr lives)
              · exact dead copy (List.mem_append_left _ before)
            · exact dead copy (List.mem_append_right _ came)
          rw [filter_merge_without deadHeld, filter_merge_without dead, without_upsert, if_pos rfl]
        · have placedHeld : first.id ∈ ids held := by simpa [timely] using placed
          by_cases absorbed : Absorbs held first
          · rw [upsert_absorbed distinct absorbed]
          · have comes : fresher ∈ timely now rest := by
              rcases List.mem_append.mp there with stored | came
              · exact absurd ⟨fresher, stored, named, fresh⟩ absorbed
              · exact came
            obtain ⟨inBatch, inTime⟩ := mem_timely.mp comes
            have newer := lt_of_le_of_ne fresh (key_ne_of_expired expired inTime)
            rw [merge_overtaken distinct placedHeld inBatch named newer]
      · have same : timely now (first :: rest) = first :: timely now rest := by
          simp [timely, expired]
        rw [same, merge_cons, merge_cons]
        refine ih (nodup_ids_upsert _ first distinct) fun earlier late later split overLate => ?_
        have outer := harmless (first :: earlier) late later (by rw [split]; rfl) overLate
        exact outer.upsert distinct expired

/-- What a merge leaves before anybody has to go. -/
def swept (cache : PeerCache) (now : Timestamp) (batch : List Entry) : List Entry :=
  (cache.merged batch).liveView now

theorem addAll_eq_trim (batch : List Entry) :
    cache.addAll now batch =
      { cache with entries := cache.swept now batch }.trim cache.capacity none := rfl

/-- Copies of the owner are of no account to those of the others. -/
theorem Harmless.foreign {owner : PeerId} {held earlier later : List Entry} {late : Entry}
    (harmless : Harmless cache now held earlier later late) (other : late.id ≠ owner) :
    Harmless cache now held (without owner earlier) (without owner later) late := by
  have keeps {copy : Entry} (named : copy.id = late.id) (copies : List Entry) :
      copy ∈ without owner copies ↔ copy ∈ copies := by
    simp [without, named, other]
  rcases harmless with dead | ⟨placed, copy, there, named, fresh⟩
  · refine Or.inl fun copy there named => dead copy ?_ named
    simpa only [List.mem_append, keeps named] using there
  · refine Or.inr ⟨?_, copy, ?_, named, fresh⟩
    · obtain ⟨first, before, same⟩ := mem_ids.mp placed
      refine mem_ids.mpr ⟨first, ?_, same⟩
      simpa only [List.mem_append, mem_timely, keeps same] using before
    · simpa only [List.mem_append, mem_timely, keeps named] using there

theorem timely_without (owner : PeerId) (copies : List Entry) :
    timely now (without owner copies) = without owner (timely now copies) := by
  simp only [timely, without, List.filter_filter, Bool.and_comm]

variable (reached : Reached cache)

include reached

theorem swept_eq (batch : List Entry) :
    cache.swept now batch =
      (merge (without cache.owner batch) cache.entries).filter (cache.isLive now) := by
  have distinct := nodup_ids_merge (without cache.owner batch) reached.distinct
  have part : (ids ((merge (without cache.owner batch) cache.entries).filter
      (cache.isLive now))).Nodup := distinct.sublist (List.filter_sublist.map Entry.id)
  exact merge_distinct part

/-- Whoever is left where some copies came late is left where they did not come, and the other way
round unless a late copy of the same peer was fresher. -/
theorem mem_swept_iff {batch : List Entry} {copy : Entry} :
    copy ∈ cache.swept now batch ↔ copy ∈ cache.swept now (timely now batch) ∧
      ∀ late ∈ batch, late.isExpired now → late.id = copy.id → late.key < copy.key := by
  rw [swept_eq reached, swept_eq reached, List.mem_filter, List.mem_filter, ← timely_without]
  by_cases live : cache.isLive now copy
  · obtain ⟨other, lives, _⟩ := isLive_iff.mp live
    have inTime : ¬ copy.isExpired now := fun expired =>
      UInt64.not_le.mpr lives (of_decide_eq_true expired)
    have apart : ∀ late ∈ without cache.owner batch, ¬ (!late.isExpired now) →
        late.id = copy.id → late.key ≠ copy.key := by
      intro late _ expired _
      exact key_ne_of_expired (by simpa using expired) inTime
    rw [mem_merge_filter reached.distinct (by simpa using inTime) apart]
    have foreign (late : Entry) (named : late.id = copy.id) :
        late ∈ without cache.owner batch ↔ late ∈ batch := by
      simp [without, named, other]
    simp only [live, and_true, timely, Bool.not_eq_true, Bool.not_eq_false']
    refine and_congr_right fun _ => forall_congr' fun late => ?_
    constructor
    · intro stale came expired named
      exact stale ((foreign late named).mpr came) expired named
    · intro stale came expired named
      exact stale ((foreign late named).mp came) expired named
  · simp [live]

theorem swept_timely {batch : List Entry}
    (harmless : ∀ earlier late later, batch = earlier ++ late :: later → late.isExpired now →
      Harmless cache now cache.entries earlier later late) :
    cache.swept now batch = cache.swept now (timely now batch) := by
  rw [swept_eq reached, swept_eq reached, ← timely_without]
  refine filter_merge_timely reached.distinct fun earlier late later split expired => ?_
  obtain ⟨front, back, rfl, rfl, rest⟩ := List.filter_eq_append_iff.mp split
  obtain ⟨between, behind, rfl, own, foreign, rfl⟩ := List.filter_eq_cons_iff.mp rest
  have outer := harmless (front ++ between) late behind (by simp) expired
  have inner := outer.foreign (bne_iff_ne.mp foreign)
  have none_between : without cache.owner between = [] := List.filter_eq_nil_iff.mpr own
  rwa [without, List.filter_append, ← without, ← without, none_between, List.append_nil] at inner

/-- Copies that come too late bring nobody in and let no more entries be given up: what a merge
leaves with them is what it leaves without them, but for the peers of which a late copy is fresher
than the copy that would be left. And where no late copy is fresher than all that is live of its
peer, nor comes before the first copy of it, the merge is the same with them as without them, to the
last draw. -/
theorem late_copies (now : Timestamp) (batch : List Entry) :
    (∀ copy, copy ∈ cache.swept now batch ↔ copy ∈ cache.swept now (timely now batch) ∧
      ∀ late ∈ batch, late.isExpired now → late.id = copy.id → late.key < copy.key) ∧
    (cache.swept now batch).length ≤ (cache.swept now (timely now batch)).length ∧
    ((∀ earlier late later, batch = earlier ++ late :: later → late.isExpired now →
        Harmless cache now cache.entries earlier later late) →
      cache.addAll now batch = cache.addAll now (timely now batch)) := by
  refine ⟨fun copy => mem_swept_iff reached, ?_, fun harmless => ?_⟩
  · have distinct : (ids (cache.swept now batch)).Nodup := nodup_ids_liveView
    have part : cache.swept now batch ⊆ cache.swept now (timely now batch) :=
      fun copy left => ((mem_swept_iff reached).mp left).1
    exact distinct.of_map.length_le_of_subset part
  · rw [addAll_eq_trim, addAll_eq_trim, swept_timely reached harmless]

end Late

section Overtaking

/-- A late copy that is staler than the one held, one of a stranger, and one that a copy in time
comes after. -/
def harmlessBatch : List Entry :=
  [numbered 1 0 10, numbered 3 5 10, numbered 2 4 10, numbered 2 6 60]

theorem late_copies_harmlessBatch :
    Reached halfFull ∧
    (∀ earlier late later, harmlessBatch = earlier ++ late :: later → late.isExpired ⟨20⟩ →
      Harmless halfFull ⟨20⟩ halfFull.entries earlier later late) ∧
    halfFull.addAll ⟨20⟩ harmlessBatch = halfFull.addAll ⟨20⟩ [numbered 2 6 60] := by
  have reached : Reached halfFull := (Reached.empty _ _ _ _).perform _ _
  have harmless : ∀ earlier late later, harmlessBatch = earlier ++ late :: later →
      late.isExpired ⟨20⟩ → Harmless halfFull ⟨20⟩ halfFull.entries earlier later late := by
    unfold harmlessBatch Harmless
    intro earlier late later split expired
    rcases earlier with _ | ⟨first, _ | ⟨second, _ | ⟨third, _ | ⟨fourth, rest⟩⟩⟩⟩
    · obtain ⟨rfl, rfl⟩ := List.cons.inj split
      decide +kernel
    · simp only [List.cons_append, List.nil_append, List.cons.injEq] at split
      obtain ⟨rfl, rfl, rfl⟩ := split
      decide +kernel
    · simp only [List.cons_append, List.nil_append, List.cons.injEq] at split
      obtain ⟨rfl, rfl, rfl, rfl⟩ := split
      decide +kernel
    · simp only [List.cons_append, List.nil_append, List.cons.injEq] at split
      obtain ⟨rfl, rfl, rfl, rfl, rfl⟩ := split
      exact absurd expired (by decide +kernel)
    · simp at split
  exact ⟨reached, harmless, (late_copies reached ⟨20⟩ harmlessBatch).2.2 harmless⟩

/-- A live peer goes when a copy of it comes that is fresher, but over already. -/
theorem live_displaced : ¬ ∀ cache : PeerCache, Reached cache → ∀ now batch,
    cache.addAll now batch = cache.addAll now (timely now batch) := by
  intro inert
  have reached : Reached halfFull := (Reached.empty _ _ _ _).perform _ _
  have same := inert halfFull reached ⟨20⟩ [numbered 1 7 10]
  have sizes := congrArg (fun chance : Chance PeerCache => (chance .last).1.size) same
  have displaced : (halfFull.addAll ⟨20⟩ [numbered 1 7 10] .last).1.size ≠
      (halfFull.addAll ⟨20⟩ (timely ⟨20⟩ [numbered 1 7 10]) .last).1.size := by
    decide +kernel
  exact displaced sizes

end Overtaking

end Overlay.PeerCache
