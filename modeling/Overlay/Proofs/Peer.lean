import Mathlib.Data.List.Forall2
import Mathlib.Data.Prod.Lex
import Overlay.Peer

/-!
Times, and the order and the age of the copies of one peer.
-/

set_option autoImplicit false

namespace Overlay

/-- A count that stops at its largest value. -/
theorem toNat_saturating (count : UInt32) :
    (if count = UInt32.ofNat (UInt32.size - 1) then count else count + 1).toNat =
      min (count.toNat + 1) (UInt32.size - 1) := by
  have bound : count.toNat < UInt32.size := count.toNat_lt
  split
  · next largest =>
      have number : count.toNat = UInt32.size - 1 := by
        rw [largest]
        rfl
      omega
  · next smaller =>
      have below : count.toNat ≠ UInt32.size - 1 := fun equal =>
        smaller (UInt32.toNat_inj.mp equal)
      have next : (count + 1).toNat = count.toNat + 1 := by
        rw [UInt32.toNat_add]
        exact Nat.mod_eq_of_lt (by change _ + 1 < UInt32.size; omega)
      omega

/-- Publishing counts up to the last epoch, and goes on without counting. -/
theorem PeerRecord.toNat_epoch_publish (record : PeerRecord) (coordinate : Coordinate) :
    (record.publish coordinate).epoch.toNat =
      min (record.epoch.toNat + 1) (UInt64.size - 1) := by
  have bound : record.epoch.toNat < UInt64.size := record.epoch.toNat_lt
  by_cases last : record.epoch = UInt64.ofNat (UInt64.size - 1)
  · have number : record.epoch.toNat = UInt64.size - 1 := by
      rw [last]
      rfl
    simp only [publish, last, ↓reduceIte]
    rw [← last]
    omega
  · have below : record.epoch.toNat ≠ UInt64.size - 1 := fun equal =>
      last (UInt64.toNat_inj.mp equal)
    have next : (record.epoch + 1).toNat = record.epoch.toNat + 1 := by
      rw [UInt64.toNat_add]
      exact Nat.mod_eq_of_lt (by change _ + 1 < UInt64.size; omega)
    simp only [publish, last, ↓reduceIte]
    omega

namespace Timestamp

theorem le_refl (time : Timestamp) : time ≤ time := UInt64.le_refl time.millis

theorem le_trans {first second third : Timestamp} (before : first ≤ second)
    (after : second ≤ third) : first ≤ third := UInt64.le_trans before after

theorem lt_of_lt_of_le {first second third : Timestamp} (before : first < second)
    (after : second ≤ third) : first < third := UInt64.lt_of_lt_of_le before after

theorem not_lt {first second : Timestamp} : ¬ first < second ↔ second ≤ first := UInt64.not_lt

theorem le_of_not_le {first second : Timestamp} (later : ¬ first ≤ second) : second ≤ first :=
  UInt64.le_of_lt (UInt64.not_le.mp later)

theorem toNat_plus (time : Timestamp) (millis : UInt64) :
    (time.plus millis).millis.toNat =
      min (time.millis.toNat + millis.toNat) (UInt64.size - 1) := by
  simp only [plus, UInt64.toNat_ofNat', UInt64.size]
  omega

theorem toNat_since (time earlier : Timestamp) :
    (time.since earlier).toNat = time.millis.toNat - earlier.millis.toNat := by
  have bound := time.millis.toNat_lt
  rw [since, UInt64.toNat_ofNat', Nat.mod_eq_of_lt (by omega)]

theorem plus_le_plus {first second : Timestamp} (before : first ≤ second) (millis : UInt64) :
    first.plus millis ≤ second.plus millis := by
  have order : first.millis.toNat ≤ second.millis.toNat := UInt64.le_iff_toNat_le.mp before
  refine UInt64.le_iff_toNat_le.mpr ?_
  rw [toNat_plus, toNat_plus]
  omega

end Timestamp

namespace Entry

theorem age_older (entry : Entry) :
    entry.older.age.toNat = min (entry.age.toNat + 1) (UInt32.size - 1) :=
  toNat_saturating entry.age

/-- One copy is another one that has survived one more round: the count of its rounds has grown by
one, up to the largest one, and all else is the same. -/
structure Aged (before after : Entry) : Prop where
  record : after.record = before.record
  expiresAt : after.expiresAt = before.expiresAt
  age : after.age.toNat = min (before.age.toNat + 1) (UInt32.size - 1)

theorem aged_older (entry : Entry) : Aged entry entry.older := ⟨rfl, rfl, entry.age_older⟩

theorem forall₂_aged (entries : List Entry) : List.Forall₂ Aged entries (entries.map older) :=
  List.forall₂_map_right_iff.mpr (List.forall₂_same.mpr fun entry _ => entry.aged_older)

/-- What copies of one peer are ordered by. -/
def key (entry : Entry) : ℕ ×ₗ ℕ :=
  toLex (entry.record.epoch.toNat, entry.expiresAt.millis.toNat)

theorem isNewerThan_iff {left right : Entry} :
    left.isNewerThan right ↔ right.key < left.key := by
  simp only [isNewerThan, freshness, key, Prod.Lex.toLex_lt_toLex, beq_iff_eq, Ordering.then_eq_gt,
    Std.compare_eq_gt, Std.compare_eq_iff_eq, UInt64.lt_iff_toNat_lt]
  rw [eq_comm, UInt64.toNat_inj]

theorem epoch_le_of_key_le {left right : Entry} (stale : left.key ≤ right.key) :
    left.record.epoch ≤ right.record.epoch := by
  rw [UInt64.le_iff_toNat_le]
  rcases Prod.Lex.toLex_le_toLex.mp stale with before | ⟨same, _⟩
  · exact before.le
  · exact same.le

/-- A copy that was made later is no staler. -/
theorem key_fresh_le (record : PeerRecord) {first second : Timestamp} (before : first ≤ second)
    (lifetime : UInt64) : (fresh record first lifetime).key ≤ (fresh record second lifetime).key :=
  Prod.Lex.toLex_le_toLex.mpr
    (Or.inr ⟨rfl, UInt64.le_iff_toNat_le.mp (Timestamp.plus_le_plus before lifetime)⟩)

@[simp] theorem key_older (entry : Entry) : entry.older.key = entry.key := rfl

end Entry

end Overlay
