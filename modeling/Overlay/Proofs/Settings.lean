import Overlay.Settings.Basic

/-!
Settings that can be used.

The checks of the settings are made one after the other, and the first one that fails is reported.
Settings pass just if each of the checks does, in whatever order (`validate_eq_ok_iff`).
-/

set_option autoImplicit false

namespace Overlay.Settings

/-- Every check of the settings on its own. The interval of the trackers is not among them. -/
structure Usable (settings : Settings) : Prop where
  positive : ∀ field ∈ settings.positiveFields, field.2 ≠ 0
  tries : settings.pingTries ≠ 0 ∧ settings.pingTries ≤ 256
  algorithms : settings.algorithms ≠ []
  gossip : settings.gossipInterval ≠ 0
  vivaldi : settings.vivaldiInterval ≠ 0
  cluster : settings.clusterInterval ≠ 0

variable {settings : Settings}

/-- A check that passes leaves it to the later ones. -/
theorem check_eq_none_iff {check : Prop} [Decidable check] {fault : SettingsFault}
    {later : Option SettingsFault} :
    (if check then some fault else later) = none ↔ ¬ check ∧ later = none := by
  by_cases fails : check
  · rw [if_pos fails]
    exact iff_of_false nofun fun passes => passes.1 fails
  · rw [if_neg fails]
    exact (and_iff_right fails).symm

theorem fault?_eq_none_iff : settings.fault? = none ↔ settings.Usable := by
  rw [fault?]
  cases found : settings.positiveFields.find? (·.2 = 0) with
  | some field =>
      have zero : field.2 = 0 := by simpa using List.find?_some found
      refine iff_of_false nofun fun usable => ?_
      exact usable.positive field (List.mem_of_find?_eq_some found) zero
  | none =>
      have positive : ∀ field ∈ settings.positiveFields, field.2 ≠ 0 := by
        simpa only [List.find?_eq_none, decide_eq_true_eq] using found
      dsimp only
      rw [check_eq_none_iff, check_eq_none_iff, check_eq_none_iff, not_or, not_or, not_or,
        UInt64.not_lt, List.isEmpty_iff]
      constructor
      · rintro ⟨tries, algorithms, ⟨gossip, vivaldi, cluster⟩, -⟩
        exact ⟨positive, tries, algorithms, gossip, vivaldi, cluster⟩
      · rintro ⟨-, tries, algorithms, gossip, vivaldi, cluster⟩
        exact ⟨tries, algorithms, ⟨gossip, vivaldi, cluster⟩, rfl⟩

theorem validate_eq_ok_iff : settings.validate = .ok settings ↔ settings.Usable := by
  rw [validate, ← fault?_eq_none_iff]
  cases settings.fault? with
  | none => exact iff_of_true rfl rfl
  | some fault => exact iff_of_false nofun nofun

end Overlay.Settings
