import ServiceBroker.Config.Validation
import ServiceBroker.Proofs.Version.Order

/-! The versions that a state has ahead of it. If the path ascends up to the default version, as
that of a valid configuration does, what lies ahead of a version on the way is what is left of the
way. -/

namespace ServiceBroker

namespace UpgradeSettings

variable {settings : UpgradeSettings} {current version : Version} {passed rest : List Version}

/-- The versions of the path that lie ahead of a state which `current` wrote. -/
def ahead (settings : UpgradeSettings) (current : Version) : List Version :=
  if current < settings.defaultVersion then settings.path.filter fun version => current < version
  else []

/-- The path ascends up to the default version. -/
structure Ascends (settings : UpgradeSettings) : Prop where
  ascending : settings.path.Pairwise (· < ·)
  le_default : ∀ version ∈ settings.path, version ≤ settings.defaultVersion

theorem ahead_of_not_lt (h : ¬current < settings.defaultVersion) : settings.ahead current = [] :=
  if_neg h

/-- An old state has steps ahead, unless they are forbidden or there is no path. -/
theorem stepsFrom_eq (settings : UpgradeSettings) (current : Version) :
    settings.stepsFrom current =
      if current < settings.defaultVersion then
        if settings.enabled = false then
          .error (.versionMismatch current.text settings.defaultVersion.text)
        else if settings.path = [] then .error .noUpgradePath
        else .ok (settings.ahead current)
      else .ok [] := by
  simp only [stepsFrom, ahead, ← Version.not_lt]
  by_cases hOld : current < settings.defaultVersion
  · cases settings.enabled <;> cases settings.path <;> simp [hOld] <;> rfl
  · simp [hOld]
    rfl

/-- What lies ahead is applied, unless it may not be or there is no path. -/
theorem stepsFrom_eq_ok_iff {steps : List Version} :
    settings.stepsFrom current = .ok steps ↔
      (settings.defaultVersion ≤ current ∨ settings.enabled = true ∧ settings.path ≠ []) ∧
        steps = settings.ahead current := by
  rw [stepsFrom_eq, ← Version.not_lt]
  by_cases hOld : current < settings.defaultVersion
  · cases settings.enabled
    · simp [hOld]
    · by_cases hPath : settings.path = [] <;> simp [hOld, hPath, eq_comm]
  · simp only [hOld, if_false, not_false_eq_true, true_or, true_and, ahead_of_not_lt hOld,
      Except.ok.injEq]
    exact eq_comm

theorem stepsFrom_eq_error_iff {e : JobError} :
    settings.stepsFrom current = .error e ↔
      current < settings.defaultVersion ∧
        (settings.enabled = false ∧
            e = .versionMismatch current.text settings.defaultVersion.text ∨
          settings.enabled = true ∧ settings.path = [] ∧ e = .noUpgradePath) := by
  rw [stepsFrom_eq]
  by_cases hOld : current < settings.defaultVersion
  · cases settings.enabled
    · simp [hOld, eq_comm]
    · by_cases hPath : settings.path = [] <;> simp [hOld, hPath, eq_comm]
  · simp [hOld]

theorem stepsFrom_eq_ahead (enabled : settings.enabled = true) (path : settings.path ≠ [])
    (current : Version) : settings.stepsFrom current = .ok (settings.ahead current) :=
  stepsFrom_eq_ok_iff.mpr ⟨.inr ⟨enabled, path⟩, rfl⟩

theorem mem_ahead_iff : version ∈ settings.ahead current ↔
    current < settings.defaultVersion ∧ version ∈ settings.path ∧ current < version := by
  rw [ahead]
  split <;> simp_all

/-- A walk never leaves the path. -/
theorem mem_path_of_stepsFrom {steps : List Version} (h : settings.stepsFrom current = .ok steps) :
    ∀ version ∈ steps, version ∈ settings.path := by
  obtain ⟨-, rfl⟩ := stepsFrom_eq_ok_iff.mp h
  exact fun version hStep => (mem_ahead_iff.mp hStep).2.1

/-- What lies ahead of a version on the way is what is left of the way. -/
theorem Ascends.ahead_eq_rest (ascends : settings.Ascends)
    (h : settings.ahead current = passed ++ version :: rest) : settings.ahead version = rest := by
  have hMember : version ∈ settings.ahead current := by simp [h]
  obtain ⟨hOld, -, hStep⟩ := mem_ahead_iff.mp hMember
  rw [ahead, if_pos hOld] at h
  have hSorted := ascends.ascending.filter fun next => decide (current < next)
  rw [h, List.pairwise_append, List.pairwise_cons] at hSorted
  obtain ⟨-, ⟨hRest, -⟩, hPassed⟩ := hSorted
  by_cases hNew : version < settings.defaultVersion
  · -- Whatever is newer than the version is newer than what came before it.
    have hFilter : settings.path.filter (fun next => decide (version < next)) =
        (passed ++ version :: rest).filter fun next => decide (version < next) := by
      rw [← h, List.filter_filter]
      refine List.filter_congr fun next _ => ?_
      by_cases hNext : version < next
      · simp [hNext, Version.lt_trans hStep hNext]
      · simp [hNext]
    rw [ahead, if_pos hNew, hFilter, List.filter_append, List.filter_cons_of_neg,
      List.filter_eq_nil_iff.mpr, List.filter_eq_self.mpr, List.nil_append]
    · exact fun next hNext => decide_eq_true (hRest next hNext)
    · intro next hNext
      simpa using Version.not_lt.mpr (Version.le_of_lt (hPassed next hNext version (by simp)))
    · simpa using Version.lt_irrefl version
  · rw [ahead_of_not_lt hNew]
    cases rest with
    | nil => rfl
    | cons next rest =>
        have hOnPath : next ∈ settings.ahead current := by
          rw [ahead, if_pos hOld, h]
          simp
        have hBound := ascends.le_default next (mem_ahead_iff.mp hOnPath).2.1
        have hBeyond := Version.lt_of_le_of_lt (Version.not_lt.mp hNew) (hRest next (by simp))
        exact (Version.not_lt.mpr hBound hBeyond).elim

theorem Ascends.pairwise_ahead (ascends : settings.Ascends) (current : Version) :
    (settings.ahead current).Pairwise (· < ·) := by
  rw [ahead]
  split
  · exact ascends.ascending.filter _
  · exact .nil

end UpgradeSettings

namespace Config

/-- A path without a descent between neighbours ascends throughout, since the order is transitive. -/
theorem descents_eq_nil_iff {path : List Version} : descents path = [] ↔ path.Pairwise (· < ·) := by
  induction path with
  | nil => exact iff_of_true rfl .nil
  | cons version path ih =>
      cases path with
      | nil => exact iff_of_true rfl (List.pairwise_singleton _ _)
      | cons next path =>
          rw [descents, List.pairwise_cons]
          split
          · next hBack =>
              refine iff_of_false (by simp) fun h => ?_
              exact Version.not_le.mpr (h.1 next List.mem_cons_self) hBack
          · next hStep =>
              rw [ih]
              refine ⟨fun hPath => ⟨fun other hOther => ?_, hPath⟩, And.right⟩
              have hNext := Version.not_le.mp hStep
              rcases List.mem_cons.mp hOther with rfl | hLater
              · exact hNext
              · exact Version.lt_trans hNext ((List.pairwise_cons.mp hPath).1 other hLater)

/-- Nothing is wrong with the versions and the path of a valid configuration. -/
theorem faults_eq_nil_of_isValid {config : Config} (valid : config.check.isValid = true) :
    (versionFaults config.tool = [] ∧ pathFaults config.tool = []) ∧
      ∀ version, config.tool.defaultVersion = .ok version →
        beyondFaults config.tool version = [] := by
  have hFaults : (checkTool config.tool).faults = [] := by
    have hAll := List.isEmpty_iff.mp valid
    exact (List.append_eq_nil_iff.mp (List.append_eq_nil_iff.mp hAll).1).1
  unfold checkTool at hFaults
  split at hFaults
  · next e hDefault =>
      refine ⟨List.append_eq_nil_iff.mp hFaults, fun version hVersion => ?_⟩
      cases hDefault.symm.trans hVersion
  · next default hDefault =>
      obtain ⟨hFirst, hBeyond⟩ := List.append_eq_nil_iff.mp hFaults
      refine ⟨List.append_eq_nil_iff.mp hFirst, fun version hVersion => ?_⟩
      obtain rfl := Except.ok.inj (hDefault.symm.trans hVersion)
      exact hBeyond

theorem upgradeSettings_eq_ok_iff {tool : ToolConfig} {settings : UpgradeSettings} :
    tool.upgradeSettings = .ok settings ↔
      tool.defaultVersion = .ok settings.defaultVersion ∧
        settings.enabled = tool.upgradesEnabled ∧ settings.path = tool.upgradePath := by
  obtain ⟨enabled, version, path⟩ := settings
  rw [ToolConfig.upgradeSettings]
  cases tool.defaultVersion with
  | error e => simp [bind, Except.bind]
  | ok found =>
      simp only [bind, Except.bind, pure, Except.pure, Except.ok.injEq, UpgradeSettings.mk.injEq]
      exact ⟨fun ⟨hEnabled, hVersion, hPath⟩ => ⟨hVersion, hEnabled.symm, hPath.symm⟩,
        fun ⟨hVersion, hEnabled, hPath⟩ => ⟨hEnabled.symm, hVersion, hPath.symm⟩⟩

/-- The path of a valid configuration ascends up to the default version. -/
theorem ascends_of_isValid {config : Config} {settings : UpgradeSettings}
    (valid : config.check.isValid = true) (h : config.tool.upgradeSettings = .ok settings) :
    settings.Ascends := by
  obtain ⟨hDefault, -, hSame⟩ := upgradeSettings_eq_ok_iff.mp h
  obtain ⟨⟨-, hPath⟩, hBeyond⟩ := faults_eq_nil_of_isValid valid
  refine ⟨?_, ?_⟩
  · rw [hSame]
    refine descents_eq_nil_iff.mp ?_
    simpa [pathFaults] using (List.append_eq_nil_iff.mp hPath).1
  · intro next hNext
    rw [hSame] at hNext
    have hNone : config.tool.upgradePath.find? (fun next => settings.defaultVersion < next) =
        none := by
      have hBeyond := hBeyond _ hDefault
      unfold beyondFaults at hBeyond
      split at hBeyond
      · cases hBeyond
      · assumption
    exact Version.not_lt.mp (by simpa using List.find?_eq_none.mp hNone next hNext)

/-- A valid configuration says which version jobs run by default. -/
theorem exists_settings_of_isValid {config : Config} (valid : config.check.isValid = true) :
    ∃ settings, config.tool.upgradeSettings = .ok settings := by
  have hVersions := (faults_eq_nil_of_isValid valid).1.1
  unfold versionFaults at hVersions
  obtain ⟨-, hUnresolved⟩ := List.append_eq_nil_iff.mp hVersions
  cases hDefault : config.tool.defaultVersion with
  | error e =>
      rw [hDefault] at hUnresolved
      cases hUnresolved
  | ok version =>
      exact ⟨⟨config.tool.upgradesEnabled, version, config.tool.upgradePath⟩,
        upgradeSettings_eq_ok_iff.mpr ⟨hDefault, rfl, rfl⟩⟩

theorem hasVersion_of_defaultVersion {tool : ToolConfig} {version : Version}
    (h : tool.defaultVersion = .ok version) : tool.hasVersion version = true := by
  unfold ToolConfig.defaultVersion at h
  split at h
  · next flagged hFlagged =>
      cases h
      exact List.any_eq_true.mpr ⟨flagged, List.mem_of_find?_eq_some hFlagged, by simp⟩
  · cases h
  · next only hOnly =>
      cases h
      simp [ToolConfig.hasVersion, hOnly]
  · cases h

/-- The default version of a valid configuration and those on its path are declared. -/
theorem declared_of_isValid {config : Config} {settings : UpgradeSettings}
    (valid : config.check.isValid = true) (h : config.tool.upgradeSettings = .ok settings) :
    config.tool.hasVersion settings.defaultVersion = true ∧
      ∀ version ∈ settings.path, config.tool.hasVersion version = true := by
  obtain ⟨hDefault, -, hSame⟩ := upgradeSettings_eq_ok_iff.mp h
  refine ⟨hasVersion_of_defaultVersion hDefault, fun version hVersion => ?_⟩
  have hPath := (faults_eq_nil_of_isValid valid).1.2
  unfold pathFaults at hPath
  have hUndeclared := List.map_eq_nil_iff.mp (List.append_eq_nil_iff.mp hPath).2
  rw [hSame] at hVersion
  simpa using List.filter_eq_nil_iff.mp hUndeclared version hVersion

end Config

end ServiceBroker
