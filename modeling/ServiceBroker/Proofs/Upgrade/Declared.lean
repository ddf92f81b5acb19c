import ServiceBroker.Proofs.Upgrade.Resumption

/-! What a valid configuration promises of every walk. A walk that may be made ascends from the
state to at most the default version and leaves out no version of the path; nothing but declared
versions is ever asked for, and from where a walk has ended there is nothing left to walk. -/

namespace ServiceBroker

namespace UpgradeSettings

variable {settings : UpgradeSettings} {current : Version} {steps : List Version}

/-- The last step of a walk is where walking ends. -/
theorem Ascends.stepsFrom_last (ascends : settings.Ascends)
    (h : settings.stepsFrom current = .ok steps) :
    settings.stepsFrom (steps.getLastD current) = .ok [] := by
  obtain ⟨hMay, hSteps⟩ := stepsFrom_eq_ok_iff.mp h
  rcases steps.eq_nil_or_concat with rfl | ⟨passed, last, rfl⟩
  · exact h
  · have hAhead : settings.ahead current = passed ++ last :: [] := by simp [← hSteps]
    have hOld : current < settings.defaultVersion :=
      (mem_ahead_iff.mp (show last ∈ settings.ahead current by simp [hAhead])).1
    rw [List.concat_eq_append, List.getLastD_concat]
    refine stepsFrom_eq_ok_iff.mpr ⟨.inr ?_, (ascends.ahead_eq_rest hAhead).symm⟩
    exact hMay.resolve_left fun hNew => Version.not_lt.mpr hNew hOld

end UpgradeSettings

namespace Job.Body

variable {settings : UpgradeSettings} {workspace reached : Workspace}
  {log : List (Exchange jobInterface)} {found : Version}

/-- A walk that was completed began at the version of the state. -/
theorem exists_walk_of_ends (ends : Ends (upgradeState settings) workspace log (.ok ()) reached) :
    ∃ current steps, workspace.stateVersion = .ok current ∧
      settings.stepsFrom current = .ok steps ∧
        Ends (walk steps) workspace log (.ok ()) reached := by
  change Ends (orFail workspace.stateVersion >>= fun current =>
    orFail (settings.stepsFrom current) >>= walk) workspace log _ reached at ends
  obtain ⟨current, hCurrent, hRest⟩ := ends_orFail_bind_ok_iff.mp ends
  obtain ⟨steps, hSteps, hWalk⟩ := ends_orFail_bind_ok_iff.mp hRest
  exact ⟨current, steps, hCurrent, hSteps, hWalk⟩

/-- There is nothing left to walk from the state that a completed walk leaves. -/
theorem stepsFrom_of_walked (ascends : settings.Ascends)
    (ends : Ends (upgradeState settings) workspace log (.ok ()) reached)
    (allowed : ∀ exchange ∈ log, exchange.Allowed recording)
    (hFound : reached.stateVersion = .ok found) : settings.stepsFrom found = .ok [] := by
  obtain ⟨current, steps, hCurrent, hSteps, hWalk⟩ := exists_walk_of_ends ends
  obtain ⟨rest, hVersions, stamped, hDone⟩ := ends_walk hWalk allowed
  obtain rfl := hDone rfl
  obtain ⟨hMay, rfl⟩ := UpgradeSettings.stepsFrom_eq_ok_iff.mp hSteps
  have hRest := stamped.ahead_eq_rest ascends hCurrent hFound hVersions
  refine UpgradeSettings.stepsFrom_eq_ok_iff.mpr ⟨?_, hRest.symm⟩
  rcases hMay with hNew | hMay
  · -- Nothing was applied, so the state is the one that was there.
    have hNone : settings.ahead current = [] :=
      UpgradeSettings.ahead_of_not_lt (Version.not_lt.mpr hNew)
    rw [hNone, eq_comm, List.append_eq_nil_iff] at hVersions
    rw [hVersions.1] at stamped
    rw [Workspace.stateVersion_congr stamped.eq_of_nil] at hFound
    exact .inl (Except.ok.inj (hCurrent.symm.trans hFound) ▸ hNew)
  · exact .inr hMay

end Job.Body

/-- A valid configuration has upgrade settings by which every walk is sound. Its steps are refused
only for a state older than the default version, because upgrades are disabled or because there is
no path. Otherwise they ascend from the state to at most the default version, are declared, and
leave out no version of the path that is newer than the state; from the last of them, or from the
state that a completed walk leaves, there are no further ones. Whatever the world answers, a job
asks for declared versions only. -/
theorem walks_of_valid_config {config : Config} (valid : config.check.isValid = true) :
    ∃ settings, config.tool.upgradeSettings = .ok settings ∧
      (∀ (current : Version) (e : JobError), settings.stepsFrom current = .error e ↔
        current < settings.defaultVersion ∧
          (config.tool.upgradesEnabled = false ∧
              e = .versionMismatch current.text settings.defaultVersion.text ∨
            config.tool.upgradesEnabled = true ∧ config.tool.upgradePath = [] ∧
              e = .noUpgradePath)) ∧
      (∀ (current : Version) (steps : List Version), settings.stepsFrom current = .ok steps →
        steps.Pairwise (· < ·) ∧
        (∀ version ∈ steps, current < version ∧ version ≤ settings.defaultVersion ∧
          config.tool.hasVersion version = true) ∧
        (current < settings.defaultVersion →
          ∀ version ∈ config.tool.upgradePath, current < version → version ∈ steps) ∧
        settings.stepsFrom (steps.getLastD current) = .ok []) ∧
      (∀ (id : String) (job : Job), (job.run settings id).Asks fun request : JobRequest =>
        ∀ run, request = .tool run → config.tool.hasVersion run.version = true) ∧
      ∀ (workspace reached : Workspace) (log : List (Exchange jobInterface)) (found : Version),
        (Job.upgradeState settings).Ends workspace log (.ok ()) reached →
        (∀ exchange ∈ log, exchange.Allowed recording) → reached.stateVersion = .ok found →
        settings.stepsFrom found = .ok [] := by
  obtain ⟨settings, hSettings⟩ := Config.exists_settings_of_isValid valid
  obtain ⟨hDefault, hPath⟩ := Config.declared_of_isValid valid hSettings
  obtain ⟨-, hEnabled, hSame⟩ := Config.upgradeSettings_eq_ok_iff.mp hSettings
  have ascends := Config.ascends_of_isValid valid hSettings
  refine ⟨settings, hSettings, fun current e => ?_, fun current steps hSteps => ?_,
    fun id job => ?_, fun workspace reached log found ends => ?_⟩
  · rw [← hEnabled, ← hSame, UpgradeSettings.stepsFrom_eq_error_iff]
  · obtain ⟨-, hAhead⟩ := UpgradeSettings.stepsFrom_eq_ok_iff.mp hSteps
    refine ⟨hAhead ▸ ascends.pairwise_ahead current, fun version hStep => ?_,
      fun hOld version hVersion hNew => ?_, ascends.stepsFrom_last hSteps⟩
    · rw [hAhead] at hStep
      obtain ⟨-, hMember, hNew⟩ := UpgradeSettings.mem_ahead_iff.mp hStep
      exact ⟨hNew, ascends.le_default version hMember, hPath version hMember⟩
    · rw [hAhead]
      exact UpgradeSettings.mem_ahead_iff.mpr ⟨hOld, hSame ▸ hVersion, hNew⟩
  · refine (Job.run_asks settings id job).mono fun request hRequest run hRun => ?_
    obtain rfl : request = .tool run := hRun
    rcases hRequest with hStore | hDefaultRun | ⟨-, hMember⟩
    · cases hStore
    · exact hDefaultRun ▸ hDefault
    · exact hPath _ hMember
  · exact Job.Body.stepsFrom_of_walked ascends ends

theorem walks_of_valid_config_upgrading :
    Traffic.upgradingConfig.check.isValid = true ∧
      ∃ settings, Traffic.upgradingConfig.tool.upgradeSettings = .ok settings ∧
        settings.stepsFrom Traffic.oldVersion = .ok [Traffic.nextVersion] ∧
        settings.stepsFrom Traffic.nextVersion = .ok [] := by
  obtain ⟨settings, hSettings, -, hSteps, -⟩ :=
    @walks_of_valid_config Traffic.upgradingConfig rfl
  obtain rfl : Traffic.upgradingSettings = settings := Except.ok.inj hSettings
  have hOld : Traffic.upgradingSettings.stepsFrom Traffic.oldVersion = .ok [Traffic.nextVersion] :=
    rfl
  exact ⟨rfl, _, hSettings, hOld, (hSteps _ _ hOld).2.2.2⟩

end ServiceBroker
