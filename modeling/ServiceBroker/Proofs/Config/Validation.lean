import ServiceBroker.Proofs.Upgrade.Path

/-! The checks of a configuration against what they are to ensure. Each check is silent exactly if
one condition holds of the configuration as a whole, although it looks at neighbours, at first
offenders or at what it has seen before; so a configuration passes exactly if it is consistent. -/

namespace ServiceBroker

namespace ToolConfig

/-- Jobs run a version by default: it is flagged so, or it is the only one. -/
inductive IsDefault (tool : ToolConfig) : Version → Prop where
  | flagged {declared : DeclaredVersion} (member : declared ∈ tool.versions)
      (flag : declared.isDefault = true) : IsDefault tool declared.version
  | only {declared : DeclaredVersion} (single : tool.versions = [declared]) :
      IsDefault tool declared.version

variable {tool : ToolConfig} {version : Version}

theorem isDefault_of_defaultVersion (h : tool.defaultVersion = .ok version) :
    tool.IsDefault version := by
  unfold defaultVersion at h
  split at h
  · next flagged hFlagged =>
      cases h
      exact .flagged (List.mem_of_find?_eq_some hFlagged) (List.find?_some hFlagged)
  · cases h
  · next only hOnly =>
      cases h
      exact .only hOnly
  · cases h

/-- Two flagged versions are the same where no more than one is flagged. -/
theorem eq_of_flagged (single : (tool.versions.filter (·.isDefault)).length ≤ 1)
    {first second : DeclaredVersion} (hFirst : first ∈ tool.versions)
    (firstFlag : first.isDefault = true) (hSecond : second ∈ tool.versions)
    (secondFlag : second.isDefault = true) : first = second := by
  have mem_flagged {declared : DeclaredVersion} (member : declared ∈ tool.versions)
      (flag : declared.isDefault = true) : declared ∈ tool.versions.filter (·.isDefault) :=
    List.mem_filter.mpr ⟨member, flag⟩
  obtain ⟨only, hOnly⟩ := List.length_eq_one_iff.mp
    (Nat.le_antisymm single (List.length_pos_of_mem (mem_flagged hFirst firstFlag)))
  have hFirst := mem_flagged hFirst firstFlag
  have hSecond := mem_flagged hSecond secondFlag
  rw [hOnly, List.mem_singleton] at hFirst hSecond
  exact hFirst.trans hSecond.symm

/-- A default version is found if there is one. -/
theorem exists_defaultVersion_iff : (∃ version, tool.defaultVersion = .ok version) ↔
    (∃ declared ∈ tool.versions, declared.isDefault = true) ∨ tool.versions.length = 1 := by
  unfold defaultVersion
  split
  · next flagged hFlagged =>
      exact ⟨fun _ => .inl ⟨flagged, List.mem_of_find?_eq_some hFlagged, List.find?_some hFlagged⟩,
        fun _ => ⟨flagged.version, rfl⟩⟩
  · next hNone hVersions => simp [hVersions, throw, throwThe, MonadExceptOf.throw]
  · next only hNone hOnly => simp [hOnly, pure, Except.pure]
  · next hNone hSome hSeveral =>
      have hUnflagged : ∀ declared ∈ tool.versions, declared.isDefault ≠ true := by
        simpa using List.find?_eq_none.mp hNone
      have hLength : tool.versions.length ≠ 1 := fun h => by
        obtain ⟨only, hOnly⟩ := List.length_eq_one_iff.mp h
        exact hSeveral only hOnly
      simp [throw, throwThe, MonadExceptOf.throw, hLength]
      exact fun declared hDeclared => by simpa using hUnflagged declared hDeclared

/-- The default version is the one that jobs run by default, if not more than one is flagged. -/
theorem defaultVersion_eq_ok_iff (single : (tool.versions.filter (·.isDefault)).length ≤ 1) :
    tool.defaultVersion = .ok version ↔ tool.IsDefault version := by
  refine ⟨isDefault_of_defaultVersion, fun h => ?_⟩
  have hSome : ∃ found, tool.defaultVersion = .ok found := by
    cases h with
    | flagged member flag => exact exists_defaultVersion_iff.mpr (.inl ⟨_, member, flag⟩)
    | only hOnly => exact exists_defaultVersion_iff.mpr (.inr (by simp [hOnly]))
  obtain ⟨found, hFound⟩ := hSome
  rw [hFound]
  refine congrArg Except.ok ?_
  cases isDefault_of_defaultVersion hFound with
  | flagged foundMember foundFlag =>
      cases h with
      | flagged member flag => rw [eq_of_flagged single foundMember foundFlag member flag]
      | only hOnly =>
          rw [hOnly, List.mem_singleton] at foundMember
          rw [foundMember]
  | only foundOnly =>
      cases h with
      | flagged member flag =>
          rw [foundOnly, List.mem_singleton] at member
          rw [member]
      | only hOnly =>
          rw [foundOnly] at hOnly
          rw [List.singleton_inj.mp hOnly]

theorem hasVersion_iff : tool.hasVersion version = true ↔
    ∃ declared ∈ tool.versions, declared.version = version := by
  simp [hasVersion]

end ToolConfig

namespace Config

/-- The parts of a configuration fit together. -/
structure Consistent (config : Config) : Prop where
  distinct : (config.tool.versions.map (·.version)).Nodup
  flagged_le_one : (config.tool.versions.filter (·.isDefault)).length ≤ 1
  resolved : (∃ declared ∈ config.tool.versions, declared.isDefault = true) ∨
    config.tool.versions.length = 1
  ascending : ∀ (i j : Nat) (_ : i < j) (_ : j < config.tool.upgradePath.length),
    config.tool.upgradePath[i] < config.tool.upgradePath[j]
  declared : ∀ version ∈ config.tool.upgradePath,
    ∃ declared ∈ config.tool.versions, declared.version = version
  not_beyond : ∀ version ∈ config.tool.upgradePath, ∀ default, config.tool.IsDefault default →
    ¬default < version
  bucket : config.store.backend = .bucket → ∃ name, config.store.bucket = some name ∧ name ≠ ""
  interval : config.jobs.pollInterval ≠ 0

/-- Nothing is repeated exactly if no version is there twice and none was seen before. -/
theorem repetitions_eq_nil_iff {seen versions : List Version} :
    repetitions seen versions = [] ↔ versions.Nodup ∧ ∀ version ∈ versions, version ∉ seen := by
  induction versions generalizing seen with
  | nil => simp [repetitions]
  | cons version versions ih =>
      by_cases hSeen : version ∈ seen
      · simp [repetitions, hSeen]
      · have hFresh : (∀ other ∈ versions, other ∉ version :: seen) ↔
            version ∉ versions ∧ ∀ other ∈ versions, other ∉ seen := by
          refine ⟨fun h => ⟨fun hAgain => h version hAgain List.mem_cons_self, fun other hOther =>
            fun hBefore => h other hOther (List.mem_cons_of_mem _ hBefore)⟩,
            fun h other hOther => ?_⟩
          exact List.not_mem_cons_of_ne_of_not_mem (fun hSame => h.1 (hSame ▸ hOther))
            (h.2 other hOther)
        simp only [repetitions, List.contains_iff_mem, hSeen, if_false, ih, hFresh, List.nodup_cons,
          List.forall_mem_cons, not_false_eq_true, true_and]
        rw [← and_assoc, and_comm (a := versions.Nodup)]

/-- The versions are without fault exactly if they differ and one of them is the default. -/
theorem versionFaults_eq_nil_iff {tool : ToolConfig} :
    versionFaults tool = [] ↔
      (tool.versions.map (·.version)).Nodup ∧ (tool.versions.filter (·.isDefault)).length ≤ 1 ∧
        ∃ version, tool.defaultVersion = .ok version := by
  cases hDefault : tool.defaultVersion <;> simp [versionFaults, repetitions_eq_nil_iff, hDefault]

/-- The path is without fault exactly if it ascends from each of its versions to every later one
and all of them are declared. -/
theorem pathFaults_eq_nil_iff {tool : ToolConfig} :
    pathFaults tool = [] ↔ tool.upgradePath.Pairwise (· < ·) ∧
      ∀ version ∈ tool.upgradePath, ∃ declared ∈ tool.versions, declared.version = version := by
  simp [pathFaults, descents_eq_nil_iff, ← ToolConfig.hasVersion_iff]

theorem beyondFaults_eq_nil_iff {tool : ToolConfig} {default : Version} :
    beyondFaults tool default = [] ↔ ∀ version ∈ tool.upgradePath, ¬default < version := by
  unfold beyondFaults
  split
  · next version hFound =>
      refine iff_of_false (by simp) fun h => ?_
      exact h version (List.mem_of_find?_eq_some hFound) (by simpa using List.find?_some hFound)
  · next hNone => simpa using hNone

theorem checkTool_faults_eq_nil_iff {tool : ToolConfig} :
    (checkTool tool).faults = [] ↔
      versionFaults tool = [] ∧ pathFaults tool = [] ∧
        ∀ version, tool.defaultVersion = .ok version → beyondFaults tool version = [] := by
  unfold checkTool
  cases tool.defaultVersion <;> simp

theorem checkStore_faults_eq_nil_iff {store : StoreConfig} :
    (checkStore store).faults = [] ↔
      (store.backend = .bucket → ∃ name, store.bucket = some name ∧ name ≠ "") := by
  unfold checkStore
  cases store.backend with
  | directory => simp
  | memory => simp
  | bucket =>
      cases store.bucket with
      | none => simp
      | some name => by_cases hName : name = "" <;> simp [hName]

theorem checkJobs_faults_eq_nil_iff {jobs : JobConfig} :
    (checkJobs jobs).faults = [] ↔ jobs.pollInterval ≠ 0 := by
  unfold checkJobs
  split <;> simp_all

theorem check_faults (config : Config) :
    config.check.faults =
      (checkTool config.tool).faults ++ (checkStore config.store).faults ++
        (checkJobs config.jobs).faults :=
  rfl

theorem check_faults_eq_nil_iff {config : Config} :
    config.check.faults = [] ↔ config.Consistent := by
  rw [check_faults, List.append_eq_nil_iff, List.append_eq_nil_iff, checkTool_faults_eq_nil_iff,
    checkStore_faults_eq_nil_iff, checkJobs_faults_eq_nil_iff, versionFaults_eq_nil_iff,
    pathFaults_eq_nil_iff, ToolConfig.exists_defaultVersion_iff]
  constructor
  · rintro ⟨⟨⟨⟨distinct, single, resolved⟩, ⟨ascending, declared⟩, notBeyond⟩, bucket⟩, interval⟩
    refine ⟨distinct, single, resolved, fun i j hij hj => ?_, declared, fun version hVersion default
      hDefault => ?_, bucket, interval⟩
    · exact List.pairwise_iff_getElem.mp ascending i j (Nat.lt_trans hij hj) hj hij
    · have hFound := (ToolConfig.defaultVersion_eq_ok_iff single).mpr hDefault
      exact beyondFaults_eq_nil_iff.mp (notBeyond default hFound) version hVersion
  · intro consistent
    refine ⟨⟨⟨⟨consistent.distinct, consistent.flagged_le_one, consistent.resolved⟩,
      ⟨List.pairwise_iff_getElem.mpr fun i j _ hj hij => consistent.ascending i j hij hj,
        consistent.declared⟩, fun default hDefault => ?_⟩, consistent.bucket⟩, consistent.interval⟩
    exact beyondFaults_eq_nil_iff.mpr fun version hVersion =>
      consistent.not_beyond version hVersion default
        (ToolConfig.isDefault_of_defaultVersion hDefault)

theorem validate_eq_ok_iff {config : Config} {findings : Findings} :
    config.validate = .ok findings ↔ config.check.faults = [] ∧ findings = config.check := by
  unfold validate
  cases config.check.faults <;> simp [pure, Except.pure, throw, throwThe, MonadExceptOf.throw,
    eq_comm]

theorem validate_eq_error_iff {config : Config} {e : ConfigError} :
    config.validate = .error e ↔ ∃ first rest, config.check.faults = first :: rest ∧
      e = .invalid { reason := first.message, field := some first.field } := by
  unfold validate
  cases config.check.faults <;> simp [pure, Except.pure, throw, throwThe, MonadExceptOf.throw,
    eq_comm, Fault.objection]

/-- The checks find no fault exactly in consistent configurations, and exactly these are valid. An
invalid one is refused for the first fault that the checks list, in its words and with its field;
a valid one comes with all that was found. Warnings count for nothing: configurations with the same
faults are refused for the same reason or both accepted. -/
theorem accepts_consistent (config : Config) :
    (config.check.faults = [] ↔ config.Consistent) ∧
      ((∃ findings, config.validate = .ok findings) ↔ config.Consistent) ∧
      (∀ findings, config.validate = .ok findings → findings = config.check) ∧
      (∀ e, config.validate = .error e ↔ ∃ first rest, config.check.faults = first :: rest ∧
        e = .invalid { reason := first.message, field := some first.field }) ∧
      ∀ other : Config, other.check.faults = config.check.faults →
        (∀ e, other.validate = .error e ↔ config.validate = .error e) ∧
          ((∃ findings, other.validate = .ok findings) ↔
            ∃ findings, config.validate = .ok findings) := by
  have hValid (config : Config) :
      (∃ findings, config.validate = .ok findings) ↔ config.check.faults = [] := by
    simp [validate_eq_ok_iff]
  refine ⟨check_faults_eq_nil_iff, (hValid config).trans check_faults_eq_nil_iff,
    fun findings h => (validate_eq_ok_iff.mp h).2, fun e => validate_eq_error_iff,
    fun other hSame => ⟨fun e => ?_, ?_⟩⟩
  · rw [validate_eq_error_iff, validate_eq_error_iff, hSame]
  · rw [hValid, hValid, hSame]

end Config

end ServiceBroker
