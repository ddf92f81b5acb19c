import ServiceBroker.Decision

/-! Which verdict a request to change an instance gets. Each verdict has its own condition, and the
conditions are looked at in a fixed order; of two plans with one id the first one counts. -/

namespace ServiceBroker

theorem MaintenanceInfo.ne_iff {first second : MaintenanceInfo} :
    first ≠ second ↔ first.version ≠ second.version ∨ first.description ≠ second.description := by
  cases first
  cases second
  rw [ne_eq, MaintenanceInfo.mk.injEq, Decidable.not_and_iff_or_not]

namespace Service

/-- The plan is the first one of the service that has the id. -/
def Offers (service : Service) (id : String) (plan : Plan) : Prop :=
  ∃ before after, service.plans = before ++ plan :: after ∧ plan.id = id ∧
    ∀ other ∈ before, other.id ≠ id

variable {service : Service} {request : UpdateRequest}

theorem plan?_eq_some_iff {id : String} {plan : Plan} :
    service.plan? id = some plan ↔ service.Offers id plan := by
  rw [plan?, List.find?_eq_some_iff_append]
  constructor
  · rintro ⟨hId, before, after, hPlans, hBefore⟩
    exact ⟨before, after, hPlans, by simpa using hId, by simpa using hBefore⟩
  · rintro ⟨before, after, hPlans, hId, hBefore⟩
    exact ⟨by simpa using hId, before, after, hPlans, by simpa using hBefore⟩

theorem plan?_eq_none_iff {id : String} :
    service.plan? id = none ↔ ∀ plan ∈ service.plans, plan.id ≠ id := by
  simp [plan?]

theorem plan?_congr {others : Service} {id : String}
    (h : ∀ plan, others.Offers id plan ↔ service.Offers id plan) :
    others.plan? id = service.plan? id := by
  ext plan
  rw [plan?_eq_some_iff, plan?_eq_some_iff]
  exact h plan

end Service

namespace UpdateRequest

/-- Nothing is sent as parameters, or `null`, or an object without members. -/
def NoParameters (request : UpdateRequest) : Prop :=
  request.parameters = none ∨ request.parameters = some .null ∨
    request.parameters = some (.object [])

theorem parametersEmpty_iff (request : UpdateRequest) :
    request.parametersEmpty = true ↔ request.NoParameters := by
  rw [parametersEmpty, NoParameters]
  rcases request.parameters with _ | _ | b | n | s | items | ⟨_ | ⟨member, members⟩⟩ <;> simp

/-- Maintenance info is asked for that the plan does not have. -/
def AsksUnknown (request : UpdateRequest) (plan : Plan) : Prop :=
  request.maintenanceInfo.isSome ∧ plan.maintenanceInfo = none

/-- Other maintenance info is asked for than the plan has; build metadata counts. -/
def AsksOther (request : UpdateRequest) (plan : Plan) : Prop :=
  ∃ asked offered, request.maintenanceInfo = some asked ∧ plan.maintenanceInfo = some offered ∧
    (asked.version ≠ offered.version ∨ asked.description ≠ offered.description)

/-- The maintenance info of the plan is asked for, which the instance does not have yet, and nothing
else. -/
structure OnlyUpgrades (request : UpdateRequest) (plan : Plan) : Prop where
  offered : request.maintenanceInfo = plan.maintenanceInfo
  samePlan : request.planId = request.previous.planId
  noParameters : request.NoParameters
  changed : request.maintenanceInfo ≠ request.previous.maintenanceInfo

/-- The instance has maintenance info, and its previous plan has other one or none. -/
def LeftBehind (request : UpdateRequest) (service : Service) : Prop :=
  ∃ recorded previous, request.previous.maintenanceInfo = some recorded ∧
    service.Offers request.previous.planId previous ∧
    (previous.maintenanceInfo = none ∨ previous.maintenanceInfo ≠ some recorded)

end UpdateRequest

/-- The verdicts, each with its condition. -/
inductive Ruling (service : Service) (request : UpdateRequest) :
    Except DecisionError Operation → Prop where
  | planNotFound (missing : ∀ plan ∈ service.plans, plan.id ≠ request.planId) :
      Ruling service request (.error (.planNotFound request.planId))
  | maintenanceInfoUnknown {plan : Plan} (found : service.Offers request.planId plan)
      (unknown : request.AsksUnknown plan) :
      Ruling service request (.error .maintenanceInfoUnknown)
  | maintenanceInfoConflict {plan : Plan} (found : service.Offers request.planId plan)
      (known : ¬request.AsksUnknown plan) (other : request.AsksOther plan) :
      Ruling service request (.error .maintenanceInfoConflict)
  | upgrade {plan : Plan} (found : service.Offers request.planId plan)
      (known : ¬request.AsksUnknown plan) (same : ¬request.AsksOther plan)
      (only : request.OnlyUpgrades plan) : Ruling service request (.ok .upgrade)
  | upgradeRequired {plan : Plan} (found : service.Offers request.planId plan)
      (known : ¬request.AsksUnknown plan) (same : ¬request.AsksOther plan)
      (more : ¬request.OnlyUpgrades plan) (behind : request.LeftBehind service) :
      Ruling service request (.error .upgradeRequired)
  | update {plan : Plan} (found : service.Offers request.planId plan)
      (known : ¬request.AsksUnknown plan) (same : ¬request.AsksOther plan)
      (more : ¬request.OnlyUpgrades plan) (level : ¬request.LeftBehind service) :
      Ruling service request (.ok .update)

namespace Service

variable {service : Service} {request : UpdateRequest}

theorem maintenanceInfo?_eq (id : String) :
    service.maintenanceInfo? id =
      (service.plan? id).elim (.error (.planNotFound id)) fun plan => .ok plan.maintenanceInfo := by
  rw [maintenanceInfo?]
  cases service.plan? id <;> rfl

theorem checkPrevious_of_leftBehind (behind : request.LeftBehind service) :
    service.checkPrevious request.previous = .error .upgradeRequired := by
  obtain ⟨recorded, previous, hRecorded, hOffers, hOther⟩ := behind
  have hConflict : MaintenanceInfo.conflict (some recorded) previous.maintenanceInfo = true := by
    rcases hOther with hNone | hOther
    · simp [MaintenanceInfo.conflict, hNone]
    · simpa [MaintenanceInfo.conflict] using hOther.symm
  rw [checkPrevious, hRecorded, maintenanceInfo?_eq, plan?_eq_some_iff.mpr hOffers]
  simp only [Option.elim_some, hConflict, if_true]
  rfl

theorem checkPrevious_of_not_leftBehind (level : ¬request.LeftBehind service) :
    service.checkPrevious request.previous = .ok () := by
  rw [checkPrevious, maintenanceInfo?_eq]
  cases hRecorded : request.previous.maintenanceInfo with
  | none => rfl
  | some recorded =>
      cases hPlan : service.plan? request.previous.planId with
      | none => rfl
      | some previous =>
          have hOffers := plan?_eq_some_iff.mp hPlan
          have hSame : previous.maintenanceInfo = some recorded :=
            Decidable.of_not_not fun hOther =>
              level ⟨recorded, previous, hRecorded, hOffers, .inr hOther⟩
          simp only [Option.elim_some, MaintenanceInfo.conflict, hSame, bne_self_eq_false,
            Bool.false_eq_true, if_false]
          rfl

theorem onlyMaintenanceChanges_iff (request : UpdateRequest) :
    onlyMaintenanceChanges request = true ↔
      request.planId = request.previous.planId ∧ request.NoParameters ∧
        request.maintenanceInfo ≠ request.previous.maintenanceInfo := by
  simp [onlyMaintenanceChanges, UpdateRequest.planUnchanged, UpdateRequest.parametersEmpty_iff,
    MaintenanceInfo.conflict, and_assoc]

/-- What is decided for a plan that is there. -/
theorem decide_of_offers {plan : Plan} (found : service.Offers request.planId plan) :
    service.decide request =
      match request.maintenanceInfo, plan.maintenanceInfo with
      | none, some _ => (service.checkPrevious request.previous).map fun _ => .update
      | some _, none => .error .maintenanceInfoUnknown
      | requested, offered =>
        if requested ≠ offered then .error .maintenanceInfoConflict
        else if onlyMaintenanceChanges request then .ok .upgrade
        else (service.checkPrevious request.previous).map fun _ => .update := by
  have hUpdate : (do
      service.checkPrevious request.previous
      return .update : Except DecisionError Operation) =
        (service.checkPrevious request.previous).map fun _ => .update := by
    cases service.checkPrevious request.previous <;> rfl
  rw [decide, maintenanceInfo?_eq, plan?_eq_some_iff.mpr found, Option.elim_some]
  rcases request.maintenanceInfo with _ | asked <;> rcases plan.maintenanceInfo with _ | offered
  · simp only [ne_eq, not_true, if_false, ← hUpdate]
    rfl
  · exact hUpdate
  · rfl
  · have hConflict : MaintenanceInfo.conflict (some asked) (some offered) = true ↔
        some asked ≠ some offered := by
      simp [MaintenanceInfo.conflict]
    change (if MaintenanceInfo.conflict (some asked) (some offered) = true then
      throw DecisionError.maintenanceInfoConflict else _) = _
    simp only [hConflict, ← hUpdate]
    rfl

theorem decide_of_missing (missing : ∀ plan ∈ service.plans, plan.id ≠ request.planId) :
    service.decide request = .error (.planNotFound request.planId) := by
  rw [decide, maintenanceInfo?_eq, plan?_eq_none_iff.mpr missing]
  rfl

section Offered

variable {plan : Plan} (found : service.Offers request.planId plan)

include found

theorem decide_of_asksUnknown (unknown : request.AsksUnknown plan) :
    service.decide request = .error .maintenanceInfoUnknown := by
  obtain ⟨hAsked, hOffered⟩ := unknown
  obtain ⟨asked, hAsked⟩ := Option.isSome_iff_exists.mp hAsked
  rw [decide_of_offers found, hAsked, hOffered]

theorem decide_of_asksOther (other : request.AsksOther plan) :
    service.decide request = .error .maintenanceInfoConflict := by
  obtain ⟨asked, offered, hAsked, hOffered, hOther⟩ := other
  have hDiffer : some asked ≠ some offered := by
    rintro ⟨⟩
    exact hOther.elim (· rfl) (· rfl)
  rw [decide_of_offers found, hAsked, hOffered]
  exact if_pos hDiffer

theorem decide_of_onlyUpgrades (only : request.OnlyUpgrades plan) :
    service.decide request = .ok .upgrade := by
  have hOnly := (onlyMaintenanceChanges_iff request).mpr
    ⟨only.samePlan, only.noParameters, only.changed⟩
  rw [decide_of_offers found, only.offered]
  rcases plan.maintenanceInfo with _ | offered <;> simp [hOnly]

/-- Where neither asks for more nor for other maintenance info, and the request is no mere upgrade,
only the previous plan can stand in the way. -/
theorem decide_of_more (known : ¬request.AsksUnknown plan) (same : ¬request.AsksOther plan)
    (more : ¬request.OnlyUpgrades plan) :
    service.decide request = (service.checkPrevious request.previous).map fun _ => .update := by
  have hMore (h : request.maintenanceInfo = plan.maintenanceInfo) :
      onlyMaintenanceChanges request = false := by
    rw [← Bool.not_eq_true, onlyMaintenanceChanges_iff]
    rintro ⟨hPlan, hParameters, hChanged⟩
    exact more ⟨h, hPlan, hParameters, hChanged⟩
  rw [decide_of_offers found]
  cases hAsked : request.maintenanceInfo with
  | none =>
      cases hOffered : plan.maintenanceInfo with
      | none => simp [hMore (hAsked.trans hOffered.symm)]
      | some offered => rfl
  | some asked =>
      cases hOffered : plan.maintenanceInfo with
      | none => exact absurd ⟨by simp [hAsked], hOffered⟩ known
      | some offered =>
          have hEqual : asked = offered := Decidable.of_not_not fun hOther =>
            same ⟨asked, offered, hAsked, hOffered, MaintenanceInfo.ne_iff.mp hOther⟩
          have hSame : request.maintenanceInfo = plan.maintenanceInfo := by
            rw [hAsked, hOffered, hEqual]
          simp [hEqual, hMore hSame]

end Offered

theorem decide_of_ruling {result : Except DecisionError Operation}
    (ruling : Ruling service request result) : service.decide request = result := by
  cases ruling with
  | planNotFound missing => exact decide_of_missing missing
  | maintenanceInfoUnknown found unknown => exact decide_of_asksUnknown found unknown
  | maintenanceInfoConflict found known other => exact decide_of_asksOther found other
  | upgrade found known same only => exact decide_of_onlyUpgrades found only
  | upgradeRequired found known same more behind =>
      rw [decide_of_more found known same more, checkPrevious_of_leftBehind behind]
      rfl
  | update found known same more level =>
      rw [decide_of_more found known same more, checkPrevious_of_not_leftBehind level]
      rfl

open Classical in
/-- Some verdict's condition is met. -/
theorem exists_ruling (service : Service) (request : UpdateRequest) :
    ∃ result, Ruling service request result := by
  cases hPlan : service.plan? request.planId with
  | none => exact ⟨_, .planNotFound (plan?_eq_none_iff.mp hPlan)⟩
  | some plan =>
      have found := plan?_eq_some_iff.mp hPlan
      by_cases unknown : request.AsksUnknown plan
      · exact ⟨_, .maintenanceInfoUnknown found unknown⟩
      by_cases other : request.AsksOther plan
      · exact ⟨_, .maintenanceInfoConflict found unknown other⟩
      by_cases only : request.OnlyUpgrades plan
      · exact ⟨_, .upgrade found unknown other only⟩
      by_cases behind : request.LeftBehind service
      · exact ⟨_, .upgradeRequired found unknown other only behind⟩
      · exact ⟨_, .update found unknown other only behind⟩

/-- Each verdict is given exactly if its condition is met. The verdict depends on no plan but the
first ones with the ids of the request and of the instance, and on the parameters only through
whether there are any. -/
theorem decide_eq_iff_ruling (service : Service) (request : UpdateRequest) :
    (∀ result, service.decide request = result ↔ Ruling service request result) ∧
    ∀ (others : Service) (parameters : Option Json),
      (∀ plan, others.Offers request.planId plan ↔ service.Offers request.planId plan) →
      (∀ plan, others.Offers request.previous.planId plan ↔
        service.Offers request.previous.planId plan) →
      (UpdateRequest.NoParameters { request with parameters } ↔ request.NoParameters) →
      others.decide { request with parameters } = service.decide request := by
  have hRuling : Ruling service request (service.decide request) := by
    obtain ⟨result, ruling⟩ := exists_ruling service request
    rw [decide_of_ruling ruling]
    exact ruling
  refine ⟨fun result => ⟨fun h => h ▸ hRuling, decide_of_ruling⟩, ?_⟩
  intro others parameters hPlan hPrevious hParameters
  have hInfo : others.maintenanceInfo? request.planId =
      service.maintenanceInfo? request.planId := by
    rw [maintenanceInfo?_eq, maintenanceInfo?_eq, plan?_congr hPlan]
  have hCheck : others.checkPrevious request.previous = service.checkPrevious request.previous := by
    rw [checkPrevious, checkPrevious, maintenanceInfo?_eq, maintenanceInfo?_eq,
      plan?_congr hPrevious]
  have hOnly : onlyMaintenanceChanges { request with parameters } =
      onlyMaintenanceChanges request := by
    rw [Bool.eq_iff_iff, onlyMaintenanceChanges_iff, onlyMaintenanceChanges_iff]
    exact and_congr_right fun _ => and_congr_left fun _ => hParameters
  simp only [decide, hInfo, hCheck, hOnly]

/-- Of two plans with one id the first one counts. -/
theorem decide_of_repeated_plan :
    let info : MaintenanceInfo := { version := { major := 1, minor := 0, patch := 0 } }
    let service : Service := {
      id := "db", name := "db"
      plans := [{ id := "small", name := "old" },
        { id := "small", name := "new", maintenanceInfo := some info }] }
    service.decide { serviceId := "db", planId := "small", maintenanceInfo := some info } =
      .error .maintenanceInfoUnknown := by
  intro info service
  have hFirst : service.Offers "small" { id := "small", name := "old" } :=
    ⟨[], _, rfl, rfl, by simp⟩
  exact ((decide_eq_iff_ruling _ _).1 _).mpr (.maintenanceInfoUnknown hFirst ⟨rfl, rfl⟩)

end Service

end ServiceBroker
