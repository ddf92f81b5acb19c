import ServiceBroker.Proofs.Decision

/-! What becomes of the demand to upgrade an instance. An instance that runs at the level of its
plan is neither told to upgrade nor upgraded, whatever is asked of it. The upgrade that a refusal
demands is always on offer, and it brings the instance to that level. -/

namespace ServiceBroker

namespace UpdateRequest

/-- The request for the upgrade of the same instance to the level of its plan. -/
def demanded (request : UpdateRequest) (plan : Plan) (parameters : Option Json) : UpdateRequest :=
  { request with
    planId := request.previous.planId
    parameters
    maintenanceInfo := plan.maintenanceInfo }

/-- The same request once the instance runs at a level. -/
def raisedTo (request : UpdateRequest) (level : Option MaintenanceInfo) : UpdateRequest :=
  { request with previous := { request.previous with maintenanceInfo := level } }

end UpdateRequest

namespace Service

/-- The instance runs at the level at which its plan now is. -/
def AtLevel (service : Service) (previous : PreviousValues) : Prop :=
  ∃ plan, service.Offers previous.planId plan ∧ previous.maintenanceInfo = plan.maintenanceInfo

/-- No request for the instance is refused until it is upgraded, and none is an upgrade. -/
def Content (service : Service) (previous : PreviousValues) : Prop :=
  ∀ request : UpdateRequest, request.previous = previous →
    service.decide request ≠ .error .upgradeRequired ∧ service.decide request ≠ .ok .upgrade

variable {service : Service} {request : UpdateRequest} {plan other : Plan}

theorem Offers.unique {id : String} (first : service.Offers id plan)
    (second : service.Offers id other) : plan = other := by
  rw [← plan?_eq_some_iff] at first second
  exact Option.some.inj (first.symm.trans second)

/-- The verdict that is given is one whose condition is met. -/
theorem ruling_decide (service : Service) (request : UpdateRequest) :
    Ruling service request (service.decide request) := by
  obtain ⟨result, ruling⟩ := exists_ruling service request
  rw [decide_of_ruling ruling]
  exact ruling

theorem AtLevel.not_onlyUpgrades (level : service.AtLevel request.previous)
    (found : service.Offers request.planId plan) : ¬request.OnlyUpgrades plan := by
  intro only
  obtain ⟨previous, hOffers, hLevel⟩ := level
  rw [only.samePlan] at found
  obtain rfl := hOffers.unique found
  exact only.changed (only.offered.trans hLevel.symm)

theorem AtLevel.not_leftBehind (level : service.AtLevel request.previous) :
    ¬request.LeftBehind service := by
  rintro ⟨recorded, found, hRecorded, hFound, hOther⟩
  obtain ⟨previous, hOffers, hLevel⟩ := level
  obtain rfl := hOffers.unique hFound
  have hSame : previous.maintenanceInfo = some recorded := hLevel.symm.trans hRecorded
  rcases hOther with hNone | hOther
  · rw [hSame] at hNone
    cases hNone
  · exact hOther hSame

/-- Of an instance at the level of its plan every request is an update that asks for no other
maintenance info than its plan has. -/
theorem AtLevel.decide_eq (level : service.AtLevel request.previous)
    (found : service.Offers request.planId plan) (known : ¬request.AsksUnknown plan)
    (same : ¬request.AsksOther plan) : service.decide request = .ok .update :=
  decide_of_ruling (.update found known same (level.not_onlyUpgrades found) level.not_leftBehind)

theorem AtLevel.content {previous : PreviousValues} (level : service.AtLevel previous) :
    service.Content previous := by
  rintro request rfl
  have ruling := ruling_decide service request
  constructor
  · intro hRefused
    rw [hRefused] at ruling
    cases ruling with
    | upgradeRequired _ _ _ _ behind => exact level.not_leftBehind behind
  · intro hUpgrade
    rw [hUpgrade] at ruling
    cases ruling with
    | upgrade found _ _ only => exact level.not_onlyUpgrades found only

/-- Whoever asks for just the level of its plan, and does not run at it, gets an upgrade. -/
theorem decide_demanded {parameters : Option Json}
    (found : service.Offers request.previous.planId plan)
    (behind : plan.maintenanceInfo ≠ request.previous.maintenanceInfo)
    (none : UpdateRequest.NoParameters { request with parameters }) :
    service.decide (request.demanded plan parameters) = .ok .upgrade := by
  have known : ¬(request.demanded plan parameters).AsksUnknown plan := by
    rintro ⟨hAsked, hOffered⟩
    rw [UpdateRequest.demanded, hOffered] at hAsked
    cases hAsked
  have same : ¬(request.demanded plan parameters).AsksOther plan := by
    rintro ⟨asked, offered, hAsked, hOffered, hDiffer⟩
    obtain rfl : asked = offered := Option.some.inj (hAsked.symm.trans hOffered)
    exact hDiffer.elim (· rfl) (· rfl)
  exact decide_of_ruling (.upgrade found known same ⟨rfl, rfl, none, behind⟩)

/-- A refusal that demands an upgrade can always be met, and once it is met it is over. The request
for the level of the plan that the instance has, without parameters, is an upgrade; from then on the
refused request is an update, and nothing else that is asked of the instance at this level of this
plan is refused in the same way or is an upgrade. In the same way an upgrade is over once the
instance runs at the level that it asked for: the request is then an update with whatever
parameters. -/
theorem demand_ends (service : Service) (request : UpdateRequest) :
    (service.decide request = .error .upgradeRequired →
      ∃ plan, service.Offers request.previous.planId plan ∧
        (∀ parameters, UpdateRequest.NoParameters { request with parameters } →
          service.decide (request.demanded plan parameters) = .ok .upgrade) ∧
        service.decide (request.raisedTo plan.maintenanceInfo) = .ok .update ∧
        service.Content (request.raisedTo plan.maintenanceInfo).previous) ∧
    (service.decide request = .ok .upgrade →
      (∀ parameters, service.decide
          { request.raisedTo request.maintenanceInfo with parameters } = .ok .update) ∧
        service.Content (request.raisedTo request.maintenanceInfo).previous) := by
  have ruling := ruling_decide service request
  constructor
  · intro hRefused
    rw [hRefused] at ruling
    cases ruling with
    | upgradeRequired found known same more behind =>
        obtain ⟨recorded, previous, hRecorded, hOffers, hOther⟩ := behind
        have hBehind : previous.maintenanceInfo ≠ request.previous.maintenanceInfo := by
          rw [hRecorded]
          rcases hOther with hNone | hOther
          · simp [hNone]
          · exact hOther
        have level : service.AtLevel (request.raisedTo previous.maintenanceInfo).previous :=
          ⟨previous, hOffers, rfl⟩
        exact ⟨previous, hOffers, fun _ => decide_demanded hOffers hBehind,
          level.decide_eq found known same, level.content⟩
  · intro hUpgrade
    rw [hUpgrade] at ruling
    cases ruling with
    | @upgrade plan found known same only =>
        have level : service.AtLevel (request.raisedTo request.maintenanceInfo).previous :=
          ⟨plan, only.samePlan ▸ found, only.offered⟩
        refine ⟨fun parameters => ?_, level.content⟩
        let again : UpdateRequest := { request.raisedTo request.maintenanceInfo with parameters }
        have hAgain : service.AtLevel again.previous := level
        exact hAgain.decide_eq found known same

/-- An instance of the first one of two plans with one id that is to move to a plan without
maintenance info. -/
theorem demand_ends_moving :
    let old : MaintenanceInfo := { version := { major := 1, minor := 0, patch := 0 } }
    let new : MaintenanceInfo := { version := { major := 2, minor := 0, patch := 0 } }
    let small : Plan := { id := "small", name := "small", maintenanceInfo := some new }
    let service : Service := {
      id := "db", name := "db"
      plans := [small, { id := "small", name := "gone" }, { id := "large", name := "large" }] }
    let request : UpdateRequest := {
      serviceId := "db", planId := "large", parameters := some (.object [("size", .null)])
      previous := { planId := "small", maintenanceInfo := some old } }
    service.decide request = .error .upgradeRequired ∧
      service.decide (request.demanded small none) = .ok .upgrade ∧
      service.decide (request.raisedTo (some new)) = .ok .update ∧
      ∀ parameters, service.decide
        { (request.demanded small none).raisedTo (some new) with parameters } = .ok .update := by
  intro old new small service request
  obtain ⟨plan, hOffers, hDemanded, hRaised, -⟩ := (demand_ends service request).1 rfl
  have hFirst : service.Offers "small" small := ⟨[], _, rfl, rfl, by simp⟩
  obtain rfl := hFirst.unique hOffers
  have hUpgrade := hDemanded none (.inl rfl)
  exact ⟨rfl, hUpgrade, hRaised, ((demand_ends service _).2 hUpgrade).1⟩

end Service

end ServiceBroker
