import ServiceBroker.Proofs.Broker.Undisturbed

/-! One job on a deployment at a time. A call looks whether a deployment is idle and marks it later,
so what keeps two jobs apart is that no two calls stand between the one and the other at once. If
none ever do, a second job never begins before the first one has recorded its outcome; as soon as
two calls do, both can go on and start a job each. -/

namespace ServiceBroker

namespace Traffic

/-- At most one job on the deployment has not recorded its outcome yet. -/
def Exclusive (id : String) (t : Traffic) : Prop :=
  ∀ m n, t.Holds id (.inr m) → t.Holds id (.inr n) → m = n

/-- Whatever happens next, a call that has yet to look whether the deployment is idle either does
not look, or it ends, told that an operation is in progress. -/
def TurnsAway (settings : UpgradeSettings) (tool : ToolBehavior) (id : String) (t : Traffic) :
    Prop :=
  ∀ (n : Nat) (call : Call) (u : Traffic), t.calls[n]? = some call → call.id = id →
    call.rest = (dispatch call.id call.job).run → Step settings tool t u →
    u.calls[n]? = some call ∨
      u.calls[n]? = some (call.goOn (.done (.error (.job (.operationInProgress id)))))

/-- Two calls have started a job each, and both jobs are at work on the deployment. -/
def Overlap (id : String) (t : Traffic) : Prop :=
  ∃ (m n : Nat) (first second : Call) (i j : Nat), m ≠ n ∧ i ≠ j ∧
    t.calls[m]? = some first ∧ first.outcome? = some (.ok i) ∧ t.Holds id (.inr i) ∧
    t.calls[n]? = some second ∧ second.outcome? = some (.ok j) ∧ t.Holds id (.inr j)

variable {settings : UpgradeSettings} {tool : ToolBehavior} {t : Traffic} {id : String}

/-- A call that has found its deployment idle can go on up to its end without a break. -/
theorem Grounded.go_on (ground : Grounded settings tool t) {n : Nat} {call : Call}
    (member : t.calls[n]? = some call) (window : call.InWindow) :
    ∃ records, Run settings tool (fun _ => True) t (launched settings t n call records) := by
  have within : GoesWithin (fun _ => True) t n call := fun _ _ _ => trivial
  cases window with
  | writing record now h => exact ⟨_, run_of_writing member h within⟩
  | marking record h => exact ⟨_, run_of_marking member h record.updated within⟩
  | admitted h =>
      have present := (ground.calls call (List.mem_of_getElem? member)).present
        (h ▸ (arriving_ne_admitted _ _).symm) (by rw [Call.outcome?, h, admitted_run]; rfl)
      obtain ⟨record, hFound⟩ := Option.isSome_iff_exists.mp present
      exact ⟨_, run_of_admitted member h hFound record.updated within⟩

/-- As soon as two calls stand between finding a deployment idle and marking it, both can start a
job. -/
theorem Grounded.overlap (ground : Grounded settings tool t) {m n : Nat} {first second : Call}
    (hFirst : t.calls[m]? = some first) (hSecond : t.calls[n]? = some second)
    (hFirstId : first.id = id) (hSecondId : second.id = id) (hFirstWindow : first.InWindow)
    (hSecondWindow : second.InWindow) (distinct : m ≠ n) :
    ∃ u, Run settings tool (fun _ => True) t u ∧ Overlap id u := by
  obtain ⟨records, hRun⟩ := ground.go_on hFirst hFirstWindow
  have hLeft : (launched settings t m first records).calls[n]? = some second := by
    rw [launched, List.getElem?_set_ne distinct, hSecond]
  obtain ⟨after, hLater⟩ := (hRun.grounded ground).go_on hLeft hSecondWindow
  refine ⟨_, hRun.trans hLater, m, n, first.goOn (.done (.ok t.jobs.length)),
    second.goOn (.done (.ok (t.jobs.length + 1))), t.jobs.length, t.jobs.length + 1, distinct,
    by omega, ?_, rfl, ?_, ?_, rfl, ?_⟩
  · have hLength := (List.getElem?_eq_some_iff.mp hFirst).1
    simp [launched, hLength, distinct.symm]
  · refine ⟨.starting settings first.id first.job, ?_, hFirstId, Activity.starting_outcome? _ _⟩
    simp [launched]
  · have hLength := (List.getElem?_eq_some_iff.mp hSecond).1
    simp [launched, hLength]
  · refine ⟨.starting settings second.id second.job, ?_, hSecondId, Activity.starting_outcome? _ _⟩
    simp [launched]

/-- Two calls that come in together can both start a job, whenever the deployment is idle. -/
theorem Grounded.race (ground : Grounded settings tool t) {record : Record}
    (hFound : t.records.get? id = some record) (idle : admission id (.ok record) = .ok ())
    (one two : Job) : ∃ u, Run settings tool (fun _ => True) t u ∧ Overlap id u := by
  let m := t.calls.length
  let first := (Call.arriving id one).goOn (admitted id one).run
  let second := (Call.arriving id two).goOn (admitted id two).run
  let come : Traffic := { t with calls := t.calls ++ [.arriving id one] ++ [.arriving id two] }
  let looked : Traffic := { come with calls := come.calls.set m first }
  let ready : Traffic := { looked with calls := looked.calls.set (m + 1) second }
  have hCome : Run settings tool (fun _ => True) t come :=
    .tail (Step.run (.arrive t id one) trivial) (.arrive _ id two) trivial
  have hLooked : Step settings tool come looked :=
    step_allow (by simp [come, m]) rfl hFound idle
  have hReady : Step settings tool looked ready :=
    step_allow (by simp [looked, come, m]) rfl hFound idle
  have hRun := (hCome.trans (hLooked.run trivial)).trans (hReady.run trivial)
  have hFirst : ready.calls[m]? = some first := by simp [ready, looked, come, m]
  have hSecond : ready.calls[m + 1]? = some second := by simp [ready, looked, come, m]
  obtain ⟨u, hLater, hOverlap⟩ := (hRun.grounded ground).overlap hFirst hSecond rfl rfl
    (.admitted rfl) (.admitted rfl) (by omega)
  exact ⟨u, hRun.trans hLater, hOverlap⟩

/-- While somebody holds a deployment, nobody else is admitted. -/
theorem Orderly.admission_of_holds (order : Orderly id t) {slot : Nat ⊕ Nat}
    (held : t.Holds id slot) :
    admission id (t.found id) = .error (.job (.operationInProgress id)) := by
  obtain ⟨holder, hHolds, hProgress⟩ := order.holder
  rw [(hHolds slot).mp held] at hProgress
  cases hFound : t.records.get? id with
  | none =>
      rw [hFound] at hProgress
      cases hProgress
  | some record =>
      rw [hFound] at hProgress
      have hBusy : record.isInProgress = true := by simpa using hProgress
      rw [found_of_get? hFound]
      simp [admission, hBusy]

/-- A call that looks whether a deployment is idle while somebody holds it is turned away. -/
theorem Orderly.turnsAway (order : Orderly id t) (ground : Grounded settings tool t)
    {slot : Nat ⊕ Nat} (held : t.Holds id slot) : TurnsAway settings tool id t := by
  intro n call u member hId h step
  have hVerdict := order.admission_of_holds held
  obtain ⟨next, hNext⟩ := step.exists_call member
  rw [hNext]
  cases (ground.move step).turn member hNext with
  | still => exact .inl rfl
  | refused _ verdict _ _ =>
      rw [hId, hVerdict] at verdict
      cases verdict
      exact .inr rfl
  | admitted _ verdict =>
      rw [hId, hVerdict] at verdict
      cases verdict
  | proceeding begun | launched begun => exact (begun h).elim

theorem Overlap.not_exclusive (overlap : Overlap id t) : ¬Exclusive id t := by
  obtain ⟨m, n, first, second, i, j, -, distinct, -, -, hFirst, -, -, hSecond⟩ := overlap
  exact fun exclusive => distinct (exclusive i j hFirst hSecond)

/-- Two jobs are kept apart just as long as no two calls stand between finding the deployment idle
and marking it: until then every call that looks while a job is at work is turned away, and once
two calls do, each can go on and start its job. Two calls can come to stand there whenever the
deployment is idle. -/
theorem exclusive_while_separate (settings : UpgradeSettings) (tool : ToolBehavior)
    {start : Traffic} (quiet : Quiet id start) :
    (∀ t, Run settings tool (Separate id) start t →
      Exclusive id t ∧ ∀ slot, t.Holds id slot → TurnsAway settings tool id t) ∧
    (∀ t, Run settings tool (fun _ => True) start t → ¬Separate id t →
      ∃ u, Run settings tool (fun _ => True) t u ∧ Overlap id u) ∧
    ∀ t record, Run settings tool (fun _ => True) start t → t.records.get? id = some record →
      admission id (.ok record) = .ok () →
      ∃ u, Run settings tool (fun _ => True) t u ∧ Overlap id u := by
  refine ⟨?_, ?_, ?_⟩
  · intro t run
    have ground := run.grounded quiet.grounded
    have order := run.orderly quiet.grounded (fun _ h => h) (quiet.separate id) quiet.orderly
    constructor
    · intro m n hFirst hSecond
      exact Sum.inr.inj (order.holder_unique hFirst hSecond)
    · intro slot held
      exact order.turnsAway ground held
  · intro t run crowded
    have ground : Grounded settings tool t := run.grounded quiet.grounded
    simp only [Separate, Classical.not_forall] at crowded
    obtain ⟨m, n, first, second, hFirst, hSecond, hFirstId, hSecondId, hFirstWindow,
      hSecondWindow, distinct⟩ := crowded
    exact ground.overlap hFirst hSecond hFirstId hSecondId hFirstWindow hSecondWindow distinct
  · intro t record run hFound idle
    exact (run.grounded quiet.grounded).race hFound idle .provision .provision

theorem exclusive_while_separate_resting :
    Quiet "tf:db:" resting ∧ Exclusive "tf:db:" resting ∧
      ∃ u, Run plainSettings (fun _ _ => True) (fun _ => True) resting u ∧ Overlap "tf:db:" u := by
  obtain ⟨hApart, -, hTogether⟩ :=
    exclusive_while_separate plainSettings (fun _ _ => True) (quiet_resting "tf:db:")
  exact ⟨(quiet_resting "tf:db:"), (hApart resting (.refl _)).1,
    hTogether resting restingRecord (.refl _) rfl admission_resting⟩

/-- Nothing was going on, and now two jobs are at work on one deployment. -/
theorem two_jobs_at_once :
    Quiet "tf:db:" resting ∧
      ∃ u, Run plainSettings (fun _ _ => True) (fun _ => True) resting u ∧
        ¬Exclusive "tf:db:" u := by
  have ground : Grounded plainSettings (fun _ _ => True) resting :=
    (quiet_resting "tf:db:").grounded
  obtain ⟨u, hRun, hOverlap⟩ := ground.race rfl admission_resting .provision (.update [])
  exact ⟨(quiet_resting "tf:db:"), u, hRun, hOverlap.not_exclusive⟩

end Traffic

end ServiceBroker
