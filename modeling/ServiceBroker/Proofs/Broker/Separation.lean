import ServiceBroker.Proofs.Broker.Exclusion
import ServiceBroker.Proofs.Store.Separation

/-! Which units of work have a record of their own. The id of a unit joins the names of its instance
and binding with colons, and a name may have colons of its own; so two units can have one id. Units
with different ids are kept apart by every store, and by the jobs that work on them. -/

namespace ServiceBroker

/-- A service instance and one of its bindings, or no binding for the instance itself. -/
structure WorkUnit where
  instanceName : String
  binding : String
deriving DecidableEq

namespace WorkUnit

def id (unit : WorkUnit) : String :=
  bindingId unit.instanceName unit.binding

/-- The instance of the second unit has a longer name, and what is longer stands in front of the
binding of the first one. -/
def Overlaps (first second : WorkUnit) : Prop :=
  ∃ rest, second.instanceName = first.instanceName ++ ":" ++ rest ∧
    first.binding = rest ++ ":" ++ second.binding

theorem id_eq_of_overlaps {first second : WorkUnit} (h : first.Overlaps second) :
    first.id = second.id := by
  obtain ⟨rest, hInstance, hBinding⟩ := h
  simp [id, bindingId, hInstance, hBinding, String.append_assoc]

/-- A separator in the longer of two texts stands behind the shorter one. -/
theorem overlaps_of_append {first second : WorkUnit} {more : List Char}
    (hInstance : second.instanceName.toList = first.instanceName.toList ++ more)
    (hBinding : ':' :: first.binding.toList = more ++ ':' :: second.binding.toList) :
    first = second ∨ first.Overlaps second := by
  cases more with
  | nil =>
      refine .inl ?_
      obtain ⟨instanceName, binding⟩ := first
      obtain ⟨otherInstance, otherBinding⟩ := second
      simp only [List.append_nil, String.toList_inj, List.nil_append, List.cons.injEq,
        true_and] at hInstance hBinding
      rw [hInstance, hBinding]
  | cons c more =>
      obtain ⟨rfl, hRest⟩ := List.cons.inj hBinding
      refine .inr ⟨String.ofList more, String.toList_inj.mp ?_, String.toList_inj.mp ?_⟩
      · simp [hInstance]
      · simp [hRest]

/-- Two units share an id exactly if they are one unit or one overlaps the other. -/
theorem id_eq_iff (first second : WorkUnit) :
    first.id = second.id ↔ first = second ∨ first.Overlaps second ∨ second.Overlaps first := by
  constructor
  · intro h
    have hChars : first.instanceName.toList ++ ':' :: first.binding.toList =
        second.instanceName.toList ++ ':' :: second.binding.toList := by
      have hSame := congrArg String.toList h
      simpa [id, bindingId] using hSame
    rcases List.append_eq_append_iff.mp hChars with ⟨more, hInstance, hBinding⟩ |
      ⟨more, hInstance, hBinding⟩
    · exact (overlaps_of_append hInstance hBinding).imp_right .inl
    · rcases overlaps_of_append hInstance hBinding with rfl | hOverlaps
      · exact .inl rfl
      · exact .inr (.inr hOverlaps)
  · rintro (rfl | hOverlaps | hOverlaps)
    · rfl
    · exact id_eq_of_overlaps hOverlaps
    · exact (id_eq_of_overlaps hOverlaps).symm

end WorkUnit

/-- However it is answered, the request tells nothing of other records and leaves them alone. -/
def JobRequest.Confined (id : String) (request : JobRequest) : Prop :=
  ∀ (tool : ToolBehavior) (isCancelled : Bool) (before after : Records) (reply : request.Reply),
    Traffic.Answered tool isCancelled before after request reply →
      (∀ other, other ≠ id → after.get? other = before.get? other) ∧
      ∀ record, Exchange.reading? ⟨request, reply⟩ = some record → before.get? id = some record

namespace JobRequest

theorem confined_get (id : String) : Confined id (.store (.get id)) := by
  intro tool isCancelled before after reply answered
  rw [Traffic.Answered, Records.answer_get] at answered
  obtain ⟨rfl, rfl⟩ := Prod.mk.inj answered
  refine ⟨fun _ _ => rfl, fun record hReading => ?_⟩
  cases hFound : after.get? id with
  | none => simp [hFound, Exchange.reading?] at hReading
  | some found => simpa [hFound, Exchange.reading?] using hReading

theorem confined_put {id : String} {record : Record} (key : record.id = id) :
    Confined id (.store (.put record)) := by
  intro tool isCancelled before after reply answered
  obtain ⟨-, rfl⟩ := Prod.mk.inj answered
  exact ⟨fun other h => Fields.get?_put_of_ne _ _ (key ▸ h),
    fun record hReading => by simp [Exchange.reading?] at hReading⟩

theorem confined_now (id : String) : Confined id .now := by
  intro tool isCancelled before after reply answered
  obtain rfl : after = before := answered
  exact ⟨fun _ _ => rfl, fun record hReading => by simp [Exchange.reading?] at hReading⟩

theorem confined_tool (id : String) (run : ToolRun) : Confined id (.tool run) := by
  intro tool isCancelled before after reply answered
  obtain rfl : after = before := answered.1
  exact ⟨fun _ _ => rfl, fun record hReading => by simp [Exchange.reading?] at hReading⟩

end JobRequest

namespace Traffic

variable {settings : UpgradeSettings} {tool : ToolBehavior} {t : Traffic}

/-- Jobs ask for no record but their own. -/
theorem Activity.Stage.confined {work : Activity} (stage : work.Stage settings)
    {request : JobRequest} {next : request.Reply → JobProgram (Except BrokerError Unit)}
    (asks : work.rest = .ask request next) : request.Confined work.id := by
  cases stage with
  | running program passed h =>
      have hAsks := (passed.asks (work.job.run_asks settings work.id)).2
      rw [h] at asks
      cases program with
      | done result =>
          change ((recordOutcome work.id result).run : JobProgram _) = _ at asks
          rw [recordOutcome_run] at asks
          cases asks
          exact JobRequest.confined_get work.id
      | ask asked later =>
          cases asks
          rcases hAsks.1 with rfl | hRun
          · exact JobRequest.confined_get work.id
          · cases request with
            | tool run => exact JobRequest.confined_tool work.id run
            | store | now => exact hRun.elim
  | settling result record log passed key hLog h =>
      rw [h] at asks
      cases asks
      exact JobRequest.confined_now work.id
  | storing result record now log passed key hLog h =>
      rw [h] at asks
      cases asks
      exact JobRequest.confined_put ((Record.settled_id record result now).trans key)
  | recorded result record now log passed key hLog h =>
      rw [h] at asks
      cases asks

/-- Calls ask for no record but their own. -/
theorem Call.Stage.confined {records : Records} {call : Call} (stage : call.Stage records)
    {request : JobRequest} {next : request.Reply → BrokerProgram (Except BrokerError Nat)}
    (asks : call.rest = .ask (.job request) next) : request.Confined call.id := by
  cases stage with
  | arriving h =>
      rw [h, dispatch_run] at asks
      cases asks
      exact JobRequest.confined_get call.id
  | admitted present h =>
      rw [h, admitted_run] at asks
      cases asks
      exact JobRequest.confined_get call.id
  | marking present record key h =>
      rw [h] at asks
      cases asks
      exact JobRequest.confined_now call.id
  | writing present record now key h =>
      rw [h] at asks
      cases asks
      exact JobRequest.confined_put key
  | starting present h =>
      rw [h] at asks
      cases asks
  | ended outcome h =>
      rw [h] at asks
      cases asks

/-- Whoever is at work, whatever is asked next is confined to the record of the one who asks. -/
structure Confined (t : Traffic) : Prop where
  jobs : ∀ work ∈ t.jobs, ∀ (request : JobRequest)
    (next : request.Reply → JobProgram (Except BrokerError Unit)),
    work.rest = .ask request next → request.Confined work.id
  calls : ∀ call ∈ t.calls, ∀ (request : JobRequest)
    (next : request.Reply → BrokerProgram (Except BrokerError Nat)),
    call.rest = .ask (.job request) next → request.Confined call.id

theorem Grounded.confined (ground : Grounded settings tool t) : t.Confined where
  jobs work member _ _ asks := (ground.jobs work member).confined asks
  calls call member _ _ asks := (ground.calls call member).confined asks

end Traffic

namespace WorkUnit

/-- Two units share a record exactly if they are one unit or one overlaps the other. Otherwise no
store answers anything else about the one because a record of the other was put, in whatever state
the store is. At any time no call or job asks for a record but that of its own id, or writes another
one. -/
theorem apart_unless_overlapping (first second : WorkUnit) :
    (first.id = second.id ↔ first = second ∨ first.Overlaps second ∨ second.Overlaps first) ∧
    (first.id ≠ second.id →
      memoryStore.Spares first.id second.id ∧ directoryStore.Spares first.id second.id ∧
        ∀ configured, (bucketStore configured).Spares first.id second.id) ∧
    ∀ (settings : UpgradeSettings) (tool : ToolBehavior) (limit : Traffic → Prop)
      (start t : Traffic), (∀ id, Traffic.Quiet id start) →
      Traffic.Run settings tool limit start t → t.Confined := by
  refine ⟨id_eq_iff first second, fun h => ?_, fun settings tool limit start t quiet run => ?_⟩
  · exact ⟨memoryStore_spares h.symm, directoryStore_spares h.symm,
      fun configured => bucketStore_spares configured h.symm⟩
  · exact (run.grounded (quiet "").grounded).confined

/-- The binding of one instance and another instance whose name begins with both their names. -/
theorem apart_similar :
    (WorkUnit.mk "a" "b").id ≠ (WorkUnit.mk "a:b" "").id ∧
      directoryStore.Spares (WorkUnit.mk "a" "b").id (WorkUnit.mk "a:b" "").id :=
  ⟨by decide, ((apart_unless_overlapping _ _).2.1 (by decide)).2.1⟩

/-- A colon in the name of a binding may be one between names: what is put for a binding is then
found for a binding of another instance. -/
theorem shared_record :
    WorkUnit.mk "a" "b:c" ≠ WorkUnit.mk "a:b" "c" ∧
      ∃ record : Record, record.id = (WorkUnit.mk "a" "b:c").id ∧
        memoryStore.standing (WorkUnit.mk "a:b" "c").id
            (memoryStore.answer (.put record) []).2 ≠
          memoryStore.standing (WorkUnit.mk "a:b" "c").id [] := by
  refine ⟨by decide, .leaping "tf:a:b:c", by decide, fun hSame => ?_⟩
  have hContains := congrArg Store.Standing.contains hSame
  change Except.ok (Fields.get? (Fields.put [] "tf:a:b:c" _) "tf:a:b:c").isSome =
    Except.ok false at hContains
  rw [Fields.get?_put_self] at hContains
  cases hContains

end WorkUnit

end ServiceBroker
