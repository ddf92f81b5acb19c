import ServiceBroker.Console.Command
import ServiceBroker.Proofs.Program.Passage

/-! Complete runs of commands, part by part, and what they ask of the machine. -/

namespace ServiceBroker.Console

open Program

variable {α β : Type} {log : List (Exchange machine)}

/-- Answered as recorded, the work ends with a result. -/
def Ends (work : Work α) (log : List (Exchange machine)) (result : Except BrokerError α) : Prop :=
  Passes work.run log (.done result)

theorem ends_ofExcept_iff {outcome result : Except BrokerError α} :
    Ends (ofExcept outcome) log result ↔ log = [] ∧ result = outcome := by
  have hRun : (ofExcept outcome : Work α).run = .done outcome := by cases outcome <;> rfl
  rw [Ends, hRun, done_passes_iff, done.injEq]

theorem ends_pure_iff {value : α} {result : Except BrokerError α} :
    Ends (pure value) log result ↔ log = [] ∧ result = .ok value := by
  have hOk : Ends (ofExcept (.ok value) : Work α) log result ↔ _ := ends_ofExcept_iff
  exact hOk

theorem ends_ask_iff {request : Request} {result : Except BrokerError request.Reply} :
    Ends (ask request) log result ↔ ∃ reply, log = [⟨request, reply⟩] ∧ result = .ok reply := by
  constructor
  · intro run
    obtain ⟨reply, later, rfl, hLater⟩ := ask_passes_done_iff.mp run
    obtain ⟨rfl, hDone⟩ := done_passes_iff.mp hLater
    exact ⟨reply, rfl, done.inj hDone⟩
  · rintro ⟨reply, rfl, rfl⟩
    exact .ask (.refl _)

/-- Work of two parts ends with the failure of the first, or after both. -/
theorem ends_bind_iff {first : Work α} {next : α → Work β} {result : Except BrokerError β} :
    Ends (first >>= next) log result ↔
      (∃ e, Ends first log (.error e) ∧ result = .error e) ∨
        ∃ before after value, log = before ++ after ∧ Ends first before (.ok value) ∧
          Ends (next value) after result := by
  change (Program.bind first.run (ExceptT.bindCont next)).Passes log (done result) ↔ _
  rw [passes_bind_done_iff]
  constructor
  · rintro ⟨before, after, middle, rfl, hFirst, hNext⟩
    cases middle with
    | ok value => exact .inr ⟨before, after, value, rfl, hFirst, hNext⟩
    | error e =>
        obtain ⟨rfl, hDone⟩ := done_passes_iff.mp hNext
        rw [List.append_nil]
        exact .inl ⟨e, hFirst, done.inj hDone⟩
  · rintro (⟨e, hFirst, rfl⟩ | ⟨before, after, value, rfl, hFirst, hNext⟩)
    · exact ⟨log, [], .error e, by simp, hFirst, .refl _⟩
    · exact ⟨before, after, .ok value, rfl, hFirst, hNext⟩

theorem Ends.bind {first : Work α} {next : α → Work β} {value : α}
    {before after : List (Exchange machine)} {result : Except BrokerError β}
    (hFirst : Ends first before (.ok value)) (hNext : Ends (next value) after result) :
    Ends (first >>= next) (before ++ after) result :=
  ends_bind_iff.mpr (.inr ⟨before, after, value, rfl, hFirst, hNext⟩)

/-- Work that may fail is tried: it ends well, with what it came to. -/
theorem ends_tried_iff {work : Work α} {result : Except BrokerError (Except BrokerError α)} :
    Ends (tryCatch (Except.ok <$> work) (pure ∘ Except.error)) log result ↔
      ∃ answer, Ends work log answer ∧ result = .ok answer := by
  have hRun : (tryCatch (Except.ok (ε := BrokerError) <$> work) (pure ∘ Except.error)).run =
      work.run.bind fun answer => .done (.ok answer) := by
    change (Program.bind work.run _).bind _ = _
    induction work.run with
    | done answer => cases answer <;> rfl
    | ask request after ih => exact congrArg (Program.ask request) (funext ih)
  rw [Ends, hRun]
  constructor
  · intro run
    obtain ⟨before, after, answer, rfl, hWork, hAnswer⟩ := passes_bind_done_iff.mp run
    obtain ⟨rfl, hDone⟩ := done_passes_iff.mp hAnswer
    rw [List.append_nil]
    exact ⟨answer, hWork, done.inj hDone⟩
  · rintro ⟨answer, hWork, rfl⟩
    exact passes_bind_done_iff.mpr ⟨log, [], answer, by simp, hWork, .refl _⟩

/-- The work does not fail, whatever it is answered. -/
def Succeeds (work : Work α) : Prop :=
  ∀ log result, Ends work log result → ∃ value, result = .ok value

theorem succeeds_pure (value : α) : Succeeds (pure value : Work α) :=
  fun _ _ run => ⟨value, (ends_pure_iff.mp run).2⟩

theorem succeeds_ask (request : Request) : Succeeds (ask request) := by
  intro log result run
  obtain ⟨reply, -, hReply⟩ := ends_ask_iff.mp run
  exact ⟨reply, hReply⟩

theorem Succeeds.bind {first : Work α} {next : α → Work β} (hFirst : Succeeds first)
    (hNext : ∀ value, Succeeds (next value)) : Succeeds (first >>= next) := by
  intro log result run
  rcases ends_bind_iff.mp run with ⟨e, hFails, rfl⟩ | ⟨before, after, value, rfl, -, hRun⟩
  · obtain ⟨value, hValue⟩ := hFirst _ _ hFails
    cases hValue
  · exact hNext value _ _ hRun

/-! ### Requests -/

/-- A request that prints nothing and lets no time pass. -/
def Request.IsStill : Request → Prop
  | .pause _ | .print _ => False
  | _ => True

/-- A request that asks for nothing of a record and lets no time pass. -/
def Request.IsApart : Request → Prop
  | .pause _ | .folder _ _ | .bucket _ _ => False
  | _ => True

/-- Whatever it is answered, the work makes requests of one kind only. -/
def Makes (kind : Request → Prop) (work : Work α) : Prop :=
  Program.Asks (I := machine) kind work.run

variable {kind : Request → Prop}

theorem Ends.asks {work : Work α} {result : Except BrokerError α} (run : Ends work log result)
    (h : Makes kind work) : ∀ exchange ∈ log, kind exchange.request :=
  (Passes.asks run h).1

@[simp]
theorem makes_pure (value : α) : Makes kind (pure value : Work α) :=
  trivial

theorem makes_ask {request : Request} (h : kind request) : Makes kind (ask request) :=
  ⟨h, fun _ => trivial⟩

theorem Makes.bind {first : Work α} {next : α → Work β} (hFirst : Makes kind first)
    (hNext : ∀ value, Makes kind (next value)) : Makes kind (first >>= next) := by
  change (Program.bind first.run (ExceptT.bindCont next)).Asks kind
  refine Asks.bind hFirst fun result => ?_
  cases result with
  | ok value => exact hNext value
  | error e => trivial

theorem makes_orFail {ε : Type} [Coe ε BrokerError] (result : Except ε α) :
    Makes kind (orFail result) := by
  cases result <;> trivial

theorem makes_mapM {each : β → Work α} (h : ∀ input, Makes kind (each input))
    (inputs : List β) : Makes kind (inputs.mapM each) := by
  have hLoop (done : List α) : Makes kind (List.mapM.loop each inputs done) := by
    induction inputs generalizing done with
    | nil => trivial
    | cons input inputs ih => exact (h input).bind fun _ => ih _
  exact hLoop []

theorem makes_foldlM {step : α → β → Work α} (h : ∀ state input, Makes kind (step state input))
    (inputs : List β) (state : α) : Makes kind (inputs.foldlM step state) := by
  induction inputs generalizing state with
  | nil => trivial
  | cons input inputs ih => exact (h state input).bind fun _ => ih _

theorem makes_findM? {test : α → Work Bool} (h : ∀ input, Makes kind (test input))
    (inputs : List α) : Makes kind (inputs.findM? test) := by
  induction inputs with
  | nil => trivial
  | cons input inputs ih =>
      refine (h input).bind fun found => ?_
      cases found with
      | true => trivial
      | false => exact ih

theorem succeeds_colors (loaded : Variables) : Succeeds (colors loaded) := by
  have hValue (name : String) : Succeeds (valueOf loaded name) :=
    (succeeds_ask (.environment name)).bind fun _ => succeeds_pure _
  exact (hValue _).bind fun _ => (hValue _).bind fun _ => (hValue _).bind fun _ =>
    (succeeds_ask .isTerminal).bind fun _ => succeeds_pure _

theorem makes_valueOf (environment : ∀ name, kind (.environment name)) (loaded : Variables)
    (name : String) : Makes kind (valueOf loaded name) :=
  (makes_ask (environment name)).bind fun _ => makes_pure _

theorem makes_colors (environment : ∀ name, kind (.environment name)) (terminal : kind .isTerminal)
    (loaded : Variables) : Makes kind (colors loaded) :=
  (makes_valueOf environment _ _).bind fun _ => (makes_valueOf environment _ _).bind fun _ =>
    (makes_valueOf environment _ _).bind fun _ =>
      (makes_ask terminal).bind fun _ => makes_pure _

/-! ### Whole commands -/

/-- A command ends with an outcome: it goes on from round to round until it is over or fails. -/
inductive Completes : Work Progress → List (Exchange machine) → Except BrokerError Unit → Prop where
  | ended {work : Work Progress} {log : List (Exchange machine)} (run : Ends work log (.ok .over)) :
      Completes work log (.ok ())
  | failed {work : Work Progress} {log : List (Exchange machine)} {e : BrokerError}
      (run : Ends work log (.error e)) : Completes work log (.error e)
  | goesOn {work : Work Progress} {log later : List (Exchange machine)} {wait : Wait}
      {outcome : Except BrokerError Unit} (run : Ends work log (.ok (.waits wait)))
      (rest : Completes wait.round later outcome) : Completes work (log ++ later) outcome

/-- A command that does not go on ends with what its first part came to. -/
theorem Completes.of_ends {work : Work Progress} {outcome : Except BrokerError Unit}
    (h : Ends work log (outcome.map fun _ => .over)) : Completes work log outcome := by
  cases outcome with
  | ok _ => exact .ended h
  | error _ => exact .failed h

/-- The texts that are printed. -/
def printed (log : List (Exchange machine)) : List String :=
  log.filterMap fun exchange =>
    match exchange.request with
    | .print text => some text
    | _ => none

/-- Milliseconds of all pauses. -/
def paused : List (Exchange machine) → Nat
  | [] => 0
  | ⟨.pause duration, _⟩ :: later => duration + paused later
  | _ :: later => paused later

/-- The operator has interrupted a pause. -/
def Interrupted (log : List (Exchange machine)) : Prop :=
  ∃ duration, (⟨.pause duration, true⟩ : Exchange machine) ∈ log

@[simp]
theorem printed_append (first second : List (Exchange machine)) :
    printed (first ++ second) = printed first ++ printed second :=
  List.filterMap_append

@[simp]
theorem paused_append (first second : List (Exchange machine)) :
    paused (first ++ second) = paused first + paused second := by
  induction first with
  | nil => exact (Nat.zero_add _).symm
  | cons exchange first ih =>
      obtain ⟨request, reply⟩ := exchange
      cases request with
      | pause duration => simp [paused, ih, Nat.add_assoc]
      | _ => simpa [paused] using ih

@[simp]
theorem interrupted_append (first second : List (Exchange machine)) :
    Interrupted (first ++ second) ↔ Interrupted first ∨ Interrupted second := by
  simp [Interrupted, exists_or]

theorem printed_of_still (h : ∀ exchange ∈ log, Request.IsStill exchange.request) :
    printed log = [] := by
  refine List.filterMap_eq_nil_iff.mpr fun ⟨request, reply⟩ hExchange => ?_
  have hStill := h _ hExchange
  cases request with
  | print text => exact hStill.elim
  | _ => rfl

theorem paused_eq_zero (h : ∀ exchange ∈ log, ∀ duration, exchange.request ≠ .pause duration) :
    paused log = 0 := by
  induction log with
  | nil => rfl
  | cons exchange log ih =>
      obtain ⟨hFirst, hRest⟩ := List.forall_mem_cons.mp h
      obtain ⟨request, reply⟩ := exchange
      have hZero : paused (⟨request, reply⟩ :: log) = paused log := by
        cases request with
        | pause duration => exact (hFirst duration rfl).elim
        | _ => rfl
      rw [hZero, ih hRest]

theorem not_interrupted (h : ∀ exchange ∈ log, ∀ duration, exchange.request ≠ .pause duration) :
    ¬Interrupted log :=
  fun ⟨duration, hMember⟩ => h _ hMember duration rfl

theorem Request.IsStill.ne_pause {request : Request} (h : request.IsStill) (duration : Nat) :
    request ≠ .pause duration := by
  rintro rfl
  exact h

theorem Request.IsApart.ne_pause {request : Request} (h : request.IsApart) (duration : Nat) :
    request ≠ .pause duration := by
  rintro rfl
  exact h

end ServiceBroker.Console
