import ServiceBroker.Program

/-! Partial runs of a program. A run is recorded as the requests that were made and what each was
answered; it leaves the part of the program that has not run yet. Who answers, and what happens
between two requests, is left open, so the same facts serve every way of scheduling programs. -/

namespace ServiceBroker

/-- A request and what it was answered. -/
structure Exchange (I : Interface) where
  request : I.Request
  reply : I.Reply request

namespace Program

variable {I J : Interface} {α β : Type}

/-- Answered as recorded, a program becomes what is left of it. The record holds every request in
the order in which it was made. -/
inductive Passes : Program I α → List (Exchange I) → Program I α → Prop where
  | refl (program : Program I α) : Passes program [] program
  | ask {request : I.Request} {next : I.Reply request → Program I α} {reply : I.Reply request}
      {log : List (Exchange I)} {rest : Program I α} (later : Passes (next reply) log rest) :
      Passes (ask request next) (⟨request, reply⟩ :: log) rest

theorem Passes.trans {p q r : Program I α} {first second : List (Exchange I)}
    (left : Passes p first q) (right : Passes q second r) : Passes p (first ++ second) r := by
  induction left with
  | refl => exact right
  | ask _ ih => exact .ask (ih right)

/-- One more request at the end. -/
theorem Passes.snoc {p : Program I α} {log : List (Exchange I)} {request : I.Request}
    {next : I.Reply request → Program I α} (run : Passes p log (.ask request next))
    (reply : I.Reply request) : Passes p (log ++ [⟨request, reply⟩]) (next reply) :=
  run.trans (.ask (.refl _))

/-- What was answered determines what is left. -/
theorem Passes.det {p q r : Program I α} {log : List (Exchange I)}
    (left : Passes p log q) (right : Passes p log r) : q = r := by
  induction left with
  | refl =>
      cases right
      rfl
  | ask _ ih =>
      cases right with
      | ask later => exact ih later

@[simp]
theorem passes_nil_iff {p q : Program I α} : Passes p [] q ↔ p = q := by
  constructor
  · intro run
    cases run
    rfl
  · rintro rfl
    exact .refl p

/-- A finished program asks nothing. -/
@[simp]
theorem done_passes_iff {value : α} {log : List (Exchange I)} {q : Program I α} :
    Passes (done value) log q ↔ log = [] ∧ q = done value := by
  constructor
  · intro run
    cases run
    exact ⟨rfl, rfl⟩
  · rintro ⟨rfl, rfl⟩
    exact .refl _

/-- A run stood somewhere after its first requests. -/
theorem Passes.split {p q : Program I α} {first second : List (Exchange I)}
    (run : Passes p (first ++ second) q) : ∃ rest, Passes p first rest ∧ Passes rest second q := by
  induction first generalizing p with
  | nil => exact ⟨p, .refl p, run⟩
  | cons exchange first ih =>
      cases run with
      | ask later =>
          obtain ⟨rest, hFirst, hSecond⟩ := ih later
          exact ⟨rest, .ask hFirst, hSecond⟩

/-- A run that has ended goes no further. -/
theorem Passes.end_unique {p : Program I α} {first second : List (Exchange I)} {value other : α}
    (left : Passes p first (done value)) (right : Passes p second (done other))
    (h : first <+: second) : other = value := by
  obtain ⟨more, rfl⟩ := h
  obtain ⟨rest, hFirst, hMore⟩ := right.split
  rw [hFirst.det left] at hMore
  exact done.inj (done_passes_iff.mp hMore).2

/-- A run that is answered as a complete one is a first part of it, and can be completed in the same
way. -/
theorem Passes.exists_rest {p q : Program I α} {first second : List (Exchange I)} {value : α}
    (left : Passes p first q) (right : Passes p second (done value))
    (agree : ∀ request reply other, (⟨request, reply⟩ : Exchange I) ∈ first →
      (⟨request, other⟩ : Exchange I) ∈ second → reply = other) :
    ∃ more, second = first ++ more ∧ Passes q more (done value) := by
  induction left generalizing second with
  | refl => exact ⟨second, rfl, right⟩
  | @ask request next reply log rest later ih =>
      cases right with
      | @ask _ _ other _ _ run =>
          obtain rfl := agree request reply other List.mem_cons_self List.mem_cons_self
          obtain ⟨more, rfl, hMore⟩ := ih run fun request reply other hFirst hSecond =>
            agree request reply other (List.mem_cons_of_mem _ hFirst) (List.mem_cons_of_mem _ hSecond)
          exact ⟨more, rfl, hMore⟩

/-- Nothing was asked yet, or the first request was answered and the rest ran on from there. -/
theorem ask_passes_iff {request : I.Request} {next : I.Reply request → Program I α}
    {log : List (Exchange I)} {q : Program I α} :
    Passes (ask request next) log q ↔
      (log = [] ∧ q = ask request next) ∨
        ∃ reply later, log = ⟨request, reply⟩ :: later ∧ Passes (next reply) later q := by
  constructor
  · intro run
    cases run with
    | refl => exact .inl ⟨rfl, rfl⟩
    | ask later => exact .inr ⟨_, _, rfl, later⟩
  · rintro (⟨rfl, rfl⟩ | ⟨reply, later, rfl, run⟩)
    · exact .refl _
    · exact .ask run

/-- A program that ran to its end made its first request. -/
theorem ask_passes_done_iff {request : I.Request} {next : I.Reply request → Program I α}
    {log : List (Exchange I)} {value : α} :
    Passes (ask request next) log (done value) ↔
      ∃ reply later, log = ⟨request, reply⟩ :: later ∧ Passes (next reply) later (done value) := by
  simp [ask_passes_iff]

theorem Passes.bind {p q : Program I α} {log : List (Exchange I)} (run : Passes p log q)
    (next : α → Program I β) : Passes (p.bind next) log (q.bind next) := by
  induction run with
  | refl => exact .refl _
  | ask _ ih => exact .ask ih

/-- A run of two parts stands in the first one, or the first one has ended and the run stands in
the second. -/
theorem passes_bind {p : Program I α} {next : α → Program I β} {log : List (Exchange I)}
    {q : Program I β} (run : Passes (p.bind next) log q) :
    (∃ rest, Passes p log rest ∧ q = rest.bind next) ∨
      ∃ first second value, log = first ++ second ∧ Passes p first (done value) ∧
        Passes (next value) second q := by
  induction p generalizing log with
  | done value => exact .inr ⟨[], log, value, rfl, .refl _, run⟩
  | ask request after ih =>
      rcases ask_passes_iff.mp run with ⟨rfl, rfl⟩ | ⟨reply, later, rfl, hLater⟩
      · exact .inl ⟨_, .refl _, rfl⟩
      · rcases ih reply hLater with ⟨rest, hRest, rfl⟩ | ⟨first, second, value, rfl, hFirst, hSecond⟩
        · exact .inl ⟨rest, .ask hRest, rfl⟩
        · exact .inr ⟨_ :: first, second, value, rfl, .ask hFirst, hSecond⟩

/-- A complete run of two parts is one complete run after another. -/
theorem passes_bind_done_iff {p : Program I α} {next : α → Program I β} {log : List (Exchange I)}
    {result : β} :
    Passes (p.bind next) log (done result) ↔
      ∃ first second value, log = first ++ second ∧ Passes p first (done value) ∧
        Passes (next value) second (done result) := by
  constructor
  · intro run
    rcases passes_bind run with ⟨rest, hRest, hDone⟩ | split
    · cases rest with
      | done value =>
          have hNext : next value = done result := hDone.symm
          exact ⟨log, [], value, by simp, hRest, hNext ▸ .refl _⟩
      | ask request after => cases hDone
    · exact split
  · rintro ⟨first, second, value, rfl, hFirst, hSecond⟩
    exact (hFirst.bind next).trans hSecond

/-- Where every request has some answer, every program can be answered to its end. -/
theorem exists_passes_done (answerable : ∀ request : I.Request, Nonempty (I.Reply request))
    (p : Program I α) : ∃ log value, Passes p log (done value) := by
  induction p with
  | done value => exact ⟨[], value, .refl _⟩
  | ask request next ih =>
      obtain ⟨reply⟩ := answerable request
      obtain ⟨log, value, run⟩ := ih reply
      exact ⟨_, value, .ask run⟩

/-- A state answers recorded requests one after another. -/
inductive Replied {σ : Type} (answer : (request : I.Request) → σ → I.Reply request × σ) :
    σ → List (Exchange I) → σ → Prop where
  | nil (state : σ) : Replied answer state [] state
  | cons {request : I.Request} {state after : σ} {log : List (Exchange I)}
      (later : Replied answer (answer request state).2 log after) :
      Replied answer state (⟨request, (answer request state).1⟩ :: log) after

/-- What a program comes to against a state is one of its runs to the end. -/
theorem exists_replied {σ : Type} (answer : (request : I.Request) → σ → I.Reply request × σ)
    (p : Program I α) (state : σ) :
    ∃ log, Passes p log (done (p.run answer state).1) ∧
      Replied answer state log (p.run answer state).2 := by
  induction p generalizing state with
  | done value => exact ⟨[], .refl _, .nil state⟩
  | ask request next ih =>
      obtain ⟨log, run, replied⟩ := ih (answer request state).1 (answer request state).2
      exact ⟨_, .ask run, .cons replied⟩

/-- Every request that a program can make, whatever it is answered, is of a kind. -/
def Asks (kind : I.Request → Prop) : Program I α → Prop
  | done _ => True
  | ask request next => kind request ∧ ∀ reply, Asks kind (next reply)

variable {kind : I.Request → Prop}

@[simp]
theorem asks_done (value : α) : Asks kind (done value : Program I α) :=
  trivial

theorem Asks.bind {p : Program I α} (first : p.Asks kind) {next : α → Program I β}
    (second : ∀ value, (next value).Asks kind) : (p.bind next).Asks kind := by
  induction p with
  | done value => exact second value
  | ask request after ih => exact ⟨first.1, fun reply => ih reply (first.2 reply)⟩

theorem Asks.mono {other : I.Request → Prop} {p : Program I α} (h : p.Asks kind)
    (weaker : ∀ request, kind request → other request) : p.Asks other := by
  induction p with
  | done value => trivial
  | ask request next ih => exact ⟨weaker _ h.1, fun reply => ih reply (h.2 reply)⟩

/-- What every request of the kind keeps, a run keeps. -/
theorem Asks.run {σ : Type} {answer : (request : I.Request) → σ → I.Reply request × σ}
    {Keeps : σ → σ → Prop} (refl : ∀ state, Keeps state state)
    (trans : ∀ {first second third}, Keeps first second → Keeps second third → Keeps first third)
    (step : ∀ request state, kind request → Keeps state (answer request state).2)
    {p : Program I α} (h : p.Asks kind) (state : σ) : Keeps state (p.run answer state).2 := by
  induction p generalizing state with
  | done value => exact refl state
  | ask request next ih => exact trans (step request state h.1) (ih _ (h.2 _) _)

/-- What was asked was of the kind, and what is left will ask no other. -/
theorem Passes.asks {p q : Program I α} {log : List (Exchange I)} (run : Passes p log q)
    (h : p.Asks kind) : (∀ exchange ∈ log, kind exchange.request) ∧ q.Asks kind := by
  induction run with
  | refl => exact ⟨by simp, h⟩
  | ask _ ih =>
      obtain ⟨hLog, hRest⟩ := ih (h.2 _)
      exact ⟨by simpa using ⟨h.1, hLog⟩, hRest⟩

end Program

end ServiceBroker
