import ServiceBroker.Proofs.Console.Work
import ServiceBroker.Proofs.Store.Directory

/-! The wait for an operation, from round to round. A round is a pause and a poll; the wait goes on
while the polls see the operation running, and what it prints at its end is read once more. -/

namespace ServiceBroker.Console

open DirectoryStore

variable {session : Session} {id : String} {log : List (Exchange machine)}
  {answer : Except BrokerError Status} {path : String} {place : BucketPlace}

/-! ### Polls -/

/-- What a poll tells of a record that is read. -/
def told (found : Except StoreError Record) : Except BrokerError Status :=
  (found.map Record.status).mapError .store

theorem poll_run (hFolder : session.records = .folder path) (id : String) : (session.poll id).run =
    Program.ask (I := machine) (.folder path (.contains (RecordName.file id))) fun found : Bool =>
      if found then
        .ask (.folder path (.read (RecordName.file id))) fun content =>
          .done (told (reading content))
      else .done (told (.error (.notFound id))) := by
  have hGet : (session.records.call (.get id)).run =
      ((DirectoryStore.get id).run.embed (J := machine) (.folder path) fun _ reply => reply).bind
        fun found => .done (found.mapError BrokerError.store) := by
    rw [hFolder]
    rfl
  change Program.bind (session.records.call (.get id)).run _ = _
  rw [hGet, get_run]
  change Program.ask _ _ = Program.ask _ _
  congr 1
  funext found
  cases found with
  | false => rfl
  | true =>
      change Program.ask _ _ = Program.ask _ _
      congr 1
      funext content
      change Program.bind (Program.bind (.done (reading content)) _) _ = _
      cases reading content <;> rfl

/-- A poll looks for the file of the record, and reads it if it is there. -/
theorem ends_poll_iff (hFolder : session.records = .folder path) :
    Ends (session.poll id) log answer ↔
      (log = [⟨.folder path (.contains (RecordName.file id)), false⟩] ∧
          answer = told (.error (.notFound id))) ∨
        ∃ content, log = [⟨.folder path (.contains (RecordName.file id)), true⟩,
          ⟨.folder path (.read (RecordName.file id)), content⟩] ∧
            answer = told (reading content) := by
  rw [Ends, poll_run hFolder]
  refine (Program.ask_passes_done_iff (I := machine)).trans ?_
  constructor
  · rintro ⟨found, later, rfl, run⟩
    cases found with
    | false =>
        obtain ⟨rfl, hAnswer⟩ := Program.done_passes_iff.mp run
        exact .inl ⟨rfl, Program.done.inj hAnswer⟩
    | true =>
        obtain ⟨content, last, rfl, hLast⟩ := Program.ask_passes_done_iff.mp run
        obtain ⟨rfl, hAnswer⟩ := Program.done_passes_iff.mp hLast
        exact .inr ⟨content, rfl, Program.done.inj hAnswer⟩
  · rintro (⟨rfl, rfl⟩ | ⟨content, rfl, rfl⟩)
    · exact ⟨false, [], rfl, .refl _⟩
    · exact ⟨true, _, rfl, .ask (.refl _)⟩

/-- A poll calls the store in a bucket once. -/
theorem poll_run_of_bucket (hBucket : session.records = .bucket place) (id : String) :
    (session.poll id).run =
      Program.ask (I := machine) (.bucket place (.get id)) fun found => .done (told found) := by
  rw [Session.poll, hBucket]
  change Program.ask _ _ = Program.ask _ _
  congr 1
  funext found
  cases found <;> rfl

theorem ends_poll_of_bucket_iff (hBucket : session.records = .bucket place) :
    Ends (session.poll id) log answer ↔
      ∃ found, log = [⟨.bucket place (.get id), found⟩] ∧ answer = told found := by
  rw [Ends, poll_run_of_bucket hBucket]
  refine (Program.ask_passes_done_iff (I := machine)).trans (exists_congr fun found => ?_)
  constructor
  · rintro ⟨later, rfl, run⟩
    obtain ⟨rfl, hAnswer⟩ := Program.done_passes_iff.mp run
    exact ⟨rfl, Program.done.inj hAnswer⟩
  · rintro ⟨rfl, rfl⟩
    exact ⟨[], rfl, .refl _⟩

/-- There are no records in a memory that has just been set up. -/
theorem ends_poll_of_none (hNone : session.records = .none)
    (run : Ends (session.poll id) log answer) : answer = told (.error (.notFound id)) := by
  have hRun : (session.poll id).run = .done (told (.error (.notFound id))) := by
    rw [Session.poll, hNone]
    rfl
  rw [Ends, hRun] at run
  exact Program.done.inj (Program.done_passes_iff.mp run).2

theorem makes_poll (session : Session) (id : String) :
    Makes (fun request => request.IsStill) (session.poll id) := by
  cases hRecords : session.records with
  | none =>
      rw [Session.poll, hRecords]
      trivial
  | folder path =>
      rw [Makes, poll_run hRecords]
      refine ⟨trivial, fun found => ?_⟩
      cases found with
      | false => trivial
      | true => exact ⟨trivial, fun _ => trivial⟩
  | bucket place =>
      rw [Makes, poll_run_of_bucket hRecords]
      exact ⟨trivial, fun _ => trivial⟩

/-! ### Reports -/

/-- A report is printed once, whatever is asked before that. -/
theorem ends_print {form : ReportForm} {loaded : Variables} {report : ReportStyle → String}
    {result : Except BrokerError Unit} (run : Ends (print form loaded report) log result) :
    result = .ok () ∧ (∃ style, printed log = [report style]) ∧
      ∀ exchange ∈ log, Request.IsApart exchange.request := by
  have hColors (kind : Request → Prop) (environment : ∀ name, kind (.environment name))
      (terminal : kind .isTerminal) : Makes kind (colors loaded) :=
    makes_colors environment terminal loaded
  rcases ends_bind_iff.mp run with ⟨e, hFails, -⟩ | ⟨before, after, found, rfl, hBefore, hAfter⟩
  · obtain ⟨value, hValue⟩ := succeeds_colors loaded _ _ hFails
    cases hValue
  · obtain ⟨reply, rfl, rfl⟩ := ends_ask_iff.mp hAfter
    refine ⟨rfl, ⟨{ form, colors := found }, ?_⟩, fun exchange hExchange => ?_⟩
    · rw [printed_append, printed_of_still (hBefore.asks (hColors _ (fun _ => trivial) trivial))]
      rfl
    · rcases List.mem_append.mp hExchange with hEarlier | hLast
      · exact hBefore.asks (hColors _ (fun _ => trivial) trivial) exchange hEarlier
      · rw [List.mem_singleton.mp hLast]
        trivial

/-- How a wait is reported that has come to its end: the record is read once more, and what is read
then is printed. -/
inductive Reports (session : Session) (id : String) (waited : Except BrokerError Unit) :
    List (Exchange machine) → Except BrokerError Unit → Prop where
  | unread {read : List (Exchange machine)} {e : BrokerError}
      (fails : Ends (session.poll id) read (.error e)) : Reports session id waited read (.error e)
  | tells {read shown : List (Exchange machine)} {status : Status}
      (reads : Ends (session.poll id) read (.ok status))
      (prints : Ends (session.print fun style => Report.status style id status) shown (.ok ())) :
      Reports session id waited (read ++ shown) waited

theorem ends_finish {wait : Wait} {waited : Except BrokerError Unit}
    {result : Except BrokerError Progress} (run : Ends (wait.finish waited) log result) :
    ∃ outcome, Reports wait.session wait.id waited log outcome ∧
      result = outcome.map fun _ => .over := by
  have hEnd {log : List (Exchange machine)} {result : Except BrokerError Progress}
      (hLast : Ends (ofExcept waited >>= fun _ => pure Progress.over) log result) :
      log = [] ∧ result = waited.map fun _ => .over := by
    cases waited with
    | ok value => exact ends_pure_iff.mp hLast
    | error e => exact ends_ofExcept_iff.mp hLast
  rcases ends_bind_iff.mp run with ⟨e, hFails, rfl⟩ | ⟨before, after, _, rfl, hStatus, hAfter⟩
  · rcases ends_bind_iff.mp hFails with ⟨cause, hPoll, hCause⟩ | ⟨_, _, status, rfl, -, hPrint⟩
    · cases hCause
      exact ⟨.error e, .unread hPoll, rfl⟩
    · cases (ends_print hPrint).1
  · obtain ⟨rfl, rfl⟩ := hEnd hAfter
    rcases ends_bind_iff.mp hStatus with ⟨_, _, hOk⟩ | ⟨read, shown, status, rfl, hPoll, hPrint⟩
    · cases hOk
    · rw [List.append_nil]
      exact ⟨waited, .tells hPoll hPrint, rfl⟩

/-! ### Rounds -/

/-- How a wait ends after a poll: it does if the operation is done or the record could not be
read. -/
def verdict? : Except BrokerError Status → Option (Except BrokerError Unit)
  | .error e => some (.error e)
  | .ok status => status.outcome?

/-- A wait from round to round. It is stopped in a pause, ends after a poll, or goes on after a poll
that saw the operation still running. -/
inductive Course (session : Session) (id : String) :
    Waiting → List (Exchange machine) → Except BrokerError Unit → Prop where
  | stopped {waiting : Waiting} {interrupted : Bool} {reported : List (Exchange machine)}
      {outcome : Except BrokerError Unit} (cause : interrupted = true ∨ waiting.next? = none)
      (report : Reports session id (.ok ()) reported outcome) :
      Course session id waiting (⟨.pause waiting.pause, interrupted⟩ :: reported) outcome
  | ended {waiting next : Waiting} {polled reported : List (Exchange machine)}
      {answer : Except BrokerError Status} {waited outcome : Except BrokerError Unit}
      (patient : waiting.next? = some next) (poll : Ends (session.poll id) polled answer)
      (verdict : verdict? answer = some waited)
      (report : Reports session id waited reported outcome) :
      Course session id waiting (⟨.pause waiting.pause, false⟩ :: (polled ++ reported)) outcome
  | goesOn {waiting next : Waiting} {polled later : List (Exchange machine)} {status : Status}
      {outcome : Except BrokerError Unit} (patient : waiting.next? = some next)
      (poll : Ends (session.poll id) polled (.ok status)) (running : status.isDone = false)
      (rest : Course session id next later outcome) :
      Course session id waiting (⟨.pause waiting.pause, false⟩ :: (polled ++ later)) outcome

theorem ends_pause (duration : Nat) (interrupted : Bool) :
    Ends (ask (.pause duration)) [⟨.pause duration, interrupted⟩] (.ok interrupted) :=
  .ask (.refl _)

/-- How a wait stands after a poll. -/
def stageAfter (next : Waiting) (answer : Except BrokerError Status) : Waiting.Stage :=
  (verdict? answer).elim (.goesOn next) .over

/-- A round stops in its pause, or makes a poll, the answer to which decides whether it goes on. -/
theorem ends_stage_iff (wait : Wait) {stage : Except BrokerError Waiting.Stage} :
    Ends (wait.waiting.round (fun duration => ask (.pause duration)) wait.poll) log stage ↔
      (∃ interrupted, (interrupted = true ∨ wait.waiting.next? = none) ∧
          log = [⟨.pause wait.waiting.pause, interrupted⟩] ∧ stage = .ok (.over (.ok ()))) ∨
        ∃ next polled answer, wait.waiting.next? = some next ∧
          log = ⟨.pause wait.waiting.pause, false⟩ :: polled ∧
          Ends (wait.session.poll wait.id) polled answer ∧ stage = .ok (stageAfter next answer) := by
  have hStage (next : Waiting) (answer : Except BrokerError Status) {log stage} :
      Ends (match answer with
        | .error e => pure (.over (.error e))
        | .ok status => pure (status.outcome?.elim (.goesOn next) .over)) log stage ↔
        log = [] ∧ stage = .ok (stageAfter next answer) := by
    cases answer <;> exact ends_pure_iff
  constructor
  · intro run
    rcases ends_bind_iff.mp run with ⟨e, hFails, -⟩ | ⟨pause, rest, interrupted, rfl, hPause, hRest⟩
    · obtain ⟨_, hValue⟩ := succeeds_ask _ _ _ hFails
      cases hValue
    obtain ⟨_, rfl, hReply⟩ := ends_ask_iff.mp hPause
    cases hReply
    cases interrupted with
    | true =>
        obtain ⟨rfl, rfl⟩ := ends_pure_iff.mp hRest
        exact .inl ⟨true, .inl rfl, rfl, rfl⟩
    | false =>
        cases hNext : wait.waiting.next? with
        | none =>
            simp only [hNext, Bool.false_eq_true, if_false] at hRest
            obtain ⟨rfl, rfl⟩ := ends_pure_iff.mp hRest
            exact .inl ⟨false, .inr rfl, rfl, rfl⟩
        | some next =>
            simp only [hNext, Bool.false_eq_true, if_false] at hRest
            rcases ends_bind_iff.mp hRest with
              ⟨e, hFails, -⟩ | ⟨polled, last, answer, rfl, hPoll, hLast⟩
            · obtain ⟨_, -, hOk⟩ := ends_tried_iff.mp hFails
              cases hOk
            · obtain ⟨_, hPolled, hOk⟩ := ends_tried_iff.mp hPoll
              cases hOk
              obtain ⟨rfl, rfl⟩ := (hStage next answer).mp hLast
              rw [List.append_nil]
              exact .inr ⟨next, polled, answer, rfl, rfl, hPolled, rfl⟩
  · rintro (⟨interrupted, cause, rfl, rfl⟩ | ⟨next, polled, answer, hNext, rfl, hPoll, rfl⟩)
    · refine (ends_pause _ interrupted).bind ?_
      cases interrupted with
      | true => exact .refl _
      | false =>
          simp only [cause.resolve_left Bool.false_ne_true]
          exact .refl _
    · refine (ends_pause _ false).bind ?_
      simp only [hNext]
      rw [← List.append_nil polled]
      exact (ends_tried_iff.mpr ⟨answer, hPoll, rfl⟩).bind ((hStage next answer).mpr ⟨rfl, rfl⟩)

/-- One round of a wait is the last one or leads to the next one. -/
theorem ends_round {wait : Wait} {result : Except BrokerError Progress}
    (run : Ends wait.round log result) :
    (∃ outcome, Course wait.session wait.id wait.waiting log outcome ∧
        result = outcome.map fun _ => .over) ∨
      ∃ next polled status, wait.waiting.next? = some next ∧
        log = ⟨.pause wait.waiting.pause, false⟩ :: polled ∧
        Ends (wait.session.poll wait.id) polled (.ok status) ∧ status.isDone = false ∧
        result = .ok (.waits { wait with waiting := next }) := by
  rcases ends_bind_iff.mp run with ⟨e, hFails, -⟩ | ⟨before, reported, stage, rfl, hStage, hRest⟩
  · rcases (ends_stage_iff _).mp hFails with ⟨_, _, _, hOk⟩ | ⟨_, _, _, _, _, _, hOk⟩ <;> cases hOk
  rcases (ends_stage_iff _).mp hStage with
    ⟨interrupted, cause, rfl, hOver⟩ | ⟨next, polled, answer, hNext, rfl, hPoll, hAfter⟩
  · cases hOver
    obtain ⟨outcome, hReport, rfl⟩ := ends_finish hRest
    exact .inl ⟨outcome, .stopped cause hReport, rfl⟩
  · obtain rfl := Except.ok.inj hAfter
    cases hVerdict : verdict? answer with
    | some waited =>
        simp only [stageAfter, hVerdict, Option.elim_some] at hRest
        obtain ⟨outcome, hReport, rfl⟩ := ends_finish hRest
        exact .inl ⟨outcome, .ended hNext hPoll hVerdict hReport, rfl⟩
    | none =>
        simp only [stageAfter, hVerdict, Option.elim_none] at hRest
        obtain ⟨rfl, rfl⟩ := ends_pure_iff.mp hRest
        cases answer with
        | error e => cases hVerdict
        | ok status =>
            have hRunning : status.isDone = false := by
              simpa [verdict?, Status.outcome?] using hVerdict
            rw [List.append_nil]
            exact .inr ⟨next, polled, status, hNext, rfl, hPoll, hRunning, rfl⟩

/-- A wait that ends has a course. -/
theorem course_of_completes {wait : Wait} {outcome : Except BrokerError Unit}
    (run : Completes wait.round log outcome) :
    Course wait.session wait.id wait.waiting log outcome := by
  generalize hWork : wait.round = work at run
  induction run generalizing wait with
  | ended run =>
      subst hWork
      rcases ends_round run with ⟨outcome, course, hOver⟩ | ⟨_, _, _, _, _, _, _, hOn⟩
      · cases outcome with
        | ok _ => exact course
        | error _ => cases hOver
      · cases hOn
  | failed run =>
      subst hWork
      rcases ends_round run with ⟨outcome, course, hFails⟩ | ⟨_, _, _, _, _, _, _, hOn⟩
      · cases outcome with
        | ok _ => cases hFails
        | error _ =>
            cases hFails
            exact course
      · cases hOn
  | goesOn run _ ih =>
      subst hWork
      rcases ends_round run with
        ⟨outcome, _, hOver⟩ | ⟨next, polled, status, hNext, rfl, hPoll, running, hOn⟩
      · cases outcome <;> cases hOver
      · cases hOn
        exact .goesOn hNext hPoll running (ih rfl)

theorem ends_finish_of_reports {wait : Wait} {waited outcome : Except BrokerError Unit}
    (report : Reports wait.session wait.id waited log outcome) :
    Ends (wait.finish waited) log (outcome.map fun _ => .over) := by
  cases report with
  | unread fails =>
      have hStatus : Ends (wait.session.status wait.id) log (.error _) :=
        ends_bind_iff.mpr (.inl ⟨_, fails, rfl⟩)
      exact ends_bind_iff.mpr (.inl ⟨_, hStatus, rfl⟩)
  | @tells read shown status reads prints =>
      have hStatus : Ends (wait.session.status wait.id) (read ++ shown) (.ok ()) :=
        reads.bind prints
      have hLast : Ends (ofExcept waited >>= fun _ => pure Progress.over) []
          (waited.map fun _ => .over) := by
        cases waited <;> exact .refl _
      rw [← List.append_nil (read ++ shown)]
      exact hStatus.bind hLast

/-- Every course can be taken. -/
theorem completes_of_course {waiting : Waiting} {outcome : Except BrokerError Unit}
    (course : Course session id waiting log outcome) :
    Completes (Wait.round { session, id, waiting }) log outcome := by
  induction course with
  | @stopped waiting interrupted reported outcome cause report =>
      have hStage := (ends_stage_iff { session, id, waiting }).mpr
        (.inl ⟨interrupted, cause, rfl, rfl⟩)
      exact .of_ends (hStage.bind (ends_finish_of_reports report))
  | @ended waiting next polled reported answer waited outcome patient poll verdict report =>
      have hStage := (ends_stage_iff { session, id, waiting }).mpr
        (.inr ⟨next, polled, answer, patient, rfl, poll, rfl⟩)
      rw [stageAfter, verdict] at hStage
      exact .of_ends (hStage.bind (ends_finish_of_reports report))
  | @goesOn waiting next polled later status outcome patient poll running rest ih =>
      have hStage := (ends_stage_iff { session, id, waiting }).mpr
        (.inr ⟨next, polled, .ok status, patient, rfl, poll, rfl⟩)
      have hVerdict : verdict? (.ok status) = none := by
        simp [verdict?, Status.outcome?, running]
      rw [stageAfter, hVerdict] at hStage
      have hRound : Ends (Wait.round { session, id, waiting })
          (⟨.pause waiting.pause, false⟩ :: polled)
          (.ok (.waits { session, id, waiting := next })) := by
        rw [← List.append_nil polled]
        exact hStage.bind (.refl _)
      exact .goesOn hRound ih

/-! ### Why a wait ends -/

theorem not_interrupted_poll (run : Ends (session.poll id) log answer) : ¬Interrupted log :=
  not_interrupted fun exchange hExchange =>
    (run.asks (makes_poll session id) exchange hExchange).ne_pause

theorem paused_poll (run : Ends (session.poll id) log answer) : paused log = 0 :=
  paused_eq_zero fun exchange hExchange =>
    (run.asks (makes_poll session id) exchange hExchange).ne_pause

theorem printed_poll (run : Ends (session.poll id) log answer) : printed log = [] :=
  printed_of_still (run.asks (makes_poll session id))

/-- A poll has ended the wait: it saw the operation done, or could not read the record. What
follows is the report. -/
def PollEnded (session : Session) (id : String) (log : List (Exchange machine))
    (outcome : Except BrokerError Unit) : Prop :=
  ∃ before duration polled reported answer waited,
    log = before ++ ⟨.pause duration, false⟩ :: (polled ++ reported) ∧
      Ends (session.poll id) polled answer ∧
      (∀ status, answer = .ok status → status.isDone = true) ∧ verdict? answer = some waited ∧
      Reports session id waited reported outcome

theorem PollEnded.after {outcome : Except BrokerError Unit} (h : PollEnded session id log outcome)
    (earlier : List (Exchange machine)) : PollEnded session id (earlier ++ log) outcome := by
  obtain ⟨before, duration, polled, reported, answer, waited, rfl, hEnd⟩ := h
  exact ⟨earlier ++ before, duration, polled, reported, answer, waited, by simp, hEnd⟩

theorem Course.pollEnded {waiting : Waiting} {outcome : Except BrokerError Unit}
    (course : Course session id waiting log outcome) (endless : waiting.patience = none)
    (undisturbed : ¬Interrupted log) : PollEnded session id log outcome := by
  have hNext {waiting : Waiting} (h : waiting.patience = none) : waiting.next? = some waiting := by
    rw [Waiting.next?, h]
  induction course with
  | stopped cause report =>
      rcases cause with rfl | hNone
      · exact (undisturbed ⟨_, List.mem_cons_self⟩).elim
      · cases hNone.symm.trans (hNext endless)
  | @ended _ _ polled reported answer waited _ _ poll verdict report =>
      refine ⟨[], _, polled, reported, answer, waited, rfl, poll, ?_, verdict, report⟩
      rintro status rfl
      by_contra hRunning
      simp [verdict?, Status.outcome?, hRunning] at verdict
  | @goesOn _ next polled later status _ patient poll running rest ih =>
      obtain rfl := Option.some.inj ((hNext endless).symm.trans patient)
      have hRest : ¬Interrupted later := fun ⟨duration, hMember⟩ =>
        undisturbed ⟨duration, List.mem_cons_of_mem _ (List.mem_append_right _ hMember)⟩
      exact (ih endless hRest).after (_ :: polled)

end ServiceBroker.Console
