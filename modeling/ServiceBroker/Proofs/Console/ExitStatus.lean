import ServiceBroker.Proofs.Broker.Exclusion
import ServiceBroker.Proofs.Console.Wait
import ServiceBroker.Store.Bucket

/-! How what a wait prints goes together with how it ends, while the outcome of the operation is
recorded at some moment. The wait ends as its last poll says, and prints what is read after that. -/

namespace ServiceBroker.Console

open DirectoryStore

variable {session : Session} {id : String} {log rest : List (Exchange machine)}
  {answer : Except BrokerError Status} {path : String} {place : BucketPlace}

/-! ### The record while the wait goes on -/

/-- What was answered is what the folder or the bucket of the record answers while the record is
found in it as it is. -/
def Shows (id : String) (found : Except StoreError Record) : Exchange machine → Prop
  | ⟨.folder _ step, reply⟩ =>
    ∃ place, recordIn place id = found ∧ reply = (Folder.answer step place).1
  | ⟨.bucket place call, answer⟩ =>
    let store := bucketStore place.keyPrefix
    ∃ bucket, (store.answer (.get id) bucket).1 = found ∧ answer = (store.answer call bucket).1
  | _ => True

/-- The record is found as it was, and from some moment on as it became. -/
def Watched (id : String) (old new : Except StoreError Record) (log : List (Exchange machine)) :
    Prop :=
  ∃ before after, log = before ++ after ∧ (∀ exchange ∈ before, Shows id old exchange) ∧
    ∀ exchange ∈ after, Shows id new exchange

/-- Nothing is written to the record but, if an operation is running, how that ends. -/
def Recorded (old new : Except StoreError Record) : Prop :=
  new = old ∨ ∃ record failure workspace now, old = .ok record ∧ record.state.isDone = false ∧
    new = .ok (record.finished failure workspace now)

variable {old new : Except StoreError Record}

theorem watched_of_new (h : ∀ exchange ∈ log, Shows id new exchange) : Watched id old new log :=
  ⟨[], log, rfl, by simp, h⟩

theorem Watched.cons_cases {exchange : Exchange machine}
    (h : Watched id old new (exchange :: log)) :
    (Shows id old exchange ∧ Watched id old new log) ∨
      (Shows id new exchange ∧ ∀ other ∈ log, Shows id new other) := by
  obtain ⟨before, after, hLog, hBefore, hAfter⟩ := h
  cases before with
  | nil =>
      obtain rfl : exchange :: log = after := hLog
      exact .inr (List.forall_mem_cons.mp hAfter)
  | cons first before =>
      obtain ⟨rfl, rfl⟩ := List.cons.inj hLog
      obtain ⟨hFirst, hBefore⟩ := List.forall_mem_cons.mp hBefore
      exact .inl ⟨hFirst, before, after, rfl, hBefore, hAfter⟩

theorem Watched.tail {exchange : Exchange machine} (h : Watched id old new (exchange :: log)) :
    Watched id old new log :=
  h.cons_cases.elim (·.2) fun hNew => watched_of_new hNew.2

theorem Watched.of_append {first : List (Exchange machine)}
    (h : Watched id old new (first ++ log)) : Watched id old new log := by
  induction first with
  | nil => exact h
  | cons exchange first ih => exact ih (Watched.tail h)

section Steps

variable {found : Except StoreError Record} {step : FolderStep} {reply : step.Reply}

/-- No file is found exactly while there is no record. -/
theorem contains_of_shows {present : Bool}
    (h : Shows id found ⟨.folder path (.contains (RecordName.file id)), present⟩) :
    present = false ↔ found = .error (.notFound id) := by
  obtain ⟨place, rfl, hPresent⟩ := h
  rw [recordIn_eq, ← hPresent]
  cases present with
  | false => simp
  | true => simpa using reading_ne_notFound _ id

/-- The file of a record that is found reads as the record. -/
theorem reading_of_shows {content : Except String Bytes}
    (h : Shows id found ⟨.folder path (.read (RecordName.file id)), content⟩)
    (present : found ≠ .error (.notFound id)) : reading content = found := by
  obtain ⟨place, hFound, rfl⟩ := h
  rw [recordIn_eq] at hFound
  split at hFound
  · exact hFound
  · exact (present hFound.symm).elim

/-- A bucket answers with the record as it is found. -/
theorem eq_of_shows {place : BucketPlace} {answer : Except StoreError Record}
    (h : Shows id found ⟨.bucket place (.get id), answer⟩) : answer = found := by
  obtain ⟨bucket, rfl, rfl⟩ := h
  rfl

end Steps

/-- A record does not vanish. -/
theorem Recorded.ne_notFound (h : Recorded old new) (present : old ≠ .error (.notFound id)) :
    new ≠ .error (.notFound id) := by
  rcases h with rfl | ⟨record, failure, workspace, now, -, -, rfl⟩
  · exact present
  · simp

theorem Watched.poll_of_folder (recorded : Recorded old new) (hFolder : session.records = .folder path)
    (run : Ends (session.poll id) log answer) (h : Watched id old new (log ++ rest)) :
    (answer = told old ∧ Watched id old new rest) ∨
      (answer = told new ∧ ∀ exchange ∈ rest, Shows id new exchange) := by
  rcases (ends_poll_iff hFolder).mp run with ⟨rfl, rfl⟩ | ⟨content, rfl, rfl⟩
  · rcases h.cons_cases with ⟨hOld, hRest⟩ | ⟨hNew, hRest⟩
    · exact .inl ⟨by rw [(contains_of_shows hOld).mp rfl], hRest⟩
    · exact .inr ⟨by rw [(contains_of_shows hNew).mp rfl], hRest⟩
  · have hPresent {found : Except StoreError Record}
        (hShows : Shows id found ⟨.folder path (.contains (RecordName.file id)), true⟩) :
        found ≠ .error (.notFound id) :=
      fun hNone => by cases (contains_of_shows hShows).mpr hNone
    rcases h.cons_cases with ⟨hOld, hRest⟩ | ⟨hNew, hRest⟩
    · rcases Watched.cons_cases hRest with ⟨hRead, hLater⟩ | ⟨hRead, hLater⟩
      · exact .inl ⟨by rw [reading_of_shows hRead (hPresent hOld)], hLater⟩
      · have hStays := recorded.ne_notFound (hPresent hOld)
        exact .inr ⟨by rw [reading_of_shows hRead hStays], hLater⟩
    · obtain ⟨hRead, hLater⟩ := List.forall_mem_cons.mp hRest
      exact .inr ⟨by rw [reading_of_shows hRead (hPresent hNew)], hLater⟩

theorem Watched.poll_of_bucket (hBucket : session.records = .bucket place)
    (run : Ends (session.poll id) log answer) (h : Watched id old new (log ++ rest)) :
    (answer = told old ∧ Watched id old new rest) ∨
      (answer = told new ∧ ∀ exchange ∈ rest, Shows id new exchange) := by
  obtain ⟨found, rfl, rfl⟩ := (ends_poll_of_bucket_iff hBucket).mp run
  rcases h.cons_cases with ⟨hOld, hRest⟩ | ⟨hNew, hRest⟩
  · exact .inl ⟨by rw [eq_of_shows hOld], hRest⟩
  · exact .inr ⟨by rw [eq_of_shows hNew], hRest⟩

/-- Wherever there are records, a poll tells of the record as it was or as it became, and of the
latter from then on. -/
theorem Watched.poll (recorded : Recorded old new) (kept : session.records ≠ .none)
    (run : Ends (session.poll id) log answer) (h : Watched id old new (log ++ rest)) :
    (answer = told old ∧ Watched id old new rest) ∨
      (answer = told new ∧ ∀ exchange ∈ rest, Shows id new exchange) := by
  cases hRecords : session.records with
  | folder path => exact h.poll_of_folder recorded hRecords run
  | bucket place => exact h.poll_of_bucket hRecords run
  | none => exact (kept hRecords).elim

/-! ### What is printed, and the outcome -/

/-- The wait was stopped: by the operator, or since it had lasted as long as it may. -/
def Stopped (patience : Option Nat) (log : List (Exchange machine)) : Prop :=
  Interrupted log ∨ patience = some (paused log)

/-- How a wait ends while nobody else writes the record. -/
inductive Ended (session : Session) (id : String) (patience : Option Nat)
    (old new : Except StoreError Record) (log : List (Exchange machine)) :
    Except BrokerError Unit → Prop where
  /-- The record cannot be read at the end: nothing is printed, and this is a failure. -/
  | unread {before read : List (Exchange machine)} {e : BrokerError} (split : log = before ++ read)
      (fails : Ends (session.poll id) read (.error e)) (silent : printed log = []) :
      Ended session id patience old new log (.error e)
  /-- The wait was stopped: this is a success, whatever is printed. -/
  | stopped {style : ReportStyle} {status : Status} (stopped : Stopped patience log)
      (seen : told old = .ok status ∨ told new = .ok status)
      (prints : printed log = [Report.status style id status]) :
      Ended session id patience old new log (.ok ())
  /-- The operation was done: the outcome is the one that is printed. -/
  | finished {style : ReportStyle} {status : Status} (unstopped : ¬Stopped patience log)
      (seen : told old = .ok status ∨ told new = .ok status) (done : status.isDone = true)
      (prints : printed log = [Report.status style id status]) :
      Ended session id patience old new log (status.failure.elim (.ok ()) .error)

theorem paused_pause (duration : Nat) (interrupted : Bool) (log : List (Exchange machine)) :
    paused (⟨.pause duration, interrupted⟩ :: log) = duration + paused log :=
  rfl

theorem interrupted_cons_iff {duration : Nat} {interrupted : Bool} :
    Interrupted (⟨.pause duration, interrupted⟩ :: log) ↔ interrupted = true ∨ Interrupted log := by
  constructor
  · rintro ⟨other, hMember⟩
    rcases List.mem_cons.mp hMember with hFirst | hLater
    · cases hFirst
      exact .inl rfl
    · exact .inr ⟨other, hLater⟩
  · rintro (rfl | ⟨other, hLater⟩)
    · exact ⟨duration, List.mem_cons_self⟩
    · exact ⟨other, List.mem_cons_of_mem _ hLater⟩

/-- Whether a wait is stopped later does not depend on a pause and a poll before. -/
theorem stopped_after_poll {waiting next : Waiting} {polled : List (Exchange machine)}
    (patient : waiting.next? = some next) (poll : Ends (session.poll id) polled answer)
    (log : List (Exchange machine)) :
    Stopped waiting.patience (⟨.pause waiting.pause, false⟩ :: (polled ++ log)) ↔
      Stopped next.patience log := by
  have hTime : waiting.patience = some (waiting.pause + paused log) ↔
      next.patience = some (paused log) := by
    obtain ⟨interval, patience⟩ := waiting
    cases patience with
    | none =>
        obtain rfl := Option.some.inj patient
        simp
    | some left =>
        simp only [Waiting.next?] at patient
        split at patient
        · cases patient
        · next hLonger =>
            obtain rfl := Option.some.inj patient
            simp only [Waiting.pause, Option.elim_some, Option.some.injEq]
            omega
  rw [Stopped, Stopped, interrupted_cons_iff, interrupted_append, paused_pause, paused_append,
    paused_poll poll, Nat.zero_add, hTime]
  simp [not_interrupted_poll poll]

theorem patience_of_next?_eq_none {waiting : Waiting} (h : waiting.next? = none) :
    waiting.patience = some waiting.pause := by
  obtain ⟨interval, patience⟩ := waiting
  cases patience with
  | none => cases h
  | some left =>
      simp only [Waiting.next?] at h
      split at h
      · next hShorter => simp [Waiting.pause, hShorter]
      · cases h

theorem patience_ne_zero {waiting next : Waiting} (h : waiting.next? = some next) :
    next.patience ≠ some 0 := by
  obtain ⟨interval, patience⟩ := waiting
  cases patience with
  | none =>
      obtain rfl := Option.some.inj h
      simp
  | some left =>
      simp only [Waiting.next?] at h
      split at h
      · cases h
      · next hLonger =>
          obtain rfl := Option.some.inj h
          simp only [ne_eq, Option.some.injEq]
          omega

/-- A pause and a poll that belong to a wait that goes on. -/
theorem Ended.after {waiting next : Waiting} {polled : List (Exchange machine)}
    {outcome : Except BrokerError Unit} (patient : waiting.next? = some next)
    (poll : Ends (session.poll id) polled answer)
    (h : Ended session id next.patience old new log outcome) :
    Ended session id waiting.patience old new
      (⟨.pause waiting.pause, false⟩ :: (polled ++ log)) outcome := by
  have hPrinted : printed (⟨.pause waiting.pause, false⟩ :: (polled ++ log)) = printed log := by
    change printed (polled ++ log) = _
    rw [printed_append, printed_poll poll, List.nil_append]
  have hStopped := stopped_after_poll patient poll log
  cases h with
  | unread split fails silent =>
      subst split
      exact .unread (List.append_assoc (_ :: polled) _ _).symm fails (hPrinted.trans silent)
  | stopped stopped seen prints =>
      exact .stopped (hStopped.mpr stopped) seen (hPrinted.trans prints)
  | finished unstopped seen done prints =>
      exact .finished (fun h => unstopped (hStopped.mp h)) seen done (hPrinted.trans prints)

/-- A report lets no time pass. -/
theorem Reports.ne_pause {waited outcome : Except BrokerError Unit}
    (report : Reports session id waited log outcome) :
    ∀ exchange ∈ log, ∀ duration, exchange.request ≠ .pause duration := by
  cases report with
  | unread fails =>
      exact fun exchange hExchange =>
        (fails.asks (makes_poll session id) exchange hExchange).ne_pause
  | tells reads prints =>
      intro exchange hExchange
      rcases List.mem_append.mp hExchange with hRead | hShown
      · exact (reads.asks (makes_poll session id) exchange hRead).ne_pause
      · exact ((ends_print prints).2.2 exchange hShown).ne_pause

/-- A report tells of the record as it was or as it became. -/
theorem Reports.cases_of_watched {waited outcome : Except BrokerError Unit}
    (recorded : Recorded old new) (report : Reports session id waited log outcome)
    (watched : Watched id old new log) :
    (∃ e, outcome = .error e ∧ Ends (session.poll id) log (.error e)) ∨
      ∃ style status, outcome = waited ∧ printed log = [Report.status style id status] ∧
        (told old = .ok status ∨ told new = .ok status) := by
  cases report with
  | unread fails => exact .inl ⟨_, rfl, fails⟩
  | @tells read shown status reads prints =>
      obtain ⟨-, ⟨style, hPrinted⟩, -⟩ := ends_print prints
      refine .inr ⟨style, status, rfl, ?_, ?_⟩
      · rw [printed_append, printed_poll reads, hPrinted, List.nil_append]
      · have hKept : session.records ≠ .none := fun hNone => by
          cases ends_poll_of_none hNone reads
        rcases watched.poll recorded hKept reads with ⟨hOld, -⟩ | ⟨hNew, -⟩
        · exact .inl hOld.symm
        · exact .inr hNew.symm

/-- Where there are no records, nothing is reported. -/
theorem Reports.unread_of_none {waited outcome : Except BrokerError Unit} {patience : Option Nat}
    (report : Reports session id waited log outcome) (hNone : session.records = .none) :
    Ended session id patience old new log outcome := by
  cases report with
  | unread fails => exact .unread (List.nil_append log).symm fails (printed_poll fails)
  | tells reads prints => cases ends_poll_of_none hNone reads

/-- A poll that ends a wait tells what is reported then. -/
theorem told_of_verdict {waited : Except BrokerError Unit} {status : Status}
    (recorded : Recorded old new) (verdict : verdict? (told old) = some waited)
    (seen : told old = .ok status ∨ told new = .ok status) : told old = .ok status := by
  rcases seen with hOld | hNew
  · exact hOld
  · rcases recorded with rfl | ⟨record, failure, workspace, now, rfl, hRunning, -⟩
    · exact hNew
    · have hNone : verdict? (told (.ok record)) = none := by
        change record.status.outcome? = none
        simp [Status.outcome?, Record.status, hRunning]
      cases hNone.symm.trans verdict

theorem outcome_of_verdict {waited : Except BrokerError Unit} {status : Status}
    (verdict : verdict? (.ok status) = some waited) :
    status.isDone = true ∧ waited = status.failure.elim (.ok ()) .error := by
  simp only [verdict?, Status.outcome?] at verdict
  split at verdict
  · next hDone => exact ⟨hDone, (Option.some.inj verdict).symm⟩
  · cases verdict

/-- After a poll that ends the wait, the outcome is the one that is reported. -/
theorem Reports.ended {polled : Except StoreError Record} {patience : Option Nat}
    {waited outcome : Except BrokerError Unit} (either : polled = old ∨ polled = new)
    (recorded : Recorded polled new) (verdict : verdict? (told polled) = some waited)
    (report : Reports session id waited log outcome) (watched : Watched id polled new log)
    (unstopped : ¬Stopped patience log) : Ended session id patience old new log outcome := by
  rcases report.cases_of_watched recorded watched with
    ⟨e, rfl, hFails⟩ | ⟨style, status, rfl, hPrints, hSeen⟩
  · exact .unread (List.nil_append log).symm hFails (printed_poll hFails)
  · have hTold := told_of_verdict recorded verdict hSeen
    rw [hTold] at verdict
    obtain ⟨hDone, rfl⟩ := outcome_of_verdict verdict
    rcases either with rfl | rfl
    · exact .finished unstopped (.inl hTold) hDone hPrints
    · exact .finished unstopped (.inr hTold) hDone hPrints

/-- While nobody else writes the record, a wait ends in one of these ways. -/
theorem ended_of_course {waiting : Waiting} {outcome : Except BrokerError Unit}
    (recorded : Recorded old new) (course : Course session id waiting log outcome)
    (watched : Watched id old new log) :
    Ended session id waiting.patience old new log outcome := by
  induction course with
  | @stopped waiting interrupted reported outcome cause report =>
      have hStopped : Stopped waiting.patience
          (⟨.pause waiting.pause, interrupted⟩ :: reported) := by
        rcases cause with rfl | hNone
        · exact .inl ⟨_, List.mem_cons_self⟩
        · refine .inr ?_
          rw [paused_pause, paused_eq_zero report.ne_pause]
          exact patience_of_next?_eq_none hNone
      rcases report.cases_of_watched recorded watched.tail with
        ⟨e, rfl, hFails⟩ | ⟨style, status, rfl, hPrints, hSeen⟩
      · have hSilent := printed_poll hFails
        exact .unread (List.singleton_append ..).symm hFails hSilent
      · exact .stopped hStopped hSeen hPrints
  | @ended waiting next polled reported answer waited outcome patient poll verdict report =>
      have hUnstopped : ¬Stopped next.patience reported := by
        rintro (hInterrupted | hPatience)
        · exact not_interrupted report.ne_pause hInterrupted
        · rw [paused_eq_zero report.ne_pause] at hPatience
          exact patience_ne_zero patient hPatience
      refine .after patient poll ?_
      by_cases hNone : session.records = .none
      · exact report.unread_of_none hNone
      · rcases watched.tail.poll recorded hNone poll with ⟨rfl, hWatched⟩ | ⟨rfl, hNew⟩
        · exact report.ended (.inl rfl) recorded verdict hWatched hUnstopped
        · exact report.ended (.inr rfl) (.inl rfl) verdict (watched_of_new hNew) hUnstopped
  | goesOn patient poll running rest ih =>
      refine .after patient poll (ih ?_)
      exact watched.tail.of_append

/-! ### The command -/

/-- A wait that has begun, and what is known of its end. -/
structure WaitEnds (session : Session) (id : String) (timeout : Option Nat)
    (log : List (Exchange machine)) (outcome : Except BrokerError Unit) : Prop where
  /-- Without timeout and interruption the last poll has ended it. -/
  cause : timeout = none → ¬Interrupted log → PollEnded session id log outcome
  /-- Whenever the outcome of the operation is recorded, if nobody else writes the record. -/
  outcome {old new : Except StoreError Record} : Recorded old new → Watched id old new log →
    Ended session id (timeout.map (· * 1000)) old new log outcome

theorem waitEnds {timeout : Option Nat} {outcome : Except BrokerError Unit}
    (run : Completes (Wait.start session id timeout).round log outcome) :
    WaitEnds session id timeout log outcome := by
  have course := course_of_completes run
  refine ⟨fun endless undisturbed => ?_, fun recorded watched => ?_⟩
  · subst endless
    exact course.pollEnded rfl undisturbed
  · exact ended_of_course recorded course watched

/-! ### Setting up prints nothing and lets no time pass -/

theorem still_valueOf (loaded : Variables) (name : String) :
    Makes (fun request => request.IsStill) (valueOf loaded name) :=
  makes_valueOf (fun _ => trivial) loaded name

theorem still_configPath (named : Option String) :
    Makes (fun request => request.IsStill) (configPath named) := by
  cases named with
  | some path => trivial
  | none =>
      refine (makes_findM? (fun _ => makes_ask trivial) _).bind fun found => ?_
      cases found <;> trivial

theorem still_assign (loaded : Variables) (assignment : EnvironmentFile.Assignment) :
    Makes (fun request => request.IsStill) (assign loaded assignment) := by
  refine (makes_mapM (fun piece => ?_) _).bind fun value =>
    (still_valueOf loaded assignment.name).bind fun found => ?_
  · cases piece with
    | literal c => trivial
    | «variable» name => exact (still_valueOf loaded name).bind fun _ => trivial
  · cases found <;> trivial

theorem still_loadVariables (path : String) :
    Makes (fun request => request.IsStill) (loadVariables path) := by
  refine (makes_ask trivial).bind fun present => ?_
  cases present with
  | false => trivial
  | true =>
      refine (makes_ask trivial).bind fun content => ?_
      cases content with
      | error reason => trivial
      | ok bytes => exact (makes_orFail _).bind fun _ => makes_foldlM still_assign _ _

theorem still_readConfig (path : String) :
    Makes (fun request => request.IsStill) (readConfig path) := by
  refine (makes_ask trivial).bind fun present => ?_
  cases present with
  | false => trivial
  | true =>
      refine (makes_ask trivial).bind fun content => ?_
      cases content with
      | error reason => trivial
      | ok bytes => exact makes_orFail _

theorem still_setUp (named : Option String) :
    Makes (fun request => request.IsStill) (setUp named) :=
  (still_configPath named).bind fun _ => (still_loadVariables _).bind fun loaded =>
    (still_readConfig _).bind fun _ =>
      (makes_mapM (fun name => (still_valueOf loaded name).bind fun _ => makes_pure _) _).bind
        fun _ => (makes_orFail _).bind fun _ => trivial

theorem still_start (named : Option String) (form : ReportForm) :
    Makes (fun request => request.IsStill) (Session.start named form) := by
  refine (still_setUp named).bind fun setup => (makes_orFail _).bind fun _ =>
    Makes.bind ?_ fun _ => trivial
  rw [recordsOf]
  cases setup.config.store.backend with
  | directory | memory => trivial
  | bucket => cases setup.config.store.bucket <;> trivial

theorem ends_begin_wait_iff {config : Option String} {form : ReportForm} {timeout : Option Nat}
    {result : Except BrokerError Progress} :
    Ends (begin { config, form, inquiry := .wait id timeout }) log result ↔
      (∃ e, Ends (Session.start config form) log (.error e) ∧ result = .error e) ∨
        ∃ session, Ends (Session.start config form) log (.ok session) ∧
          result = .ok (.waits (.start session id timeout)) := by
  refine ends_bind_iff.trans (or_congr_right ⟨?_, ?_⟩)
  · rintro ⟨started, last, session, rfl, hStarted, hLast⟩
    obtain ⟨rfl, rfl⟩ := ends_pure_iff.mp hLast
    rw [List.append_nil]
    exact ⟨session, hStarted, rfl⟩
  · rintro ⟨session, hStarted, rfl⟩
    exact ⟨log, [], session, by simp, hStarted, .refl _⟩

/-- The command fails before it waits, or it waits. -/
theorem completes_begin_wait_iff {config : Option String} {form : ReportForm} {timeout : Option Nat}
    {outcome : Except BrokerError Unit} :
    Completes (begin { config, form, inquiry := .wait id timeout }) log outcome ↔
      (∃ e, Ends (Session.start config form) log (.error e) ∧ outcome = .error e) ∨
        ∃ session started rest, log = started ++ rest ∧
          Ends (Session.start config form) started (.ok session) ∧
          Completes (Wait.start session id timeout).round rest outcome := by
  constructor
  · intro run
    cases run with
    | ended run =>
        rcases ends_begin_wait_iff.mp run with ⟨_, _, hOver⟩ | ⟨_, _, hOver⟩ <;> cases hOver
    | failed run =>
        rcases ends_begin_wait_iff.mp run with ⟨e, hFails, hError⟩ | ⟨_, _, hOn⟩
        · cases hError
          exact .inl ⟨_, hFails, rfl⟩
        · cases hOn
    | goesOn run rest =>
        rcases ends_begin_wait_iff.mp run with ⟨_, _, hOn⟩ | ⟨session, hStarted, hOn⟩
        · cases hOn
        · cases hOn
          exact .inr ⟨session, _, _, rfl, hStarted, rest⟩
  · rintro (⟨e, hFails, rfl⟩ | ⟨session, started, rest, rfl, hStarted, hWait⟩)
    · exact .failed (ends_begin_wait_iff.mpr (.inl ⟨e, hFails, rfl⟩))
    · exact .goesOn (ends_begin_wait_iff.mpr (.inr ⟨session, hStarted, rfl⟩)) hWait

/-- What is known of the end of the command. -/
inductive WaitCommandEnds (config : Option String) (form : ReportForm) (id : String)
    (timeout : Option Nat) (log : List (Exchange machine)) (outcome : Except BrokerError Unit) :
    Prop where
  /-- It fails before it waits, and prints nothing. -/
  | refused {e : BrokerError} (fails : Ends (Session.start config form) log (.error e))
      (failure : outcome = .error e) (silent : printed log = [])
  /-- It waits; nothing is printed before that. -/
  | waited {session : Session} {started rest : List (Exchange machine)}
      (split : log = started ++ rest)
      (start : Ends (Session.start config form) started (.ok session))
      (silent : printed started = []) (ends : WaitEnds session id timeout rest outcome)

/-- What a wait prints and how it ends, for every timeout, every moment of an interruption and every
moment at which the outcome of the operation is recorded: if it was not stopped, it prints an
operation that is done and ends as that does, and only a poll has ended it; if it was stopped, it is
a success whatever it prints. -/
theorem wait_exit_status {config : Option String} {form : ReportForm} {timeout : Option Nat}
    {outcome : Except BrokerError Unit}
    (run : Completes (begin { config, form, inquiry := .wait id timeout }) log outcome) :
    WaitCommandEnds config form id timeout log outcome := by
  rcases completes_begin_wait_iff.mp run with
    ⟨e, hFails, hOutcome⟩ | ⟨session, started, rest, hLog, hStarted, hWait⟩
  · exact .refused hFails hOutcome (printed_of_still (hFails.asks (still_start config form)))
  · exact .waited hLog hStarted (printed_of_still (hStarted.asks (still_start config form)))
      (waitEnds hWait)

/-! ### An operation that fails -/

theorem ends_orFail {ε α : Type} [Coe ε BrokerError] {result : Except ε α} {value : α}
    (h : result = .ok value) : Ends (orFail result) [] (.ok value) := by
  subst h
  exact .refl _

/-- How a command begins with a configuration, in whose folder there is nothing else. -/
def quietStart (content : Bytes) : List (Exchange machine) :=
  [⟨.present ".env", false⟩] ++ ([⟨.present "tfbroker.yaml", true⟩,
    ⟨.read "tfbroker.yaml", .ok content⟩] ++
      Config.overriding.map fun name => ⟨.environment name, none⟩)

/-- A session whose records lie beside the configuration. -/
def beside (form : ReportForm) (config : Config) : Session where
  form
  setup := { folder := "", loaded := [], config }
  records := .folder ".tfbroker"

/-- No variable has a value. -/
def unset (name : String) : Option String :=
  ((Config.overriding.map fun name => (name, (none : Option String))).lookup name).join

theorem ends_start {content : Bytes} {config : Config} {findings : Config.Findings}
    (form : ReportForm) (parsed : Config.parseBytes content = .ok config)
    (kept : config.override unset = .ok config) (valid : config.validate = .ok findings)
    (store : config.store = {}) :
    Ends (Session.start (some "tfbroker.yaml") form) (quietStart content)
      (.ok (beside form config)) := by
  have hPath : Ends (configPath (some "tfbroker.yaml")) [] (.ok "tfbroker.yaml") := .refl _
  have hLoad : Ends (loadVariables ".env") [⟨.present ".env", false⟩] (.ok []) := .ask (.refl _)
  have hRead : Ends (readConfig "tfbroker.yaml")
      [⟨.present "tfbroker.yaml", true⟩, ⟨.read "tfbroker.yaml", .ok content⟩] (.ok config) :=
    .ask (.ask (ends_orFail parsed))
  have hValues : Ends (Config.overriding.mapM fun name => do return (name, ← valueOf [] name))
      (Config.overriding.map fun name => ⟨.environment name, none⟩)
      (.ok (Config.overriding.map fun name => (name, none))) :=
    .ask (.ask (.ask (.ask (.refl _))))
  have hSetUp : Ends (setUp (some "tfbroker.yaml")) (quietStart content)
      (.ok { folder := "", loaded := [], config }) := by
    refine hPath.bind (hLoad.bind (hRead.bind ?_))
    rw [← List.append_nil (List.map _ _)]
    exact hValues.bind ((ends_orFail kept).bind (.refl _))
  have hRecords : Ends (recordsOf { folder := "", loaded := [], config }) []
      (.ok (.folder ".tfbroker")) := by
    rw [recordsOf, store]
    exact .refl _
  rw [← List.append_nil (quietStart content)]
  exact hSetUp.bind ((ends_orFail valid).bind (hRecords.bind (.refl _)))

/-- The steps in which a record is read. -/
def readOf (record : Record) : List (Exchange machine) :=
  [⟨.folder ".tfbroker" (.contains (RecordName.file record.id)), true⟩,
    ⟨.folder ".tfbroker" (.read (RecordName.file record.id)), .ok (Bytes.ofText record.text)⟩]

/-- The steps in which a status is printed without colours. -/
def reportOf (form : ReportForm) (id : String) (status : Status) : List (Exchange machine) :=
  [⟨.environment "CLICOLOR_FORCE", none⟩, ⟨.environment "NO_COLOR", none⟩,
    ⟨.environment "CLICOLOR", none⟩, ⟨.isTerminal, false⟩,
    ⟨.print (Report.status { form, colors := false } id status), ()⟩]

section Failed

variable {form : ReportForm} {config : Config} {record : Record}

theorem ends_readOf : Ends ((beside form config).poll record.id) (readOf record)
    (.ok record.status) := by
  refine (ends_poll_iff rfl).mpr (.inr ⟨_, rfl, ?_⟩)
  have hReading : reading (.ok (Bytes.ofText record.text)) = .ok record := by
    simp only [reading, Bytes.text?_ofText, Record.ofText_text]
    rfl
  rw [hReading]
  rfl

theorem reports_readOf (waited : Except BrokerError Unit) :
    Reports (beside form config) record.id waited
      (readOf record ++ reportOf form record.id record.status) waited :=
  .tells ends_readOf (.ask (.ask (.ask (.ask (.ask (.refl _))))))

/-- A wait that may last no longer than to its first poll makes none: whatever the record says, it
is reported, and the wait is a success. -/
theorem course_stopped {waiting : Waiting} (short : waiting.next? = none) :
    Course (beside form config) record.id waiting
      (⟨.pause waiting.pause, false⟩ :: (readOf record ++ reportOf form record.id record.status))
      (.ok ()) :=
  .stopped (.inr short) (reports_readOf _)

/-- A wait for an operation that has failed fails after a poll. -/
theorem course_failed {waiting next : Waiting} (patient : waiting.next? = some next)
    (failed : record.state = .failed) :
    Course (beside form config) record.id waiting
      (⟨.pause waiting.pause, false⟩ ::
        (readOf record ++ (readOf record ++ reportOf form record.id record.status)))
      (.error (.job (.operationFailed record.message))) := by
  have hVerdict : verdict? (.ok record.status) =
      some (.error (.job (.operationFailed record.message))) := by
    simp [verdict?, Status.outcome?, Record.status, failed, OperationState.isDone]
  exact .ended patient ends_readOf hVerdict (reports_readOf _)

theorem shows_readOf : ∀ exchange ∈ readOf record, Shows record.id (.ok record) exchange := by
  let place : Folder.Place :=
    some (.folder [(RecordName.file record.id, .file (Bytes.ofText record.text))])
  have hFound : Folder.find? place (RecordName.file record.id) =
      some (.file (Bytes.ofText record.text)) := by
    simp [place, Folder.find?, Folder.held?, Fields.get?]
  have hRecord : recordIn place record.id = .ok record :=
    congrArg Prod.fst (outcome_get_of_found hFound)
  intro exchange hExchange
  simp only [readOf, List.mem_cons, List.not_mem_nil, or_false] at hExchange
  rcases hExchange with rfl | rfl
  · refine ⟨place, hRecord, ?_⟩
    rw [Folder.answer_contains_eq, hFound]
    rfl
  · refine ⟨place, hRecord, ?_⟩
    exact (Folder.fileIn_of_find? hFound).symm

theorem shows_reportOf {id : String} {found : Except StoreError Record} {status : Status} :
    ∀ exchange ∈ reportOf form id status, Shows id found exchange := by
  simp [reportOf, Shows]

end Failed

/-- A small configuration, as a file and as it is read. -/
def smallText : String := "terraform:\n  versions:\n    - version: 1.6.0\n"

def smallConfig : Config where
  tool := { versions := [{ version := Traffic.plainSettings.defaultVersion }] }

/-- How commands begin with the small configuration. -/
def smallStart : List (Exchange machine) :=
  quietStart (Bytes.ofText smallText)

theorem ends_smallStart : Ends (Session.start (some "tfbroker.yaml") .text) smallStart
    (.ok (beside .text smallConfig)) := by
  have hRead : (Config.parseBytes (Bytes.ofText smallText)).toOption = some smallConfig := by
    decide +kernel
  have hParsed {result : Except ConfigError Config} (h : result.toOption = some smallConfig) :
      result = .ok smallConfig := by
    cases result with
    | error e => cases h
    | ok config => exact congrArg _ (Option.some.inj h)
  exact ends_start .text (hParsed hRead) rfl rfl rfl

/-- A record while its operation is running, and when that has failed. -/
def runningRecord : Record :=
  { Record.leaping "tf:db:" with state := .inProgress }

def failedRecord : Record :=
  runningRecord.finished (some (.internal "boom")) none runningRecord.updated

theorem shows_smallStart {id : String} {found : Except StoreError Record} :
    ∀ exchange ∈ smallStart, Shows id found exchange := by
  simp [smallStart, quietStart, Config.overriding, Shows]

theorem wait_exit_status_failed :
    let log := smallStart ++ ⟨.pause 1000, false⟩ :: (readOf runningRecord ++
      ⟨.pause 1000, false⟩ :: (readOf failedRecord ++
        (readOf failedRecord ++ reportOf .text "tf:db:" failedRecord.status)))
    let outcome := .error (.job (.operationFailed failedRecord.message))
    Completes (begin {
        config := some "tfbroker.yaml", form := .text, inquiry := .wait "tf:db:" none }) log
        outcome ∧
      WaitCommandEnds (some "tfbroker.yaml") .text "tf:db:" none log outcome ∧
      Recorded (.ok runningRecord) (.ok failedRecord) ∧
      Watched "tf:db:" (.ok runningRecord) (.ok failedRecord) log := by
  intro log outcome
  have hFailed : Course (beside .text smallConfig) failedRecord.id { interval := 1000 } _ outcome :=
    course_failed rfl rfl
  have hCourse : Course (beside .text smallConfig) runningRecord.id { interval := 1000 } _
      outcome :=
    .goesOn rfl ends_readOf rfl hFailed
  have run : Completes (begin {
      config := some "tfbroker.yaml", form := .text, inquiry := .wait "tf:db:" none }) log
      outcome :=
    completes_begin_wait_iff.mpr
      (.inr ⟨_, smallStart, _, rfl, ends_smallStart, completes_of_course hCourse⟩)
  refine ⟨run, wait_exit_status run, .inr ⟨_, _, _, _, rfl, rfl, rfl⟩, ?_⟩
  refine ⟨smallStart ++ ⟨.pause 1000, false⟩ :: readOf runningRecord, ⟨.pause 1000, false⟩ ::
    (readOf failedRecord ++ (readOf failedRecord ++ reportOf .text "tf:db:" failedRecord.status)),
    (List.append_assoc smallStart (_ :: readOf runningRecord) _).symm, ?_, ?_⟩
  · exact List.forall_mem_append.mpr
      ⟨shows_smallStart, List.forall_mem_cons.mpr ⟨trivial, shows_readOf⟩⟩
  · exact List.forall_mem_cons.mpr ⟨trivial, List.forall_mem_append.mpr ⟨shows_readOf,
      List.forall_mem_append.mpr ⟨shows_readOf, shows_reportOf⟩⟩⟩

/-- A wait with no time at all for a failed operation reports the failure and is a success. -/
theorem failure_reported_as_success :
    let log := smallStart ++ ⟨.pause 0, false⟩ ::
      (readOf failedRecord ++ reportOf .text "tf:db:" failedRecord.status)
    Completes (begin {
        config := some "tfbroker.yaml", form := .text, inquiry := .wait "tf:db:" (some 0) }) log
        (.ok ()) ∧
      (∀ exchange ∈ log, Shows "tf:db:" (.ok failedRecord) exchange) ∧
      (∃ style, printed log = [Report.status style "tf:db:" failedRecord.status]) ∧
      failedRecord.status.failure ≠ none := by
  intro log
  have hCourse : Course (beside .text smallConfig) failedRecord.id
      { interval := 1000, patience := some 0 } _ (.ok ()) := course_stopped rfl
  have run : Completes (begin {
      config := some "tfbroker.yaml", form := .text, inquiry := .wait "tf:db:" (some 0) }) log
      (.ok ()) :=
    completes_begin_wait_iff.mpr
      (.inr ⟨_, smallStart, _, rfl, ends_smallStart, completes_of_course hCourse⟩)
  refine ⟨run, ?_, ⟨{ form := .text, colors := false }, rfl⟩, ?_⟩
  · exact List.forall_mem_append.mpr ⟨shows_smallStart, List.forall_mem_cons.mpr ⟨trivial,
      List.forall_mem_append.mpr ⟨shows_readOf, shows_reportOf⟩⟩⟩
  · simp [failedRecord, Record.status, Record.finished, Record.concluded]

end ServiceBroker.Console
