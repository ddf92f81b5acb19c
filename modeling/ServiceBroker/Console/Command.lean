import ServiceBroker.Console.Arguments
import ServiceBroker.Console.Basic

/-!
The commands of the operator: what each looks up and prints, and how it ends.

A wait takes as long as the operation does. So it is not one program but a program for each round,
after which it is over or goes on with another round.
-/

namespace ServiceBroker.Console

/-- Whether a text is printed in colours. -/
def colors (loaded : Variables) : Work Bool := do
  let force ← valueOf loaded "CLICOLOR_FORCE"
  let disable ← valueOf loaded "NO_COLOR"
  let wanted ← valueOf loaded "CLICOLOR"
  return hasColors force disable wanted (← ask .isTerminal)

def print (form : ReportForm) (loaded : Variables) (report : ReportStyle → String) :
    Work Unit := do
  let style : ReportStyle := { form, colors := ← colors loaded }
  ask (.print (report style))

/-- Reports what the checks of the configuration find; a fault is a failure. -/
def validate (named : Option String) (form : ReportForm) (showWarnings : Bool) : Work Unit := do
  let setup ← setUp named
  let findings := setup.config.check
  print form setup.loaded fun style =>
    Report.validation style setup.config findings showWarnings
  match findings.faults with
  | [] => return ()
  | first :: _ =>
    throw (.config (.invalid { first.objection with
      reason := toString findings.faults.length ++ " error(s), first: " ++ first.message }))

def readDocument {α : Type} (decoder : Decoder α) (path : String) : Work α := do
  match ← ask (.read path) with
  | .error reason => throw (.io reason)
  | .ok bytes =>
    match bytes.text? with
    | none => throw (.io "stream did not contain valid UTF-8")
    | some text =>
      orFail ((Yaml.decode decoder text).mapError fun e => ConfigError.unreadable e.message)

/-- Reports what an update request is; a refusal is a failure. -/
def decide (form : ReportForm) (catalogPath requestPath : String) : Work Unit := do
  let catalog ← readDocument Catalog.decoder catalogPath
  let request ← readDocument UpdateRequest.decoder requestPath
  match catalog.service? request.serviceId with
  | none => throw (.internal ("service " ++ request.serviceId ++ " is not in the catalog"))
  | some service =>
    let decided := service.decide request
    print form [] fun style => Report.decision style decided
    let _ ← orFail decided

/-- What a command on records works with. -/
structure Session where
  form : ReportForm
  setup : Setup
  records : Records

namespace Session

/-- Begins work on the records of a valid configuration. -/
def start (named : Option String) (form : ReportForm) : Work Session := do
  let setup ← setUp named
  let _ ← orFail setup.config.validate
  return { form, setup, records := ← recordsOf setup }

def print (session : Session) (report : ReportStyle → String) : Work Unit :=
  Console.print session.form session.setup.loaded report

/-- Polls the last operation of a deployment. -/
def poll (session : Session) (id : String) : Work Status := do
  return (← session.records.call (.get id)).status

/-- Reports how the last operation of a deployment stands. -/
def status (session : Session) (id : String) : Work Unit := do
  let found ← session.poll id
  session.print fun style => Report.status style id found

/-- Reports what is in the workspace of a deployment. -/
def contents (session : Session) (id : String) : Work Unit := do
  let record ← session.records.call (.get id)
  let contents ← orFail (Report.contentsOf record)
  session.print fun style => Report.workspace style contents

/-- Reads records, without those that are gone. -/
def readRecords (session : Session) : List String → Work (List Record)
  | [] => pure []
  | id :: ids => do
    let found ← tryCatch (some <$> session.records.call (.get id)) fun e =>
      if e.isNotFound then pure none else throw e
    return found.toList ++ (← session.readRecords ids)

/-- Reports which deployments there are. -/
def ids (session : Session) : Work Unit := do
  let records ← session.readRecords (← session.records.call .list)
  session.print fun style => Report.records style records

end Session

/-- A wait for the last operation of a deployment. -/
structure Wait where
  session : Session
  id : String
  waiting : Waiting

/-- How far a command has come. -/
inductive Progress where
  | over
  | waits (wait : Wait)

namespace Wait

/-- The wait that begins, for some seconds at most. -/
def start (session : Session) (id : String) (timeout : Option Nat) : Wait where
  session := session
  id := id
  waiting := {
    interval := session.setup.config.jobs.pollInterval
    patience := timeout.map (· * 1000) }

/-- Reports how the operation stands when the wait is over, and ends as the wait has. -/
def finish (wait : Wait) (waited : Except BrokerError Unit) : Work Progress := do
  wait.session.status wait.id
  ofExcept waited
  return .over

/-- One poll, which may fail. -/
def poll (wait : Wait) : Work (Except BrokerError Status) :=
  tryCatch (Except.ok <$> wait.session.poll wait.id) (pure ∘ Except.error)

/-- One round, and the report if it is the last one. -/
def round (wait : Wait) : Work Progress := do
  match ← wait.waiting.round (fun duration => ask (.pause duration)) wait.poll with
  | .over outcome => wait.finish outcome
  | .goesOn waiting => return .waits { wait with waiting }

end Wait

def begin (invocation : Invocation) : Work Progress :=
  let { config, form, inquiry } := invocation
  match inquiry with
  | .validate showWarnings => do validate config form showWarnings; return .over
  | .decide catalog request => do decide form catalog request; return .over
  | .status id => do (← Session.start config form).status id; return .over
  | .wait id timeout => do return .waits (.start (← Session.start config form) id timeout)
  | .contents id => do (← Session.start config form).contents id; return .over
  | .ids => do (← Session.start config form).ids; return .over

/-! ### Endings -/

/-- The name and the version of the program, or of one of its commands. -/
def versionText (topic : Option Topic) : String :=
  "tfbroker" ++ topic.elim "" (fun topic => "-" ++ topic.name) ++ " 0.1.0"

/-- How the program is used. -/
def usage : String :=
  "Usage: tfbroker [OPTIONS] <COMMAND>\n\nCommands: " ++
    ", ".intercalate (Topic.all.map Topic.name)

/-- How the program ends. -/
structure Ending where
  code : Nat
  /-- What is still printed, and where the operator looks for failures. -/
  output : Option String := none
  complaint : Option String := none

/-- The end when arguments are not read to their end. -/
def Stop.ending : Stop → Ending
  | misuse => { code := 2, complaint := some ("error: invalid arguments\n\n" ++ usage) }
  | help => { code := 0, output := some usage }
  | version topic => { code := 0, output := some (versionText topic) }

def endingOf : Except BrokerError Unit → Ending
  | .ok () => { code := 0 }
  | .error e => { code := 1, complaint := some ("Error: " ++ e.message) }

end ServiceBroker.Console
