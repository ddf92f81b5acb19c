import ServiceBroker.Report.Basic
import ServiceBroker.Text.Digits

/-!
The arguments of the command line, and what they ask for.

Arguments are read from left to right in two levels: up to the name of a command, and behind it.
Some options may stand on both levels, and the inner one counts. What is wrong is found where it
is read, except that a value in an argument of its own is looked at only when the next option comes
or the level ends, and an outer level ends after the inner one. Asking for help or for the version
ends the reading at once.
-/

namespace ServiceBroker.Console

/-- An option. -/
inductive Flag where
  | config
  | verbose
  | output
  | logFormat
  | help
  | version
  | warnings
  | catalog
  | request
  | timeout
deriving DecidableEq

namespace Flag

/-- How an option is written behind two dashes. -/
def name : Flag → String
  | config => "config"
  | verbose => "verbose"
  | output => "output"
  | logFormat => "log-format"
  | help => "help"
  | version => "version"
  | warnings => "warnings"
  | catalog => "catalog"
  | request => "request"
  | timeout => "timeout-secs"

/-- How an option is written behind one dash, if it can be. -/
def letter? : Flag → Option Char
  | config => some 'c'
  | verbose => some 'v'
  | help => some 'h'
  | version => some 'V'
  | warnings => some 'w'
  | output | logFormat | catalog | request | timeout => none

def everywhere : List Flag := [config, verbose, output, logFormat, help, version]

end Flag

/-- The number of seconds that a text gives, if it fits into 64 bits. -/
def parseSeconds? (text : String) : Option Nat :=
  let digits := match text.toList with
    | '+' :: digits => digits
    | digits => digits
  if !digits.isEmpty && digits.all Char.isDigit && Text.natOfDigits digits < UInt64.size then
    some (Text.natOfDigits digits)
  else none

/-- The values that an option takes; none if it takes no value. -/
def Flag.values? : Flag → Option (String → Bool)
  | config | catalog | request => some (· ≠ "")
  | output | logFormat => some fun value => (ReportForm.ofName? value).isSome
  | timeout => some fun value => (parseSeconds? value).isSome
  | verbose | help | version | warnings => none

/-- The name of a command. -/
inductive Topic where
  | validate
  | decide
  | status
  | wait
  | contents
  | ids
deriving DecidableEq

namespace Topic

def all : List Topic := [validate, decide, status, wait, contents, ids]

def name : Topic → String
  | validate => "validate"
  | decide => "decide"
  | status => "status"
  | wait => "wait"
  | contents => "show"
  | ids => "ids"

def ofName? (name : String) : Option Topic :=
  all.find? (·.name == name)

/-- The options of a command's own. -/
def flags : Topic → List Flag
  | validate => [.warnings]
  | decide => [.catalog, .request]
  | wait => [.timeout]
  | status | contents | ids => []

/-- The command is about one deployment. -/
def takesId : Topic → Bool
  | status | wait | contents => true
  | validate | decide | ids => false

end Topic

/-- Why the reading of arguments ends early. -/
inductive Stop where
  | misuse
  | help
  | version (topic : Option Topic)
deriving DecidableEq

/-- What was read on a level so far. -/
structure Level where
  /-- The command that the level is about; none on the outer level. -/
  topic : Option Topic
  given : List (Flag × String) := []
  /-- An option whose value is still to come or to be looked at. -/
  pending : Option (Flag × Option String) := none
  id : Option String := none

namespace Level

/-- The options that may stand on a level. -/
def flags (level : Level) : List Flag :=
  Flag.everywhere ++ level.topic.elim [] Topic.flags

def value? (level : Level) (flag : Flag) : Option String :=
  level.given.lookup flag

def has (level : Level) (flag : Flag) : Bool :=
  (level.value? flag).isSome

/-- Adds an option with a value that it takes. No option may be given twice. -/
def add (level : Level) (flag : Flag) (value : String) : Except Stop Level :=
  if (flag.values?.all fun takes => takes value) && !level.has flag then
    pure { level with given := level.given ++ [(flag, value)] }
  else throw .misuse

/-- Looks at the value that is pending. -/
def settle (level : Level) : Except Stop Level :=
  match level.pending with
  | none => pure level
  | some (_, none) => throw .misuse
  | some (flag, some value) => { level with pending := none }.add flag value

/-- An option with what is written in the same argument, if anything is. -/
def meet (level : Level) (flag : Flag) (attached : Option String) : Except Stop Level := do
  if flag.values?.isSome then
    let level ← level.settle
    match attached with
    | some value => level.add flag value
    | none => return { level with pending := some (flag, none) }
  else if attached.isSome then throw .misuse
  else
    let level ← level.settle
    match flag with
    | .help => throw .help
    | .version => throw (.version level.topic)
    | _ => level.add flag ""

/-- An argument behind two dashes. -/
def long (level : Level) (text : List Char) : Except Stop Level :=
  let name := String.ofList (text.takeWhile (· != '='))
  let attached := match text.dropWhile (· != '=') with
    | _ :: value => some (String.ofList value)
    | [] => none
  match level.flags.find? (·.name == name) with
  | some flag => level.meet flag attached
  | none => throw .misuse

/-- An argument behind one dash: options by their letters, of which the last one may have a value
behind it. -/
def short : Level → List Char → Except Stop Level
  | level, [] => pure level
  | level, c :: rest =>
    match level.flags.find? (·.letter? == some c) with
    | none => throw .misuse
    | some flag =>
      if flag.values?.isSome then
        match rest with
        | [] => level.meet flag none
        | '=' :: value | value => level.meet flag (some (String.ofList value))
      else do (← level.meet flag none).short rest

/-- An argument that is no option: the value that an option waits for, or the deployment. -/
def word (level : Level) (text : String) : Except Stop Level := do
  match level.pending with
  | some (flag, none) => return { level with pending := some (flag, some text) }
  | _ =>
    if level.topic.any Topic.takesId && level.id.isNone then
      return { ← level.settle with id := some text }
    else throw .misuse

def waits (level : Level) : Bool :=
  level.pending.any (·.2.isNone)

/-- Reads the arguments of a level, up to the name of a command on the outer one. Behind two dashes
alone nothing is an option or a command any more. -/
def read (level : Level) : List String → Except Stop (Level × Option (String × List String))
  | [] => pure (level, none)
  | argument :: rest =>
    if level.topic.isNone && !level.waits &&
        (argument = "help" || (Topic.ofName? argument).isSome) then
      pure (level, some (argument, rest))
    else
      match argument.toList with
      | ['-', '-'] => do
        if level.waits then throw .misuse
        return (← rest.foldlM word level, none)
      | '-' :: '-' :: text => do (← level.long text).read rest
      | '-' :: c :: text => do (← level.short (c :: text)).read rest
      | _ => do (← level.word argument).read rest

end Level

def configVariable : String := "TFBROKER_CONFIG"

def logFormatVariable : String := "TFBROKER_LOG_FORMAT"

/-- The variables that stand for options of a level. -/
structure Defaults where
  config : Option String := none
  logFormat : Option String := none

/-- Ends a level: a variable stands for an option that was not given, and must have a value that
the option takes. -/
def Level.close (level : Level) (defaults : Defaults) : Except Stop Level := do
  let level ← level.settle
  let fill (flag : Flag) (value : Option String) : Except Stop Unit := do
    match value with
    | none => return ()
    | some value => if !level.has flag then let _ ← level.add flag value
  fill .config defaults.config
  fill .logFormat defaults.logFormat
  return level

/-- What the operator asks for. -/
inductive Inquiry where
  /-- Is the configuration valid? -/
  | validate (showWarnings : Bool)
  /-- What is an update request, by the catalog? -/
  | decide (catalog request : String)
  /-- How does the last operation on a deployment stand? -/
  | status (id : String)
  /-- How does it end? A wait may end after some seconds. -/
  | wait (id : String) (timeout : Option Nat)
  /-- What is in the workspace of a deployment? -/
  | contents (id : String)
  /-- Which deployments are there? -/
  | ids
deriving DecidableEq

/-- An inquiry, and how it is to be answered. -/
structure Invocation where
  config : Option String
  form : ReportForm
  inquiry : Inquiry

def Level.inquiry (level : Level) (topic : Topic) : Except Stop Inquiry :=
  match topic, level.id, level.value? .catalog, level.value? .request with
  | .validate, _, _, _ => pure (.validate (level.has .warnings))
  | .decide, _, some catalog, some request => pure (.decide catalog request)
  | .status, some id, _, _ => pure (.status id)
  | .wait, some id, _, _ => pure (.wait id ((level.value? .timeout).bind parseSeconds?))
  | .contents, some id, _, _ => pure (.contents id)
  | .ids, _, _, _ => pure .ids
  | _, _, _, _ => throw .misuse

/-- The help on commands: at most one may be named. -/
def helpOn : List String → Stop
  | [] => .help
  | [name] => if name = "help" || (Topic.ofName? name).isSome then .help else .misuse
  | _ => .misuse

def readArguments (defaults : Defaults) (arguments : List String) : Except Stop Invocation := do
  match ← ({ topic := none } : Level).read arguments with
  | (_, none) => throw .misuse
  | (outer, some (name, rest)) =>
    match Topic.ofName? name with
    | none => throw (helpOn rest)
    | some topic =>
      let (inner, _) ← ({ topic := some topic } : Level).read rest
      let inner ← inner.close defaults
      let inquiry ← inner.inquiry topic
      let outer ← outer.close defaults
      let value? (flag : Flag) : Option String := (inner.value? flag).or (outer.value? flag)
      return {
        config := (value? .config).or defaults.config
        form := ((value? .output).bind ReportForm.ofName?).getD .text
        inquiry }

end ServiceBroker.Console
