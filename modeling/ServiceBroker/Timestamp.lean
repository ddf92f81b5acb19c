import ServiceBroker.Text.Blank
import ServiceBroker.Text.Digits

/-!
Moments in time, to the nanosecond, by the calendar and the clock of UTC.

A text may give a moment in the time of a zone: it names the difference to UTC, and the moment is
kept in UTC. Blanks around the parts of such a text do not count. The written form has no blanks,
says `Z` for UTC, and has no, three, six or nine places for the fraction of a second, as few as
hold it. A leap second is the sixtieth second of its minute.
-/

namespace ServiceBroker

/-- A year has a 29th of February. -/
def isLeapYear (year : Int) : Bool :=
  year % 4 == 0 && (year % 100 != 0 || year % 400 == 0)

def daysInMonth (year : Int) (month : Nat) : Nat :=
  if month = 2 then if isLeapYear year then 29 else 28
  else if month = 4 ∨ month = 6 ∨ month = 9 ∨ month = 11 then 30
  else 31

/-- There is such a day in the calendar, which covers the years from -262143 to 262142. -/
abbrev IsDate (year : Int) (month day : Nat) : Prop :=
  (-262143 ≤ year ∧ year ≤ 262142) ∧ (1 ≤ month ∧ month ≤ 12) ∧
    (1 ≤ day ∧ day ≤ daysInMonth year month)

/-- A day of the calendar. -/
structure Date where
  year : Int
  month : Nat
  day : Nat
  isDate : IsDate year month day := by decide
deriving DecidableEq

namespace Date

/-- The day of a year, month and day of the month, if there is one. -/
def of? (year : Int) (month day : Nat) : Option Date :=
  if h : IsDate year month day then some { year, month, day, isDate := h } else none

/-- The parts of a day give it back. -/
@[simp]
theorem of?_self (date : Date) : of? date.year date.month date.day = some date :=
  dif_pos date.isDate

def previous? (date : Date) : Option Date :=
  if date.day ≠ 1 then of? date.year date.month (date.day - 1)
  else if date.month ≠ 1 then
    of? date.year (date.month - 1) (daysInMonth date.year (date.month - 1))
  else of? (date.year - 1) 12 31

def next? (date : Date) : Option Date :=
  if date.day < daysInMonth date.year date.month then of? date.year date.month (date.day + 1)
  else if date.month ≠ 12 then of? date.year (date.month + 1) 1
  else of? (date.year + 1) 1 1

end Date

/-- There is such a time on the clock. -/
abbrev IsTime (hour minute second nanosecond : Nat) : Prop :=
  hour < 24 ∧ minute < 60 ∧ second ≤ 60 ∧ nanosecond < 1000000000

/-- A moment in UTC. -/
structure Timestamp where
  date : Date
  hour : Nat
  minute : Nat
  second : Nat := 0
  nanosecond : Nat := 0
  isTime : IsTime hour minute second nanosecond := by decide
deriving DecidableEq

namespace Timestamp

/-- The moment of a day and a time, if there is such a time. -/
def of? (date : Date) (hour minute second nanosecond : Nat) : Option Timestamp :=
  if h : IsTime hour minute second nanosecond then
    some { date, hour, minute, second, nanosecond, isTime := h }
  else none

/-- The parts of a moment give it back. -/
@[simp]
theorem of?_self (t : Timestamp) :
    of? t.date t.hour t.minute t.second t.nanosecond = some t :=
  dif_pos t.isTime

/-- The moment at which clocks that are `offset` minutes ahead show `t`. -/
def behind? (t : Timestamp) (offset : Int) : Option Timestamp :=
  let minutes : Int := t.hour * 60 + t.minute - offset
  let onClock (minutes : Nat) (date : Date) : Option Timestamp :=
    of? date (minutes / 60) (minutes % 60) t.second t.nanosecond
  if minutes < 0 then t.date.previous?.bind (onClock (minutes + 1440).toNat)
  else if minutes < 1440 then onClock minutes.toNat t.date
  else t.date.next?.bind (onClock (minutes - 1440).toNat)

section Reading

/-- Reads from the front of a text. -/
abbrev Reading := StateT (List Char) Option

def skipBlanks : Reading Unit :=
  modify Text.trimLeft

def oneOf (wanted : List Char) : Reading Char := fun text =>
  match text with
  | c :: rest => if wanted.contains c then some (c, rest) else none
  | [] => none

/-- Reads a run of digits of which there is at least one, at most `limit` of them. -/
def someDigits (limit : Nat) : Reading (List Char) := fun text =>
  let ds := (text.take limit).takeWhile Char.isDigit
  if ds.isEmpty then none else some (ds, text.drop ds.length)

def number : Reading Nat := do
  skipBlanks
  Text.natOfDigits <$> someDigits 2

/-- Reads a year behind blanks. With a sign in front it may have any number of digits. -/
def year : Reading Int := do
  skipBlanks
  let text ← get
  match text with
  | '-' :: rest => do
    set rest
    return -(Text.natOfDigits (← someDigits rest.length) : Int)
  | '+' :: rest => do
    set rest
    return Text.natOfDigits (← someDigits rest.length)
  | _ => return Text.natOfDigits (← someDigits 4)

def mark (c : Char) : Reading Unit := do
  skipBlanks
  let _ ← oneOf [c]

def readDate : Reading Date := do
  let year ← year
  mark '-'
  let month ← number
  mark '-'
  let day ← number
  (Date.of? year month day).elim failure pure

/-- Reads the fraction of a second, if there is one. Digits behind the ninth do not count. -/
def readFraction : Reading Nat := do
  match ← get with
  | '.' :: rest => do
    set rest
    let ds ← someDigits 9
    modify (·.dropWhile Char.isDigit)
    return Text.natOfDigits (ds ++ List.replicate (9 - ds.length) '0')
  | _ => return 0

def twoDigits : Reading Nat := do
  let ds ← someDigits 2
  if ds.length = 2 then return Text.natOfDigits ds else failure

/-- Reads the minutes by which a zone is ahead of UTC. -/
def readOffset : Reading Int := do
  let text ← get
  if (text.take 3).map Char.toUpper = ['U', 'T', 'C'] then
    set (text.drop 3)
    return 0
  else
    match ← oneOf ['Z', 'z', '+', '-', '−'] with
    | 'Z' | 'z' => return 0
    | sign => do
      let hours ← twoDigits
      modify (·.dropWhile fun c => c == ':' || Text.isBlank c)
      let minutes ← twoDigits
      if 24 ≤ hours ∨ 60 ≤ minutes then failure
      let offset : Int := hours * 60 + minutes
      return if sign = '+' then offset else -offset

def read : Reading Timestamp := do
  let date ← readDate
  let _ ← oneOf ['T', 't', ' ']
  let hour ← number
  mark ':'
  let minute ← number
  mark ':'
  let second ← number
  let nanosecond ← readFraction
  skipBlanks
  let offset ← readOffset
  skipBlanks
  let t ← (of? date hour minute second nanosecond).elim failure pure
  (t.behind? offset).elim failure pure

def ofChars? (text : List Char) : Option Timestamp :=
  match read text with
  | some (t, []) => some t
  | _ => none

def ofText? (text : String) : Option Timestamp :=
  ofChars? text.toList

end Reading

/-- A year in four digits; one before the year 0 or after 9999 has a sign and as many digits as it
needs. -/
def yearChars (year : Int) : List Char :=
  if 0 ≤ year ∧ year ≤ 9999 then Text.digits 4 year.toNat
  else
    (if year < 0 then '-' else '+') :: (Nat.toDigits 10 year.natAbs).leftpad 4 '0'

/-- The day of a moment. -/
def dateChars (t : Timestamp) : List Char :=
  yearChars t.date.year ++ '-' :: Text.digits 2 t.date.month ++ '-' :: Text.digits 2 t.date.day

/-- The fraction of a second in three, six or nine places. -/
def fractionChars (nanosecond : Nat) : List Char :=
  if nanosecond = 0 then []
  else if nanosecond % 1000000 = 0 then '.' :: Text.digits 3 (nanosecond / 1000000)
  else if nanosecond % 1000 = 0 then '.' :: Text.digits 6 (nanosecond / 1000)
  else '.' :: Text.digits 9 nanosecond

def clockChars (t : Timestamp) : List Char :=
  Text.digits 2 t.hour ++ ':' :: Text.digits 2 t.minute

/-- The written form of a moment. -/
def chars (t : Timestamp) : List Char :=
  dateChars t ++ 'T' :: clockChars t ++ ':' :: Text.digits 2 t.second ++
    fractionChars t.nanosecond ++ ['Z']

/-- The written form of a moment. -/
def text (t : Timestamp) : String :=
  String.ofList t.chars

def minuteText (t : Timestamp) : String :=
  String.ofList (dateChars t ++ ' ' :: clockChars t)

end Timestamp

end ServiceBroker
