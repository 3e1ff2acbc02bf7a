import MarkerDoc.Shell.Options
import MarkerDoc.Shell.Utility.Values

/-!
# Dates

Moments are counted in seconds from the beginning of the year 1970 and shown by the calendar in
universal time.  Years begin in March for the computation, so that a leap day comes last.
-/

namespace MarkerDoc.Shell.Utility

/-- A moment by the calendar. -/
structure Moment where
  seconds : Int
  year : Int
  month : Nat
  day : Nat
  /-- The day of the year, from one on. -/
  yearDay : Nat
  /-- The day of the week, from Sunday on. -/
  weekDay : Nat
  hour : Nat
  minute : Nat
  second : Nat

namespace Moment

/-- The number of days from the beginning of 1970 to a date. -/
def daysTo (year : Int) (month day : Nat) : Int :=
  let y := if month ≤ 2 then year - 1 else year
  let era := y.fdiv 400
  let yearOfEra := y - era * 400
  let monthFromMarch := (month + 9) % 12
  let dayOfYear : Int := (((153 * monthFromMarch + 2) / 5 + day : Nat) : Int) - 1
  let dayOfEra := yearOfEra * 365 + yearOfEra / 4 - yearOfEra / 100 + dayOfYear
  era * 146097 + dayOfEra - 719468

/-- The moment after a number of seconds. -/
def ofSeconds (seconds : Int) : Moment :=
  let days := seconds.fdiv 86400
  let rest := (seconds - days * 86400).toNat
  let z := days + 719468
  let era := z.fdiv 146097
  let dayOfEra := (z - era * 146097).toNat
  let yearOfEra := (dayOfEra - dayOfEra / 1460 + dayOfEra / 36524 - dayOfEra / 146096) / 365
  let dayOfYear := dayOfEra - (365 * yearOfEra + yearOfEra / 4 - yearOfEra / 100)
  let monthFromMarch := (5 * dayOfYear + 2) / 153
  let day := dayOfYear - (153 * monthFromMarch + 2) / 5 + 1
  let month := if monthFromMarch < 10 then monthFromMarch + 3 else monthFromMarch - 9
  let year := era * 400 + yearOfEra + (if month ≤ 2 then 1 else 0)
  { seconds, year, month, day
    yearDay := (days - daysTo year 1 1).toNat + 1
    weekDay := ((days + 4) % 7).toNat
    hour := rest / 3600, minute := rest / 60 % 60, second := rest % 60 }

def monthNames : List String :=
  ["January", "February", "March", "April", "May", "June", "July", "August", "September",
    "October", "November", "December"]

def weekDayNames : List String :=
  ["Sunday", "Monday", "Tuesday", "Wednesday", "Thursday", "Friday", "Saturday"]

/-- The first letters of a name. -/
def short (s : String) : String :=
  String.ofList (s.toList.take 3)

def monthName (t : Moment) : String := monthNames.getD (t.month - 1) ""

def weekDayName (t : Moment) : String := weekDayNames.getD t.weekDay ""

/-- The week that a day belongs to with its year, where weeks begin on Mondays and the first one
has most of its days in the new year. -/
def week (t : Moment) : Int × Nat :=
  let fromMonday := (t.weekDay + 6) % 7
  let thursday := ofSeconds (t.seconds + 86400 * (3 - (fromMonday : Int)))
  (thursday.year, (thursday.yearDay - 1) / 7 + 1)

/-- The hour on a clock face. -/
def faceHour (t : Moment) : Nat :=
  if t.hour % 12 = 0 then 12 else t.hour % 12

/-- What a letter of a format stands for: a number with its width and filler, or a text. -/
def part? (t : Moment) (c : Char) : Option (String ⊕ (Int × Nat × Char)) :=
  match c with
  | 'Y' => some (.inr (t.year, 4, '0'))
  | 'C' => some (.inr (t.year / 100, 2, '0'))
  | 'y' => some (.inr (t.year % 100, 2, '0'))
  | 'G' => some (.inr (t.week.1, 4, '0'))
  | 'g' => some (.inr (t.week.1 % 100, 2, '0'))
  | 'V' => some (.inr (t.week.2, 2, '0'))
  | 'm' => some (.inr (t.month, 2, '0'))
  | 'd' => some (.inr (t.day, 2, '0'))
  | 'e' => some (.inr (t.day, 2, ' '))
  | 'j' => some (.inr (t.yearDay, 3, '0'))
  | 'H' => some (.inr (t.hour, 2, '0'))
  | 'k' => some (.inr (t.hour, 2, ' '))
  | 'I' => some (.inr (t.faceHour, 2, '0'))
  | 'l' => some (.inr (t.faceHour, 2, ' '))
  | 'M' => some (.inr (t.minute, 2, '0'))
  | 'S' => some (.inr (t.second, 2, '0'))
  | 'N' => some (.inr (0, 9, '0'))
  | 's' => some (.inr (t.seconds, 1, '0'))
  | 'u' => some (.inr ((if t.weekDay = 0 then 7 else t.weekDay), 1, '0'))
  | 'w' => some (.inr (t.weekDay, 1, '0'))
  | 'U' => some (.inr ((t.yearDay + 6 - t.weekDay) / 7, 2, '0'))
  | 'W' => some (.inr ((t.yearDay + 6 - (t.weekDay + 6) % 7) / 7, 2, '0'))
  | 'q' => some (.inr ((t.month + 2) / 3, 1, '0'))
  | 'a' => some (.inl (short t.weekDayName))
  | 'A' => some (.inl t.weekDayName)
  | 'b' | 'h' => some (.inl (short t.monthName))
  | 'B' => some (.inl t.monthName)
  | 'p' => some (.inl (if t.hour < 12 then "AM" else "PM"))
  | 'P' => some (.inl (if t.hour < 12 then "am" else "pm"))
  | 'Z' => some (.inl "UTC")
  | 'z' => some (.inl "+0000")
  | 'n' => some (.inl "\n")
  | 't' => some (.inl "\t")
  | '%' => some (.inl "%")
  | _ => none

/-- The formats that some letters abbreviate. -/
def abbreviation? (c : Char) : Option String :=
  match c with
  | 'F' => some "%Y-%m-%d"
  | 'T' | 'X' => some "%H:%M:%S"
  | 'D' | 'x' => some "%m/%d/%y"
  | 'R' => some "%H:%M"
  | 'r' => some "%I:%M:%S %p"
  | 'c' => some "%a %b %e %H:%M:%S %Y"
  | _ => none

/-- A number with a width; a sign before the letter of the format changes the filler. -/
def field (sign : Option Char) (n : Int) (width : Nat) (filler : Char) : String :=
  match sign with
  | some '-' => toString n
  | some '_' => padLeft width ' ' (toString n)
  | some '0' => padLeft width '0' (toString n)
  | _ => padLeft width filler (toString n)

/-- Shows a moment by a format. -/
def format (t : Moment) : Nat → List Char → String
  | 0, _ => ""
  | _, [] => ""
  | fuel + 1, '%' :: c :: rest =>
    let (sign, c, rest) := match c, rest with
      | '-', d :: rest | '_', d :: rest | '0', d :: rest => (some c, d, rest)
      | _, _ => (none, c, rest)
    let shown := match t.part? c with
      | some (.inl s) => s
      | some (.inr (n, width, filler)) => field sign n width filler
      | none =>
        match abbreviation? c with
        | some f => format t fuel f.toList
        | none => String.ofList ('%' :: sign.toList ++ [c])
    shown ++ format t fuel rest
  | fuel + 1, c :: rest => String.ofList [c] ++ format t fuel rest

/-- Reads a date with an optional time, or a number of seconds. -/
def read? (s : String) : Option Moment :=
  let numbers (separator : String) (s : String) : Option (List Nat) :=
    (Text.splitOn separator s).mapM String.toNat?
  match s.toList with
  | '@' :: digits => (integer? (String.ofList digits)).map ofSeconds
  | _ =>
    let words := (Text.words (String.ofList (s.toList.map fun c =>
      if c = 'T' || c = 'Z' then ' ' else c))).filter (· != "UTC")
    match words with
    | date :: times => do
      match ← numbers "-" date with
      | [year, month, day] =>
        let time ← match times with
          | [] => some 0
          | [time] =>
            match ← numbers ":" time with
            | [h, m] => if h < 24 && m < 60 then some (h * 3600 + m * 60) else none
            | [h, m, s] =>
              if h < 24 && m < 60 && s < 61 then some (h * 3600 + m * 60 + s) else none
            | _ => none
          | _ => none
        let t := ofSeconds (daysTo year month day * 86400 + (time : Int))
        if month = t.month && day = t.day then some t else none
      | _ => none
    | [] => none

end Moment

/-- Shows the time, or a moment that is given. -/
def date (args : List String) : Act Nat :=
  withOptions "date" "ud:RI" [("utc", 'u'), ("universal", 'u'), ("date", 'd'),
    ("rfc-email", 'R'), ("iso-8601", 'I')] 1 args fun o => do
    let now := (← get).clock
    let moment? := match o.value? 'd' with
      | none => some (Moment.ofSeconds (1767225600 + now / 1000))
      | some s => Moment.read? s
    match moment?, o.operands with
    | none, _ => failWith ("date: invalid date " ++ inQuotes ((o.value? 'd').getD "")) 1
    | some t, operands =>
      let form := if o.has 'R' then "%a, %d %b %Y %H:%M:%S %z" else if o.has 'I' then "%F"
        else "%a %b %e %H:%M:%S %Z %Y"
      let form? := match operands with
        | [] => some form
        | s :: _ => Text.stripStart? "+" s
      match form?, operands with
      | some form, operands =>
        match operands with
        | _ :: extra :: _ =>
          complain ("date: extra operand " ++ inQuotes extra)
          failWith ("Try " ++ inQuotes "date --help" ++ " for more information.") 1
        | _ =>
          say (t.format (form.length + 32) form.toList ++ "\n")
          return 0
      | none, _ => failWith ("date: invalid date " ++ inQuotes (operands.headD "")) 1

end MarkerDoc.Shell.Utility
