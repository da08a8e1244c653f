/-! Dates of the Gregorian calendar and moments. A moment with an offset denotes an instant, in microseconds. -/

namespace AssetCatalog

structure Date where
  year : Nat
  month : Nat
  day : Nat
deriving DecidableEq, Repr, Inhabited

/-- A time of a day; `offset` is its distance from universal time in microseconds, where one is
given. -/
structure Moment where
  date : Date
  hour : Nat := 0
  minute : Nat := 0
  second : Nat := 0
  micro : Nat := 0
  offset : Option Int := none
deriving DecidableEq, Repr, Inhabited

structure Clock where
  hour : Nat
  minute : Nat
  second : Nat
  micro : Nat
deriving DecidableEq, Repr, Inhabited

def zeroPadded (width n : Nat) : String :=
  let digits := Nat.toDigits 10 n
  String.ofList (List.replicate (width - digits.length) '0' ++ digits)

namespace Date

def isLeap (year : Nat) : Bool := year % 4 = 0 && (year % 100 ≠ 0 || year % 400 = 0)

def monthLength (year month : Nat) : Nat :=
  if month = 2 then (if isLeap year then 29 else 28)
  else if month = 4 || month = 6 || month = 9 || month = 11 then 30 else 31

def ofParts? (year month day : Nat) : Option Date :=
  if 1 ≤ year && year ≤ 9999 && 1 ≤ month && month ≤ 12 && 1 ≤ day && day ≤ monthLength year month
  then some ⟨year, month, day⟩ else none

def daysBeforeYear (year : Nat) : Nat :=
  let y := year - 1
  y * 365 + y / 4 - y / 100 + y / 400

def daysBeforeMonth (year month : Nat) : Nat :=
  (List.range (month - 1)).foldl (fun days m => days + monthLength year (m + 1)) 0

def ordinal (d : Date) : Nat :=
  daysBeforeYear d.year + daysBeforeMonth d.year d.month + d.day

def yearLength (year : Nat) : Nat := if isLeap year then 366 else 365

def yearAndRest : Nat → Nat → Nat → Nat × Nat
  | 0, year, days => (year, days)
  | fuel + 1, year, days =>
    if days < yearLength year then (year, days)
    else yearAndRest fuel (year + 1) (days - yearLength year)

def monthAndRest (year : Nat) : Nat → Nat → Nat → Nat × Nat
  | 0, month, days => (month, days)
  | fuel + 1, month, days =>
    if days < monthLength year month then (month, days)
    else monthAndRest year fuel (month + 1) (days - monthLength year month)

def daysAfter (year days : Nat) : Date :=
  let (year, days) := yearAndRest (days + 1) year days
  let (month, days) := monthAndRest year 12 1 days
  { year, month, day := days + 1 }

def text (d : Date) : String :=
  zeroPadded 4 d.year ++ "-" ++ zeroPadded 2 d.month ++ "-" ++ zeroPadded 2 d.day

end Date

namespace Moment

def secondLength : Int := 1000000

def dayLength : Int := 86400 * secondLength

def ofParts? (date : Option Date) (hour minute second micro : Nat) (offset : Option Int) :
    Option Moment :=
  match date with
  | none => none
  | some d =>
    if hour < 24 && minute < 60 && second < 60 && micro < 1000000
    then some ⟨d, hour, minute, second, micro, offset⟩ else none

def ofSeconds (seconds : Nat) : Moment :=
  let rest := seconds % 86400
  { date := Date.daysAfter 1970 (seconds / 86400), hour := rest / 3600, minute := rest / 60 % 60
    second := rest % 60, offset := some 0 }

def localTime (t : Moment) : Int :=
  (t.date.ordinal : Int) * dayLength +
    (((t.hour * 60 + t.minute) * 60 + t.second : Nat) : Int) * secondLength + t.micro

def instant (t : Moment) : Int := t.localTime - t.offset.getD 0

def offsetText (offset : Int) : String :=
  let size := offset.natAbs
  let secs := size / 1000000
  let micros := size % 1000000
  let base := (if offset < 0 then "-" else "+") ++ zeroPadded 2 (secs / 3600) ++ ":" ++
    zeroPadded 2 (secs / 60 % 60)
  if secs % 60 = 0 && micros = 0 then base
  else base ++ ":" ++ zeroPadded 2 (secs % 60) ++
    (if micros = 0 then "" else "." ++ zeroPadded 6 micros)

def clockText (hour minute second micro : Nat) : String :=
  zeroPadded 2 hour ++ ":" ++ zeroPadded 2 minute ++ ":" ++ zeroPadded 2 second ++
    (if micro = 0 then "" else "." ++ zeroPadded 6 micro)

def text (sep : String) (t : Moment) : String :=
  t.date.text ++ sep ++ clockText t.hour t.minute t.second t.micro ++
    (t.offset.map offsetText).getD ""

end Moment

end AssetCatalog
