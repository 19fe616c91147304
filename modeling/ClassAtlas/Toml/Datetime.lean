import ClassAtlas.Toml.Scanner

/-!
# Dates and times

A date, a time of day, or both, possibly with an offset from universal time. Fractions of a
second are kept to nanoseconds, and further digits are cut off.
-/

namespace ClassAtlas.Toml

/-- A day of the calendar. -/
structure Date where
  year : Nat
  month : Nat
  day : Nat
  deriving DecidableEq, Repr

/-- A time of day. -/
structure Time where
  hour : Nat
  minute : Nat
  second : Nat
  nanosecond : Nat
  deriving DecidableEq, Repr

/-- An offset from universal time. -/
inductive Offset
  | universal
  | minutes (count : Int)
  deriving DecidableEq, Repr

/-- A date, a time, or both. -/
structure Datetime where
  date : Option Date := none
  time : Option Time := none
  offset : Option Offset := none
  deriving DecidableEq, Repr

/-- A number padded with zeros to a width. -/
def zeroPadded (width value : Nat) : String :=
  let digits := Nat.toDigits 10 value
  String.ofList (List.replicate (width - digits.length) '0' ++ digits)

namespace Date

/-- The number of days of a month. -/
def daysIn (year month : Nat) : Nat :=
  if month = 2 then
    if year % 4 = 0 && (year % 100 != 0 || year % 400 = 0) then 29 else 28
  else if month ∈ [4, 6, 9, 11] then 30
  else 31

/-- The text of a date. -/
def text (date : Date) : String :=
  zeroPadded 4 date.year ++ "-" ++ zeroPadded 2 date.month ++ "-" ++ zeroPadded 2 date.day

/-- A date that exists. -/
def scan : Scanner Date := do
  let year ← Scanner.digits 4
  Scanner.letter '-'
  let month ← Scanner.digits 2
  Scanner.letter '-'
  let day ← Scanner.digits 2
  if 1 ≤ month && month ≤ 12 && 1 ≤ day && day ≤ daysIn year month then
    return { year, month, day }
  else failure

end Date

namespace Time

/-- The digits of a fraction without its last zeros. -/
def fraction (nanosecond : Nat) : String :=
  if nanosecond = 0 then ""
  else
    "." ++ String.ofList
      ((zeroPadded 9 nanosecond).toList.reverse.dropWhile (· = '0')).reverse

/-- The text of a time. -/
def text (time : Time) : String :=
  zeroPadded 2 time.hour ++ ":" ++ zeroPadded 2 time.minute ++ ":" ++
    zeroPadded 2 time.second ++ fraction time.nanosecond

/-- A fraction of a second in nanoseconds. -/
def scanFraction : Scanner Nat := do
  Scanner.letter '.'
  let digits ← Scanner.some1 Char.isDigit
  return Scanner.number ((digits ++ List.replicate 9 '0').take 9)

/-- A time of day; a leap second may be written. -/
def scan : Scanner Time := do
  let hour ← Scanner.digits 2
  Scanner.letter ':'
  let minute ← Scanner.digits 2
  Scanner.letter ':'
  let second ← Scanner.digits 2
  let nanosecond ← Scanner.optional scanFraction
  if hour ≤ 23 && minute ≤ 59 && second ≤ 60 then
    return { hour, minute, second, nanosecond := nanosecond.getD 0 }
  else failure

end Time

namespace Offset

/-- The text of an offset. -/
def text : Offset → String
  | universal => "Z"
  | minutes count =>
    let size := count.natAbs
    (if count < 0 then "-" else "+") ++ zeroPadded 2 (size / 60) ++ ":" ++ zeroPadded 2 (size % 60)

/-- An offset: the letter for universal time, or hours and minutes. -/
def scan : Scanner Offset := do
  match ← Scanner.letterWhere fun letter => letter ∈ ['Z', 'z', '+', '-'] with
  | '+' => return minutes (← size)
  | '-' => return minutes (-(← size))
  | _ => return universal
where
  /-- Hours and minutes as minutes. -/
  size : Scanner Int := do
    let hour ← Scanner.digits 2
    Scanner.letter ':'
    let minute ← Scanner.digits 2
    if hour ≤ 23 && minute ≤ 59 then return Int.ofNat (60 * hour + minute) else failure

end Offset

namespace Datetime

/-- The text of a date or time. -/
def text (datetime : Datetime) : String :=
  let date := (datetime.date.map Date.text).getD ""
  let time := (datetime.time.map Time.text).getD ""
  let mark := if datetime.date.isSome && datetime.time.isSome then "T" else ""
  date ++ mark ++ time ++ (datetime.offset.map Offset.text).getD ""

/-- The time that may follow a date, after a letter or a blank. -/
def scanTail : Scanner (Time × Option Offset) := do
  let _ ← Scanner.letterWhere fun letter => letter ∈ ['T', 't', ' ']
  let time ← Time.scan
  let offset ← Scanner.optional Offset.scan
  return (time, offset)

/-- A date, possibly with a time, or a time alone. -/
def scan : Scanner Datetime :=
  (do
    let date ← Date.scan
    match ← Scanner.optional scanTail with
    | some (time, offset) => return { date := some date, time := some time, offset }
    | none => return { date := some date }) <|>
  (do
    let time ← Time.scan
    return { time := some time })

/-- The date or time that a whole text writes. -/
def parse? (text : String) : Option Datetime := Scanner.whole? scan text.toList

end Datetime

end ClassAtlas.Toml
