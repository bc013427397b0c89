import Collections.Bytes

/-!
# Dates and times of day

A moment is a number of seconds since the start of the year 1970. Its date is that of the
Gregorian calendar, without leap seconds or time zones.

Dates repeat every 400 years, which are 146097 days. Years are counted from the first of March, so
that the leap day is the last day of its year; then 153 days make five months.
-/

set_option autoImplicit false

namespace Collections.Text

/-- A number in decimal, filled up with zeros to a width. A minus sign counts. -/
def padded (width : Nat) (number : Int) : Bytes :=
  let sign := if number < 0 then Bytes.ofString "-" else []
  let digits := Bytes.ofNat number.natAbs
  sign ++ List.replicate (width - sign.length - digits.length) 48 ++ digits

/-- A date. -/
structure Date where
  year : Int
  month : Nat
  day : Nat
  deriving DecidableEq, Repr

namespace Date

/-- The date of a day, counted from the first of January 1970. -/
def ofDays (days : Int) : Date :=
  let shifted := days + 719468
  let era := shifted / 146097
  let ofEra := (shifted % 146097).toNat
  let yearOfEra := (ofEra - ofEra / 1460 + ofEra / 36524 - ofEra / 146096) / 365
  let ofYear := ofEra - (365 * yearOfEra + yearOfEra / 4 - yearOfEra / 100)
  let marchMonth := (5 * ofYear + 2) / 153
  let month := if marchMonth < 10 then marchMonth + 3 else marchMonth - 9
  { year := era * 400 + yearOfEra + if month ≤ 2 then 1 else 0
    month
    day := ofYear - (153 * marchMonth + 2) / 5 + 1 }

/-- Year, month and day with dashes between them. -/
def render (date : Date) : Bytes :=
  Bytes.joined (Bytes.ofString "-") [padded 4 date.year, padded 2 date.month, padded 2 date.day]

example : ofDays 0 = ⟨1970, 1, 1⟩ := by decide

example : ofDays (-1) = ⟨1969, 12, 31⟩ := by decide

example : ofDays 11016 = ⟨2000, 2, 29⟩ := by decide

end Date

/-- The time of day of a moment, with colons between hours, minutes and seconds. -/
def timeOfDay (seconds : Int) : Bytes :=
  let ofDay := seconds % 86400
  Bytes.joined (Bytes.ofString ":")
    [padded 2 (ofDay / 3600), padded 2 (ofDay / 60 % 60), padded 2 (ofDay % 60)]

/-- The date and the time of day of a moment. -/
def dateAndTime (seconds : Int) : Bytes :=
  (Date.ofDays (seconds / 86400)).render ++ Bytes.ofString " " ++ timeOfDay seconds

end Collections.Text
