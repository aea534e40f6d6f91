import SensorLib.Text.Numbers

/-! # Dates and times in texts

`strptime` for formats of numeric fields and separators, and `timegm`.
-/

namespace CString

/-- What a format asks for next. -/
inductive TimeField
  | number (digits least greatest : Nat)
  | separator (b : UInt8)

/-- At most `digits` digits, as long as another one can still keep within the bounds. -/
def readNumber (greatest : Nat) : Nat → Nat → Text → Nat × Text
  | 0, n, text => (n, text)
  | digits + 1, n, b :: text =>
    if isdigit b ∧ n * 10 ≤ greatest then
      readNumber greatest digits (n * 10 + digitValue b) text
    else (n, b :: text)
  | _ + 1, n, [] => (n, [])

/-- The numbers of the fields of a format, if the text begins with what it asks for. -/
def strptime : List TimeField → Text → Option (List Nat)
  | [], _ => some []
  | .separator _ :: _, [] => none
  | .separator c :: fields, b :: text => if b = c then strptime fields text else none
  | .number digits least greatest :: fields, text =>
    let text := skipSpaces text
    if text.head?.any isdigit then
      let (n, rest) := readNumber greatest digits 0 text
      if least ≤ n ∧ n ≤ greatest then (strptime fields rest).map (n :: ·) else none
    else none

/-- Days from 1970-01-01 to the first day of a month in the proleptic Gregorian calendar, where
years are counted from March. -/
def daysToMonth (year month : Nat) : Int :=
  let y := if month ≤ 2 then year + 399 else year + 400
  let m := if month ≤ 2 then month + 9 else month - 3
  365 * (y : Int) + y / 4 - y / 100 + y / 400 + (153 * m + 2) / 5 - 865565

/-- Seconds since 1970-01-01, of a broken-down time in UTC. -/
def timegm (year month day hour minute second : Nat) : Int :=
  ((daysToMonth year month + (day - 1)) * 24 + hour) * 3600 + minute * 60 + second

end CString
