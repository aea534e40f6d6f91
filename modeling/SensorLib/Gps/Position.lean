import SensorLib.Text.Calendar

/-! # Positions in the reports of gpsd

The fields of a report are looked up in its line as a text. Rounding of
numbers to `long double` is left open, and so is the clock.
-/

namespace SensorLib.Gps

open CString

/-- The first member of a name, as far as a text search tells. `pattern` has room for 64 bytes with
its NUL, and is never empty. -/
def jsonFindValue (json key : Text) : Option Text :=
  let pattern := 34 :: key ++ [34, 58]
  if 64 ≤ pattern.length then none
  else (strstr pattern json).map fun value => skipSpaces (value.drop pattern.length)

/-- What the code takes from the C library: the time of the call, and the value of the characters
that `strtold` converts. -/
structure Libc (LongDouble : Type) where
  time : Int
  longDouble : Text → LongDouble
  zero : LongDouble

variable {LongDouble : Type} (C : Libc LongDouble)

def jsonParseNumber (json key : Text) : Option LongDouble :=
  (jsonFindValue json key).bind fun value => (floatingSubject value).map C.longDouble

def jsonParseInt (json key : Text) : Option Int :=
  (jsonFindValue json key).bind fun value => (strtol value).map toInt

/-- The loop of `json_parse_string`: the bytes that are stored, and where it stops. -/
def copyUnescaped : Nat → Text → Text × Text
  | 0, value => ([], value)
  | _ + 1, [] => ([], [])
  | room + 1, b :: value =>
    if b = 34 then ([], b :: value)
    else
      match b, value with
      | 92, c :: value =>
        let (stored, rest) := copyUnescaped room value
        (c :: stored, rest)
      | _, _ =>
        let (stored, rest) := copyUnescaped room value
        (b :: stored, rest)

/-- What is left in `value_out`, if it is written at all, and the result. -/
def jsonParseString (json key : Text) (valueOutSize : Nat) : Option Text × Bool :=
  match jsonFindValue json key with
  | some (34 :: value) =>
    if valueOutSize = 0 then (none, false)
    else
      let (stored, rest) := copyUnescaped (valueOutSize - 1) value
      (some stored, rest.head? = some 34)
  | _ => (none, false)

/-- `"%Y-%m-%dT%H:%M:%S"`. -/
def gpsTimeFormat : List TimeField :=
  [.number 4 0 9999, .separator 45, .number 2 1 12, .separator 45, .number 2 1 31, .separator 84,
    .number 2 0 23, .separator 58, .number 2 0 59, .separator 58, .number 2 0 61]

def parseGpsTime (isoTime : Text) : Option Int :=
  match strptime gpsTimeFormat isoTime with
  | some [year, month, day, hour, minute, second] => some (timegm year month day hour minute second)
  | _ => none

structure Lla (LongDouble : Type) where
  lat : LongDouble
  lon : LongDouble
  alt : LongDouble
  deriving DecidableEq, Repr

/-- The mode is an `int` from the text, which need not be one of the named ones. -/
structure PositionInfo (LongDouble : Type) where
  position : Lla LongDouble
  timestamp : Int
  mode : Int
  deriving DecidableEq, Repr

def modeNotSeen : Int := 0

def modeNoFix : Int := 1

/-- The timestamp after a report was read, where it was `timestamp` before. -/
def readTime (line : Text) (timestamp : Int) : Int :=
  match jsonParseString line (ascii "time") 64 with
  | (some timeBuf, true) => (parseGpsTime timeBuf).getD timestamp
  | _ => timestamp

def readAltitude (line : Text) : Option LongDouble :=
  match jsonParseNumber C line (ascii "altHAE") with
  | some alt => some alt
  | none => jsonParseNumber C line (ascii "alt")

/-- The position after a report that is accepted. -/
def gpsParseTpv (line : Text) (position : PositionInfo LongDouble) :
    Option (PositionInfo LongDouble) :=
  if strstr (ascii "\"class\":\"TPV\"") line = none then none
  else
    some
      { position with
        mode := (jsonParseInt line (ascii "mode")).getD modeNotSeen
        position :=
          { lat := (jsonParseNumber C line (ascii "lat")).getD C.zero
            lon := (jsonParseNumber C line (ascii "lon")).getD C.zero
            alt := (readAltitude C line).getD C.zero }
        timestamp := readTime line C.time }

def gpsParsePoll (line : Text) (position : PositionInfo LongDouble) :
    Option (PositionInfo LongDouble) :=
  if strstr (ascii "\"class\":\"POLL\"") line = none then none
  else
    let active := (jsonParseInt line (ascii "active")).getD 0
    some
      { position with
        mode := if 0 < active then modeNoFix else modeNotSeen
        timestamp := readTime line position.timestamp }

end SensorLib.Gps
