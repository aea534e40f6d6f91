import SensorLib.Gps.Members
import SensorLib.Gps.Stream
import SensorLib.Gps.Strings
import SensorLib.Text.CivilTime
import SensorLib.Text.JsonValues

/-! # The report that a position comes from

gpsd writes one JSON document in a line. The first one of the class TPV is the
position, however the lines arrive.
-/

namespace SensorLib.Gps

open CString Json Comms

variable {LongDouble : Type} (C : Libc LongDouble)

/-- A line that has room in the buffer. -/
structure GpsdLine where
  text : Text
  newline : 10 ∉ text
  nul : 0 ∉ text
  fits : text.length ≤ 4094

def GpsdLine.bytes (line : GpsdLine) : Text := line.text ++ [10]

def GpsdLine.IsTpv (line : GpsdLine) : Prop := ascii "\"class\":\"TPV\"" <:+: line.text

instance (line : GpsdLine) : Decidable line.IsTpv :=
  inferInstanceAs (Decidable (ascii "\"class\":\"TPV\"" <:+: line.text))

/-- `2024-02-29T12:34:56`. -/
def printedTime (t : CivilTime) : Text :=
  padded 4 t.date.year ++ 45 :: (padded 2 t.date.month ++ 45 :: (padded 2 t.date.day ++ 84 ::
    (padded 2 t.hour ++ 58 :: (padded 2 t.minute ++ 58 :: padded 2 t.second))))

/-- What the report says of the fix, by the first member of every name. -/
def reportedFix (d : Document) : Fix LongDouble :=
  let number key := ((d.first (ascii key)).bind Value.asNumber).map fun n => C.longDouble n.text
  { mode := (((d.first (ascii "mode")).bind Value.asNumber).map fun n => toInt n.toLong).getD modeNotSeen
    lat := (number "lat").getD C.zero
    lon := (number "lon").getD C.zero
    alt := ((number "altHAE").or (number "alt")).getD C.zero }

/-- When the report was made, in seconds since the epoch, or the time of the call if it does not
say. -/
inductive ReportedTime (d : Document) : Int → Prop
  | now (h : d.first (ascii "time") = none) : ReportedTime d C.time
  | printed {n : Nat} {zone : Text} (hyear : (CivilTime.after n).date.year < 10000)
      (hzone : zone.length ≤ 44)
      (hplain : ∀ b ∈ printedTime (CivilTime.after n) ++ zone, isPlain b)
      (h : d.first (ascii "time") =
        some (.string (plainString (printedTime (CivilTime.after n) ++ zone) hplain))) :
      ReportedTime d n

variable {C}

/-! ## Times -/

theorem parseGpsTime_printedTime {t : CivilTime} (hyear : t.date.year < 10000) (zone : Text) :
    parseGpsTime (printedTime t ++ zone) = some t.seconds := by
  have hmonth := t.date.month_mem
  have hday := t.date.day_mem
  have hdays := (daysInMonth_mem t.date.year t.date.month).2
  have hhour := t.hour_lt
  have hminute := t.minute_lt
  have hsecond := t.second_lt
  have htext : printedTime t ++ zone = padded 4 t.date.year ++ 45 :: (padded 2 t.date.month ++ 45 ::
      (padded 2 t.date.day ++ 84 :: (padded 2 t.hour ++ 58 :: (padded 2 t.minute ++ 58 ::
        (padded 2 t.second ++ zone))))) := by
    simp [printedTime]
  have hread : strptime gpsTimeFormat (printedTime t ++ zone) =
      some [t.date.year, t.date.month, t.date.day, t.hour, t.minute, t.second] := by
    rw [htext, gpsTimeFormat,
      strptime_number (by decide) (by omega) (by omega) (by omega), strptime_separator,
      strptime_number (by decide) (by omega) (by omega) (by omega), strptime_separator,
      strptime_number (by decide) (by omega) (by omega) (by omega), strptime_separator,
      strptime_number (by decide) (by omega) (by omega) (by omega), strptime_separator,
      strptime_number (by decide) (by omega) (by omega) (by omega), strptime_separator,
      strptime_number (by decide) (by omega) (by omega) (by omega)]
    rfl
  rw [parseGpsTime, hread]
  rfl

theorem length_printedTime (t : CivilTime) : (printedTime t).length = 19 := by
  simp [printedTime, length_padded]

theorem escaped_plain {t : Text} (h : ∀ b ∈ t, isPlain b) : escaped t = t := by
  induction t with
  | nil => rfl
  | cons b t ih =>
    have hb := h b List.mem_cons_self
    have hplain : ¬ (b = 34 ∨ b = 92) := by
      rintro (rfl | rfl) <;> exact absurd hb (by decide)
    have hrest := ih fun c hc => h c (List.mem_cons_of_mem b hc)
    rw [escaped, List.flatMap_cons, if_neg hplain, ← escaped, hrest, List.singleton_append]

/-- A string without escapes that has room is stored as it is written. -/
theorem jsonParseString_plain {d : Document} {key t : Text} (hkey : IsKey key) (hlength : key.length ≤ 60)
    (hplain : ∀ b ∈ t, isPlain b) (h : d.first key = some (.string (plainString t hplain))) {size : Nat}
    (hfits : t.length < size) : jsonParseString d.text key size = (some t, true) := by
  obtain ⟨rest, hfind, -⟩ := Document.afterLabel_first hkey h
  have hvalue : (Value.string (plainString t hplain)).text ++ rest = 34 :: (escaped t ++ 34 :: rest) := by
    rw [Value.text, plainString_text, escaped_plain hplain]
    simp
  rw [hvalue] at hfind
  rw [jsonParseString, jsonFindValue_eq_afterLabel hlength, hfind]
  have hcopy := copyUnescaped_escaped (size - 1) t rest
  have htake : t.take (size - 1) = t := List.take_of_length_le (by omega)
  have hdrop : t.drop (size - 1) = [] := List.drop_eq_nil_of_le (by omega)
  simp only [if_neg (show size ≠ 0 by omega), hcopy, htake, hdrop]
  rfl

theorem isKey_time : IsKey (ascii "time") := ⟨by decide, List.all_eq_true.mp rfl⟩

theorem ReportedTime.readTime_eq {d : Document} {time : Int} (h : ReportedTime C d time) :
    readTime d.text C.time = time := by
  rw [readTime]
  cases h with
  | now h =>
    rw [jsonParseString, jsonFindValue_eq_afterLabel (by decide), Document.afterLabel_missing isKey_time h]
  | @printed n zone hyear hzone hplain h =>
    have hfits : (printedTime (CivilTime.after n) ++ zone).length < 64 := by
      rw [List.length_append, length_printedTime]
      omega
    rw [jsonParseString_plain isKey_time (by decide) hplain h hfits]
    show (parseGpsTime (printedTime (CivilTime.after n) ++ zone)).getD C.time = n
    rw [parseGpsTime_printedTime hyear, CivilTime.seconds_after, Option.getD_some]

/-! ## The fix -/

/-- What a conversion makes of the first member of a name, if that is a number. -/
theorem jsonFindValue_number {β : Type} {convert : Text → Option β} {f : Number → β}
    (hconvert : ∀ (v : Value) (rest : Text), Closes rest →
      convert (v.text ++ rest) = v.asNumber.map f)
    {key : Text} (hkey : IsKey key) (hlength : key.length ≤ 60) (d : Document) :
    (jsonFindValue d.text key).bind convert = ((d.first key).bind Value.asNumber).map f := by
  rw [jsonFindValue_eq_afterLabel hlength]
  cases hfirst : d.first key with
  | none => rw [Document.afterLabel_missing hkey hfirst, Option.bind_none, Option.bind_none, Option.map_none]
  | some v =>
    obtain ⟨rest, hfind, hrest⟩ := Document.afterLabel_first hkey hfirst
    rw [hfind, Option.bind_some, Option.bind_some, hconvert v rest hrest]

theorem readFix_report (d : Document) : readFix C (jsonFindValue d.text) = reportedFix C d := by
  have hkey : ∀ {key : Text}, key ≠ [] → key.all isalpha = true → IsKey key := fun hne hall =>
    ⟨hne, List.all_eq_true.mp hall⟩
  have hnumber : ∀ {key : Text}, IsKey key → key.length ≤ 60 →
      ((jsonFindValue d.text key).bind fun value => (floatingSubject value).map C.longDouble) =
        ((d.first key).bind Value.asNumber).map fun n => C.longDouble n.text := by
    intro key hk hlength
    apply jsonFindValue_number _ hk hlength
    intro v rest hrest
    rw [v.floatingSubject_text hrest, Option.map_map]
    rfl
  have hmode : ((jsonFindValue d.text (ascii "mode")).bind fun value => (strtol value).map toInt) =
      ((d.first (ascii "mode")).bind Value.asNumber).map fun n => toInt n.toLong := by
    apply jsonFindValue_number _ (hkey (by decide) rfl) (by decide)
    intro v rest hrest
    rw [v.strtol_text hrest, Option.map_map]
    rfl
  have hlat := @hnumber (ascii "lat") (hkey (by decide) rfl) (by decide)
  have hlon := @hnumber (ascii "lon") (hkey (by decide) rfl) (by decide)
  have haltHAE := @hnumber (ascii "altHAE") (hkey (by decide) rfl) (by decide)
  have halt := @hnumber (ascii "alt") (hkey (by decide) rfl) (by decide)
  simp only [readFix, reportedFix, hmode, hlat, hlon, haltHAE, halt]

def Fix.position (fix : Fix LongDouble) (timestamp : Int) : PositionInfo LongDouble where
  position := { lat := fix.lat, lon := fix.lon, alt := fix.alt }
  timestamp
  mode := fix.mode

theorem gpsParseTpv_report {line : GpsdLine} (hline : line.IsTpv) {d : Document} (htext : line.text = d.text)
    (position : PositionInfo LongDouble) :
    gpsParseTpv C line.text position = some ((reportedFix C d).position (readTime d.text C.time)) := by
  obtain ⟨found, hfound⟩ := exists_strstr hline
  have hparse : ∃ position', gpsParseTpv C line.text position = some position' ∧
      position'.timestamp = readTime line.text C.time := by
    rw [gpsParseTpv, if_neg (by rw [hfound]; exact Option.some_ne_none found)]
    exact ⟨_, rfl, rfl⟩
  obtain ⟨position', hposition, htimestamp⟩ := hparse
  have hfix := fix_gpsParseTpv hposition
  rw [htext, readFix_report] at hfix
  rw [htext] at htimestamp
  rw [hposition, ← hfix, ← htimestamp]
  rfl

theorem gpsParseTpv_other {line : GpsdLine} (hline : ¬ line.IsTpv) (position : PositionInfo LongDouble) :
    gpsParseTpv C line.text position = none := by
  rw [gpsParseTpv, if_pos]
  apply Option.eq_none_iff_forall_ne_some.mpr
  intro found hfound
  exact hline ((prefix_of_strstr hfound).isInfix.trans (strstr_suffix hfound).isInfix)

/-! ## The stream -/

theorem usableLines_bytes (lines : List GpsdLine) (rest : Text) :
    usableLines (lines.flatMap GpsdLine.bytes ++ rest) = lines.map GpsdLine.text ++ usableLines rest := by
  induction lines with
  | nil => rfl
  | cons line lines ih =>
    have htext : (line :: lines).flatMap GpsdLine.bytes ++ rest =
        line.text ++ 10 :: (lines.flatMap GpsdLine.bytes ++ rest) := by
      simp [GpsdLine.bytes]
    rw [htext, usableLines_cons line.newline line.nul line.fits, ih]
    rfl

theorem follow_others {lines : List GpsdLine} (hlines : ∀ line ∈ lines, ¬ line.IsTpv)
    (reading : Reading LongDouble) (more : List Text) :
    ∃ reading', follow C reading (lines.map GpsdLine.text ++ more) = follow C reading' more := by
  induction lines generalizing reading with
  | nil => exact ⟨reading, rfl⟩
  | cons line lines ih =>
    obtain ⟨reading', hfollow⟩ := ih (fun other hother => hlines other (List.mem_cons_of_mem line hother))
      (reading.poll line.text)
    refine ⟨reading', ?_⟩
    rw [List.map_cons, List.cons_append, follow, gpsParseTpv_other (hlines line List.mem_cons_self)]
    exact hfollow

/-- A fix on a leap day. -/
def leapTime : CivilTime where
  date := ⟨2024, 2, 29, by decide, by decide⟩
  hour := 12
  minute := 34
  second := 56
  hour_lt := by decide
  minute_lt := by decide
  second_lt := by decide

def decimal (negative : Bool) (whole : Digits) (hwhole : whole.1.head? = some 48 → whole.1.length = 1)
    (fraction : Option Digits) : Value := .number ⟨negative, whole, hwhole, fraction, none⟩

def leapReport : Document where
  before := noBlanks
  value := tpvObject
    (.cons ⟨ascii "time", List.all_eq_true.mp rfl⟩
        (.string (plainString (printedTime leapTime ++ ascii ".000Z") (List.all_eq_true.mp rfl)))
      (.cons ⟨ascii "lon", List.all_eq_true.mp rfl⟩
          (decimal true ⟨ascii "12", List.cons_ne_nil _ _, List.all_eq_true.mp rfl⟩ nofun
            (some ⟨ascii "5", List.cons_ne_nil _ _, List.all_eq_true.mp rfl⟩))
        (modeMember ⟨ascii "2", List.cons_ne_nil _ _, List.all_eq_true.mp rfl⟩ fun _ => rfl)))
  after := noBlanks

theorem reportedTime_leapReport : ReportedTime writtenNumbers leapReport 1709210096 := by
  have hafter : CivilTime.after 1709210096 = leapTime :=
    CivilTime.after_seconds (by decide) (by decide +kernel)
  have hplain : ∀ b ∈ printedTime (CivilTime.after 1709210096) ++ ascii ".000Z", isPlain b := by
    rw [hafter]
    exact List.all_eq_true.mp rfl
  apply ReportedTime.printed _ _ hplain
  · simp only [hafter]
    rfl
  · rw [hafter]
    decide
  · decide

def leapLine : GpsdLine := ⟨leapReport.text, by decide +kernel, by decide +kernel, by decide +kernel⟩

def versionLine : GpsdLine :=
  ⟨ascii "\x7b\"class\":\"VERSION\"\x7d", by decide +kernel, by decide +kernel, by decide +kernel⟩

end SensorLib.Gps
