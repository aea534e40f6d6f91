import SensorLib.Text.Calendar
import Mathlib.Logic.Function.Iterate
import Mathlib.Tactic.IntervalCases
import Mathlib.Tactic.Positivity
import Mathlib.Tactic.Ring

/-! # The calendar behind `timegm`

The days of the Gregorian calendar follow each other by the length of its months,
and `timegm` counts the seconds. `strptime` reads the numbers of a time as they
are printed.
-/

namespace CString

/-! ## Days and seconds -/

def isLeapYear (year : Nat) : Prop := year % 4 = 0 ∧ (year % 100 ≠ 0 ∨ year % 400 = 0)

instance (year : Nat) : Decidable (isLeapYear year) :=
  inferInstanceAs (Decidable (year % 4 = 0 ∧ (year % 100 ≠ 0 ∨ year % 400 = 0)))

def daysInMonth (year : Nat) : Nat → Nat
  | 2 => if isLeapYear year then 29 else 28
  | 4 | 6 | 9 | 11 => 30
  | _ => 31

@[ext]
structure CivilDate where
  year : Nat
  month : Nat
  day : Nat
  month_mem : 1 ≤ month ∧ month ≤ 12
  day_mem : 1 ≤ day ∧ day ≤ daysInMonth year month

@[ext]
structure CivilTime where
  date : CivilDate
  hour : Nat
  minute : Nat
  second : Nat
  hour_lt : hour < 24
  minute_lt : minute < 60
  second_lt : second < 60

theorem daysInMonth_mem (year month : Nat) : 28 ≤ daysInMonth year month ∧
    daysInMonth year month ≤ 31 := by
  fun_cases daysInMonth <;> omega

theorem one_le_daysInMonth (year month : Nat) : 1 ≤ 1 ∧ 1 ≤ daysInMonth year month :=
  ⟨le_rfl, (by decide : 1 ≤ 28).trans (daysInMonth_mem year month).1⟩

def CivilDate.next (d : CivilDate) : CivilDate :=
  if hday : d.day < daysInMonth d.year d.month then
    { d with
      day := d.day + 1
      day_mem := ⟨Nat.le_add_left 1 d.day, hday⟩ }
  else if hmonth : d.month < 12 then
    { year := d.year
      month := d.month + 1
      day := 1
      month_mem := ⟨Nat.le_add_left 1 d.month, hmonth⟩
      day_mem := one_le_daysInMonth d.year (d.month + 1) }
  else
    { year := d.year + 1
      month := 1
      day := 1
      month_mem := by decide
      day_mem := one_le_daysInMonth (d.year + 1) 1 }

def CivilTime.next (t : CivilTime) : CivilTime :=
  if hsecond : t.second + 1 < 60 then { t with second := t.second + 1, second_lt := hsecond }
  else if hminute : t.minute + 1 < 60 then
    { t with
      minute := t.minute + 1
      second := 0
      minute_lt := hminute
      second_lt := by decide }
  else if hhour : t.hour + 1 < 24 then
    { t with
      hour := t.hour + 1
      minute := 0
      second := 0
      hour_lt := hhour
      minute_lt := by decide
      second_lt := by decide }
  else
    { date := t.date.next
      hour := 0
      minute := 0
      second := 0
      hour_lt := by decide
      minute_lt := by decide
      second_lt := by decide }

def CivilTime.epoch : CivilTime where
  date := ⟨1970, 1, 1, by decide, by decide⟩
  hour := 0
  minute := 0
  second := 0
  hour_lt := by decide
  minute_lt := by decide
  second_lt := by decide

/-- The time so many seconds after the epoch. -/
def CivilTime.after (n : Nat) : CivilTime := CivilTime.next^[n] CivilTime.epoch

def CivilDate.days (d : CivilDate) : Int := daysToMonth d.year d.month + (d.day - 1)

def CivilTime.seconds (t : CivilTime) : Int :=
  timegm t.date.year t.date.month t.date.day t.hour t.minute t.second

theorem daysToMonth_succ (year : Nat) {month : Nat} (hpos : 1 ≤ month) (hlt : month < 12) :
    daysToMonth year (month + 1) = daysToMonth year month + daysInMonth year month := by
  interval_cases month <;> simp [daysToMonth, daysInMonth] <;> grind [isLeapYear]

theorem daysToMonth_newYear (year : Nat) :
    daysToMonth (year + 1) 1 = daysToMonth year 12 + daysInMonth year 12 := by
  simp [daysToMonth, daysInMonth]
  omega

theorem CivilDate.days_next (d : CivilDate) : d.next.days = d.days + 1 := by
  have hmonth := d.month_mem
  have hday := d.day_mem
  rw [CivilDate.next]
  split
  · simp only [CivilDate.days]
    omega
  · rename_i hlast
    split
    · rename_i hdecember
      have hsucc := daysToMonth_succ d.year hmonth.1 hdecember
      simp only [CivilDate.days, hsucc]
      omega
    · have hmonth : d.month = 12 := by omega
      have hsucc := daysToMonth_newYear d.year
      rw [hmonth] at hday hlast
      simp only [CivilDate.days, hsucc, hmonth]
      omega

theorem CivilTime.seconds_eq (t : CivilTime) :
    t.seconds = (t.date.days * 24 + t.hour) * 3600 + t.minute * 60 + t.second := rfl

theorem CivilTime.seconds_next (t : CivilTime) : t.next.seconds = t.seconds + 1 := by
  have hhour := t.hour_lt
  have hminute := t.minute_lt
  have hsecond := t.second_lt
  have hdays := t.date.days_next
  rw [CivilTime.next]
  split
  · simp only [CivilTime.seconds_eq]
    omega
  · split
    · simp only [CivilTime.seconds_eq]
      omega
    · split
      · simp only [CivilTime.seconds_eq]
        omega
      · simp only [CivilTime.seconds_eq, hdays]
        omega

/-- `timegm` counts the seconds of the calendar. -/
theorem CivilTime.seconds_after (n : Nat) : (CivilTime.after n).seconds = n := by
  induction n with
  | zero => rfl
  | succ n ih =>
    rw [CivilTime.after, Function.iterate_succ_apply', CivilTime.seconds_next]
    exact congrArg (· + 1) ih

/-! Since the epoch, every time but the epoch has one before it. -/

theorem CivilDate.exists_prev (d : CivilDate) (hyear : 1970 ≤ d.year)
    (hlater : 1970 < d.year ∨ 1 < d.month ∨ 1 < d.day) : ∃ e : CivilDate, 1970 ≤ e.year ∧ e.next = d := by
  have hmonth := d.month_mem
  have hday := d.day_mem
  by_cases hfirst : 1 < d.day
  · refine ⟨⟨d.year, d.month, d.day - 1, hmonth, by omega, by omega⟩, hyear, ?_⟩
    have hlast : d.day - 1 < daysInMonth d.year d.month := by omega
    rw [CivilDate.next, dif_pos hlast]
    ext
    · rfl
    · rfl
    · show d.day - 1 + 1 = d.day
      omega
  · by_cases hjanuary : 1 < d.month
    · refine ⟨⟨d.year, d.month - 1, daysInMonth d.year (d.month - 1), by omega,
        (one_le_daysInMonth d.year (d.month - 1)).2, le_rfl⟩, hyear, ?_⟩
      have hdecember : d.month - 1 < 12 := by omega
      rw [CivilDate.next, dif_neg (lt_irrefl _), dif_pos hdecember]
      ext
      · rfl
      · show d.month - 1 + 1 = d.month
        omega
      · show 1 = d.day
        omega
    · refine ⟨⟨d.year - 1, 12, daysInMonth (d.year - 1) 12, by decide,
        (one_le_daysInMonth (d.year - 1) 12).2, le_rfl⟩, ?_, ?_⟩
      · show 1970 ≤ d.year - 1
        omega
      rw [CivilDate.next, dif_neg (lt_irrefl _), dif_neg (lt_irrefl _)]
      ext
      · show d.year - 1 + 1 = d.year
        omega
      · show 1 = d.month
        omega
      · show 1 = d.day
        omega

theorem CivilTime.exists_prev (t : CivilTime) (hyear : 1970 ≤ t.date.year) (hlater : t ≠ .epoch) :
    ∃ u : CivilTime, 1970 ≤ u.date.year ∧ u.next = t := by
  have hhour := t.hour_lt
  have hminute := t.minute_lt
  have hsecond := t.second_lt
  by_cases hseconds : t.second = 0
  · by_cases hminutes : t.minute = 0
    · by_cases hhours : t.hour = 0
      · have hdate : 1970 < t.date.year ∨ 1 < t.date.month ∨ 1 < t.date.day := by
          have hmonth := t.date.month_mem
          have hday := t.date.day_mem
          by_contra hnone
          apply hlater
          ext
          · show t.date.year = 1970
            omega
          · show t.date.month = 1
            omega
          · show t.date.day = 1
            omega
          · exact hhours
          · exact hminutes
          · exact hseconds
        obtain ⟨d, hd, hnext⟩ := t.date.exists_prev hyear hdate
        refine ⟨⟨d, 23, 59, 59, by decide, by decide, by decide⟩, hd, ?_⟩
        rw [CivilTime.next, dif_neg (by decide : ¬ 59 + 1 < 60), dif_neg (by decide : ¬ 59 + 1 < 60),
          dif_neg (by decide : ¬ 23 + 1 < 24)]
        exact CivilTime.ext hnext hhours.symm hminutes.symm hseconds.symm
      · refine ⟨⟨t.date, t.hour - 1, 59, 59, by omega, by decide, by decide⟩, hyear, ?_⟩
        have hnoon : t.hour - 1 + 1 < 24 := by omega
        rw [CivilTime.next, dif_neg (by decide : ¬ 59 + 1 < 60), dif_neg (by decide : ¬ 59 + 1 < 60),
          dif_pos hnoon]
        refine CivilTime.ext rfl ?_ hminutes.symm hseconds.symm
        show t.hour - 1 + 1 = t.hour
        omega
    · refine ⟨⟨t.date, t.hour, t.minute - 1, 59, hhour, by omega, by decide⟩, hyear, ?_⟩
      have hfull : t.minute - 1 + 1 < 60 := by omega
      rw [CivilTime.next, dif_neg (by decide : ¬ 59 + 1 < 60), dif_pos hfull]
      refine CivilTime.ext rfl rfl ?_ hseconds.symm
      show t.minute - 1 + 1 = t.minute
      omega
  · refine ⟨⟨t.date, t.hour, t.minute, t.second - 1, hhour, hminute, by omega⟩, hyear, ?_⟩
    have hfull : t.second - 1 + 1 < 60 := by omega
    rw [CivilTime.next, dif_pos hfull]
    refine CivilTime.ext rfl rfl rfl ?_
    show t.second - 1 + 1 = t.second
    omega

theorem CivilTime.seconds_nonneg (t : CivilTime) (hyear : 1970 ≤ t.date.year) : 0 ≤ t.seconds := by
  have hmonth := t.date.month_mem
  have hday := t.date.day_mem
  have hdays : 0 ≤ daysToMonth t.date.year t.date.month := by
    rw [daysToMonth]
    split <;> omega
  simp only [CivilTime.seconds_eq, CivilDate.days]
  omega

/-- Every time since the epoch is the one after its seconds. -/
theorem CivilTime.after_seconds {n : Nat} {t : CivilTime} (hyear : 1970 ≤ t.date.year)
    (hn : t.seconds = n) : CivilTime.after n = t := by
  induction n generalizing t with
  | zero =>
    by_contra hlater
    obtain ⟨u, hu, rfl⟩ := t.exists_prev hyear (Ne.symm hlater)
    have hnext := u.seconds_next
    have hnonneg := u.seconds_nonneg hu
    omega
  | succ n ih =>
    have hlater : t ≠ .epoch := by
      rintro rfl
      have hzero : CivilTime.epoch.seconds = 0 := rfl
      omega
    obtain ⟨u, hu, rfl⟩ := t.exists_prev hyear hlater
    have hnext := u.seconds_next
    rw [CivilTime.after, Function.iterate_succ_apply', ← CivilTime.after, ih hu (by omega)]

/-! ## Printed numbers -/

def digitByte (n : Nat) : UInt8 := .ofNat (48 + n)

/-- The last digits of a number, with zeros in front. -/
def padded : Nat → Nat → Text
  | 0, _ => []
  | width + 1, n => digitByte (n / 10 ^ width) :: padded width (n % 10 ^ width)

theorem digitByte_spec {n : Nat} (hn : n < 10) :
    isdigit (digitByte n) = true ∧ digitValue (digitByte n) = n := by
  have hall : ∀ i : Fin 10, isdigit (digitByte i) = true ∧ digitValue (digitByte i) = i := by decide
  exact hall ⟨n, hn⟩

theorem length_padded (width n : Nat) : (padded width n).length = width := by
  induction width generalizing n with
  | zero => rfl
  | succ width ih => rw [padded, List.length_cons, ih]

theorem isdigit_padded {width n : Nat} (hn : n < 10 ^ width) : ∀ b ∈ padded width n, isdigit b := by
  induction width generalizing n with
  | zero => exact fun b hb => by cases hb
  | succ width ih =>
    intro b hb
    rcases List.mem_cons.mp hb with rfl | hb
    · apply (digitByte_spec _).1
      rw [Nat.div_lt_iff_lt_mul (by positivity), ← Nat.pow_succ']
      exact hn
    · exact ih (Nat.mod_lt n (by positivity)) b hb

/-- The number is read behind the digits `a` that were read before it. -/
theorem readNumber_padded {greatest width n a : Nat} (hn : n < 10 ^ width)
    (hle : a * 10 ^ width + n ≤ greatest) (rest : Text) :
    readNumber greatest width a (padded width n ++ rest) = (a * 10 ^ width + n, rest) := by
  induction width generalizing n a with
  | zero =>
    have hzero : n = 0 := by omega
    subst hzero
    simp [readNumber, padded]
  | succ width ih =>
    have hdigit : n / 10 ^ width < 10 := by
      rw [Nat.div_lt_iff_lt_mul (by positivity), ← Nat.pow_succ']
      exact hn
    obtain ⟨hisdigit, hvalue⟩ := digitByte_spec hdigit
    have hsplit := Nat.div_add_mod n (10 ^ width)
    have htotal : (a * 10 + n / 10 ^ width) * 10 ^ width + n % 10 ^ width =
        a * 10 ^ (width + 1) + n := by
      calc (a * 10 + n / 10 ^ width) * 10 ^ width + n % 10 ^ width
          = a * 10 ^ (width + 1) + (10 ^ width * (n / 10 ^ width) + n % 10 ^ width) := by ring
        _ = a * 10 ^ (width + 1) + n := by rw [hsplit]
    have hroom : a * 10 ≤ greatest := by
      have hpow : a * 10 ≤ a * 10 ^ (width + 1) :=
        Nat.mul_le_mul_left a (Nat.le_self_pow (Nat.succ_ne_zero width) 10)
      omega
    rw [padded, List.cons_append, readNumber, if_pos ⟨hisdigit, hroom⟩, hvalue,
      ih (Nat.mod_lt n (by positivity)) (htotal ▸ hle), htotal]

theorem strptime_number {width least greatest n : Nat} (hwidth : width ≠ 0) (hn : n < 10 ^ width)
    (hleast : least ≤ n) (hgreatest : n ≤ greatest) (fields : List TimeField) (rest : Text) :
    strptime (.number width least greatest :: fields) (padded width n ++ rest) =
      (strptime fields rest).map (n :: ·) := by
  obtain ⟨width, rfl⟩ := Nat.exists_eq_succ_of_ne_zero hwidth
  have hdigit : isdigit (digitByte (n / 10 ^ width)) = true :=
    isdigit_padded hn _ List.mem_cons_self
  have hread : readNumber greatest (width + 1) 0 (padded (width + 1) n ++ rest) = (n, rest) := by
    rw [readNumber_padded hn (by omega), Nat.zero_mul, Nat.zero_add]
  have hstart : skipSpaces (padded (width + 1) n ++ rest) = padded (width + 1) n ++ rest :=
    skipSpaces_cons (isspace_of_isdigit hdigit)
  have hhead : (padded (width + 1) n ++ rest).head?.any isdigit = true := hdigit
  rw [strptime, hstart, if_pos hhead, hread]
  exact if_pos ⟨hleast, hgreatest⟩

theorem strptime_separator (b : UInt8) (fields : List TimeField) (rest : Text) :
    strptime (.separator b :: fields) (b :: rest) = strptime fields rest := if_pos rfl

end CString
