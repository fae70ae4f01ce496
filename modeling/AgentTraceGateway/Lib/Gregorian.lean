import Mathlib.Data.Int.Basic
import Mathlib.Data.List.Lex
import Mathlib.Tactic.Common

/-! # The Gregorian Calendar

  The proleptic Gregorian calendar in UTC: every fourth year is a leap year,
  of the centuries only every fourth, and every day has 86400 seconds. The
  days are counted from the first day of year 0.

  The library names nothing of any program. It offers:

  - `Date`, `DateTime`: a date and a time that exist;
  - `days_before_year_succ`: the count in closed form;
  - `DateTime.instant_lt_instant_iff`: the order of instants is the order of
    the fields, the year first;
  - `DateTime.unix_ns`: the nanoseconds since the Unix epoch. -/

namespace AgentTraceGateway.Gregorian

/-! ### Years and months -/

def is_leap (year : Nat) : Bool := year % 4 == 0 && (year % 100 != 0 || year % 400 == 0)

def year_length (leap : Bool) : Nat := if leap then 366 else 365

def month_length (leap : Bool) : Nat → Nat
  | 2 => if leap then 29 else 28
  | 4 | 6 | 9 | 11 => 30
  | _ => 31

theorem month_length_le (leap : Bool) (month : Nat) : month_length leap month ≤ 31 := by
  unfold month_length
  split
  · cases leap <;> decide
  all_goals decide

/-- The days of the years before one. -/
def days_before_year : Nat → Nat
  | 0 => 0
  | year + 1 => days_before_year year + year_length (is_leap year)

/-- The days of a year's months before one. -/
def days_before_month (leap : Bool) : Nat → Nat
  | 0 | 1 => 0
  | month + 2 => days_before_month leap (month + 1) + month_length leap (month + 1)

/-- A leap day for every fourth year, less the centuries that have none. -/
theorem days_before_year_succ (year : Nat) :
    days_before_year (year + 1) = 365 * year + year / 4 - year / 100 + year / 400 + 366 := by
  induction year with
  | zero => rfl
  | succ year ih =>
    have hleap : is_leap (year + 1) = true
        ↔ (year + 1) % 4 = 0 ∧ ((year + 1) % 100 ≠ 0 ∨ (year + 1) % 400 = 0) := by
      simp [is_leap]
    rw [days_before_year, ih]
    unfold year_length
    split_ifs with h
    · have := hleap.mp h
      omega
    · have := mt hleap.mpr h
      omega

theorem days_before_year_mono {year year' : Nat} (h : year ≤ year') :
    days_before_year year ≤ days_before_year year' := by
  induction year', h using Nat.le_induction with
  | base => exact le_rfl
  | succ year' _ ih => exact ih.trans (Nat.le_add_right _ _)

theorem days_before_month_succ (leap : Bool) {month : Nat} (h : 0 < month) :
    days_before_month leap (month + 1)
      = days_before_month leap month + month_length leap month := by
  cases month with
  | zero => exact absurd h (lt_irrefl 0)
  | succ month => rfl

theorem days_before_month_mono (leap : Bool) {month month' : Nat} (hpos : 0 < month)
    (h : month ≤ month') : days_before_month leap month ≤ days_before_month leap month' := by
  induction month', h using Nat.le_induction with
  | base => exact le_rfl
  | succ month' hle ih =>
    rw [days_before_month_succ leap (hpos.trans_le hle)]
    exact ih.trans (Nat.le_add_right _ _)

/-- Twelve months make the year. -/
theorem days_before_month_thirteen (leap : Bool) :
    days_before_month leap 13 = year_length leap := by
  cases leap <;> rfl

/-! ### Dates -/

structure Date where
  year : Nat
  month : Nat
  day : Nat
  month_pos : 0 < month
  month_le : month ≤ 12
  day_pos : 0 < day
  day_le : day ≤ month_length (is_leap year) month
  deriving DecidableEq

/-- The days before a date. -/
def Date.number (d : Date) : Nat :=
  days_before_year d.year + days_before_month (is_leap d.year) d.month + (d.day - 1)

namespace Date

theorem number_lt_month_end (d : Date) :
    d.number < days_before_year d.year + days_before_month (is_leap d.year) (d.month + 1) := by
  have hmonth := days_before_month_succ (is_leap d.year) d.month_pos
  have hpos := d.day_pos
  have hle := d.day_le
  rw [number, hmonth]
  omega

theorem number_lt_year_end (d : Date) : d.number < days_before_year (d.year + 1) := by
  have hmonth := days_before_month_mono (is_leap d.year) (Nat.succ_pos d.month)
    (Nat.succ_le_succ d.month_le)
  rw [days_before_month_thirteen] at hmonth
  exact d.number_lt_month_end.trans_le (Nat.add_le_add_left hmonth _)

/-- An earlier year, an earlier month of the year or an earlier day of the
    month is an earlier date. -/
theorem number_lt_of_year {a b : Date} (h : a.year < b.year) : a.number < b.number :=
  calc a.number < days_before_year (a.year + 1) := a.number_lt_year_end
    _ ≤ days_before_year b.year := days_before_year_mono h
    _ ≤ b.number := (Nat.le_add_right _ _).trans (Nat.le_add_right _ _)

theorem number_lt_of_month {a b : Date} (hyear : a.year = b.year) (h : a.month < b.month) :
    a.number < b.number := by
  have hmonth := days_before_month_mono (is_leap b.year) (Nat.succ_pos a.month) h
  calc a.number < days_before_year a.year + days_before_month (is_leap a.year) (a.month + 1) :=
        a.number_lt_month_end
    _ = days_before_year b.year + days_before_month (is_leap b.year) (a.month + 1) := by rw [hyear]
    _ ≤ days_before_year b.year + days_before_month (is_leap b.year) b.month :=
        Nat.add_le_add_left hmonth _
    _ ≤ b.number := Nat.le_add_right _ _

theorem number_lt_of_day {a b : Date} (hyear : a.year = b.year) (hmonth : a.month = b.month)
    (h : a.day < b.day) : a.number < b.number := by
  have hpos := a.day_pos
  rw [number, number, hyear, hmonth]
  omega

end Date

/-! ### Times -/

/-- A date with a time of the day, in UTC. -/
structure DateTime extends Date where
  hour : Nat
  minute : Nat
  second : Nat
  nanos : Nat
  hour_lt : hour < 24
  minute_lt : minute < 60
  second_lt : second < 60
  nanos_lt : nanos < 1000000000
  deriving DecidableEq

namespace DateTime

def seconds (t : DateTime) : Nat :=
  t.toDate.number * 86400 + t.hour * 3600 + t.minute * 60 + t.second

/-- The nanoseconds from the first instant of year 0. -/
def instant (t : DateTime) : Nat := t.seconds * 1000000000 + t.nanos

def epoch : DateTime :=
  ⟨⟨1970, 1, 1, by decide, by decide, by decide, by decide⟩, 0, 0, 0, 0, by decide, by decide,
    by decide, by decide⟩

/-- The nanoseconds since the first instant of 1970. -/
def unix_ns (t : DateTime) : Int := (t.instant : Int) - (epoch.instant : Int)

theorem epoch_number : epoch.toDate.number = 719528 := by
  rw [Date.number, show epoch.toDate.year = 1969 + 1 from rfl, days_before_year_succ]
  rfl

/-- The fields of a time, the year first. -/
def fields (t : DateTime) : List Nat :=
  [t.year, t.month, t.day, t.hour, t.minute, t.second, t.nanos]

/-- The time with the given fields, where there is one. -/
def of_fields : List Nat → Option DateTime
  | [year, month, day, hour, minute, second, nanos] =>
    if hdate : (0 < month ∧ month ≤ 12) ∧ 0 < day ∧ day ≤ month_length (is_leap year) month then
      if htime : (hour < 24 ∧ minute < 60) ∧ second < 60 ∧ nanos < 1000000000 then
        some ⟨⟨year, month, day, hdate.1.1, hdate.1.2, hdate.2.1, hdate.2.2⟩, hour, minute, second,
          nanos, htime.1.1, htime.1.2, htime.2.1, htime.2.2⟩
      else none
    else none
  | _ => none

theorem of_fields_fields (t : DateTime) : of_fields t.fields = some t := by
  have hdate : (0 < t.month ∧ t.month ≤ 12)
      ∧ 0 < t.day ∧ t.day ≤ month_length (is_leap t.year) t.month :=
    ⟨⟨t.month_pos, t.month_le⟩, t.day_pos, t.day_le⟩
  have htime : (t.hour < 24 ∧ t.minute < 60) ∧ t.second < 60 ∧ t.nanos < 1000000000 :=
    ⟨⟨t.hour_lt, t.minute_lt⟩, t.second_lt, t.nanos_lt⟩
  rw [fields, of_fields, dif_pos hdate, dif_pos htime]

/-! ### The order of instants -/

/-- The time of the day does not reach the next day. -/
theorem seconds_lt_of_number {a b : DateTime} (h : a.toDate.number < b.toDate.number) :
    a.seconds < b.seconds := by
  have hhour := a.hour_lt
  have hminute := a.minute_lt
  have hsecond := a.second_lt
  unfold seconds
  omega

theorem instant_lt_of_seconds {a b : DateTime} (h : a.seconds < b.seconds) :
    a.instant < b.instant := by
  have hnanos := a.nanos_lt
  unfold instant
  omega

/-- The first field that differs decides which instant is earlier. -/
theorem instant_lt_of_fields {a b : DateTime} (h : a.fields < b.fields) :
    a.instant < b.instant := by
  simp only [fields, List.cons_lt_cons_iff, List.not_lt_nil, and_false, or_false] at h
  have hnumber : a.year = b.year → a.month = b.month → a.day = b.day →
      a.toDate.number = b.toDate.number := by
    intro hyear hmonth hday
    rw [Date.number, Date.number, hyear, hmonth, hday]
  have hminute := a.minute_lt
  have hsecond := a.second_lt
  rcases h with hlt | ⟨hyear, h⟩
  · exact instant_lt_of_seconds (seconds_lt_of_number (Date.number_lt_of_year hlt))
  rcases h with hlt | ⟨hmonth, h⟩
  · exact instant_lt_of_seconds (seconds_lt_of_number (Date.number_lt_of_month hyear hlt))
  rcases h with hlt | ⟨hday, h⟩
  · exact instant_lt_of_seconds (seconds_lt_of_number (Date.number_lt_of_day hyear hmonth hlt))
  -- one day: the time of the day decides
  have hday := hnumber hyear hmonth hday
  rcases h with hlt | ⟨hhour, hlt | ⟨hminute, hlt | ⟨hsecond, hlt⟩⟩⟩
  · refine instant_lt_of_seconds ?_
    unfold seconds
    omega
  · refine instant_lt_of_seconds ?_
    unfold seconds
    omega
  · refine instant_lt_of_seconds ?_
    unfold seconds
    omega
  · have hseconds : a.seconds = b.seconds := by
      rw [seconds, seconds, hday, hhour, hminute, hsecond]
    rw [instant, instant, hseconds]
    omega

theorem eq_of_fields {a b : DateTime} (h : a.fields = b.fields) : a = b :=
  Option.some.inj (by rw [← of_fields_fields a, h, of_fields_fields])

/-- Instants are ordered as the fields are, the year first. -/
theorem instant_lt_instant_iff {a b : DateTime} : a.instant < b.instant ↔ a.fields < b.fields := by
  constructor
  · intro h
    rcases lt_trichotomy a.fields b.fields with hlt | heq | hgt
    · exact hlt
    · rw [eq_of_fields heq] at h
      exact absurd h (lt_irrefl _)
    · exact absurd h (instant_lt_of_fields hgt).asymm
  · exact instant_lt_of_fields

theorem unix_ns_lt_unix_ns_iff {a b : DateTime} : a.unix_ns < b.unix_ns ↔ a.fields < b.fields := by
  rw [← instant_lt_instant_iff]
  unfold unix_ns
  omega

end DateTime

end AgentTraceGateway.Gregorian
