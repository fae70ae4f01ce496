import AgentTraceGateway.Export.Otlp
import AgentTraceGateway.Lib.FixedWidth
import AgentTraceGateway.Lib.Gregorian

/-! # The Completion Start's Timestamp

  `iso8601_z` turns nanoseconds since the Unix epoch into a civil date and
  time. It counts the days from the first of March of year 0: there a leap
  day is the last day of its year, and 400 years are one era of 146097 days.
  The year of the era comes out of one division, after the leap days before
  the day have been taken away.

  The calendar it has to meet is `Gregorian`, which counts leap years one by
  one. `civil_number` connects the two, and the text is the date and time in
  a fixed layout. -/

namespace AgentTraceGateway

open Gregorian FixedWidth

/-! ### The year of the era -/

/-- The days up to a day of the era, without the leap days among them. -/
def leapless (doe : Nat) : Nat := doe - doe / 1460 + doe / 36524 - doe / 146096

def year_of_era (doe : Nat) : Nat := leapless doe / 365

/-- The days of the era before a year of it. -/
def era_days (yoe : Nat) : Nat := 365 * yoe + yoe / 4 - yoe / 100 + yoe / 400

theorem leapless_mono : Monotone leapless := by
  refine monotone_nat_of_le_succ fun doe => ?_
  unfold leapless
  omega

/-- Without its leap days each year of the era is 365 days, first day and last. -/
theorem leapless_year : ∀ yoe < 400, 365 * yoe ≤ leapless (era_days yoe)
    ∧ leapless (era_days (yoe + 1) - 1) < 365 * (yoe + 1) := by
  decide +kernel

theorem year_of_era_lt {doe : Nat} (h : doe < 146097) : year_of_era doe < 400 := by
  have hlast := (leapless_year 399 (by decide)).2
  have hmono := leapless_mono (show doe ≤ era_days (399 + 1) - 1 from Nat.le_of_lt_succ h)
  unfold year_of_era
  omega

/-- The division finds the year that a day of the era is in. -/
theorem year_of_era_spec {doe : Nat} (h : doe < 146097) :
    era_days (year_of_era doe) ≤ doe ∧ doe < era_days (year_of_era doe + 1) := by
  have hyear := year_of_era_lt h
  have hlow : 365 * year_of_era doe ≤ leapless doe := Nat.mul_div_le _ _
  have hhigh : leapless doe < 365 * (year_of_era doe + 1) := Nat.lt_mul_div_succ _ (by decide)
  constructor
  · by_contra hbefore
    obtain ⟨yoe, hyoe⟩ : ∃ yoe, year_of_era doe = yoe + 1 := by
      cases hzero : year_of_era doe with
      | zero =>
        rw [hzero] at hbefore
        exact absurd (Nat.zero_le doe) hbefore
      | succ yoe => exact ⟨yoe, rfl⟩
    rw [hyoe] at hbefore hyear hlow
    have hlast := (leapless_year yoe (by omega)).2
    have hmono := leapless_mono (show doe ≤ era_days (yoe + 1) - 1 by omega)
    omega
  · by_contra hafter
    rcases Nat.lt_or_ge (year_of_era doe + 1) 400 with hnext | hnext
    · have hfirst := (leapless_year _ hnext).1
      have hmono := leapless_mono (Nat.le_of_not_lt hafter)
      omega
    · have hlast : year_of_era doe + 1 = 400 := by omega
      rw [hlast] at hafter
      exact hafter h

/-! ### The month and the day -/

def day_of_year (doe : Nat) : Nat :=
  doe - (365 * year_of_era doe + year_of_era doe / 4 - year_of_era doe / 100)

def march_month (doy : Nat) : Nat := (5 * doy + 2) / 153

def civil_day (doy : Nat) : Nat := doy - (153 * march_month doy + 2) / 5 + 1

def civil_month (doy : Nat) : Nat :=
  if march_month doy < 10 then march_month doy + 3 else march_month doy - 9

/-- The months of a year from March on, whatever the year. -/
theorem from_march : ∀ leap : Bool, ∀ doy < 366, 2 < civil_month doy →
    civil_month doy ≤ 12 ∧ civil_day doy ≤ month_length leap (civil_month doy)
      ∧ days_before_month leap (civil_month doy) + (civil_day doy - 1) + 306
        = year_length leap + doy := by
  decide +kernel

/-- January and February are the last months, and the leap day the last day. -/
theorem before_march : ∀ leap : Bool, ∀ doy < year_length leap, civil_month doy ≤ 2 →
    0 < civil_month doy ∧ civil_day doy ≤ month_length leap (civil_month doy)
      ∧ days_before_month leap (civil_month doy) + (civil_day doy - 1) + 306 = doy := by
  decide +kernel

/-! ### The civil date -/

def march_year (z : Nat) : Nat := year_of_era (z % 146097) + z / 146097 * 400

def civil_year (z : Nat) : Nat :=
  if civil_month (day_of_year (z % 146097)) ≤ 2 then march_year z + 1 else march_year z

/-- The eras are as long as 400 years of the calendar. -/
theorem days_before_march_year (era yoe : Nat) :
    days_before_year (yoe + era * 400 + 1) = 146097 * era + era_days yoe + 366 := by
  rw [days_before_year_succ]
  unfold era_days
  omega

/-- The day of the year stays within the year it ends in. -/
theorem day_of_year_spec (z : Nat) :
    day_of_year (z % 146097) < year_length (is_leap (march_year z + 1))
      ∧ z + 366 = days_before_year (march_year z + 1) + day_of_year (z % 146097) := by
  have hdoe : z % 146097 < 146097 := Nat.mod_lt _ (by decide)
  obtain ⟨hlow, hhigh⟩ := year_of_era_spec hdoe
  have hyear := year_of_era_lt hdoe
  have hstart := days_before_march_year (z / 146097) (year_of_era (z % 146097))
  have hnext := days_before_march_year (z / 146097) (year_of_era (z % 146097) + 1)
  have hlength : days_before_year (march_year z + 1 + 1)
      = days_before_year (march_year z + 1) + year_length (is_leap (march_year z + 1)) := rfl
  have hsame : year_of_era (z % 146097) + 1 + z / 146097 * 400 + 1 = march_year z + 1 + 1 := by
    unfold march_year
    omega
  have hdays : day_of_year (z % 146097) = z % 146097 - era_days (year_of_era (z % 146097)) := by
    unfold day_of_year era_days
    omega
  rw [hsame, hlength] at hnext
  rw [hdays]
  rw [show year_of_era (z % 146097) + z / 146097 * 400 + 1 = march_year z + 1 from rfl] at hstart
  omega

theorem day_of_year_lt (z : Nat) : day_of_year (z % 146097) < 366 := by
  have hlt := (day_of_year_spec z).1
  unfold year_length at hlt
  split_ifs at hlt <;> omega

/-- What the arithmetic gives is a date of the calendar. -/
theorem civil_valid (z : Nat) :
    (0 < civil_month (day_of_year (z % 146097)) ∧ civil_month (day_of_year (z % 146097)) ≤ 12)
      ∧ 0 < civil_day (day_of_year (z % 146097))
      ∧ civil_day (day_of_year (z % 146097))
        ≤ month_length (is_leap (civil_year z)) (civil_month (day_of_year (z % 146097))) := by
  have hpos : 0 < civil_day (day_of_year (z % 146097)) := Nat.succ_pos _
  unfold civil_year
  split_ifs with hmonth
  · obtain ⟨hmonth_pos, hday, -⟩ := before_march _ _ (day_of_year_spec z).1 hmonth
    exact ⟨⟨hmonth_pos, by omega⟩, hpos, hday⟩
  · obtain ⟨hmonth_le, hday, -⟩ := from_march (is_leap (march_year z)) _ (day_of_year_lt z)
      (Nat.lt_of_not_le hmonth)
    exact ⟨⟨by omega, hmonth_le⟩, hpos, hday⟩

/-- The date of a day, counted from the first of March of year 0. -/
def civil_date (z : Nat) : Date :=
  ⟨civil_year z, civil_month (day_of_year (z % 146097)), civil_day (day_of_year (z % 146097)),
    (civil_valid z).1.1, (civil_valid z).1.2, (civil_valid z).2.1, (civil_valid z).2.2⟩

/-- The calendar counts the same days, from two months earlier. -/
theorem civil_number (z : Nat) : (civil_date z).number = z + 60 := by
  obtain ⟨hlength, hstart⟩ := day_of_year_spec z
  change days_before_year (civil_year z) + days_before_month (is_leap (civil_year z))
    (civil_month (day_of_year (z % 146097))) + (civil_day (day_of_year (z % 146097)) - 1) = z + 60
  unfold civil_year
  split_ifs with hmonth
  · have hdays := (before_march _ _ hlength hmonth).2.2
    omega
  · have hdays := (from_march (is_leap (march_year z)) _ (day_of_year_lt z)
      (Nat.lt_of_not_le hmonth)).2.2
    have hyear : days_before_year (march_year z + 1)
        = days_before_year (march_year z) + year_length (is_leap (march_year z)) := rfl
    omega

/-! ### The timestamp -/

/-- `year-month-dayThour:minute:second.nanosZ`. -/
def timestamp_layout : Layout :=
  [(4, '-'), (2, '-'), (2, 'T'), (2, ':'), (2, ':'), (2, '.'), (9, 'Z')]

/-- A valid date and time in the layout, or nothing. -/
def read_timestamp (text : String) : Option DateTime :=
  (read timestamp_layout text.toList).bind DateTime.of_fields

def civil_time (ns : UInt64) : DateTime :=
  let secs := ns.toNat / 1000000000
  { civil_date (secs / 86400 + 719468) with
    hour := secs % 86400 / 3600
    minute := secs % 86400 % 3600 / 60
    second := secs % 86400 % 60
    nanos := ns.toNat % 1000000000
    hour_lt := by omega
    minute_lt := by omega
    second_lt := by omega
    nanos_lt := by omega }

theorem padded_toList (width n : Nat) : (padded width n).toList = digits width n := by
  rw [padded, String.toList_ofList, Nat.toString_eq_repr, Nat.toList_repr]
  rfl

/-- The text is the civil time in the layout. -/
theorem iso8601_z_toList (ns : UInt64) :
    (iso8601_z ns).toList = print timestamp_layout (civil_time ns).fields := by
  simp only [iso8601_z, String.toList_append, padded_toList, List.append_assoc]
  rfl

/-- Nanoseconds in 64 bits end in the year 2554. -/
theorem civil_time_year (ns : UInt64) : (civil_time ns).year < 10000 := by
  have hns : ns.toNat < 2 ^ 64 := ns.toNat_lt
  have hdoe : (ns.toNat / 1000000000 / 86400 + 719468) % 146097 < 146097 := Nat.mod_lt _ (by decide)
  have hyoe := year_of_era_lt hdoe
  change civil_year (ns.toNat / 1000000000 / 86400 + 719468) < 10000
  unfold civil_year march_year
  split_ifs <;> omega

theorem timestamp_fits (ns : UInt64) : Fits timestamp_layout (civil_time ns).fields := by
  have hyear := civil_time_year ns
  have hmonth := (civil_time ns).month_le
  have hday : (civil_time ns).day ≤ 31 := (civil_time ns).day_le.trans (month_length_le _ _)
  have hhour := (civil_time ns).hour_lt
  have hminute := (civil_time ns).minute_lt
  have hsecond := (civil_time ns).second_lt
  have hnanos := (civil_time ns).nanos_lt
  unfold Fits timestamp_layout DateTime.fields
  simp only [List.forall₂_cons, List.forall₂_nil_left_iff, and_true]
  omega

/-- The civil time is the instant it was made from. -/
theorem civil_time_unix_ns (ns : UInt64) : (civil_time ns).unix_ns = ns.toNat := by
  have hnumber : (civil_time ns).toDate.number = ns.toNat / 1000000000 / 86400 + 719468 + 60 :=
    civil_number _
  have hhour : (civil_time ns).hour = ns.toNat / 1000000000 % 86400 / 3600 := rfl
  have hminute : (civil_time ns).minute = ns.toNat / 1000000000 % 86400 % 3600 / 60 := rfl
  have hsecond : (civil_time ns).second = ns.toNat / 1000000000 % 86400 % 60 := rfl
  have hnanos : (civil_time ns).nanos = ns.toNat % 1000000000 := rfl
  have hepoch : DateTime.epoch.instant = 719528 * 86400 * 1000000000 := by
    rw [DateTime.instant, DateTime.seconds, DateTime.epoch_number]
    rfl
  rw [DateTime.unix_ns, hepoch, DateTime.instant, DateTime.seconds, hnumber, hhour, hminute,
    hsecond, hnanos]
  omega

theorem read_iso8601_z (ns : UInt64) : read_timestamp (iso8601_z ns) = some (civil_time ns) := by
  rw [read_timestamp, iso8601_z_toList, read_print (timestamp_fits ns), Option.bind_some,
    DateTime.of_fields_fields]

/-- The text is a valid timestamp of exactly the instant it was made from, so
    two instants have two texts, ordered as the instants are. -/
theorem iso8601_z_exact :
    (∀ ns : UInt64, ∃ t : DateTime,
      read_timestamp (iso8601_z ns) = some t ∧ t.unix_ns = ns.toNat)
      ∧ Function.Injective iso8601_z
      ∧ ∀ a b : UInt64, iso8601_z a < iso8601_z b ↔ a < b := by
  refine ⟨fun ns => ⟨civil_time ns, read_iso8601_z ns, civil_time_unix_ns ns⟩, ?_, ?_⟩
  · intro a b h
    have htime : civil_time a = civil_time b :=
      Option.some.inj (by rw [← read_iso8601_z, h, read_iso8601_z])
    have hns : (a.toNat : Int) = b.toNat := by
      rw [← civil_time_unix_ns, htime, civil_time_unix_ns]
    exact UInt64.toNat_inj.mp (Int.ofNat_inj.mp hns)
  · intro a b
    rw [String.lt_iff_toList_lt, iso8601_z_toList, iso8601_z_toList,
      print_lt_print_iff (timestamp_fits a) (timestamp_fits b),
      ← DateTime.unix_ns_lt_unix_ns_iff, civil_time_unix_ns, civil_time_unix_ns,
      UInt64.lt_iff_toNat_lt, Int.ofNat_lt]

end AgentTraceGateway
