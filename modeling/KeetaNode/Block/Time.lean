import KeetaNode.Block.Types

/-!
# Block timestamps from the clock

`BlockTime::from_unix_millis`: the moment of a Unix timestamp, when the calendar has
it. It never is one within a leap second, so that two moments may share a timestamp;
the timestamp itself survives, and so does every other moment.

- `keetanetwork-block/src/time.rs`
-/

namespace KeetaNode

/-! ## Dates from days -/

/-- A date by its year from March, and the days since the first of that March. -/
structure MarchDate where
  year : Int
  dayOfYear : Nat

/-- The years of a Gregorian cycle: centuries of 36524 days, four-year groups of 1461
days and years of 365 days. The last century and the last year of a group are a day longer. -/
def marchDate (days : Int) : MarchDate :=
  let shifted := days + 719468
  let dayOfCycle := (shifted % 146097).toNat
  let century := min 3 (dayOfCycle / 36524)
  let dayOfCentury := dayOfCycle - 36524 * century
  let group := dayOfCentury / 1461
  let dayOfGroup := dayOfCentury % 1461
  let year := min 3 (dayOfGroup / 365)
  { year := 400 * (shifted / 146097) + (100 * century + 4 * group + year : Nat)
    dayOfYear := dayOfGroup - 365 * year }

/-- Months counted from March. -/
def MarchDate.monthIndex (date : MarchDate) : Nat := (5 * date.dayOfYear + 2) / 153

def MarchDate.month (date : MarchDate) : Nat := (date.monthIndex + 2) % 12 + 1

def MarchDate.day (date : MarchDate) : Nat :=
  date.dayOfYear - (153 * date.monthIndex + 2) / 5 + 1

/-- The year as it is written: January and February belong to the next one. -/
def MarchDate.civilYear (date : MarchDate) : Int :=
  if date.month ≤ 2 then date.year + 1 else date.year

/-- The cycle, century, group and year a day lies in. -/
theorem marchDate_eq (days : Int) :
    ∃ (cycle : Int) (century group year dayOfYear : Nat),
      marchDate days = ⟨400 * cycle + (100 * century + 4 * group + year : Nat), dayOfYear⟩ ∧
      days + 719468 =
        146097 * cycle + (36524 * century + 1461 * group + 365 * year + dayOfYear : Nat) ∧
      century ≤ 3 ∧ group ≤ 24 ∧ year ≤ 3 ∧ dayOfYear ≤ 365 ∧
      (dayOfYear = 365 → year = 3 ∧ (group = 24 → century = 3)) := by
  have hcycle : ((days + 719468) % 146097).toNat < 146097 := by omega
  have hdays : days + 719468 =
      146097 * ((days + 719468) / 146097) + (((days + 719468) % 146097).toNat : Nat) := by omega
  refine ⟨_, _, _, _, _, rfl, ?_⟩
  generalize ((days + 719468) % 146097).toNat = dayOfCycle at *
  -- the century, then the four-year group, then the year, each with what is left of it
  obtain ⟨century, dayOfCentury, rfl, hcentury, hdayOfCentury, hlast, hc⟩ :
      ∃ century dayOfCentury, dayOfCycle = 36524 * century + dayOfCentury ∧ century ≤ 3 ∧
        dayOfCentury ≤ 36524 ∧ (dayOfCentury = 36524 → century = 3) ∧
          min 3 (dayOfCycle / 36524) = century :=
    ⟨min 3 (dayOfCycle / 36524), dayOfCycle - 36524 * min 3 (dayOfCycle / 36524), by omega,
      by omega, by omega, by omega, rfl⟩
  rw [hc, Nat.add_sub_cancel_left]
  obtain ⟨year, dayOfYear, hgroup, hyear, hdayOfYear, hleap, hy⟩ :
      ∃ year dayOfYear, dayOfCentury % 1461 = 365 * year + dayOfYear ∧ year ≤ 3 ∧
        dayOfYear ≤ 365 ∧ (dayOfYear = 365 → year = 3) ∧
          min 3 (dayOfCentury % 1461 / 365) = year :=
    ⟨min 3 (dayOfCentury % 1461 / 365),
      dayOfCentury % 1461 - 365 * min 3 (dayOfCentury % 1461 / 365), by omega, by omega,
      by omega, by omega, rfl⟩
  rw [hy, hgroup, Nat.add_sub_cancel_left]
  refine ⟨by omega, hcentury, by omega, hyear, hdayOfYear, fun h => ⟨hleap h, fun h24 => ?_⟩⟩
  exact hlast (by omega)

/-- A year from March has a 366th day only when it ends with a leap day. -/
theorem marchDate_dayOfYear (days : Int) :
    (marchDate days).dayOfYear ≤ 365 ∧
      ((marchDate days).dayOfYear = 365 → Asn1.isLeapYear ((marchDate days).year + 1) = true) := by
  obtain ⟨cycle, century, group, year, dayOfYear, heq, -, hcentury, hgroup, hyear, hday, hlast⟩ :=
    marchDate_eq days
  rw [heq]
  refine ⟨hday, fun h365 => ?_⟩
  obtain ⟨hy, hc⟩ := hlast h365
  simp only [Asn1.isLeapYear, Bool.and_eq_true, Bool.or_eq_true, decide_eq_true_eq]
  omega

namespace MarchDate

variable {date : MarchDate}

theorem monthIndex_spec (h : date.dayOfYear ≤ 365) :
    date.monthIndex ≤ 11 ∧ (153 * date.monthIndex + 2) / 5 ≤ date.dayOfYear := by
  unfold monthIndex
  omega

/-- The shifted year of the civil date is the year from March. -/
theorem shifted_civilYear :
    (if date.month ≤ 2 then date.civilYear - 1 else date.civilYear) = date.year := by
  unfold civilYear
  split <;> omega

theorem daysFromEpoch_civil (h : date.dayOfYear ≤ 365) :
    daysFromEpoch date.civilYear date.month date.day =
      365 * date.year + date.year / 4 - date.year / 100 + date.year / 400 + date.dayOfYear -
        719468 := by
  obtain ⟨hmonth, hstart⟩ := monthIndex_spec h
  have hindex : (date.month + 9) % 12 = date.monthIndex := by
    unfold month
    omega
  have hday : (153 * date.monthIndex + 2) / 5 + date.day - 1 = date.dayOfYear := by
    unfold day
    omega
  simp only [daysFromEpoch, shifted_civilYear, hindex, hday]

/-- Months from March are 31 and 30 days long in turn, but for February. -/
theorem monthLength_le {index : Nat} (h : index < 11) (year : Int) :
    (153 * (index + 1) + 2) / 5 ≤
      (153 * index + 2) / 5 + Asn1.daysInMonth year ((index + 2) % 12 + 1) := by
  interval_cases index <;> simp [Asn1.daysInMonth]

/-- The civil date exists: only a leap year's February has 29 days. -/
theorem civil_valid (h : date.dayOfYear ≤ 365)
    (hleap : date.dayOfYear = 365 → Asn1.isLeapYear (date.year + 1) = true) :
    (1 ≤ date.month ∧ date.month ≤ 12) ∧
      (1 ≤ date.day ∧ date.day ≤ Asn1.daysInMonth date.civilYear date.month) := by
  refine ⟨?_, ?_, ?_⟩
  · unfold month
    omega
  · unfold day
    omega
  · obtain ⟨hmonth, -⟩ := monthIndex_spec h
    by_cases hindex : date.monthIndex < 11
    · have hnext : date.dayOfYear < (153 * (date.monthIndex + 1) + 2) / 5 := by
        unfold monthIndex
        omega
      have hlength := monthLength_le hindex date.civilYear
      unfold day month
      omega
    · -- the year starts in March, so that February is its last month
      have hfebruary : date.monthIndex = 11 := by omega
      have hmonth : date.month = 2 := by simp [month, hfebruary]
      have hyear : date.civilYear = date.year + 1 := by simp [civilYear, hmonth]
      have hday : date.day = date.dayOfYear - 336 := by
        have hstart := (monthIndex_spec h).2
        simp only [day, hfebruary] at hstart ⊢
        omega
      rw [hmonth, hyear, hday]
      simp only [Asn1.daysInMonth]
      split
      · omega
      · rename_i hcommon
        have hshort : date.dayOfYear ≠ 365 := fun h365 => hcommon (hleap h365)
        omega

end MarchDate

theorem daysFromEpoch_marchDate (days : Int) :
    daysFromEpoch (marchDate days).civilYear (marchDate days).month (marchDate days).day =
      days := by
  rw [MarchDate.daysFromEpoch_civil (marchDate_dayOfYear days).1]
  obtain ⟨cycle, century, group, year, dayOfYear, heq, hdays, hcentury, hgroup, hyear, hday, -⟩ :=
    marchDate_eq days
  rw [heq]
  dsimp only
  omega

/-! ## Days from dates -/

/-- The year from March and the day in it of a civil date. -/
def MarchDate.ofCivil (year : Int) (month day : Nat) : MarchDate where
  year := if month ≤ 2 then year - 1 else year
  dayOfYear := (153 * ((month + 9) % 12) + 2) / 5 + day - 1

namespace MarchDate

/-- Only a year that ends with a leap day has a 366th day. -/
def InYear (date : MarchDate) : Prop :=
  date.dayOfYear ≤ 365 ∧ (date.dayOfYear = 365 → Asn1.isLeapYear (date.year + 1) = true)

/-- The days from the epoch to the first of March of a year. -/
def daysToYear (year : Int) : Int := 365 * year + year / 4 - year / 100 + year / 400 - 719468

/-- The days from the epoch to a date. -/
def daysFromEpoch (date : MarchDate) : Int := daysToYear date.year + date.dayOfYear

theorem daysFromEpoch_ofCivil (year : Int) (month day : Nat) :
    (ofCivil year month day).daysFromEpoch = KeetaNode.daysFromEpoch year month day := by
  simp only [daysFromEpoch, daysToYear, ofCivil, KeetaNode.daysFromEpoch]
  omega

/-- A year has 365 days, and one more when it ends with a leap day. -/
theorem daysToYear_succ (year : Int) :
    daysToYear (year + 1) =
      daysToYear year + if Asn1.isLeapYear (year + 1) = true then 366 else 365 := by
  have h4 : (year + 1) / 4 = year / 4 + if (year + 1) % 4 = 0 then 1 else 0 := by
    split <;> omega
  have h100 : (year + 1) / 100 = year / 100 + if (year + 1) % 100 = 0 then 1 else 0 := by
    split <;> omega
  have h400 : (year + 1) / 400 = year / 400 + if (year + 1) % 400 = 0 then 1 else 0 := by
    split <;> omega
  simp only [daysToYear, h4, h100, h400, Asn1.isLeapYear, Bool.and_eq_true, Bool.or_eq_true,
    decide_eq_true_eq]
  split_ifs <;> omega

theorem strictMono_daysToYear : StrictMono daysToYear := by
  refine strictMono_int_of_lt_succ fun year => ?_
  rw [daysToYear_succ]
  split <;> omega

/-- A date of a later year is more days away. -/
theorem daysFromEpoch_lt {a b : MarchDate} (ha : a.InYear) (h : a.year < b.year) :
    a.daysFromEpoch < b.daysFromEpoch := by
  obtain ⟨hday, hleap⟩ := ha
  have hnext : daysToYear (a.year + 1) ≤ daysToYear b.year :=
    strictMono_daysToYear.monotone (Int.add_one_le_of_lt h)
  rw [daysToYear_succ] at hnext
  unfold daysFromEpoch
  by_cases hlast : a.dayOfYear = 365
  · rw [if_pos (hleap hlast)] at hnext
    omega
  · split at hnext <;> omega

/-- Days tell dates apart. -/
theorem eq_of_daysFromEpoch_eq {a b : MarchDate} (ha : a.InYear) (hb : b.InYear)
    (h : a.daysFromEpoch = b.daysFromEpoch) : a = b := by
  have hyear : a.year = b.year := by
    rcases lt_trichotomy a.year b.year with hlt | heq | hlt
    · exact absurd h (daysFromEpoch_lt ha hlt).ne
    · exact heq
    · exact absurd h (daysFromEpoch_lt hb hlt).ne'
  have hday : a.dayOfYear = b.dayOfYear := by
    unfold daysFromEpoch at h
    rw [hyear] at h
    omega
  cases a
  cases b
  simp_all

section Civil

variable {year : Int} {month day : Nat}

theorem inYear_ofCivil (hmonth : 1 ≤ month ∧ month ≤ 12)
    (hday : 1 ≤ day ∧ day ≤ Asn1.daysInMonth year month) : (ofCivil year month day).InYear := by
  have hlength := Asn1.daysInMonth_le year month
  by_cases hfebruary : month = 2
  · subst hfebruary
    simp only [Asn1.daysInMonth] at hday
    simp only [InYear, ofCivil, le_refl, if_true, sub_add_cancel]
    split at hday <;> rename_i hleap
    · exact ⟨by omega, fun _ => hleap⟩
    · exact ⟨by omega, fun h365 => by omega⟩
  · simp only [InYear, ofCivil]
    exact ⟨by omega, fun h365 => by omega⟩

/-- The months from March follow each other without a gap. -/
theorem start_add_daysInMonth_le (hmonth : 1 ≤ month ∧ month ≤ 12) (year : Int) :
    (153 * ((month + 9) % 12) + 2) / 5 + Asn1.daysInMonth year month ≤
      (153 * ((month + 9) % 12 + 1) + 2) / 5 := by
  obtain ⟨hlow, hhigh⟩ := hmonth
  interval_cases month <;> simp [Asn1.daysInMonth]
  split <;> omega

/-- A civil date is read off its year from March. -/
theorem civil_ofCivil (hmonth : 1 ≤ month ∧ month ≤ 12)
    (hday : 1 ≤ day ∧ day ≤ Asn1.daysInMonth year month) :
    (ofCivil year month day).civilYear = year ∧ (ofCivil year month day).month = month ∧
      (ofCivil year month day).day = day := by
  have hnext := start_add_daysInMonth_le hmonth year
  have hindex : (ofCivil year month day).monthIndex = (month + 9) % 12 := by
    simp only [monthIndex, ofCivil]
    omega
  have hm : (ofCivil year month day).month = month := by
    rw [MarchDate.month, hindex]
    omega
  refine ⟨?_, hm, ?_⟩
  · rw [civilYear, hm]
    simp only [ofCivil]
    split <;> omega
  · rw [MarchDate.day, hindex]
    simp only [ofCivil]
    omega

end Civil
end MarchDate

/-! ## Timestamps -/

/-- Milliseconds of a day. -/
def dayMillis : Int := 86400000

/-- `BlockTime::from_unix_millis`: none outside the years of the calendar. -/
def fromUnixMillis (millis : Int) : Option BlockTime :=
  let date := marchDate (millis / dayMillis)
  let ofDay := (millis % dayMillis).toNat
  if hyear : -262143 ≤ date.civilYear ∧ date.civilYear ≤ 262142 then
    some {
      year := date.civilYear
      month := date.month
      day := date.day
      hour := ofDay / 3600000
      minute := ofDay / 60000 % 60
      second := ofDay / 1000 % 60
      millis := ofDay % 1000
      valid := by
        have hdate := marchDate_dayOfYear (millis / dayMillis)
        obtain ⟨hmonth, hday⟩ := MarchDate.civil_valid hdate.1 hdate.2
        have hofDay : ofDay < 86400000 := by
          unfold ofDay dayMillis
          omega
        exact ⟨hyear, hmonth, hday, by omega, by omega, by omega, by omega⟩ }
  else none

/-- A timestamp that is a moment is this moment's timestamp. -/
theorem unixMillis_of_fromUnixMillis {millis : Int} {time : BlockTime}
    (h : fromUnixMillis millis = some time) : unixMillis time = millis := by
  simp only [fromUnixMillis] at h
  split at h
  · cases h
    simp only [unixMillis, daysFromEpoch_marchDate, dayMillis]
    omega
  · cases h

/-- Far from the ends of the calendar every timestamp is a moment. -/
theorem exists_fromUnixMillis {millis : Int}
    (h : -8 * 10 ^ 15 ≤ millis ∧ millis ≤ 8 * 10 ^ 15) :
    ∃ time, fromUnixMillis millis = some time := by
  obtain ⟨cycle, century, group, year, dayOfYear, heq, hdays, hcentury, hgroup, hyear, hday, -⟩ :=
    marchDate_eq (millis / dayMillis)
  have hcivil : (marchDate (millis / dayMillis)).year ≤ (marchDate (millis / dayMillis)).civilYear ∧
      (marchDate (millis / dayMillis)).civilYear ≤ (marchDate (millis / dayMillis)).year + 1 := by
    unfold MarchDate.civilYear
    split <;> omega
  have hrange : -262143 ≤ (marchDate (millis / dayMillis)).civilYear ∧
      (marchDate (millis / dayMillis)).civilYear ≤ 262142 := by
    rw [heq] at hcivil ⊢
    dsimp only at hcivil
    unfold dayMillis at hdays
    omega
  simp only [fromUnixMillis, dif_pos hrange]
  exact ⟨_, rfl⟩

/-- The timestamp of a moment with a four-digit year is a moment with the same timestamp. -/
theorem fromUnixMillis_unixMillis {time : BlockTime} (h : time.HasFourDigitYear) :
    ∃ time', fromUnixMillis (unixMillis time) = some time' ∧
      unixMillis time' = unixMillis time := by
  have hbounds : -8 * 10 ^ 15 ≤ unixMillis time ∧ unixMillis time ≤ 8 * 10 ^ 15 := by
    obtain ⟨year, month, day, hour, minute, second, millis, hvalid⟩ := time
    have hlower : 0 ≤ year := h.1
    have hupper : year ≤ 9999 := h.2
    obtain ⟨-, hmonth, hday, hhour, hminute, hsecond, hmillis⟩ := hvalid
    have hdays := Asn1.daysInMonth_le year month
    simp only [unixMillis, daysFromEpoch]
    split <;> omega
  obtain ⟨time', htime⟩ := exists_fromUnixMillis hbounds
  exact ⟨time', htime, unixMillis_of_fromUnixMillis htime⟩

/-- The timestamp tells apart moments that are not in a leap second. -/
theorem eq_of_unixMillis_eq {a b : BlockTime} (ha : a.millis < 1000) (hb : b.millis < 1000)
    (h : unixMillis a = unixMillis b) : a = b := by
  obtain ⟨-, hmonthA, hdayA, hhourA, hminuteA, hsecondA, -⟩ := a.valid
  obtain ⟨-, hmonthB, hdayB, hhourB, hminuteB, hsecondB, -⟩ := b.valid
  simp only [unixMillis] at h
  have hdays : daysFromEpoch a.year a.month a.day = daysFromEpoch b.year b.month b.day := by
    omega
  have hdate := MarchDate.eq_of_daysFromEpoch_eq (MarchDate.inYear_ofCivil hmonthA hdayA)
    (MarchDate.inYear_ofCivil hmonthB hdayB)
    (by rw [MarchDate.daysFromEpoch_ofCivil, MarchDate.daysFromEpoch_ofCivil, hdays])
  obtain ⟨hyA, hmA, hdA⟩ := MarchDate.civil_ofCivil hmonthA hdayA
  obtain ⟨hyB, hmB, hdB⟩ := MarchDate.civil_ofCivil hmonthB hdayB
  rw [hdate] at hyA hmA hdA
  have hyear := hyA.symm.trans hyB
  have hmonth := hmA.symm.trans hmB
  have hday := hdA.symm.trans hdB
  cases a
  cases b
  simp only [Asn1.Asn1Time.mk.injEq] at *
  omega

/-- A moment from the clock is not in a leap second. -/
theorem millis_of_fromUnixMillis {millis : Int} {time : BlockTime}
    (h : fromUnixMillis millis = some time) : time.millis < 1000 := by
  simp only [fromUnixMillis] at h
  split at h
  · cases h
    exact Nat.mod_lt _ (by decide)
  · cases h

/-- **A moment with a four-digit year comes back from its timestamp unless it is in a leap
second.** -/
theorem fromUnixMillis_unixMillis_iff {time : BlockTime} (h : time.HasFourDigitYear) :
    fromUnixMillis (unixMillis time) = some time ↔ time.millis < 1000 := by
  constructor
  · exact millis_of_fromUnixMillis
  · intro hmillis
    obtain ⟨time', htime, hsame⟩ := fromUnixMillis_unixMillis h
    rw [htime, eq_of_unixMillis_eq (millis_of_fromUnixMillis htime) hmillis hsame]

/-- A moment of the calendar that is not in a leap second comes back from its timestamp. -/
theorem fromUnixMillis_unixMillis_of_lt {time : BlockTime} (h : time.millis < 1000) :
    fromUnixMillis (unixMillis time) = some time := by
  obtain ⟨hyear, hmonth, hday, hhour, hminute, hsecond, -⟩ := time.valid
  have hdays : unixMillis time / dayMillis = daysFromEpoch time.year time.month time.day := by
    simp only [unixMillis, dayMillis]
    omega
  have hdate : marchDate (unixMillis time / dayMillis) =
      MarchDate.ofCivil time.year time.month time.day := by
    apply MarchDate.eq_of_daysFromEpoch_eq (marchDate_dayOfYear _)
      (MarchDate.inYear_ofCivil hmonth hday)
    have hcivil := daysFromEpoch_marchDate (unixMillis time / dayMillis)
    rw [MarchDate.daysFromEpoch_civil (marchDate_dayOfYear _).1] at hcivil
    rw [MarchDate.daysFromEpoch_ofCivil, ← hdays]
    simp only [MarchDate.daysFromEpoch, MarchDate.daysToYear]
    omega
  have hrange : -262143 ≤ (marchDate (unixMillis time / dayMillis)).civilYear ∧
      (marchDate (unixMillis time / dayMillis)).civilYear ≤ 262142 := by
    rw [hdate, (MarchDate.civil_ofCivil hmonth hday).1]
    exact hyear
  obtain ⟨time', htime⟩ : ∃ time', fromUnixMillis (unixMillis time) = some time' := by
    simp only [fromUnixMillis, dif_pos hrange]
    exact ⟨_, rfl⟩
  rw [htime, eq_of_unixMillis_eq (millis_of_fromUnixMillis htime) h
    (unixMillis_of_fromUnixMillis htime)]

/-! ## Years -/

/-- The timestamp with which a year begins. -/
def yearMillis (year : Int) : Int := daysFromEpoch year 1 1 * dayMillis

theorem yearMillis_le_unixMillis (time : BlockTime) : yearMillis time.year ≤ unixMillis time := by
  obtain ⟨-, hmonth, hday, hhour, hminute, hsecond, hmillis⟩ := time.valid
  simp only [yearMillis, unixMillis, daysFromEpoch, dayMillis, Nat.one_le_ofNat, if_true]
  split <;> omega

theorem yearMillis_mono {year year' : Int} (h : year ≤ year') :
    yearMillis year ≤ yearMillis year' := by
  simp only [yearMillis, daysFromEpoch, dayMillis, Nat.one_le_ofNat, if_true]
  omega

/-- A year ends with its last second, which may be a leap second. -/
theorem unixMillis_le_yearMillis (time : BlockTime) :
    unixMillis time + 1000 ≤ yearMillis (time.year + 1) + time.millis := by
  obtain ⟨-, hmonth, hday, hhour, hminute, hsecond, hmillis⟩ := time.valid
  have hlength := Asn1.daysInMonth_le time.year time.month
  simp only [yearMillis, unixMillis, daysFromEpoch, dayMillis, Nat.one_le_ofNat, if_true]
  split <;> omega

theorem unixMillis_lt_yearMillis (time : BlockTime) :
    unixMillis time < yearMillis (time.year + 1) + 1000 := by
  have hend := unixMillis_le_yearMillis time
  have hmillis := time.valid.2.2.2.2.2.2
  omega

/-- A century has at least twenty-four leap days. -/
theorem yearMillis_add_century_le {year year' : Int} (h : year + 100 ≤ year') :
    yearMillis year + 36524 * dayMillis ≤ yearMillis year' := by
  simp only [yearMillis, daysFromEpoch, dayMillis, Nat.one_le_ofNat, if_true]
  omega

end KeetaNode
