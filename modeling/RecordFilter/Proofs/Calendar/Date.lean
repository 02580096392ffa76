import Mathlib.Order.Monotone.Basic
import Mathlib.Tactic.ByContra
import Mathlib.Tactic.SplitIfs
import RecordFilter.Calendar.Date

namespace RecordFilter.Calendar

theorem daysInYear_eq (year : Nat) :
    daysInYear year = if year % 4 = 0 ∧ (year % 100 ≠ 0 ∨ year % 400 = 0) then 366 else 365 := by
  simp [daysInYear, isLeap]

theorem daysBeforeYear_succ (year : Nat) (h : 1 ≤ year) :
    daysBeforeYear (year + 1) = daysBeforeYear year + daysInYear year := by
  obtain ⟨m, rfl⟩ : ∃ m, year = m + 1 := ⟨year - 1, by omega⟩
  rw [daysInYear_eq, daysBeforeYear, daysBeforeYear, Nat.add_sub_cancel, Nat.add_sub_cancel,
    Nat.succ_div, Nat.succ_div, Nat.succ_div]
  simp only [← Nat.dvd_iff_mod_eq_zero, ne_eq]
  have h100 : 100 ∣ m + 1 → 4 ∣ m + 1 := by omega
  have h400 : 400 ∣ m + 1 → 100 ∣ m + 1 := by omega
  have hle : m / 100 ≤ m / 4 := by omega
  by_cases hf : 400 ∣ m + 1
  · have hc := h400 hf
    simp only [hf, hc, h100 hc, if_true, not_true, or_true, and_true]
    omega
  · by_cases hc : 100 ∣ m + 1
    · simp only [hf, hc, h100 hc, if_true, if_false, not_true, or_false, and_false]
      omega
    · by_cases h4 : 4 ∣ m + 1 <;> simp only [hf, hc, h4, if_true, if_false, not_false_eq_true, true_or,
        and_true] <;> omega

theorem daysBeforeYear_mono : Monotone daysBeforeYear := by
  refine monotone_nat_of_le_succ fun year => ?_
  rcases Nat.eq_zero_or_pos year with rfl | h
  · exact Nat.le_refl 0
  · have hs := daysBeforeYear_succ year h
    omega

/-- The guess from the mean length of a year is never more than one year off. -/
theorem yearOf_spec (n : Nat) :
    1 ≤ yearOf n ∧ daysBeforeYear (yearOf n) ≤ n ∧ n < daysBeforeYear (yearOf n + 1) := by
  obtain ⟨guess, hg⟩ : ∃ guess, guess = n * 400 / 146097 + 1 := ⟨_, rfl⟩
  have hy : yearOf n = if n < daysBeforeYear guess then guess - 1
      else if daysBeforeYear (guess + 1) ≤ n then guess + 1 else guess := by rw [hg, yearOf]
  rw [hy]
  split_ifs with hb ha
  · have hpos : 2 ≤ guess := by
      by_contra hlt
      have hone : guess = 1 := by omega
      have hzero : daysBeforeYear 1 = 0 := rfl
      rw [hone, hzero] at hb
      omega
    have he : guess - 1 + 1 = guess := by omega
    rw [he]
    refine ⟨by omega, ?_, hb⟩
    unfold daysBeforeYear
    omega
  · refine ⟨by omega, ha, ?_⟩
    unfold daysBeforeYear
    omega
  · exact ⟨by omega, by omega, by omega⟩

theorem yearOf_eq {year n : Nat} (hb : daysBeforeYear year ≤ n) (ha : n < daysBeforeYear (year + 1)) :
    yearOf n = year := by
  obtain ⟨-, hyb, hya⟩ := yearOf_spec n
  rcases Nat.lt_trichotomy (yearOf n) year with hlt | heq | hgt
  · have hm : daysBeforeYear (yearOf n + 1) ≤ daysBeforeYear year := daysBeforeYear_mono hlt
    omega
  · exact heq
  · have hm : daysBeforeYear (year + 1) ≤ daysBeforeYear (yearOf n) := daysBeforeYear_mono hgt
    omega

theorem daysInMonth_pos (year month : Nat) : 28 ≤ daysInMonth year month := by
  unfold daysInMonth
  split_ifs <;> omega

theorem daysInMonth_le (year month : Nat) : daysInMonth year month ≤ 31 := by
  unfold daysInMonth
  split_ifs <;> omega

theorem daysOfMonths_twelve (year : Nat) : daysOfMonths year 12 = daysInYear year := by
  cases hl : isLeap year <;> simp [daysOfMonths, daysInMonth, daysInYear, hl]

theorem daysOfMonths_lt (year : Nat) {first last : Nat} (h : first < last) :
    daysOfMonths year first + daysInMonth year (first + 1) ≤ daysOfMonths year last := by
  induction last with
  | zero => omega
  | succ last ih =>
    rw [daysOfMonths]
    rcases Nat.lt_succ_iff_lt_or_eq.mp h with hl | rfl
    · have hp := daysInMonth_pos year (last + 1)
      have := ih hl
      omega
    · exact Nat.le_refl _

/-- The months are walked through from `month` on; a day that lies before the end of the year is found
at the latest in December. -/
theorem monthAndDay_spec (year fuel month day : Nat) (hm : 1 ≤ month) (hf : month + fuel = 12)
    (hd : daysOfMonths year (month - 1) + day < daysOfMonths year 12) :
    1 ≤ (monthAndDay year fuel month day).1 ∧ (monthAndDay year fuel month day).1 ≤ 12 ∧
      1 ≤ (monthAndDay year fuel month day).2 ∧
      (monthAndDay year fuel month day).2 ≤ daysInMonth year (monthAndDay year fuel month day).1 ∧
      daysOfMonths year ((monthAndDay year fuel month day).1 - 1) +
        ((monthAndDay year fuel month day).2 - 1) = daysOfMonths year (month - 1) + day := by
  induction fuel generalizing month day with
  | zero =>
    obtain rfl : month = 12 := by omega
    have hs : daysOfMonths year 12 = daysOfMonths year (12 - 1) + daysInMonth year 12 := rfl
    simp only [monthAndDay]
    omega
  | succ fuel ih =>
    have hs : daysOfMonths year month = daysOfMonths year (month - 1) + daysInMonth year month := by
      obtain ⟨m, rfl⟩ : ∃ m, month = m + 1 := ⟨month - 1, by omega⟩
      rfl
    rw [monthAndDay]
    split_ifs with hlt
    · exact ⟨hm, by omega, by simp, hlt, by simp⟩
    · have hn := ih (month + 1) (day - daysInMonth year month) (by omega) (by omega)
        (by rw [Nat.add_sub_cancel]; omega)
      rw [Nat.add_sub_cancel] at hn
      omega

namespace Date

theorem valid (d : Date) :
    1 ≤ d.year ∧ d.year ≤ lastYear ∧ 1 ≤ d.month ∧ d.month ≤ 12 ∧ 1 ≤ d.day ∧
      d.day ≤ daysInMonth d.year d.month := by
  have h := d.exists_day
  simp only [isDate, Bool.and_eq_true, decide_eq_true_eq] at h
  omega

theorem ofParts?_eq_some {year month day : Nat} (h : isDate year month day = true) :
    ofParts? year month day = some ⟨year, month, day, h⟩ := dif_pos h

/-- A date lies within its year. -/
theorem dayNumber_bounds (d : Date) :
    daysBeforeYear d.year ≤ d.dayNumber ∧ d.dayNumber < daysBeforeYear (d.year + 1) := by
  obtain ⟨hy, -, hm, hm12, hd, hdm⟩ := d.valid
  have hyear := daysBeforeYear_succ d.year hy
  have hmonth : daysOfMonths d.year (d.month - 1) + daysInMonth d.year d.month ≤
      daysOfMonths d.year 12 := by
    have hlt : d.month - 1 < 12 := by omega
    have h := daysOfMonths_lt d.year hlt
    have he : d.month - 1 + 1 = d.month := by omega
    rwa [he] at h
  rw [daysOfMonths_twelve] at hmonth
  unfold dayNumber
  omega

theorem eq_of_dayNumber_eq {d e : Date} (h : d.dayNumber = e.dayNumber) : d = e := by
  obtain ⟨hy, -, hm, -, hd, hdm⟩ := d.valid
  obtain ⟨hy', -, hm', -, hd', hdm'⟩ := e.valid
  have hyear : d.year = e.year := by
    have hb := d.dayNumber_bounds
    have hb' := e.dayNumber_bounds
    rw [← yearOf_eq hb.1 hb.2, ← yearOf_eq hb'.1 hb'.2, h]
  obtain ⟨year, month, day, hv⟩ := d
  obtain ⟨year', month', day', hv'⟩ := e
  simp only at hyear hy hm hd hdm hy' hm' hd' hdm'
  subst hyear
  simp only [dayNumber] at h
  have hmonth : month = month' := by
    rcases Nat.lt_trichotomy month month' with hlt | heq | hgt
    · have hs := daysOfMonths_lt year (show month - 1 < month' - 1 by omega)
      have he : month - 1 + 1 = month := by omega
      rw [he] at hs
      omega
    · exact heq
    · have hs := daysOfMonths_lt year (show month' - 1 < month - 1 by omega)
      have he : month' - 1 + 1 = month' := by omega
      rw [he] at hs
      omega
  subst hmonth
  have hday : day = day' := by omega
  subst hday
  rfl

/-- The number of days from the first of January of year 1 to the last of December of year 9999. -/
def count : Nat := daysBeforeYear (lastYear + 1)

theorem dayNumber_lt (d : Date) : d.dayNumber < count :=
  Nat.lt_of_lt_of_le d.dayNumber_bounds.2 (daysBeforeYear_mono (Nat.succ_le_succ d.valid.2.1))

theorem exists_ofDayNumber? {n : Nat} (h : n < count) :
    ∃ d, ofDayNumber? n = some d ∧ d.dayNumber = n := by
  obtain ⟨hy, hb, ha⟩ := yearOf_spec n
  have hlast : yearOf n ≤ lastYear := by
    by_contra hgt
    have hle : count ≤ daysBeforeYear (yearOf n) := daysBeforeYear_mono (Nat.lt_of_not_le hgt)
    omega
  have hyear := daysBeforeYear_succ (yearOf n) hy
  rw [← daysOfMonths_twelve] at hyear
  have hnone : daysOfMonths (yearOf n) (1 - 1) = 0 := rfl
  obtain ⟨hm, hm12, hd, hdm, hsum⟩ := monthAndDay_spec (yearOf n) 11 1
    (n - daysBeforeYear (yearOf n)) (by omega) (by omega)
    (by rw [hnone]; omega)
  rw [hnone] at hsum
  have hv : isDate (yearOf n) (monthAndDay (yearOf n) 11 1 (n - daysBeforeYear (yearOf n))).1
      (monthAndDay (yearOf n) 11 1 (n - daysBeforeYear (yearOf n))).2 = true := by
    simp only [isDate, Bool.and_eq_true, decide_eq_true_eq]
    omega
  refine ⟨⟨_, _, _, hv⟩, ?_, ?_⟩
  · have hn : ¬ ((n : Int) < 0) := by omega
    rw [ofDayNumber?, if_neg hn]
    exact ofParts?_eq_some hv
  · unfold dayNumber
    simp only
    omega

theorem ofDayNumber?_dayNumber (d : Date) : ofDayNumber? d.dayNumber = some d := by
  obtain ⟨e, he, hn⟩ := exists_ofDayNumber? d.dayNumber_lt
  rw [he, eq_of_dayNumber_eq hn]

/-- Past the last day the year is out of range, whatever month and day come out. -/
theorem ofDayNumber?_of_count_le {n : Nat} (h : count ≤ n) : ofDayNumber? n = none := by
  have hy : lastYear < yearOf n := by
    by_contra hle
    have hlt : n < daysBeforeYear (yearOf n + 1) := (yearOf_spec n).2.2
    have hb : daysBeforeYear (yearOf n + 1) ≤ count := daysBeforeYear_mono (by omega)
    omega
  have hn : ¬ ((n : Int) < 0) := by omega
  rw [ofDayNumber?, if_neg hn]
  refine dif_neg ?_
  rw [Int.toNat_natCast]
  simp only [isDate, Bool.and_eq_true, decide_eq_true_eq]
  omega

/-- The date of a number is the one with that number, and there is one for every number in range. -/
theorem ofDayNumber?_eq_some_iff {n : Int} {d : Date} :
    ofDayNumber? n = some d ↔ (d.dayNumber : Int) = n := by
  constructor
  · intro h
    have hn : ¬ n < 0 := by
      intro hneg
      rw [ofDayNumber?, if_pos hneg] at h
      cases h
    obtain ⟨m, rfl⟩ := Int.eq_ofNat_of_zero_le (Int.not_lt.mp hn)
    rcases Nat.lt_or_ge m count with hm | hm
    · obtain ⟨e, he, hnum⟩ := exists_ofDayNumber? hm
      obtain rfl := Option.some.inj (he.symm.trans h)
      rw [hnum]
    · rw [ofDayNumber?_of_count_le hm] at h
      cases h
  · rintro rfl
    exact ofDayNumber?_dayNumber d

theorem ofDayNumber?_eq_none_iff {n : Int} : ofDayNumber? n = none ↔ n < 0 ∨ (count : Int) ≤ n := by
  rw [Option.eq_none_iff_forall_ne_some]
  constructor
  · intro h
    by_contra hc
    obtain ⟨m, rfl⟩ := Int.eq_ofNat_of_zero_le (show 0 ≤ n by omega)
    obtain ⟨d, hd, -⟩ := exists_ofDayNumber? (show m < count by omega)
    exact h d hd
  · intro h d hd
    have hlt := d.dayNumber_lt
    rw [ofDayNumber?_eq_some_iff] at hd
    omega

end Date

end RecordFilter.Calendar
