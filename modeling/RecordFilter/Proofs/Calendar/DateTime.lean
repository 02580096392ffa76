import RecordFilter.Calendar.DateTime
import RecordFilter.Proofs.Calendar.Date

namespace RecordFilter.Calendar

namespace Clock

theorem valid (c : Clock) : c.hour < 24 ∧ c.minute < 60 ∧ c.second < 60 ∧ c.micro < 1000000 := by
  have h := c.exists_time
  simp only [isClock, Bool.and_eq_true, decide_eq_true_eq] at h
  omega

theorem micros_lt (c : Clock) : c.micros < microsPerDay := by
  obtain ⟨hh, hm, hs, hu⟩ := c.valid
  unfold micros microsPerDay
  omega

theorem ofParts?_eq_some {hour minute second micro : Nat} (h : isClock hour minute second micro = true) :
    ofParts? hour minute second micro = some ⟨hour, minute, second, micro, h⟩ := dif_pos h

end Clock

namespace DateTime

theorem clockOfMicros?_micros (c : Clock) : clockOfMicros? c.micros = some c := by
  obtain ⟨hh, hm, hs, hu⟩ := c.valid
  have hhour : c.micros / 3600000000 = c.hour := by unfold Clock.micros; omega
  have hminute : c.micros / 60000000 % 60 = c.minute := by unfold Clock.micros; omega
  have hsecond : c.micros / 1000000 % 60 = c.second := by unfold Clock.micros; omega
  have hmicro : c.micros % 1000000 = c.micro := by unfold Clock.micros; omega
  rw [clockOfMicros?, hhour, hminute, hsecond, hmicro]
  exact Clock.ofParts?_eq_some c.exists_time

theorem exists_clockOfMicros? {n : Nat} (h : n < microsPerDay) :
    ∃ c, clockOfMicros? n = some c ∧ c.micros = n := by
  have hv : isClock (n / 3600000000) (n / 60000000 % 60) (n / 1000000 % 60) (n % 1000000) = true := by
    simp only [isClock, Bool.and_eq_true, decide_eq_true_eq]
    unfold microsPerDay at h
    omega
  refine ⟨_, Clock.ofParts?_eq_some hv, ?_⟩
  unfold Clock.micros
  simp only
  omega

/-- Microseconds from the start of year 1 to the end of year 9999. -/
def span : Nat := Date.count * microsPerDay

theorem micros_lt (t : DateTime) : t.micros < span := by
  have hd := t.date.dayNumber_lt
  have hc := t.clock.micros_lt
  unfold micros span microsPerDay at *
  omega

theorem ofMicros?_micros (t : DateTime) : ofMicros? t.micros = some t := by
  have hc := t.clock.micros_lt
  have hday : ((t.micros : Nat) : Int) / (microsPerDay : Nat) = (t.date.dayNumber : Nat) := by
    unfold micros microsPerDay at *
    omega
  have hrest : (((t.micros : Nat) : Int) % (microsPerDay : Nat)).toNat = t.clock.micros := by
    unfold micros microsPerDay at *
    omega
  rw [ofMicros?, hday, hrest, Date.ofDayNumber?_dayNumber, clockOfMicros?_micros]
  rfl

theorem ofMicros?_eq_none_iff {n : Int} : ofMicros? n = none ↔ n < 0 ∨ (span : Int) ≤ n := by
  have hpos : (0 : Int) < (microsPerDay : Nat) := by decide
  have hlow : 0 ≤ n % (microsPerDay : Nat) := Int.emod_nonneg n (by decide)
  have hhigh : n % (microsPerDay : Nat) < (microsPerDay : Nat) := Int.emod_lt_of_pos n hpos
  obtain ⟨c, hc, -⟩ := exists_clockOfMicros? (show (n % (microsPerDay : Nat)).toNat < microsPerDay by omega)
  have hnone : ofMicros? n = none ↔ Date.ofDayNumber? (n / (microsPerDay : Nat)) = none := by
    rw [ofMicros?, hc]
    cases Date.ofDayNumber? (n / (microsPerDay : Nat)) <;> simp
  rw [hnone, Date.ofDayNumber?_eq_none_iff]
  unfold span microsPerDay
  omega

/-- The date and time of a number of microseconds is the one with that number. -/
theorem ofMicros?_eq_some_iff {n : Int} {t : DateTime} : ofMicros? n = some t ↔ (t.micros : Int) = n := by
  constructor
  · intro h
    have hrange : ¬ (n < 0 ∨ (span : Int) ≤ n) := by
      intro hout
      rw [ofMicros?_eq_none_iff.mpr hout] at h
      cases h
    have hlow : 0 ≤ n % (microsPerDay : Nat) := Int.emod_nonneg n (by decide)
    have hhigh : n % (microsPerDay : Nat) < (microsPerDay : Nat) := Int.emod_lt_of_pos n (by decide)
    obtain ⟨c, hc, hmicros⟩ :=
      exists_clockOfMicros? (show (n % (microsPerDay : Nat)).toNat < microsPerDay by omega)
    cases hd : Date.ofDayNumber? (n / (microsPerDay : Nat)) with
    | none =>
      rw [ofMicros?, hd] at h
      cases h
    | some d =>
      have hday := Date.ofDayNumber?_eq_some_iff.mp hd
      rw [ofMicros?, hd, hc] at h
      obtain rfl := Option.some.inj h
      unfold micros
      unfold microsPerDay at *
      simp only
      omega
  · rintro rfl
    exact ofMicros?_micros t

theorem toUtc?_zero (t : DateTime) : t.toUtc? 0 = some t := by
  rw [toUtc?, Int.zero_mul, Int.sub_zero, ofMicros?_micros]

/-- In UTC the moment lies outside the years 1 to 9999. -/
def LeavesCalendar (t : DateTime) (offset : Int) : Prop :=
  (t.micros : Int) - offset * 1000000 < 0 ∨ (span : Int) ≤ t.micros - offset * 1000000

theorem toUtc?_eq_none_iff (t : DateTime) (offset : Int) :
    t.toUtc? offset = none ↔ t.LeavesCalendar offset := ofMicros?_eq_none_iff

end DateTime

end RecordFilter.Calendar
