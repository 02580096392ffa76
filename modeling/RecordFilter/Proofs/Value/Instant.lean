import RecordFilter.Proofs.Calendar.DateTime
import RecordFilter.Proofs.Fallible
import RecordFilter.Proofs.Value.Text
import RecordFilter.Value.Instant

namespace RecordFilter

/-- A fault that is not taken for a missing reading. -/
def Fault.Persists (f : Fault) : Prop := f.isValueError = false ∧ f ≠ .wrongKind

namespace Value

/-- The instant of a date, its midnight, or of a date and time, in UTC where no offset is known:
microseconds since the start of year 1. -/
def instant? : Value → Option Int
  | .date d => some (Calendar.DateTime.atMidnight d).micros
  | .dateTime t none => some t.micros
  | .dateTime t (some offset) | .zoned t offset => some (t.micros - offset * 1000000)
  | _ => none

end Value

namespace Instant

open Calendar

variable {f : Fault}

theorem ofOffset_eq_error_iff {t : DateTime} {offset : Int} :
    ofOffset t offset = .error f ↔ f = .overflow ∧ t.LeavesCalendar offset := by
  rw [ofOffset, Fallible.inRange_eq_error_iff, DateTime.toUtc?_eq_none_iff, and_comm]

theorem ofOffset_zero (t : DateTime) : ofOffset t 0 = .ok t := by
  rw [ofOffset, DateTime.toUtc?_zero, inRange]

/-- The reader that the grammar of dates is. -/
theorem read_eq (s : List Char) : DateReader.read s = Reading.ofText s := rfl

variable [DateReader] {text : String}

/-- The text is a date and time with an offset from UTC. -/
def WrittenWithOffset (text : String) (t : DateTime) (offset : Int) : Prop :=
  DateReader.read (Text.trim text.toList) = .ok (.dateTime t (some offset))

/-- Reading the text ends in a fault that is no error about values: the library fails with it, or gives a
moment that leaves the calendar in UTC. -/
inductive BreaksOff (text : String) : Fault → Prop
  | unread {f : Fault} (fails : DateReader.read (Text.trim text.toList) = .error f)
      (foreign : f.isValueError = false) : BreaksOff text f
  | outOfCalendar (t : DateTime) (offset : Int) (written : WrittenWithOffset text t offset)
      (leaves : t.LeavesCalendar offset) : BreaksOff text .overflow

theorem BreaksOff.foreign (h : BreaksOff text f) : f.isValueError = false := by
  cases h with
  | unread fails foreign => exact foreign
  | outOfCalendar => rfl

theorem ofText_eq_error_iff (hf : f.isValueError = false) : ofText text = .error f ↔ BreaksOff text f := by
  have hnodate : ∀ g : Violation, Except.error (.violation g) ≠ (.error f : Except Fault DateTime) := by
    intro g h
    obtain rfl := Except.error.inj h
    cases hf
  constructor
  · intro h
    rw [ofText, Fallible.bind_eq_error] at h
    rcases h with h | ⟨reading, hr, h⟩
    · exact .unread h hf
    · cases reading with
      | date d => cases h
      | dateTime t offset =>
        cases offset with
        | none => cases h
        | some offset =>
          obtain ⟨rfl, hl⟩ := ofOffset_eq_error_iff.mp h
          exact .outOfCalendar t offset hr hl
      | _ => exact absurd h (hnodate _)
  · intro h
    rw [ofText, Fallible.bind_eq_error]
    cases h with
    | unread fails => exact .inl fails
    | outOfCalendar t offset written leaves => exact .inr ⟨_, written, ofOffset_eq_error_iff.mpr ⟨rfl, leaves⟩⟩

/-- A value denotes no moment, for a fault that is not taken for a missing reading: its own moment leaves the
calendar in UTC, or the reading of its text breaks off. -/
def OutOfReach (v : Value) (f : Fault) : Prop :=
  match v with
  | .zoned t offset | .dateTime t (some offset) => f = .overflow ∧ t.LeavesCalendar offset
  | .dateTime _ none | .date _ => False
  | v => f ≠ .wrongKind ∧ ∃ text, v.written? = .ok text ∧ BreaksOff text f

theorem ofWritten_persists_iff {v : Value} : (v.written? >>= ofText) = .error f ∧ f.Persists ↔
    f ≠ .wrongKind ∧ ∃ text, v.written? = .ok text ∧ BreaksOff text f := by
  constructor
  · intro hh
    obtain ⟨h, hf, hk⟩ := hh
    rcases Fallible.bind_eq_error.mp h with hw | ⟨text, ht, h⟩
    · obtain rfl := Value.written?_eq_error hw
      cases hf
    · exact ⟨hk, text, ht, (ofText_eq_error_iff hf).mp h⟩
  · intro hh
    obtain ⟨hk, text, ht, hb⟩ := hh
    have hread := (ofText_eq_error_iff hb.foreign).mpr hb
    exact ⟨Fallible.bind_eq_error.mpr (.inr ⟨text, ht, hread⟩), hb.foreign, hk⟩

theorem ofValue_persists_iff {v : Value} : ofValue v = .error f ∧ f.Persists ↔ OutOfReach v f := by
  have hoffset : ∀ t offset, ofOffset t offset = .error f ∧ f.Persists ↔
      f = .overflow ∧ t.LeavesCalendar offset := by
    intro t offset
    rw [ofOffset_eq_error_iff, and_iff_left_iff_imp]
    rintro ⟨rfl, -⟩
    exact ⟨rfl, by simp⟩
  cases v with
  | zoned t offset => exact hoffset t offset
  | dateTime t offset =>
    cases offset with
    | none => simp [ofValue, OutOfReach]
    | some offset => exact hoffset t offset
  | date d => simp [ofValue, OutOfReach]
  | _ => exact ofWritten_persists_iff

section Moments

variable {w : Value} {n : Int}

/-- A value is the date and time of its instant, while that stays in the calendar. -/
theorem ofValue_of_instant? (hn : w.instant? = some n) :
    ofValue w = inRange (DateTime.ofMicros? n) := by
  cases w with
  | date d =>
    obtain rfl := Option.some.inj hn
    rw [ofValue, DateTime.ofMicros?_micros]
    rfl
  | dateTime t offset =>
    cases offset with
    | none =>
      obtain rfl := Option.some.inj hn
      rw [ofValue, DateTime.ofMicros?_micros]
      rfl
    | some offset =>
      obtain rfl := Option.some.inj hn
      rfl
  | zoned t offset =>
    obtain rfl := Option.some.inj hn
    rfl
  | _ => cases hn

theorem ofValue_eq_ok_iff (hn : w.instant? = some n) {t : DateTime} :
    ofValue w = .ok t ↔ (t.micros : Int) = n := by
  rw [ofValue_of_instant? hn, ← DateTime.ofMicros?_eq_some_iff]
  cases DateTime.ofMicros? n <;> simp [inRange]

theorem ofValue_eq_error_iff (hn : w.instant? = some n) {f : Fault} :
    ofValue w = .error f ↔ (n < 0 ∨ (DateTime.span : Int) ≤ n) ∧ f = .overflow := by
  rw [ofValue_of_instant? hn, Fallible.inRange_eq_error_iff, DateTime.ofMicros?_eq_none_iff]

end Moments

theorem ofValue_text (s : String) : ofValue (.text s) = ofText s := by
  change (Value.text s).written? >>= ofText = ofText s
  rw [Value.written?_text]
  rfl

end Instant

end RecordFilter
