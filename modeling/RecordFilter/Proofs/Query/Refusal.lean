import Mathlib
import RecordFilter.Command.Program
import RecordFilter.Proofs.Query.Backend
import RecordFilter.Proofs.Query.Coercion
import RecordFilter.Proofs.Query.Literal
import RecordFilter.Proofs.Value.Instant
import RecordFilter.Query.Session

namespace RecordFilter

open Fallible

/-- No error of a filter: whoever handles those does not see it. -/
def Fault.Escapes (f : Fault) : Prop := ∀ e, f ≠ .filter e

theorem ok_or_filter_iff {α : Type} {x : Except Fault α} :
    (∃ a, x = .ok a) ∨ (∃ e, x = .error (.filter e)) ↔ ∀ f, ¬ (x = .error f ∧ f.Escapes) := by
  cases x with
  | ok a => simp
  | error f => simp [Fault.Escapes]

theorem refuseFilter_of_escapes {f : Fault} (h : f.Escapes) (place : String) :
    Command.Program.refuseFilter place f = .fault f := by
  cases f with
  | filter e => exact absurd rfl (h e)
  | _ => rfl

/-- The texts that an operator reads in a match text. -/
def Operator.texts (o : Operator) (matchText : String) : List String :=
  if o.takesSet then Text.pieces ',' matchText else [matchText]

namespace Coercion

open Text

variable {raw : String} {f : Fault}

section Integers

variable {type : PropertyType} {low high : Int}

theorem toInteger_eq_error_cases (h : toInteger type low high raw = .error f) :
    f = refused type raw ∨
      ∃ digits, IsLiteral (trim raw.toList) digits ∧ Numeral.maxDigits < digits.length ∧
        f = .unreadable "" := by
  have hreading := reading_toInteger type low high raw
  rw [h] at hreading
  cases hreading with
  | outside => exact .inl rfl
  | long hd hlong =>
    obtain ⟨digits, hliteral, hlen⟩ := isLiteral_of_denotes hd
    exact .inr ⟨digits, hliteral, hlen ▸ hlong, rfl⟩
  | other => exact .inl rfl

theorem toInteger_of_tooLong {digits : List Char} (h : IsLiteral (trim raw.toList) digits)
    (hlong : Numeral.maxDigits < digits.length) :
    toInteger type low high raw = .error (.unreadable "") := by
  obtain ⟨n, hd⟩ := h.denotes
  rw [← List.length_map digitOf] at hlong
  rw [toInteger_of_denotes hd, if_pos hlong]

end Integers

theorem toDouble_eq_error (h : toDouble raw = .error f) : f = refused .double raw := by
  unfold toDouble at h
  split at h
  · cases h
  · exact (Except.error.inj h).symm

theorem toBoolean_eq_error (h : toBoolean raw = .error f) : f = refused .boolean raw := by
  unfold toBoolean at h
  split at h
  · cases h
  · exact (Except.error.inj h).symm

theorem forProperty_eq_iff {name : String} {g : Fault} (hf : f.Escapes) :
    forProperty name g = f ↔ g = f := by
  cases g with
  | filter e =>
    have hne : ∀ e, Fault.filter e ≠ f := fun e h => hf e h.symm
    simp [forProperty, hne]
  | _ => rfl

variable [DateReader]

/-- Texts on which the reading of a type breaks off instead of refusing them, and with what: an integer
with too many digits, a date on which the library fails or which leaves the calendar in UTC. -/
inductive BreaksOff (raw : String) : PropertyType → Fault → Prop
  | tooLong (type : PropertyType) (digits : List Char) (integral : type = .integer ∨ type = .long)
      (literal : IsLiteral (trim raw.toList) digits) (long : Numeral.maxDigits < digits.length) :
      BreaksOff raw type (.unreadable "")
  | date {f : Fault} (shown : ¬ allBlank raw.toList = true) (breaks : Instant.BreaksOff raw f) :
      BreaksOff raw .date f

theorem BreaksOff.escapes {type : PropertyType} (h : BreaksOff raw type f) : f.Escapes := by
  rintro e rfl
  cases h with
  | date shown breaks => cases breaks.foreign

theorem toDate_eq_error_cases (h : toDate raw = .error f) :
    f = refused .date raw ∨ BreaksOff raw .date f := by
  unfold toDate at h
  split_ifs at h with hb
  · exact .inl (Except.error.inj h).symm
  · split at h
    · cases h
    · next g hg =>
      cases hv : g.isValueError with
      | true =>
        rw [hv] at h
        exact .inl (Except.error.inj h).symm
      | false =>
        rw [hv] at h
        obtain rfl := Except.error.inj h
        exact .inr (.date hb ((Instant.ofText_eq_error_iff hv).mp hg))

theorem coerce_of_breaksOff {type : PropertyType} (h : BreaksOff raw type f) :
    coerce type raw = .error f := by
  cases h with
  | tooLong _ digits integral literal long =>
    rcases integral with rfl | rfl
    · exact toInteger_of_tooLong literal long
    · exact toInteger_of_tooLong literal long
  | date shown breaks =>
    have hforeign := breaks.foreign
    rw [coerce, toDate, if_neg shown, (Instant.ofText_eq_error_iff hforeign).mpr breaks]
    simp [hforeign]

theorem coerce_eq_error_cases {type : PropertyType} (h : coerce type raw = .error f) :
    f = refused type raw ∨ BreaksOff raw type f := by
  cases type <;> simp only [coerce] at h
  case string => cases h
  case integer =>
    rcases toInteger_eq_error_cases h with hr | ⟨digits, hd, hlong, rfl⟩
    · exact .inl hr
    · exact .inr (.tooLong _ digits (.inl rfl) hd hlong)
  case long =>
    rcases toInteger_eq_error_cases h with hr | ⟨digits, hd, hlong, rfl⟩
    · exact .inl hr
    · exact .inr (.tooLong _ digits (.inr rfl) hd hlong)
  case double => exact .inl (toDouble_eq_error h)
  case date => exact toDate_eq_error_cases h
  case boolean => exact .inl (toBoolean_eq_error h)

theorem coerce_eq_error_iff {type : PropertyType} (hf : f.Escapes) :
    coerce type raw = .error f ↔ BreaksOff raw type f := by
  constructor
  · intro h
    exact (coerce_eq_error_cases h).resolve_left fun hr => hf _ hr
  · exact coerce_of_breaksOff

section Entries

variable {registry : TypeRegistry} {type : PropertyType}

theorem coerceAs_of_contains (h : registry.contains (TypeEntry.known type).code = true) :
    coerceAs registry (.known type) = coerce type := by
  funext raw
  rw [coerceAs, if_pos h]

/-- Texts are not read on when one of them breaks off; without the type, nothing is read at all. -/
theorem coerceTexts_eq_error_iff {texts : List String} (hf : f.Escapes) :
    texts.mapM (coerceAs registry (.known type)) = .error f ↔
      registry.contains (TypeEntry.known type).code = true ∧
        Reaches (fun t => ∃ v, coerce type t = .ok v) (BreaksOff · type f) texts := by
  by_cases hc : registry.contains (TypeEntry.known type).code = true
  · simp only [coerceAs_of_contains hc, mapM_eq_error_iff, coerce_eq_error_iff hf, hc, true_and]
  · have hunknown : ∀ t, coerceAs registry (.known type) t ≠ .error f := by
      intro t ht
      rw [coerceAs, if_neg hc] at ht
      exact hf _ (Except.error.inj ht).symm
    rw [mapM_eq_error_iff]
    constructor
    · intro h
      obtain ⟨t, -, ht⟩ := h.exists
      exact absurd ht (hunknown t)
    · exact fun h => absurd h.1 hc

/-- A match value fails as the first of its texts that has no reading, in the name of the property. -/
theorem matchValue_eq_error_iff_exists {text name : String} {o : Operator} :
    matchValue type text name o registry = .error f ↔
      ∃ g, (o.texts text).mapM (coerceAs registry (.known type)) = .error g ∧ forProperty name g = f := by
  have hone : ∀ g, [text].mapM (coerceAs registry (.known type)) = .error g ↔
      coerceAs registry (.known type) text = .error g := by
    intro g
    rw [mapM_eq_error_iff]
    simp
  rw [matchValue, mapError_eq_error, Operator.texts]
  split_ifs
  · simp only [map_eq_error]
  · simp only [hone]

/-- What is no error of a filter is the same for every property. -/
theorem matchValue_eq_error_iff {text name : String} {o : Operator} (hf : f.Escapes) :
    matchValue type text name o registry = .error f ↔
      (o.texts text).mapM (coerceAs registry (.known type)) = .error f := by
  rw [matchValue_eq_error_iff_exists]
  simp only [forProperty_eq_iff hf, exists_eq_right]

end Entries

end Coercion

namespace Backend

variable [DateReader] {P : Type} {b : Backend P} {table : RestrictionTable} {registry : TypeRegistry}
  {e : Entry} {f : Fault}

/-- An entry with names, of a known kind and type, breaks off at the first of its texts that is not
read. -/
def BreaksOff (b : Backend P) (table : RestrictionTable) (registry : TypeRegistry) (e : Entry)
    (f : Fault) : Prop :=
  e.criterion.names ≠ [] ∧ ∃ o, b.operatorOf table e.criterion.kind = .ok o ∧
    registry.contains (TypeEntry.known e.criterion.type).code = true ∧
      Reaches (fun t => ∃ v, Coercion.coerce e.criterion.type t = .ok v)
        (Coercion.BreaksOff · e.criterion.type f) (o.texts e.matchText)

theorem BreaksOff.escapes (h : b.BreaksOff table registry e f) : f.Escapes := by
  obtain ⟨-, o, -, -, hr⟩ := h
  obtain ⟨t, -, ht⟩ := hr.exists
  exact ht.escapes

theorem ofEntry_eq_error_iff (hf : f.Escapes) :
    b.ofEntry table registry e = .error f ↔ b.BreaksOff table registry e f := by
  rw [BreaksOff]
  cases ho : b.operatorOf table e.criterion.kind with
  | error x =>
    have hne : f ≠ .filter x := hf x
    rw [ofEntry, ho]
    simp [liftFilter, Except.mapError, bind, Except.bind, Ne.symm hne]
  | ok o =>
    cases hn : e.criterion.names with
    | nil =>
      rw [ofEntry_eq, ho, hn]
      simp [liftFilter, Except.mapError, Except.map, bind, Except.bind, pure, Except.pure]
    | cons name names =>
      rw [ofEntry_eq_error_iff_first ho hn, Coercion.matchValue_eq_error_iff hf,
        Coercion.coerceTexts_eq_error_iff hf]
      simp

theorem ofEntries_escapes_iff {es : List Entry} :
    b.ofEntries table registry es = .error f ∧ f.Escapes ↔
      Reaches (fun e => ∃ p, b.ofEntry table registry e = .ok p) (b.BreaksOff table registry · f) es := by
  rw [ofEntries_eq_error_iff, mapM_eq_error_iff]
  constructor
  · intro hh
    obtain ⟨h, hf⟩ := hh
    simpa only [ofEntry_eq_error_iff hf] using h
  · intro h
    obtain ⟨e, -, he⟩ := h.exists
    exact ⟨by simpa only [ofEntry_eq_error_iff he.escapes] using h, he.escapes⟩

end Backend

namespace Coercion

/-- Whatever the library for dates does, a match text is read as a value of its type, or refused with the type
and the text, unless it breaks off the reading; then a command fails as well. Composing entries gives a
predicate or an error of a filter unless it comes to an entry that breaks off. -/
theorem reads_or_refuses_iff [DateReader] (type : PropertyType) (raw : String) (b : Backend Predicate)
    (table : RestrictionTable) (registry : TypeRegistry) (es : List Entry) :
    ((∃ v, coerce type raw = .ok v ∧ type.Admits v ∧ (type = .string → v = .text raw)) ∨
        coerce type raw = .error (.filter (.typeCoercion type.name raw none)) ↔
      ∀ f, ¬ BreaksOff raw type f) ∧
    (∀ f, BreaksOff raw type f → coerce type raw = .error f ∧ f.Escapes ∧
      ∀ place, Command.Program.refuseFilter place f = .fault f) ∧
    ((∃ p, Session.composeOn ⟨b, false⟩ table registry es = .ok p) ∨
        (∃ e, Session.composeOn ⟨b, false⟩ table registry es = .error (.filter e)) ↔
      ∀ f, ¬ Reaches (fun e => ∃ p, b.ofEntry table registry e = .ok p)
        (b.BreaksOff table registry · f) es) ∧
    ∀ f, Reaches (fun e => ∃ p, b.ofEntry table registry e = .ok p) (b.BreaksOff table registry · f) es →
      Session.composeOn ⟨b, false⟩ table registry es = .error f ∧ f.Escapes := by
  refine ⟨?_, fun f h => ?_, ?_, fun f h => Backend.ofEntries_escapes_iff.mpr h⟩
  · constructor
    · intro hread f hb
      have hc := coerce_of_breaksOff hb
      rcases hread with ⟨v, hv, -⟩ | hr
      · cases hv.symm.trans hc
      · exact hb.escapes _ (Except.error.inj (hc.symm.trans hr))
    · intro hb
      cases hc : coerce type raw with
      | ok v =>
        refine .inl ⟨v, rfl, admits_of_coerce hc, ?_⟩
        rintro rfl
        exact (Except.ok.inj hc).symm
      | error f =>
        obtain rfl := (coerce_eq_error_cases hc).resolve_right (hb f)
        exact .inr rfl
  · exact ⟨coerce_of_breaksOff h, h.escapes, refuseFilter_of_escapes h.escapes⟩
  · simp only [← Backend.ofEntries_escapes_iff]
    exact ok_or_filter_iff

/-- In the first hour of year 1, a place ahead of UTC is still in the year before. -/
theorem first_hour_breaksOff :
    let raw := "0001-01-01T00:30:00+01:00"
    BreaksOff raw .date .overflow ∧ coerce .date raw = .error .overflow ∧
    Session.composeOn ⟨Backend.memory, false⟩ .standard .standard
      [⟨⟨"EQ", .string, ["name"]⟩, "vincent"⟩, ⟨⟨"GE", .date, ["born"]⟩, raw⟩] = .error .overflow := by
  intro raw
  have hwritten : Instant.WrittenWithOffset raw ⟨⟨1, 1, 1, rfl⟩, ⟨0, 30, 0, 0, rfl⟩⟩ 3600 := by
    unfold Instant.WrittenWithOffset
    decide +kernel
  have hb : BreaksOff raw .date .overflow :=
    .date (by decide) (.outOfCalendar _ _ hwritten (.inl (by decide)))
  have hentry : Backend.memory.BreaksOff .standard .standard ⟨⟨"GE", .date, ["born"]⟩, raw⟩ .overflow :=
    ⟨by simp, .greaterOrEqual, rfl, rfl, .here hb⟩
  obtain ⟨-, hread, -, hcompose⟩ := reads_or_refuses_iff .date raw Backend.memory .standard .standard
    [⟨⟨"EQ", .string, ["name"]⟩, "vincent"⟩, ⟨⟨"GE", .date, ["born"]⟩, raw⟩]
  exact ⟨hb, (hread _ hb).1, (hcompose _ (.later ⟨_, rfl⟩ (.here hentry))).1⟩

/-- A date beside a duration is half an interval: its reading, and that of an entry with it, ends in a
fault that is no error of a filter. -/
theorem half_interval_breaksOff :
    coerce .date "2024-01-31/P1D" = .error .wrongKind ∧
    Session.composeOn ⟨Backend.memory, false⟩ .standard .standard
      [⟨⟨"EQ", .date, ["born"]⟩, "2024-01-31/P1D"⟩] = .error .wrongKind := by
  exact ⟨rfl, rfl⟩

example : coerce .date "docs/" = .error .noSuchItem := by rfl

example : coerce .date "2008-05-11T15:30Z/P1DT2H" = .error (refused .date "2008-05-11T15:30Z/P1DT2H") := by rfl

end Coercion

end RecordFilter
