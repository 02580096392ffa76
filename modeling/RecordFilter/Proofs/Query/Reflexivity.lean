import Mathlib
import RecordFilter.Proofs.Query.Comparison
import RecordFilter.Proofs.Query.Literal
import RecordFilter.Proofs.Value.Instant

namespace RecordFilter

/-- A match value is of one of five kinds, whichever its type. -/
theorem PropertyType.Admits.shape {type : PropertyType} {v : Value} (hv : type.Admits v) :
    (∃ s, v = .text s) ∨ (∃ n, v = .int n) ∨ (∃ s u, v = .float (.finite s u)) ∨
      (∃ t, v = .zoned t 0) ∨ ∃ b, v = .bool b := by
  cases type with
  | string => exact .inl hv
  | integer =>
    obtain ⟨n, hn, -⟩ := hv
    exact .inr (.inl ⟨n, hn⟩)
  | long =>
    obtain ⟨n, hn, -⟩ := hv
    exact .inr (.inl ⟨n, hn⟩)
  | double => exact .inr (.inr (.inl hv))
  | date => exact .inr (.inr (.inr (.inl hv)))
  | boolean => exact .inr (.inr (.inr (.inr hv)))

theorem Place.lt_self (x : Place) : x.lt x = false := by
  cases x <;> simp [Place.lt]

namespace Value

variable {type : PropertyType} {v : Value}

/-- The second value is of the kind that the first, as a match value, is compared with. -/
inductive Fits : Value → Value → Prop
  | text (s t : String) : Fits (.text s) (.text t)
  | int (k m : Int) : Fits (.int k) (.int m)
  | float_int (k : Int) (x : Double) : Fits (.int k) (.float x)
  | float (d x : Double) : Fits (.float d) (.float x)
  | zoned (t u : Calendar.DateTime) : Fits (.zoned t 0) (.zoned u 0)
  | bool (b c : Bool) : Fits (.bool b) (.bool c)

theorem fits_self (hv : type.Admits v) : v.Fits v := by
  rcases hv.shape with ⟨s, rfl⟩ | ⟨n, rfl⟩ | ⟨s, u, rfl⟩ | ⟨t, rfl⟩ | ⟨b, rfl⟩
  · exact .text s s
  · exact .int n n
  · exact .float _ _
  · exact .zoned t t
  · exact .bool b b

theorem equal_self (hv : type.Admits v) : v.equal v = true := by
  rcases hv.shape with ⟨s, rfl⟩ | ⟨n, rfl⟩ | ⟨s, u, rfl⟩ | ⟨t, rfl⟩ | ⟨b, rfl⟩ <;>
    simp [equal, equalLeaf, number?, moment?, Place.ofDouble?]

/-- A match value is neither below nor above itself. -/
theorem order?_self (o : Order) (hv : type.Admits v) : order? o v v = some (o.decide false false) := by
  rcases hv.shape with ⟨s, rfl⟩ | ⟨n, rfl⟩ | ⟨s, u, rfl⟩ | ⟨t, rfl⟩ | ⟨b, rfl⟩ <;>
    simp [order?, orderLeaf?, number?, moment?, Place.ofDouble?, Place.lt_self]

end Value

namespace Predicate

open Coercion
open Text (Surrounds isSpacing trim trimSpacing)

variable {type : PropertyType} {raw path : String} {a v : Value}

/-- The operators that hold between equal values. -/
def ofEquals : List Operator := [.equals, .greaterOrEqual, .lessOrEqual]

/-- The operators that tell a value from equal ones. -/
def ofUnequals : List Operator := [.notEquals, .greaterThan, .lessThan]

theorem relates_self (hv : type.Admits v) :
    (∀ o ∈ ofEquals, relates o v v = true) ∧ ∀ o ∈ ofUnequals, relates o v v = false := by
  simp only [ofEquals, ofUnequals, List.forall_mem_cons]
  simp [relates, Value.equal_self hv, Value.order?_self _ hv, Value.Order.decide]

section Numerals

open Numeral (readInt? readDouble?)

/-- The text of an integer is read as that integer, unless a blank that is no spacing stands around it. -/
theorem readInt?_of_toInteger {low high : Int} (h : toInteger type low high raw = .ok v) :
    (readInt? raw.toList).map Value.int =
      if trimSpacing raw.toList = trim raw.toList then some v else none := by
  have hreading := reading_toInteger type low high raw
  rw [h] at hreading
  cases hreading with
  | within hd hlen =>
    rw [Numeral.readInt?_eq, Numeral.readInt?_of_denotes hd hlen]
    split_ifs <;> rfl

theorem readDouble?_of_toDouble (h : toDouble raw = .ok v) :
    (readDouble? raw.toList).map Value.float =
      if trimSpacing raw.toList = trim raw.toList then some v else none := by
  unfold toDouble at h
  split at h
  · next s u hread =>
    obtain rfl := Except.ok.inj h
    rw [Numeral.readDouble?_eq, hread]
    split_ifs <;> rfl
  · cases h

end Numerals

section Readings

variable [DateReader]

/-- Comparing the property of a record with a match value gives what equal values give. -/
structure ComparesEqual (r : Record) (path : String) (v : Value) : Prop where
  holds : ∀ o ∈ ofEquals, compares o path v r = .ok true
  isIn : compares .isIn path (.list [v]) r = .ok true
  fails : ∀ o ∈ ofUnequals, compares o path v r = .ok false
  notIn : compares .notIn path (.list [v]) r = .ok false

/-- Comparing the property of a record with a match value gives what values without a reading give. -/
structure ComparesUnread (r : Record) (path : String) (v : Value) : Prop where
  fails : ∀ o ∈ Operator.comparing, compares o path v r = .ok false
  isIn : compares .isIn path (.list [v]) r = .ok false
  notIn : compares .notIn path (.list [v]) r = .ok true

theorem comparesEqual_of_normalize (hv : type.Admits v) (hn : a ≠ .null)
    (h : normalize a v = .ok (some v)) : ComparesEqual [(.text path, a)] path v := by
  obtain ⟨hequals, hunequals⟩ := relates_self hv
  have hsame : sameAsOne a [v] = .ok true := by
    rw [sameAsOne, sameAs_of_normalize h, Option.any_some, Value.equal_self hv]
    rfl
  have htest : ∀ o ∈ Operator.comparing, test o a v = .ok (relates o v v) := by
    intro o ho
    rw [test_of_comparing ho, h]
    rfl
  have hsub : ofEquals ⊆ Operator.comparing ∧ ofUnequals ⊆ Operator.comparing := by decide
  constructor
  · intro o ho
    rw [compares_of_resolve (resolve_single path a) hn, htest o (hsub.1 ho), hequals o ho]
  · rw [compares_of_resolve (resolve_single path a) hn, test_isIn, hsame]
  · intro o ho
    rw [compares_of_resolve (resolve_single path a) hn, htest o (hsub.2 ho), hunequals o ho]
  · rw [compares_of_resolve (resolve_single path a) hn, test_notIn, hsame]
    rfl

theorem comparesUnread_of_normalize (hn : a ≠ .null) (h : normalize a v = .ok none) :
    ComparesUnread [(.text path, a)] path v := by
  have hread : ∀ w ∈ [v], normalize a w = .ok none := by simpa using h
  obtain ⟨hin, hnot⟩ := test_in_of_unreadable hread
  constructor
  · intro o ho
    rw [compares_of_resolve (resolve_single path a) hn, test_of_unreadable ho h]
  · rw [compares_of_resolve (resolve_single path a) hn, hin]
  · rw [compares_of_resolve (resolve_single path a) hn, hnot]

/-- A value of the kind that is compared with a match value is its own reading. -/
theorem normalize_of_fits {n : Value} (h : v.Fits n) : normalize n v = .ok (some n) := by
  cases h with
  | text s t =>
    rw [normalize, Value.written?_text]
    rfl
  | int k m => rw [normalize, asInteger?]
  | float_int k x => rw [normalize, asInteger?]
  | float d x => rw [normalize, asDouble?]
  | zoned t u =>
    rw [normalize, Instant.ofValue, Instant.ofOffset_zero]
    rfl
  | bool b c => rw [normalize]

theorem normalize_self (hv : type.Admits v) : normalize v v = .ok (some v) :=
  normalize_of_fits (Value.fits_self hv)

section Texts

theorem normalize_bool_text (s : String) (b : Bool) :
    normalize (.text s) (.bool b) = .ok ((truthOf? s).map Value.bool) := by
  change (unreadableAsNone (Value.text s).written?).map (fun s => (s.bind truthOf?).map Value.bool) = _
  rw [Value.written?_text]
  rfl

/-- The text of a match value that is no number is read as that value. -/
theorem normalize_text (ht : type = .string ∨ type = .date ∨ type = .boolean)
    (h : coerce type raw = .ok v) : normalize (.text raw) v = .ok (some v) := by
  rcases ht with rfl | rfl | rfl
  · obtain rfl := Except.ok.inj h
    have hv : PropertyType.string.Admits (.text raw) := ⟨raw, rfl⟩
    exact normalize_self hv
  · simp only [coerce, toDate] at h
    split_ifs at h
    split at h
    · next t ht =>
      obtain rfl := Except.ok.inj h
      rw [normalize, Instant.ofValue_text, ht]
      rfl
    · cases h
  · simp only [coerce, toBoolean] at h
    split at h
    · next b hb =>
      obtain rfl := Except.ok.inj h
      rw [normalize_bool_text, hb]
      rfl
    · cases h

theorem normalize_numeral (ht : type = .integer ∨ type = .long ∨ type = .double)
    (h : coerce type raw = .ok v) :
    normalize (.text raw) v =
      .ok (if trimSpacing raw.toList = trim raw.toList then some v else none) := by
  have hv := admits_of_coerce h
  rcases ht with rfl | rfl | rfl <;> simp only [coerce] at h
  · obtain ⟨n, rfl, -⟩ := hv
    rw [normalize, asInteger?, readInt?_of_toInteger h]
  · obtain ⟨n, rfl, -⟩ := hv
    rw [normalize, asInteger?, readInt?_of_toInteger h]
  · obtain ⟨s, u, rfl⟩ := hv
    rw [normalize, asDouble?, readDouble?_of_toDouble h]

end Texts

end Readings

/-- A record that holds a match value compares with it as equal values do. So does one that holds the text
it was read from, unless the type is numeric and a blank that is no spacing stands around the numeral: then
the record's text has no reading. -/
theorem compares_with_own_text [DateReader] (type : PropertyType) (raw path : String) (v : Value)
    (h : coerce type raw = .ok v) :
    ComparesEqual [(.text path, v)] path v ∧
    (type = .string ∨ type = .date ∨ type = .boolean → ComparesEqual [(.text path, .text raw)] path v) ∧
    (type = .integer ∨ type = .long ∨ type = .double →
      (Surrounds isSpacing raw.toList (trim raw.toList) →
        ComparesEqual [(.text path, .text raw)] path v) ∧
      (¬ Surrounds isSpacing raw.toList (trim raw.toList) →
        ComparesUnread [(.text path, .text raw)] path v)) := by
  have hv := admits_of_coerce h
  have hn : v ≠ .null := by
    rcases hv.shape with ⟨s, rfl⟩ | ⟨n, rfl⟩ | ⟨s, u, rfl⟩ | ⟨t, rfl⟩ | ⟨b, rfl⟩ <;> simp
  refine ⟨comparesEqual_of_normalize hv hn (normalize_self hv), fun ht => ?_, fun ht => ?_⟩
  · exact comparesEqual_of_normalize hv (by simp) (normalize_text ht h)
  · have hread := normalize_numeral ht h
    rw [← Text.trimSpacing_eq_trim_iff]
    split_ifs at hread with hs
    · exact ⟨fun _ => comparesEqual_of_normalize hv (by simp) hread, fun hns => absurd hs hns⟩
    · exact ⟨fun hns => absurd hns hs, fun _ => comparesUnread_of_normalize (by simp) hread⟩

theorem compares_with_own_text_spaced :
    coerce .integer " +07\t" = .ok (.int 7) ∧
    Surrounds isSpacing " +07\t".toList (trim " +07\t".toList) ∧
    ComparesEqual [(.text "age", .int 7)] "age" (.int 7) ∧
    ComparesEqual [(.text "age", .text " +07\t")] "age" (.int 7) := by
  have h : coerce .integer " +07\t" = .ok (.int 7) := by rfl
  have hs : Surrounds isSpacing " +07\t".toList (trim " +07\t".toList) :=
    Text.trimSpacing_eq_trim_iff.mp (by rfl)
  obtain ⟨hvalue, -, htext⟩ := compares_with_own_text .integer " +07\t" "age" (.int 7) h
  exact ⟨h, hs, hvalue, (htext (.inl rfl)).1 hs⟩

/-- A separator in front of a numeral is dropped from a match text, but not from a record text. -/
theorem separator_differs :
    coerce .integer "\x1c5" = .ok (.int 5) ∧
    compares .equals "age" (.int 5) [(.text "age", .text "\x1c5")] = .ok false ∧
    compares .notIn "age" (.list [.int 5]) [(.text "age", .text "\x1c5")] = .ok true :=
  ⟨by rfl, by cbv, by cbv⟩

end Predicate

end RecordFilter
