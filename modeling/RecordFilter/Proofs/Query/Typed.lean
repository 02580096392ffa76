import Mathlib
import RecordFilter.Proofs.Query.Backend
import RecordFilter.Proofs.Query.Comparison
import RecordFilter.Proofs.Value.Equality
import RecordFilter.Proofs.Value.Instant

namespace RecordFilter

open Fallible

namespace Value

/-- A date and time without an offset. -/
def IsNaive : Value → Prop
  | .dateTime _ none => True
  | _ => False

/-- A date and time whose offset leads out of the calendar in UTC. -/
def LeavesCalendar : Value → Prop
  | .dateTime t (some offset) | .zoned t offset => t.LeavesCalendar offset
  | _ => False

end Value

namespace Predicate

open Value (IsNaive LeavesCalendar)

variable {v : Value} {o : Operator} {property : String}

/-- Moving a moment to UTC keeps its instant. -/
theorem equal_of_ofOffset {t u : Calendar.DateTime} {offset : Int} (h : Instant.ofOffset t offset = .ok u) :
    (Value.zoned u 0).equal (.zoned t offset) = true ∧
      (Value.zoned u 0).equal (.dateTime t (some offset)) = true := by
  have hmicros : (u.micros : Int) = t.micros - offset * 1000000 :=
    (Instant.ofValue_eq_ok_iff (w := .zoned t offset) rfl).mp h
  constructor
  · simp [Value.equal, Value.equalLeaf, Value.number?, Value.moment?, hmicros]
  · simp [Value.equal, Value.equalLeaf, Value.number?, Value.moment?, hmicros]

theorem exists_ofOffset {t : Calendar.DateTime} {offset : Int} (h : ¬ t.LeavesCalendar offset) :
    ∃ u, Instant.ofOffset t offset = .ok u := by
  cases hu : Instant.ofOffset t offset with
  | ok u => exact ⟨u, rfl⟩
  | error f => exact absurd (Instant.ofOffset_eq_error_iff.mp hu).2 h

/-- Beside itself as a record value, a match value is read as one that equals it. -/
theorem exists_normalize_self (hv : v.holdsNan = false) (hnaive : ¬ v.IsNaive) (hleaves : ¬ v.LeavesCalendar) :
    ∃ n, normalize v v = .ok (some n) ∧ n.equal v = true := by
  have hself : v.equal v = true := Value.equal_of_holdsNan_eq_false v hv
  cases v with
  | dateTime t offset =>
    cases offset with
    | none => exact absurd trivial hnaive
    | some offset =>
      obtain ⟨u, hu⟩ := exists_ofOffset hleaves
      refine ⟨.zoned u 0, ?_, (equal_of_ofOffset hu).2⟩
      rw [normalize, Instant.ofValue, hu]
      rfl
  | zoned t offset =>
    obtain ⟨u, hu⟩ := exists_ofOffset hleaves
    refine ⟨.zoned u 0, ?_, (equal_of_ofOffset hu).1⟩
    rw [normalize, Instant.ofValue, hu]
    rfl
  | text s =>
    refine ⟨.text s, ?_, hself⟩
    rw [normalize, Value.written?_text]
    rfl
  | null => exact ⟨_, rfl, hself⟩
  | bool b => exact ⟨_, rfl, hself⟩
  | int n => exact ⟨_, rfl, hself⟩
  | float x => exact ⟨_, rfl, hself⟩
  | list xs => exact ⟨_, rfl, hself⟩
  | tuple xs => exact ⟨_, rfl, hself⟩
  | set xs => exact ⟨_, rfl, hself⟩
  | map es => exact ⟨_, rfl, hself⟩
  | date d => exact ⟨_, rfl, hself⟩
  | bytes bs => exact ⟨_, rfl, hself⟩

/-- On a record that holds the match value itself, a comparison asks of what the value is read as. -/
theorem matches?_self (hn : v ≠ .null) (ho : o ∈ Operator.comparing) :
    (compare o property v).matches? [(.text property, v)] =
      (normalize v v).map fun n => n.any (relates o · v) := by
  rw [matches?, compares_of_resolve (resolve_single property v) hn, test_of_comparing ho]

/-- A date and time without an offset, and the value that is no number, equal no record value at all: what
is read towards the one has an offset, and nothing equals the other. -/
theorem normalize_differs (hv : v.IsNaive ∨ v = .float .nan) {a n : Value} (h : normalize a v = .ok (some n)) :
    n.equal v = false := by
  rcases hv with hnaive | rfl
  · cases v with
    | dateTime t offset =>
      cases offset with
      | none =>
        obtain ⟨m, -, hm⟩ := map_eq_ok.mp h
        obtain ⟨u, -, rfl⟩ := Option.map_eq_some_iff.mp hm
        simp [Value.equal, Value.equalLeaf, Value.number?, Value.moment?]
      | some offset => exact hnaive.elim
    | _ => exact hnaive.elim
  · cases n <;> simp [Value.equal, Value.equalLeaf, Value.number?, Value.moment?, Place.ofDouble?]

theorem test_equals_ne_true (hv : v.IsNaive ∨ v = .float .nan) (a : Value) :
    test .equals a v ≠ .ok true := by
  intro h
  rw [test_of_comparing (by decide)] at h
  obtain ⟨m, hm, hany⟩ := map_eq_ok.mp h
  cases m with
  | none => cases hany
  | some n =>
    have hdiffers := normalize_differs hv hm
    rw [Option.any_some, relates, hdiffers] at hany
    cases hany

theorem compares_equals_ne_true (hv : v.IsNaive ∨ v = .float .nan) (r : Record) :
    compares .equals property v r ≠ .ok true := by
  unfold compares
  split
  · simp
  · exact test_equals_ne_true hv _

/-- Both are read, though, so that they differ from themselves. -/
theorem exists_normalize_of_differs (hv : v.IsNaive ∨ v = .float .nan) :
    ∃ n, normalize v v = .ok (some n) := by
  rcases hv with hnaive | rfl
  · cases v with
    | dateTime t offset =>
      cases offset with
      | none => exact ⟨_, rfl⟩
      | some offset => exact hnaive.elim
    | _ => exact hnaive.elim
  · exact ⟨_, rfl⟩

theorem normalize_of_leavesCalendar (hv : v.LeavesCalendar) : normalize v v = .error .overflow := by
  have hoffset : ∀ t offset, Calendar.DateTime.LeavesCalendar t offset →
      Instant.ofOffset t offset = .error .overflow :=
    fun t offset h => Instant.ofOffset_eq_error_iff.mpr ⟨rfl, h⟩
  cases v with
  | dateTime t offset =>
    cases offset with
    | none => exact hv.elim
    | some offset =>
      rw [normalize, Instant.ofValue, hoffset t offset hv]
      rfl
  | zoned t offset =>
    rw [normalize, Instant.ofValue, hoffset t offset hv]
    rfl
  | _ => exact hv.elim

/-- A typed match value equals itself as a record value and does not differ from it, unless it is a date and
time without an offset, which equals no record value and differs from itself like the value that is no number,
or one whose offset leads out of the calendar, on which the comparison fails. A value that is no collection
is among itself alone wherever it is equal. -/
theorem typed_value_equals_itself (v : Value) (hn : v ≠ .null) (property : String) :
    ∃ eq ne, Backend.memory.ofValue .standard property v "EQ" = .ok eq ∧
      Backend.memory.ofValue .standard property v "NE" = .ok ne ∧
      (v.holdsNan = false → ¬ v.IsNaive → ¬ v.LeavesCalendar →
        eq.matches? [(.text property, v)] = .ok true ∧ ne.matches? [(.text property, v)] = .ok false) ∧
      (v.IsNaive ∨ v = .float .nan →
        (∀ r, eq.matches? r ≠ .ok true) ∧
        eq.matches? [(.text property, v)] = .ok false ∧ ne.matches? [(.text property, v)] = .ok true) ∧
      (v.LeavesCalendar → eq.matches? [(.text property, v)] = .error .overflow ∧
        ne.matches? [(.text property, v)] = .error .overflow) ∧
      ((∀ xs, v ≠ .list xs ∧ v ≠ .tuple xs ∧ v ≠ .set xs) →
        ∃ isIn, Backend.memory.ofValue .standard property v "IN" = .ok isIn ∧
          ∀ r, isIn.matches? r = eq.matches? r) := by
  have heq : (Backend.memory).operatorOf .standard "EQ" = .ok .equals := by rfl
  have hne : (Backend.memory).operatorOf .standard "NE" = .ok .notEquals := by rfl
  have hin : (Backend.memory).operatorOf .standard "IN" = .ok .isIn := by rfl
  refine ⟨.compare .equals property v, .compare .notEquals property v, Backend.ofValue_of_scalar heq rfl,
    Backend.ofValue_of_scalar hne rfl, ?_, ?_, ?_, ?_⟩
  · intro hnan hnaive hleaves
    obtain ⟨n, hread, hequal⟩ := exists_normalize_self hnan hnaive hleaves
    rw [matches?_self hn (by decide), matches?_self hn (by decide), hread]
    simp [Except.map, relates, hequal]
  · intro hdiffers
    obtain ⟨n, hread⟩ := exists_normalize_of_differs hdiffers
    have hequal : n.equal v = false := normalize_differs hdiffers hread
    refine ⟨fun r => compares_equals_ne_true hdiffers r, ?_⟩
    rw [matches?_self hn (by decide), matches?_self hn (by decide), hread]
    simp [Except.map, relates, hequal]
  · intro hleaves
    rw [matches?_self hn (by decide), matches?_self hn (by decide), normalize_of_leavesCalendar hleaves]
    exact ⟨rfl, rfl⟩
  · intro hv
    refine ⟨_, Backend.ofValue_of_single hin rfl hv, fun r => ?_⟩
    exact compares_isIn_single r

/-- Inside a mapping, a date and time without an offset is compared as it is. -/
theorem typed_value_equals_itself_inside :
    let v : Value := .map [(.text "since", .dateTime ⟨⟨2024, 2, 29, rfl⟩, .midnight⟩ none),
      (.text "sizes", .list [.float (.infinite true), .int (-0x10000000000000000)])]
    v ≠ .null ∧ v.holdsNan = false ∧
    ∃ eq isIn, Backend.memory.ofValue .standard "stay" v "EQ" = .ok eq ∧
      Backend.memory.ofValue .standard "stay" v "IN" = .ok isIn ∧
      eq.matches? [(.text "stay", v)] = .ok true ∧ isIn.matches? [(.text "stay", v)] = .ok true := by
  intro v
  have hn : v ≠ .null := by simp [v]
  have hnan : v.holdsNan = false := by rfl
  have hsingle : ∀ xs, v ≠ .list xs ∧ v ≠ .tuple xs ∧ v ≠ .set xs := by simp [v]
  obtain ⟨eq, ne, heq, -, hself, -, -, hset⟩ := typed_value_equals_itself v hn "stay"
  obtain ⟨hmatches, -⟩ := hself hnan id id
  obtain ⟨isIn, hisIn, hsame⟩ := hset hsingle
  exact ⟨hn, hnan, eq, isIn, heq, hisIn, hmatches, (hsame _).trans hmatches⟩

/-- A match value without an offset is not found where the record holds the same one. -/
theorem naive_moment_differs_from_itself :
    let v : Value := .dateTime ⟨⟨2024, 1, 31, rfl⟩, ⟨10, 20, 30, 0, rfl⟩⟩ none
    Backend.memory.ofValue .standard "born" v "EQ" = .ok (.compare .equals "born" v) ∧
    Backend.memory.ofValue .standard "born" v "NE" = .ok (.compare .notEquals "born" v) ∧
    (Predicate.compare .equals "born" v).matches? [(.text "born", v)] = .ok false ∧
    (Predicate.compare .notEquals "born" v).matches? [(.text "born", v)] = .ok true :=
  ⟨by rfl, by rfl, by cbv, by cbv⟩

end Predicate

end RecordFilter
