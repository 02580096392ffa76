import Mathlib.Tactic.SplitIfs
import RecordFilter.Proofs.Fallible
import RecordFilter.Query.Coercion

namespace RecordFilter

/-- The match values of a type: texts, integers of 32 or 64 bits, finite doubles, moments in UTC and
truth values. -/
def PropertyType.Admits : PropertyType → Value → Prop
  | .string, v => ∃ s, v = .text s
  | .integer, v => ∃ n : Int, v = .int n ∧ -0x80000000 ≤ n ∧ n ≤ 0x7fffffff
  | .long, v => ∃ n : Int, v = .int n ∧ -0x8000000000000000 ≤ n ∧ n ≤ 0x7fffffffffffffff
  | .double, v => ∃ s u, v = .float (.finite s u)
  | .date, v => ∃ t, v = .zoned t 0
  | .boolean, v => ∃ b, v = .bool b

namespace Coercion

variable {raw : String} {v : Value}

theorem int_of_toInteger {type : PropertyType} {low high : Int}
    (h : toInteger type low high raw = .ok v) :
    ∃ n, v = .int n ∧ low ≤ n ∧ n ≤ high := by
  unfold toInteger at h
  split at h
  · simp at h
  · simp only at h
    split_ifs at h with hd hn
    exact ⟨_, (Except.ok.inj h).symm, hn⟩

theorem finite_of_toDouble (h : toDouble raw = .ok v) : ∃ s u, v = .float (.finite s u) := by
  unfold toDouble at h
  split at h
  · exact ⟨_, _, (Except.ok.inj h).symm⟩
  · simp at h

theorem bool_of_toBoolean (h : toBoolean raw = .ok v) : ∃ b, v = .bool b := by
  unfold toBoolean at h
  split at h
  · exact ⟨_, (Except.ok.inj h).symm⟩
  · simp at h

variable [DateReader]

theorem utc_of_toDate (h : toDate raw = .ok v) : ∃ t, v = .zoned t 0 := by
  unfold toDate at h
  split_ifs at h
  split at h
  · exact ⟨_, (Except.ok.inj h).symm⟩
  · simp at h

/-- What is read as a type is a match value of it. -/
theorem admits_of_coerce {type : PropertyType} (h : coerce type raw = .ok v) : type.Admits v := by
  cases type <;> simp only [coerce] at h
  case string => exact ⟨raw, (Except.ok.inj h).symm⟩
  case integer => exact int_of_toInteger h
  case long => exact int_of_toInteger h
  case double => exact finite_of_toDouble h
  case date => exact utc_of_toDate h
  case boolean => exact bool_of_toBoolean h

/-- A match value that is read for one property is read for all. -/
theorem matchValue_of_ok {type : PropertyType} {text name : String} {o : Operator} {registry : TypeRegistry}
    (name' : String) (h : matchValue type text name o registry = .ok v) :
    matchValue type text name' o registry = .ok v := by
  rw [matchValue, Fallible.mapError_eq_ok] at h
  rw [matchValue, Fallible.mapError_eq_ok]
  exact h

end Coercion

end RecordFilter
