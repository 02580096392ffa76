import Mathlib
import RecordFilter.Proofs.Query.Matching
import RecordFilter.Proofs.Query.Trichotomy

namespace RecordFilter

open Fallible

/-- The order that an operator asks for. Equality is told of all values, and asks for none. -/
def Operator.order? : Operator → Option Value.Order
  | .greaterThan => some .greater
  | .lessThan => some .less
  | .greaterOrEqual => some .greaterOrEqual
  | .lessOrEqual => some .lessOrEqual
  | _ => none

namespace Predicate

open Operator (comparing)

variable {type : PropertyType} {a n v : Value} {o : Operator} {order : Value.Order} {r : Record} {name : String}
  {table : RestrictionTable} {types : TypeRegistry} {e : Entry} {p q : Predicate}

theorem comparing_of_order? (h : o.order? = some order) : o ∈ comparing := by
  cases o with
  | greaterThan => decide
  | lessThan => decide
  | greaterOrEqual => decide
  | lessOrEqual => decide
  | _ => cases h

/-- Without the order that it asks for, an operator does not hold. -/
theorem relates_of_order? (h : o.order? = some order) :
    relates o n v = (Value.order? order n v).getD false := by
  cases o with
  | greaterThan => cases h; rfl
  | lessThan => cases h; rfl
  | greaterOrEqual => cases h; rfl
  | lessOrEqual => cases h; rfl
  | _ => cases h

/-- A comparison that comes to two values without the order that it asks for. -/
inductive LacksOrder (r : Record) : Predicate → Prop
  | compare {o : Operator} {order : Value.Order} {property : String} {a n v : Value}
    (ho : o.order? = some order) (ha : present? r property = some a)
    (hread : normalize a v = .ok (some n)) (hnone : Value.order? order n v = none) :
    LacksOrder r (.compare o property v)

/-- A match value has an order to every value of the kind that is compared with it. -/
theorem order?_of_fits (hv : type.Admits v) (h : v.Fits n) (order : Value.Order) :
    ∃ b, Value.order? order n v = some b := by
  obtain ⟨side, hside, -⟩ := h.stands hv
  exact ⟨_, hside.order order⟩

theorem not_lacksOrder_of_matchValue {text : String}
    (hv : Coercion.matchValue type text name o types = .ok v) : ¬ LacksOrder r (.compare o name v) := by
  have hsingle : ∀ o ∈ comparing, o.takesSet = false := by decide
  have hadmits := admits_of_matchValue hv
  intro h
  cases h with
  | compare ho ha hread hnone =>
    rw [if_neg (by simp [hsingle o (comparing_of_order? ho)])] at hadmits
    obtain ⟨b, hb⟩ := order?_of_fits hadmits (fits_of_normalize hadmits hread) _
    cases hnone.symm.trans hb

/-- The leaves of the tree of an entry compare its properties with their match values. -/
theorem exists_matchValue_of_leaf (hp : Backend.memory.ofEntry table types e = .ok p) (hq : q ∈ p.leaves) :
    ∃ o name v, Coercion.matchValue e.criterion.type e.matchText name o types = .ok v ∧
      q = .compare o name v := by
  obtain ⟨o, ps, -, hps, rfl⟩ := Backend.ofEntry_eq_ok_iff.mp hp
  have hleaves : (Backend.single Backend.memory.any ps).leaves = ps.flatMap leaves := by
    rcases Backend.single_eq_or Backend.memory.any ps with ⟨p, rfl, h⟩ | h
    · rw [h, List.flatMap_singleton]
    · rw [h]
      exact leavesAmong_eq_flatMap ps
  rw [hleaves, List.mem_flatMap] at hq
  obtain ⟨leaf, hleaf, hq⟩ := hq
  obtain ⟨name, -, hname⟩ := (mem_mapM_iff hps leaf).mp hleaf
  obtain ⟨v, hv, rfl⟩ := map_eq_ok.mp hname
  obtain rfl : q = .compare o name v := List.mem_singleton.mp hq
  exact ⟨o, name, v, hv, rfl⟩

/-- What a record value is read as beside a match value is of the kind that is compared with it, is true or
false only beside such a value, is its own reading and has every order to the match value, by which the
operators answer. So no comparison in the tree of an entry comes to two values without an order. -/
theorem readings_compare_by_kind (table : RestrictionTable) (types : TypeRegistry) :
    (∀ a type raw v n, Coercion.coerce type raw = .ok v → normalize a v = .ok (some n) →
      v.Fits n ∧ (∀ b, n = .bool b → ∃ c, v = .bool c) ∧ normalize n v = .ok (some n) ∧
      ∀ o order, o.order? = some order → ∃ b, Value.order? order n v = some b ∧ relates o n v = b) ∧
    ∀ e p, Backend.memory.ofEntry table types e = .ok p → ∀ r, ∀ q ∈ p.leaves, ¬ LacksOrder r q := by
  refine ⟨fun a type raw v n hraw hread => ?_, fun e p hp r q hq => ?_⟩
  · have hadmits := Coercion.admits_of_coerce hraw
    have hfits := fits_of_normalize hadmits hread
    refine ⟨hfits, fun b hb => ?_, normalize_of_fits hfits, fun o order ho => ?_⟩
    · subst hb
      cases hfits with
      | bool c => exact ⟨c, rfl⟩
    · obtain ⟨b, hb⟩ := order?_of_fits hadmits hfits order
      refine ⟨b, hb, ?_⟩
      rw [relates_of_order? ho, hb, Option.getD_some]
  · obtain ⟨o, name, v, hv, rfl⟩ := exists_matchValue_of_leaf hp hq
    exact not_lacksOrder_of_matchValue hv

/-- The value that is no number is read as it is beside 5, and is told not to be greater. -/
theorem readings_compare_by_kind_nan :
    let e : Entry := ⟨⟨"GT", .integer, ["size", "weight"]⟩, "5"⟩
    let sizes : Predicate := .compare .greaterThan "size" (.int 5)
    let weights : Predicate := .compare .greaterThan "weight" (.int 5)
    Coercion.coerce .integer "5" = .ok (.int 5) ∧
    normalize (.float .nan) (.int 5) = .ok (some (.float .nan)) ∧
    (Value.int 5).Fits (.float .nan) ∧
    Value.order? .greater (.float .nan) (.int 5) = some false ∧
    Backend.memory.ofEntry .standard .standard e = .ok (.any [sizes, weights]) ∧
    ∀ r, ¬ LacksOrder r sizes ∧ ¬ LacksOrder r weights := by
  intro e sizes weights
  have hfive : Coercion.coerce .integer "5" = .ok (.int 5) := by rfl
  have hread : normalize (.float .nan) (.int 5) = .ok (some (.float .nan)) := by rfl
  have htree : Backend.memory.ofEntry .standard .standard e = .ok (.any [sizes, weights]) := by
    simp only [e, sizes, weights]
    rfl
  obtain ⟨hreadings, htrees⟩ := readings_compare_by_kind .standard .standard
  obtain ⟨hfits, -, -, horders⟩ := hreadings _ _ _ _ _ hfive hread
  obtain ⟨b, hb, hrelates⟩ := horders .greaterThan .greater rfl
  obtain rfl : b = false := hrelates.symm.trans (by rfl)
  refine ⟨hfive, hread, hfits, hb, htree, fun r => ⟨?_, ?_⟩⟩
  · exact htrees e _ htree r _ (by simp [leaves, leavesAmong, sizes])
  · exact htrees e _ htree r _ (by simp [leaves, leavesAmong, sizes, weights])

end Predicate

end RecordFilter
