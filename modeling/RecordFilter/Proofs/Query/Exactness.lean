import Mathlib
import RecordFilter.Proofs.Number.Digits
import RecordFilter.Proofs.Query.Trichotomy

namespace RecordFilter

/-- The rational number that a finite double is. -/
def Double.toRat? : Double → Option ℚ
  | .finite negative units => some (signedUnits negative units / scale)
  | _ => none

theorem Double.scale_pos : (0 : ℚ) < scale := Nat.cast_pos.mpr (by decide +kernel)

theorem Double.toRat?_whole (n : Nat) : (finite false (n * scale)).toRat? = some (n : ℚ) := by
  have hcast : ((signedUnits false (n * scale) : Int) : ℚ) = n * scale := by
    rw [← Nat.cast_mul]
    rfl
  rw [toRat?, hcast, mul_div_cancel_right₀ _ scale_pos.ne']

/-- The relation of two numbers that an operator asks for. -/
def Operator.asks (o : Operator) (p q : ℚ) : Bool :=
  match o with
  | .equals => p = q
  | .notEquals => p ≠ q
  | .greaterThan => p > q
  | .lessThan => p < q
  | .greaterOrEqual => p ≥ q
  | .lessOrEqual => p ≤ q
  | _ => false

namespace Value

open Numeral (Denotes Grouped maxDigits)
open Text (trimSpacing)

/-- The rational number that a value stands for: an integer and a finite double are one, and a text may denote
an integer. -/
inductive Amounts : Value → ℚ → Prop
  | int (n : Int) : Amounts (.int n) n
  | float {x : Double} {q : ℚ} (h : x.toRat? = some q) : Amounts (.float x) q
  | text {s : String} {ds : List Nat} {n : Int} (h : Denotes Grouped (trimSpacing s.toList) ds n)
    (hlen : ds.length ≤ maxDigits) : Amounts (.text s) n

variable {a n v : Value} {q : ℚ} {x y : Int}

/-- Values at places of the number line stand as the rational numbers there. -/
theorem stands_of_places (hn : n.number? = some (some (.at x))) (hv : v.number? = some (some (.at y))) :
    n.Stands v (some (compare (x / Double.scale : ℚ) (y / Double.scale))) := by
  have hequal : n.equal v = decide ((x / Double.scale : ℚ) = y / Double.scale) := by
    rw [equal_of_number hn hv, Option.isSome_some, Bool.true_and, Bool.eq_iff_iff, beq_iff_eq,
      decide_eq_true_iff, div_left_inj' Double.scale_pos.ne', Int.cast_inj, Option.some_inj, Place.at.injEq]
  have hlt : ∀ x y : Int, (Place.at x).lt (.at y) = decide ((x / Double.scale : ℚ) < y / Double.scale) := by
    intro x y
    rw [Place.lt, decide_eq_decide, div_lt_div_iff_of_pos_right Double.scale_pos, Int.cast_lt]
  have horder : ∀ o, order? o n v = some (o.decide ((x / Double.scale : ℚ) < y / Double.scale)
      ((y / Double.scale : ℚ) < x / Double.scale)) := by
    intro o
    simp only [order?_of_number hn, orderLeaf?, hn, hv, hlt]
  exact stands_of_images hequal horder

/-- An integer is as many units as the scale has, times itself. -/
theorem div_scale (k : Int) : ((k * Double.scale : Int) / Double.scale : ℚ) = k := by
  rw [Int.cast_mul, Int.cast_natCast, mul_div_cancel_right₀ _ Double.scale_pos.ne']

theorem stands_of_toRat? {x : Double} (h : x.toRat? = some q) (k : Int) :
    (Value.float x).Stands (.int k) (some (compare q k)) := by
  cases x with
  | finite negative units =>
    obtain rfl := Option.some.inj h
    rw [← div_scale k]
    exact stands_of_places rfl rfl
  | _ => cases h

theorem stands_intCast (m k : Int) : (Value.int m).Stands (.int k) (some (compare (m : ℚ) k)) := by
  rw [← div_scale m, ← div_scale k]
  exact stands_of_places rfl rfl

/-- A value that stands for a number is read beside an integer as a value that is where this number is. -/
theorem Amounts.exists_normalize (h : a.Amounts q) (k : Int) :
    ∃ n, Predicate.normalize a (.int k) = .ok (some n) ∧ n.Stands (.int k) (some (compare q k)) := by
  cases h with
  | int m => exact ⟨.int m, rfl, stands_intCast m k⟩
  | float hx => exact ⟨_, rfl, stands_of_toRat? hx k⟩
  | @text s ds m hd hlen =>
    have hread : Numeral.readInt? s.toList = some m := Numeral.readInt?_eq_some_iff.mpr ⟨ds, hd, hlen⟩
    refine ⟨.int m, ?_, stands_intCast m k⟩
    rw [Predicate.normalize, Predicate.asInteger?, hread]
    rfl

/-- Where two numbers tell the side, an operator answers by the relation of them that it asks for. -/
theorem Stands.relates_eq {p q : ℚ} {o : Operator} (h : n.Stands v (some (compare p q)))
    (ho : o ∈ Operator.comparing) : Predicate.relates o n v = o.asks p q := by
  obtain ⟨hequal, horder⟩ := h
  simp only [Operator.comparing, List.mem_cons, List.not_mem_nil, or_false] at ho
  rcases lt_trichotomy p q with hlt | heq | hgt
  · rw [compare_lt_iff_lt.mpr hlt] at hequal horder
    rcases ho with rfl | rfl | rfl | rfl | rfl | rfl <;>
      simp [Predicate.relates, Operator.asks, hequal, horder, Order.holds, Order.decide, hlt, hlt.ne, hlt.le,
        hlt.not_gt, hlt.not_ge]
  · rw [compare_eq_iff_eq.mpr heq] at hequal horder
    rcases ho with rfl | rfl | rfl | rfl | rfl | rfl <;>
      simp [Predicate.relates, Operator.asks, hequal, horder, Order.holds, Order.decide, heq]
  · rw [compare_gt_iff_gt.mpr hgt] at hequal horder
    rcases ho with rfl | rfl | rfl | rfl | rfl | rfl <;>
      simp [Predicate.relates, Operator.asks, hequal, horder, Order.holds, Order.decide, hgt, hgt.ne', hgt.le,
        hgt.not_gt, hgt.not_ge]

end Value

namespace Predicate

open Operator (comparing)

/-- Beside an integer, a record value that stands for a number passes exactly the comparisons whose relation
holds of that rational number and the integer. A truth value passes none of them. -/
theorem integers_compare_exactly (v : Int) (r : Record) (path : String) :
    (∀ a q, Path.resolve r path = some a → a.Amounts q →
      ∀ o ∈ comparing, compares o path (.int v) r = .ok (o.asks q v)) ∧
    ∀ b, Path.resolve r path = some (.bool b) → ∀ o ∈ comparing, compares o path (.int v) r = .ok false := by
  constructor
  · intro a q ha hq o ho
    have hn : a ≠ .null := by
      rintro rfl
      cases hq
    obtain ⟨n, hread, hside⟩ := hq.exists_normalize v
    rw [compares_of_resolve ha hn, test_of_comparing ho, hread, ← hside.relates_eq ho]
    rfl
  · intro b hb o ho
    rw [compares_of_resolve hb (by simp), test_of_unreadable ho (by rfl)]

/-- The double 2^53 is below the integer after it, which is no double, and a text denotes that integer. A truth
value does not even differ from it. -/
theorem integers_compare_exactly_beyond_doubles :
    let x : Double := .finite false (9007199254740992 * Double.scale)
    let r : Record := [(.text "size", .float x)]
    let s : Record := [(.text "size", .text "9_007_199_254_740_993 ")]
    let t : Record := [(.text "size", .bool true)]
    x.toRat? = some 9007199254740992 ∧ Path.resolve r "size" = some (.float x) ∧
    compares .lessThan "size" (.int 9007199254740993) r = .ok true ∧
    compares .equals "size" (.int 9007199254740993) r = .ok false ∧
    compares .equals "size" (.int 9007199254740993) s = .ok true ∧
    compares .notEquals "size" (.int 9007199254740993) t = .ok false := by
  intro x r s t
  have hx : x.toRat? = some 9007199254740992 :=
    (Double.toRat?_whole 9007199254740992).trans (congrArg some Nat.cast_ofNat)
  have hr : Path.resolve r "size" = some (.float x) := resolve_single _ _
  have hs : Path.resolve s "size" = some (.text "9_007_199_254_740_993 ") := resolve_single _ _
  have htext : (Value.text "9_007_199_254_740_993 ").Amounts 9007199254740993 := by
    have hread : Numeral.readInt? "9_007_199_254_740_993 ".toList = some 9007199254740993 := by
      decide +kernel
    obtain ⟨ds, hd, hlen⟩ := Numeral.readInt?_eq_some_iff.mp hread
    exact .text hd hlen
  obtain ⟨hreads, -⟩ := integers_compare_exactly 9007199254740993 r "size"
  have hanswers := hreads _ _ hr (.float hx)
  have ht : Path.resolve t "size" = some (.bool true) := resolve_single _ _
  refine ⟨hx, hr, ?_, ?_, ?_, (integers_compare_exactly _ t "size").2 _ ht .notEquals (by decide)⟩
  · exact (hanswers .lessThan (by decide)).trans (by norm_num [Operator.asks])
  · exact (hanswers .equals (by decide)).trans (by norm_num [Operator.asks])
  · exact ((integers_compare_exactly _ s "size").1 _ _ hs htext .equals (by decide)).trans
      (by norm_num [Operator.asks])

end Predicate

end RecordFilter
