import Mathlib
import RecordFilter.Proofs.Query.Reflexivity

namespace RecordFilter

open Fallible

/-- Places as integers with both ends. -/
def Place.rank : Place → WithBot (WithTop ℤ)
  | .bottom => ⊥
  | .at units => ((units : WithTop ℤ) : WithBot (WithTop ℤ))
  | .top => ⊤

theorem Place.lt_eq_rank_lt (x y : Place) : x.lt y = decide (x.rank < y.rank) := by
  have htop : ∀ n : ℤ, (Place.at n).rank < Place.top.rank := fun n =>
    WithBot.coe_lt_coe.mpr (WithTop.coe_lt_top n)
  cases x <;> cases y <;> simp [lt, htop]
  all_goals simp [rank]

theorem Place.rank_injective : Function.Injective rank := by
  intro x y h
  cases x <;> cases y <;> simp_all [rank]

theorem Place.ofInt_inj {n m : Int} : ofInt n = ofInt m ↔ n = m := by
  have hscale : (Double.scale : Int) ≠ 0 := Int.natCast_ne_zero.mpr (by decide +kernel)
  rw [ofInt, ofInt, Place.at.injEq, Int.mul_eq_mul_right_iff hscale]

theorem Place.lt_ofInt (n m : Int) : (ofInt n).lt (ofInt m) = decide (n < m) := by
  have hscale : 0 < (Double.scale : Int) := Int.natCast_pos.mpr (by decide +kernel)
  rw [ofInt, ofInt, lt, decide_eq_decide, Int.mul_lt_mul_right hscale]

namespace Value

/-- Whether an order holds of two values of which the first is on the given side of the second. Values that
are on no side of each other stand in no order. -/
def Order.holds (o : Order) : Option Ordering → Bool
  | none => false
  | some c => o.decide (c == .lt) (c == .gt)

/-- Equality and the four orders agree on the side of `v` that `n` is on. -/
structure Stands (n v : Value) (side : Option Ordering) : Prop where
  equal : n.equal v = (side == some .eq)
  order : ∀ o, order? o n v = some (o.holds side)

variable {n v : Value}

/-- Values that are compared by their images in a total order stand as these do. -/
theorem stands_of_images {α : Type} [LinearOrder α] {x y : α} (hequal : n.equal v = decide (x = y))
    (horder : ∀ o, order? o n v = some (o.decide (x < y) (y < x))) : n.Stands v (some (compare x y)) := by
  rcases lt_trichotomy x y with h | h | h
  · rw [compare_lt_iff_lt.mpr h]
    refine ⟨?_, fun o => ?_⟩
    · simp [hequal, h.ne]
    · simp [horder, h, h.not_gt, Order.holds]
  · rw [compare_eq_iff_eq.mpr h]
    refine ⟨?_, fun o => ?_⟩
    · simp [hequal, h]
    · simp [horder, h, Order.holds]
  · rw [compare_gt_iff_gt.mpr h]
    refine ⟨?_, fun o => ?_⟩
    · simp [hequal, h.ne']
    · simp [horder, h, h.not_gt, Order.holds]

theorem number?_int (n : Int) : (Value.int n).number? = some (some (.ofInt n)) := rfl

theorem equal_of_number {x y : Option Place} (hn : n.number? = some x) (hv : v.number? = some y) :
    n.equal v = (x.isSome && x == y) := by
  have hleaf : n.equal v = n.equalLeaf v := by
    cases n <;> simp [number?] at hn <;> simp [equal]
  simp [hleaf, equalLeaf, hn, hv]

theorem order?_of_number {x : Option Place} (hn : n.number? = some x) (o : Order) :
    order? o n v = orderLeaf? o n v := by
  cases n <;> simp [number?] at hn <;> simp [order?]

/-- A number without a place is the one that is no number. -/
theorem place_eq_none_iff {x : Option Place} (hn : n.number? = some x) : x = none ↔ n = .float .nan := by
  cases n with
  | float d => cases d <;> simp [number?, Place.ofDouble?] at hn <;> simp [← hn]
  | bool b => simp only [number?, Option.some.injEq] at hn; simp [← hn]
  | int k => simp only [number?, Option.some.injEq] at hn; simp [← hn]
  | _ => simp [number?] at hn

theorem stands_of_number {x : Option Place} {y : Place} (hn : n.number? = some x)
    (hv : v.number? = some (some y)) : ∃ side, n.Stands v side ∧ (side = none ↔ n = .float .nan) := by
  rw [← place_eq_none_iff hn]
  cases x with
  | none =>
    refine ⟨none, ⟨?_, fun o => ?_⟩, by simp⟩
    · simp [equal_of_number hn hv]
    · simp [order?_of_number hn, orderLeaf?, hn, hv, Order.holds]
  | some x =>
    have hequal : n.equal v = decide (x.rank = y.rank) := by
      rw [equal_of_number hn hv, Option.isSome_some, Bool.true_and, Bool.eq_iff_iff]
      simp [Place.rank_injective.eq_iff]
    have horder : ∀ o, order? o n v = some (o.decide (x.rank < y.rank) (y.rank < x.rank)) := by
      intro o
      simp [order?_of_number hn, orderLeaf?, hn, hv, Place.lt_eq_rank_lt]
    exact ⟨_, stands_of_images hequal horder, by simp⟩

theorem stands_text (s t : String) : ∃ c, (Value.text s).Stands (.text t) (some c) := by
  have hequal : (Value.text s).equal (.text t) = decide (s = t) := by
    rw [Bool.eq_iff_iff]
    simp [equal, equalLeaf, number?, moment?]
  have horder : ∀ o, order? o (.text s) (.text t) = some (o.decide (s < t) (t < s)) := by
    intro o
    simp only [order?, orderLeaf?, number?, moment?]
  exact ⟨_, stands_of_images hequal horder⟩

theorem stands_zoned (t u : Calendar.DateTime) : ∃ c, (Value.zoned t 0).Stands (.zoned u 0) (some c) := by
  have hequal : (Value.zoned t 0).equal (.zoned u 0) = decide (t.micros = u.micros) := by
    rw [Bool.eq_iff_iff]
    simp [equal, equalLeaf, number?, moment?]
  have horder : ∀ o, order? o (.zoned t 0) (.zoned u 0) =
      some (o.decide (t.micros < u.micros) (u.micros < t.micros)) := by
    intro o
    simp [order?, orderLeaf?, number?, moment?]
  exact ⟨_, stands_of_images hequal horder⟩

/-- The side of one integer that another is on is the one that their order tells. -/
theorem stands_int (n v : Int) : (Value.int n).Stands (.int v) (some (compare n v)) := by
  have hequal : (Value.int n).equal (.int v) = decide (n = v) := by
    rw [equal_of_number (number?_int n) (number?_int v), Option.isSome_some, Bool.true_and, Bool.eq_iff_iff,
      beq_iff_eq, Option.some_inj, Place.ofInt_inj, decide_eq_true_iff]
  have horder : ∀ o, order? o (.int n) (.int v) = some (o.decide (n < v) (v < n)) := by
    intro o
    simp only [order?_of_number (number?_int n), orderLeaf?, number?_int, Place.lt_ofInt]
  exact stands_of_images hequal horder

/-- A value of the kind that is compared with a match value is on some side of it, or is no number. -/
theorem Fits.stands {type : PropertyType} (h : v.Fits n) (hv : type.Admits v) :
    ∃ side, n.Stands v side ∧ (side = none ↔ n = .float .nan) := by
  cases h with
  | text s t =>
    obtain ⟨c, hc⟩ := stands_text t s
    exact ⟨some c, hc, by simp⟩
  | int k m => exact ⟨_, stands_int m k, by simp⟩
  | float_int k x => exact stands_of_number rfl rfl
  | float d x =>
    rcases hv.shape with ⟨_, h⟩ | ⟨_, h⟩ | ⟨s, u, h⟩ | ⟨_, h⟩ | ⟨_, h⟩ <;> cases h
    exact stands_of_number rfl rfl
  | zoned t u =>
    obtain ⟨c, hc⟩ := stands_zoned u t
    exact ⟨some c, hc, by simp⟩
  | bool b c => exact stands_of_number rfl rfl

end Value

namespace Predicate

open Operator (comparing)

variable {type : PropertyType} {a n v : Value} {vs : List Value} {r : Record} {path : String} {o : Operator}

section Reading

theorem fits_of_asInteger? (h : asInteger? a = some n) (k : Int) : (Value.int k).Fits n := by
  cases a <;> simp only [asInteger?, Option.map_eq_some_iff] at h
  case float d =>
    obtain rfl := Option.some.inj h
    exact .float_int k d
  case int m =>
    obtain rfl := Option.some.inj h
    exact .int k m
  case text s =>
    obtain ⟨m, -, rfl⟩ := h
    exact .int k m
  case bytes bs =>
    obtain ⟨m, -, rfl⟩ := h
    exact .int k m
  all_goals cases h

theorem fits_of_asDouble? (h : asDouble? a = .ok (some n)) (d : Double) : (Value.float d).Fits n := by
  cases a <;> simp only [asDouble?, map_eq_ok, Except.ok.injEq, Option.map_eq_some_iff] at h
  case float x =>
    obtain rfl := Option.some.inj h
    exact .float d x
  case int k =>
    obtain ⟨x, -, hx⟩ := h
    obtain rfl := Option.some.inj hx
    exact .float d x
  case text s =>
    obtain ⟨x, -, rfl⟩ := h
    exact .float d x
  case bytes bs =>
    obtain ⟨x, -, rfl⟩ := h
    exact .float d x
  all_goals cases h

theorem fits_bool_of_normalize {b : Bool} (h : normalize a (.bool b) = .ok (some n)) :
    (Value.bool b).Fits n := by
  cases a with
  | bool c =>
    obtain rfl := Option.some.inj (Except.ok.inj h)
    exact .bool b c
  | _ =>
    simp only [normalize, map_eq_ok, Option.map_eq_some_iff] at h
    obtain ⟨m, -, c, -, rfl⟩ := h
    exact .bool b c

/-- What is read as the type of a match value is of the kind that is compared with it. -/
theorem fits_of_normalize (hv : type.Admits v) (h : normalize a v = .ok (some n)) : v.Fits n := by
  rcases hv.shape with ⟨s, rfl⟩ | ⟨k, rfl⟩ | ⟨s, u, rfl⟩ | ⟨t, rfl⟩ | ⟨b, rfl⟩
  · obtain ⟨m, -, hm⟩ := map_eq_ok.mp h
    obtain ⟨w, -, rfl⟩ := Option.map_eq_some_iff.mp hm
    exact .text s w
  · rw [normalize, Except.ok.injEq] at h
    exact fits_of_asInteger? h k
  · exact fits_of_asDouble? h _
  · obtain ⟨m, -, hm⟩ := map_eq_ok.mp h
    obtain ⟨w, -, rfl⟩ := Option.map_eq_some_iff.mp hm
    exact .zoned t w
  · exact fits_bool_of_normalize h

/-- What is read as the type of a match value is on some side of it, or is no number. -/
theorem stands_of_normalize (hv : type.Admits v) (h : normalize a v = .ok (some n)) :
    ∃ side, n.Stands v side ∧ (side = none ↔ n = .float .nan) :=
  (fits_of_normalize hv h).stands hv

end Reading

section Operators

/-- The answers of the operators on a value that is below the match value, at it or above it as told. -/
structure ComparesAs (r : Record) (path : String) (v : Value) (below same above : Bool) : Prop where
  equals : compares .equals path v r = .ok same
  notEquals : compares .notEquals path v r = .ok (!same)
  lessThan : compares .lessThan path v r = .ok below
  lessOrEqual : compares .lessOrEqual path v r = .ok (below || same)
  greaterThan : compares .greaterThan path v r = .ok above
  greaterOrEqual : compares .greaterOrEqual path v r = .ok (above || same)

theorem comparesAs_of_stands {side : Option Ordering} (ha : Path.resolve r path = some a) (hn : a ≠ .null)
    (h : normalize a v = .ok (some n)) (hside : n.Stands v side) :
    ComparesAs r path v (side == some .lt) (side == some .eq) (side == some .gt) := by
  have htest : ∀ o ∈ comparing, compares o path v r = .ok (relates o n v) := by
    intro o ho
    rw [compares_of_resolve ha hn, test_of_comparing ho, h]
    rfl
  constructor <;> rw [htest _ (by decide), Except.ok.injEq] <;>
    simp only [relates, hside.equal, hside.order, Option.getD_some] <;>
    rcases side with - | - | - | - <;> rfl

theorem compares_of_absent (h : Path.resolve r path = none ∨ Path.resolve r path = some .null) :
    compares o path v r = .ok false := by
  have hp : present? r path = none := by
    rcases h with h | h <;> rw [present?, h]
  rw [compares, hp]

end Operators

/-- A missing or null property passes no operator. Elsewhere the six comparisons with a match value fail
alike when the record value is out of range, are all false when it has no reading, and otherwise answer by
the side of the match value that the reading is on, of which there is one unless the reading is no number.
Being among alternatives is being equal to one of them, and being none of them is the opposite. -/
theorem operators_answer_by_side (r : Record) (path : String) :
    (Path.resolve r path = none ∨ Path.resolve r path = some .null →
      ∀ o expected, compares o path expected r = .ok false) ∧
    (∀ a type raw v, Path.resolve r path = some a → a ≠ .null → Coercion.coerce type raw = .ok v →
      (∃ f, normalize a v = .error f ∧ ∀ o ∈ comparing, compares o path v r = .error f) ∨
      (normalize a v = .ok none ∧ ∀ o ∈ comparing, compares o path v r = .ok false) ∨
      ∃ n below same above, normalize a v = .ok (some n) ∧ ComparesAs r path v below same above ∧
        [below, same, above].count true ≤ 1 ∧
        ([below, same, above].count true = 1 ↔ n ≠ .float .nan)) ∧
    ∀ vs, (∀ a, Path.resolve r path = some a → a ≠ .null → ∀ v ∈ vs, ∃ m, normalize a v = .ok m) →
      ∃ b, compares .isIn path (.list vs) r = .ok b ∧
        (b = true ↔ ∃ v ∈ vs, compares .equals path v r = .ok true) ∧
        ∀ a, Path.resolve r path = some a → a ≠ .null →
          compares .notIn path (.list vs) r = .ok (!b) := by
  refine ⟨fun h o expected => compares_of_absent h, ?_, fun vs hvs => ?_⟩
  · intro a type raw v ha hn hraw
    have hv := Coercion.admits_of_coerce hraw
    simp only [compares_of_resolve ha hn]
    cases h : normalize a v with
    | error f =>
      refine .inl ⟨f, rfl, fun o ho => ?_⟩
      rw [test_of_comparing ho, h]
      rfl
    | ok m =>
      cases m with
      | none => exact .inr (.inl ⟨rfl, fun o ho => test_of_unreadable ho h⟩)
      | some n =>
        obtain ⟨side, hside, hnan⟩ := stands_of_normalize hv h
        refine .inr (.inr ⟨n, _, _, _, rfl, comparesAs_of_stands ha hn h hside, ?_⟩)
        rw [ne_eq, ← hnan]
        rcases side with - | - | - | - <;> decide
  · by_cases habsent : Path.resolve r path = none ∨ Path.resolve r path = some .null
    · refine ⟨false, compares_of_absent habsent, ?_, fun a ha hn => ?_⟩
      · simp [compares_of_absent habsent]
      · rw [ha] at habsent
        simp [hn] at habsent
    · obtain ⟨a, ha⟩ := Option.ne_none_iff_exists'.mp (not_or.mp habsent).1
      have hn : a ≠ .null := by
        rintro rfl
        exact habsent (.inr ha)
      obtain ⟨b, hin, hnot, hb⟩ := test_sets_of_reads (hvs a ha hn)
      simp only [compares_of_resolve ha hn]
      exact ⟨b, hin, hb, fun _ _ _ => hnot⟩

/-- The value that is no number differs from 5 and stands in no order to it; a null note is not even none
of some alternatives. -/
theorem operators_answer_by_side_nan :
    let r : Record := [(.text "size", .float .nan), (.text "note", .null)]
    Path.resolve r "size" = some (.float .nan) ∧ Coercion.coerce .integer "5" = .ok (.int 5) ∧
    ComparesAs r "size" (.int 5) false false false ∧
    compares .isIn "size" (.list [.int 5, .text "nan"]) r = .ok true ∧
    compares .notIn "size" (.list [.int 5, .text "nan"]) r = .ok false ∧
    Path.resolve r "note" = some .null ∧ compares .notIn "note" (.list [.int 5]) r = .ok false := by
  intro r
  have hsize : Path.resolve r "size" = some (.float .nan) := by cbv
  have hnote : Path.resolve r "note" = some .null := by cbv
  have hfive : Coercion.coerce .integer "5" = .ok (.int 5) := by rfl
  have hread : normalize (.float .nan) (.int 5) = .ok (some (.float .nan)) := by rfl
  have htext : normalize (.float .nan) (.text "nan") = .ok (some (.text "nan")) := by cbv
  obtain ⟨-, hcompares, hsets⟩ := operators_answer_by_side r "size"
  have hapart : ComparesAs r "size" (.int 5) false false false := by
    rcases hcompares _ _ _ _ hsize (by simp) hfive with
      ⟨f, h, -⟩ | ⟨h, -⟩ | ⟨n, below, same, above, h, hanswers, hmost, hone⟩
    · cases hread.symm.trans h
    · cases hread.symm.trans h
    · obtain rfl : Value.float .nan = n := Option.some.inj (Except.ok.inj (hread.symm.trans h))
      have hnone : [below, same, above].count true ≠ 1 := fun h => hone.mp h rfl
      obtain ⟨rfl, rfl, rfl⟩ : below = false ∧ same = false ∧ above = false := by
        cases below <;> cases same <;> cases above <;> simp at hmost hnone ⊢
      exact hanswers
  have hreads : ∀ a, Path.resolve r "size" = some a → a ≠ .null →
      ∀ v ∈ [Value.int 5, .text "nan"], ∃ m, normalize a v = .ok m := by
    intro a ha _
    obtain rfl := Option.some.inj (hsize.symm.trans ha)
    simp only [List.forall_mem_cons]
    exact ⟨⟨_, hread⟩, ⟨_, htext⟩, by simp⟩
  obtain ⟨b, hin, hb, hnot⟩ := hsets _ hreads
  have hequal : compares .equals "size" (.text "nan") r = .ok true := by cbv
  obtain rfl : b = true := hb.mpr ⟨_, by simp, hequal⟩
  exact ⟨hsize, hfive, hapart, hin, hnot _ hsize (by simp), hnote,
    (operators_answer_by_side r "note").1 (.inr hnote) _ _⟩

end Predicate

end RecordFilter
