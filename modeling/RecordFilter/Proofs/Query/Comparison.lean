import Mathlib
import RecordFilter.Proofs.Query.Coercion
import RecordFilter.Query.Predicate

namespace RecordFilter

/-- The operators that compare a record value with one match value. -/
def Operator.comparing : List Operator :=
  [.equals, .notEquals, .greaterThan, .lessThan, .greaterOrEqual, .lessOrEqual]

namespace Predicate

open Operator (comparing)

variable {r : Record} {path : String} {a v : Value} {o : Operator}

theorem present?_of_resolve (ha : Path.resolve r path = some a) (hn : a ≠ .null) :
    present? r path = some a := by
  unfold present?
  rw [ha]
  split
  · next h => exact absurd (Option.some.inj h) hn
  · rfl

/-- A record with one property has its value there, dots in its name or not. -/
theorem resolve_single (path : String) (a : Value) : Path.resolve [(.text path, a)] path = some a := by
  have hkey : (Value.text path).equal (.text path) = true := by
    simp [Value.equal, Value.equalLeaf, Value.number?, Value.moment?]
  simp [Path.resolve, Value.lookup?, hkey]

section Reading

variable [DateReader]

theorem compares_of_resolve (ha : Path.resolve r path = some a) (hn : a ≠ .null) :
    compares o path v r = test o a v := by
  rw [compares, present?_of_resolve ha hn]

theorem test_of_comparing (ho : o ∈ comparing) :
    test o a v = (normalize a v).map fun n => n.any (relates o · v) := by
  simp only [comparing, List.mem_cons, List.not_mem_nil, or_false] at ho
  rcases ho with rfl | rfl | rfl | rfl | rfl | rfl <;> rfl

theorem test_of_unreadable (ho : o ∈ comparing) (h : normalize a v = .ok none) :
    test o a v = .ok false := by
  rw [test_of_comparing ho, h]
  rfl

section Alternatives

variable {vs : List Value}

/-- The search for an equal alternative stops early, but where none fails it gives what asking all of
them would. -/
theorem sameAsOne_eq {f : Value → Bool} (h : ∀ v ∈ vs, sameAs a v = .ok (f v)) :
    sameAsOne a vs = .ok (vs.any f) := by
  induction vs with
  | nil => rfl
  | cons v vs ih =>
    have hv : sameAs a v = .ok (f v) := h v (by simp)
    have hvs : sameAsOne a vs = .ok (vs.any f) := ih (fun w hw => h w (by simp [hw]))
    rw [sameAsOne, hv, hvs, List.any_cons]
    cases f v <;> rfl

theorem test_isIn (a : Value) (vs : List Value) : test .isIn a (.list vs) = sameAsOne a vs := rfl

theorem test_notIn (a : Value) (vs : List Value) :
    test .notIn a (.list vs) = (sameAsOne a vs).map (!·) := by
  have ht : test .notIn a (.list vs) = do return !(← sameAsOne a vs) := rfl
  rw [ht]
  cases sameAsOne a vs <;> rfl

theorem sameAs_of_normalize {n : Option Value} (h : normalize a v = .ok n) :
    sameAs a v = .ok (n.any (·.equal v)) := by
  rw [sameAs, h]
  rfl

/-- The reading of a record value does not depend on which value of a type it is compared with. -/
theorem normalize_congr {type : PropertyType} {w : Value} (hv : type.Admits v) (hw : type.Admits w) :
    normalize a v = normalize a w := by
  cases type with
  | string =>
    obtain ⟨_, rfl⟩ := hv
    obtain ⟨_, rfl⟩ := hw
    rfl
  | integer =>
    obtain ⟨_, rfl, _⟩ := hv
    obtain ⟨_, rfl, _⟩ := hw
    rfl
  | long =>
    obtain ⟨_, rfl, _⟩ := hv
    obtain ⟨_, rfl, _⟩ := hw
    rfl
  | double =>
    obtain ⟨_, _, rfl⟩ := hv
    obtain ⟨_, _, rfl⟩ := hw
    rfl
  | date =>
    obtain ⟨_, rfl⟩ := hv
    obtain ⟨_, rfl⟩ := hw
    rfl
  | boolean =>
    obtain ⟨_, rfl⟩ := hv
    obtain ⟨_, rfl⟩ := hw
    rfl

/-- To be told apart from a match value, a record value has to differ from it or to lack a reading. -/
theorem sameAs_ne_true_iff {n : Option Value} (h : normalize a v = .ok n) :
    sameAs a v ≠ .ok true ↔ normalize a v = .ok none ∨ test .notEquals a v = .ok true := by
  rw [sameAs_of_normalize h, test_of_comparing (by decide), h]
  cases n with
  | none => simp
  | some n => simp [Except.map, relates]

theorem test_equals_eq (a v : Value) : test .equals a v = sameAs a v := rfl

/-- Searching the alternatives for the record value is asking each of them for equality. -/
theorem test_sets_of_reads (h : ∀ v ∈ vs, ∃ n, normalize a v = .ok n) :
    ∃ b, test .isIn a (.list vs) = .ok b ∧ test .notIn a (.list vs) = .ok (!b) ∧
      (b = true ↔ ∃ v ∈ vs, test .equals a v = .ok true) := by
  have hsame : ∀ v ∈ vs, sameAs a v = .ok ((sameAs a v).toOption.getD false) := by
    intro v hv
    obtain ⟨n, hn⟩ := h v hv
    rw [sameAs_of_normalize hn]
    rfl
  have hsearch := sameAsOne_eq hsame
  refine ⟨_, (test_isIn a vs).trans hsearch, ?_, ?_⟩
  · rw [test_notIn, hsearch]
    rfl
  · rw [List.any_eq_true]
    refine exists_congr fun v => and_congr_right fun hv => ?_
    rw [test_equals_eq, hsame v hv, Except.ok.injEq]
    rfl

theorem notIn_iff (h : ∀ v ∈ vs, ∃ n, normalize a v = .ok n) :
    test .notIn a (.list vs) = .ok true ↔
      ∀ v ∈ vs, normalize a v = .ok none ∨ test .notEquals a v = .ok true := by
  obtain ⟨b, -, hnotIn, hb⟩ := test_sets_of_reads h
  have hnone : b = false ↔ ∀ v ∈ vs, sameAs a v ≠ .ok true := by
    rw [← Bool.not_eq_true, hb]
    simp only [test_equals_eq, not_exists, not_and, ne_eq]
  rw [hnotIn, Except.ok.injEq, Bool.not_eq_true', hnone]
  refine forall₂_congr fun v hv => ?_
  obtain ⟨n, hn⟩ := h v hv
  exact sameAs_ne_true_iff hn

/-- A value without a reading is none of the alternatives. -/
theorem test_in_of_unreadable (h : ∀ v ∈ vs, normalize a v = .ok none) :
    test .isIn a (.list vs) = .ok false ∧ test .notIn a (.list vs) = .ok true := by
  have hreads : ∀ v ∈ vs, ∃ n, normalize a v = .ok n := fun v hv => ⟨none, h v hv⟩
  have hnot : test .notIn a (.list vs) = .ok true := (notIn_iff hreads).mpr fun v hv => .inl (h v hv)
  obtain ⟨b, hin, hnotIn, -⟩ := test_sets_of_reads hreads
  obtain rfl : b = false := by simpa [hnotIn] using hnot
  exact ⟨hin, hnot⟩

/-- One alternative is found where it is equal. -/
theorem compares_isIn_single (r : Record) :
    compares .isIn path (.list [v]) r = compares .equals path v r := by
  have hone : ∀ a, sameAsOne a [v] = sameAs a v := by
    intro a
    rw [sameAsOne]
    cases sameAs a v with
    | error f => rfl
    | ok b => cases b <;> rfl
  unfold compares
  split
  · rfl
  · rw [test_isIn, hone, test_equals_eq]

end Alternatives

end Reading

/-- A record value that cannot be read as the type of the match values passes no comparison with
them and is not among them, yet it passes as being none of them. So being none of several values is
to differ from each of them exactly for the values that can be read. -/
theorem unreadable_passes_notIn_only [DateReader] (type : PropertyType) (vs : List Value) (hne : vs ≠ [])
    (hvs : ∀ v ∈ vs, ∃ raw, Coercion.coerce type raw = .ok v) (r : Record) (path : String) (a : Value)
    (ha : Path.resolve r path = some a) (hn : a ≠ .null) :
    ((∀ v ∈ vs, normalize a v = .ok none) →
      (∀ o ∈ comparing, ∀ v ∈ vs, compares o path v r = .ok false) ∧
      compares .isIn path (.list vs) r = .ok false ∧
      compares .notIn path (.list vs) r = .ok true) ∧
    ((∀ v ∈ vs, ∃ n, normalize a v = .ok n) →
      (compares .notIn path (.list vs) r = .ok true ↔
        ∀ v ∈ vs, normalize a v = .ok none ∨ compares .notEquals path v r = .ok true) ∧
      ((compares .notIn path (.list vs) r = .ok true ↔
          ∀ v ∈ vs, compares .notEquals path v r = .ok true) ↔
        ¬ ∀ v ∈ vs, normalize a v = .ok none)) := by
  simp only [compares_of_resolve ha hn]
  refine ⟨fun h => ⟨fun o ho v hv => test_of_unreadable ho (h v hv), test_in_of_unreadable h⟩, ?_⟩
  intro h
  refine ⟨notIn_iff h, ?_⟩
  obtain ⟨w, hw⟩ := List.exists_mem_of_ne_nil vs hne
  have hadmits : ∀ v ∈ vs, type.Admits v := by
    intro v hv
    obtain ⟨raw, hraw⟩ := hvs v hv
    exact Coercion.admits_of_coerce hraw
  have hsame : ∀ v ∈ vs, normalize a v = normalize a w := fun v hv =>
    normalize_congr (hadmits v hv) (hadmits w hw)
  constructor
  · intro hiff hnone
    have hdiffers := hiff.mp (test_in_of_unreadable hnone).2 w hw
    rw [test_of_unreadable (by decide) (hnone w hw)] at hdiffers
    simp at hdiffers
  · intro hread
    have hw' : normalize a w ≠ .ok none := fun he => hread fun v hv => (hsame v hv).trans he
    rw [notIn_iff h]
    constructor
    · intro hall v hv
      exact (hall v hv).resolve_left fun he => hw' ((hsame v hv).symm.trans he)
    · exact fun hall v hv => .inr (hall v hv)

theorem unreadable_text_passes_notIn_only :
    ([.int 31, .int 45] : List Value) ≠ [] ∧
    Coercion.coerce .integer "31" = .ok (.int 31) ∧ Coercion.coerce .integer "45" = .ok (.int 45) ∧
    Path.resolve [(.text "age", .text "n/a")] "age" = some (.text "n/a") ∧
    normalize (.text "n/a") (.int 31) = .ok none ∧ normalize (.text "n/a") (.int 45) = .ok none ∧
    compares .isIn "age" (.list [.int 31, .int 45]) [(.text "age", .text "n/a")] = .ok false ∧
    compares .notIn "age" (.list [.int 31, .int 45]) [(.text "age", .text "n/a")] = .ok true := by
  have h31 : Coercion.coerce .integer "31" = .ok (.int 31) := by rfl
  have h45 : Coercion.coerce .integer "45" = .ok (.int 45) := by rfl
  have hvs : ∀ v ∈ [Value.int 31, Value.int 45], ∃ raw, Coercion.coerce .integer raw = .ok v := by
    simp only [List.forall_mem_cons]
    exact ⟨⟨"31", h31⟩, ⟨"45", h45⟩, by simp⟩
  have ha : Path.resolve [(.text "age", .text "n/a")] "age" = some (.text "n/a") := by cbv
  have hn31 : normalize (.text "n/a") (.int 31) = .ok none := by rfl
  have hn45 : normalize (.text "n/a") (.int 45) = .ok none := by rfl
  have hn : ∀ v ∈ [Value.int 31, Value.int 45], normalize (.text "n/a") v = .ok none := by
    simp only [List.forall_mem_cons]
    exact ⟨hn31, hn45, by simp⟩
  obtain ⟨_, hin, hnot⟩ := (unreadable_passes_notIn_only .integer [.int 31, .int 45] (by simp) hvs
    [(.text "age", .text "n/a")] "age" (.text "n/a") ha (by simp)).1 hn
  exact ⟨by simp, h31, h45, ha, hn31, hn45, hin, hnot⟩

/-- The text `n/a` is no integer: it does not differ from 31, and yet it is not among 31 alone. -/
theorem notIn_without_notEquals :
    Coercion.coerce .integer "31" = .ok (.int 31) ∧
    Path.resolve [(.text "age", .text "n/a")] "age" = some (.text "n/a") ∧
    normalize (.text "n/a") (.int 31) = .ok none ∧
    compares .notEquals "age" (.int 31) [(.text "age", .text "n/a")] = .ok false ∧
    compares .notIn "age" (.list [.int 31]) [(.text "age", .text "n/a")] = .ok true :=
  ⟨by rfl, by cbv, by rfl, by cbv, by cbv⟩

end Predicate

end RecordFilter
