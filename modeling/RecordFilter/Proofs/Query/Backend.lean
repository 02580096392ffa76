import RecordFilter.Proofs.Fallible
import RecordFilter.Proofs.Query.Coercion
import RecordFilter.Proofs.Query.Evaluation
import RecordFilter.Query.Backend

namespace RecordFilter.Backend

open Fallible

variable {P : Type} {b : Backend P} {table : RestrictionTable} {registry : TypeRegistry} {e : Entry}

theorem operatorOf_eq_ok_iff {kind : String} {o : Operator} :
    b.operatorOf table kind = .ok o ↔ table.resolve kind = .ok o ∧ b.supports o = true := by
  rw [operatorOf]
  cases table.resolve kind with
  | error f => simp
  | ok o' =>
    simp only [Except.ok.injEq]
    constructor
    · intro h
      split_ifs at h with hs
      obtain rfl := Except.ok.inj h
      exact ⟨rfl, hs⟩
    · intro hh
      obtain ⟨rfl, hs⟩ := hh
      rw [if_pos hs]

theorem single_eq_or (combine : List P → P) (ps : List P) :
    (∃ p, ps = [p] ∧ single combine ps = p) ∨ single combine ps = combine ps := by
  match ps with
  | [] => exact .inr rfl
  | [p] => exact .inl ⟨p, rfl, rfl⟩
  | _ :: _ :: _ => exact .inr rfl

section Typed

variable {o : Operator} {kind property : String} {v : Value}

/-- A typed value is taken as it is, unless the operator takes alternatives and it is neither a sequence
nor a set. -/
theorem ofValue_of_scalar (ho : b.operatorOf table kind = .ok o) (hs : o.takesSet = false) :
    b.ofValue table property v kind = .ok (b.compare o property v) := by
  unfold ofValue
  rw [ho]
  change Except.ok (b.compare o property (if o.takesSet = true then _ else v)) = _
  rw [hs]
  rfl

theorem ofValue_of_list {vs : List Value} (ho : b.operatorOf table kind = .ok o) :
    b.ofValue table property (.list vs) kind = .ok (b.compare o property (.list vs)) := by
  unfold ofValue
  rw [ho]
  change Except.ok (b.compare o property (if o.takesSet = true then .list vs else .list vs)) = _
  rw [ite_self]

theorem ofValue_of_single (ho : b.operatorOf table kind = .ok o) (hs : o.takesSet = true)
    (hv : ∀ xs, v ≠ .list xs ∧ v ≠ .tuple xs ∧ v ≠ .set xs) :
    b.ofValue table property v kind = .ok (b.compare o property (.list [v])) := by
  unfold ofValue
  rw [ho]
  cases v with
  | list xs => exact absurd rfl (hv xs).1
  | tuple xs => exact absurd rfl (hv xs).2.1
  | set xs => exact absurd rfl (hv xs).2.2
  | _ =>
    change Except.ok (b.compare o property (if o.takesSet = true then _ else _)) = _
    rw [hs]
    rfl

end Typed

variable [DateReader]

/-- The comparison of an entry for one of its names. -/
def comparisonOf (b : Backend P) (registry : TypeRegistry) (e : Entry) (o : Operator) (name : String) :
    Except Fault P :=
  (Coercion.matchValue e.criterion.type e.matchText name o registry).map (b.compare o name)

theorem ofEntry_eq (b : Backend P) (table : RestrictionTable) (registry : TypeRegistry) (e : Entry) :
    b.ofEntry table registry e =
      liftFilter (b.operatorOf table e.criterion.kind) >>= fun o =>
        (e.criterion.names.mapM (b.comparisonOf registry e o)).map (single b.any) := by
  have hstep : ∀ o, (fun name => do
      let value ← Coercion.matchValue e.criterion.type e.matchText name o registry
      return b.compare o name value) = b.comparisonOf registry e o := by
    intro o
    funext name
    rw [comparisonOf]
    cases Coercion.matchValue e.criterion.type e.matchText name o registry <;> rfl
  rw [ofEntry]
  simp only [hstep]
  congr 1

theorem ofEntry_eq_ok_iff {p : P} :
    b.ofEntry table registry e = .ok p ↔
      ∃ o ps, b.operatorOf table e.criterion.kind = .ok o ∧
        e.criterion.names.mapM (b.comparisonOf registry e o) = .ok ps ∧ single b.any ps = p := by
  rw [ofEntry_eq, bind_eq_ok]
  simp only [liftFilter, mapError_eq_ok, map_eq_ok]
  grind

theorem ofEntries_eq_ok_iff {es : List Entry} {p : P} :
    b.ofEntries table registry es = .ok p ↔
      (es = [] ∧ b.always = p) ∨
        es ≠ [] ∧ ∃ ps, es.mapM (b.ofEntry table registry) = .ok ps ∧ single b.all ps = p := by
  cases es with
  | nil => simp [ofEntries]
  | cons e es => simp [ofEntries, map_eq_ok]

theorem ofEntries_eq_error_iff {es : List Entry} {f : Fault} :
    b.ofEntries table registry es = .error f ↔ es.mapM (b.ofEntry table registry) = .error f := by
  cases es with
  | nil => simp [ofEntries, pure, Except.pure]
  | cons e es => rw [ofEntries, map_eq_error]; simp

theorem exists_ofEntries_iff {es : List Entry} :
    (∃ p, b.ofEntries table registry es = .ok p) ↔ ∃ ps, es.mapM (b.ofEntry table registry) = .ok ps := by
  cases es with
  | nil => simp [ofEntries, pure, Except.pure]
  | cons e es => simp [ofEntries, map_eq_ok]

section Names

variable {o : Operator} {name : String} {names : List String}

/-- As its match value is read for all properties or for none, an entry fails as it does for the first. -/
theorem ofEntry_eq_error_iff_first {f : Fault} (ho : b.operatorOf table e.criterion.kind = .ok o)
    (hn : e.criterion.names = name :: names) :
    b.ofEntry table registry e = .error f ↔
      Coercion.matchValue e.criterion.type e.matchText name o registry = .error f := by
  have hall : b.ofEntry table registry e = .error f ↔
      (name :: names).mapM (b.comparisonOf registry e o) = .error f := by
    rw [ofEntry_eq, ho, hn]
    exact map_eq_error
  rw [hall]
  constructor
  · intro h
    obtain ⟨name', -, hf⟩ := (mapM_eq_error_iff.mp h).exists
    cases hv : Coercion.matchValue e.criterion.type e.matchText name o registry with
    | ok v =>
      rw [comparisonOf, Coercion.matchValue_of_ok name' hv] at hf
      cases hf
    | error g =>
      rw [List.mapM_cons, comparisonOf, hv] at h
      cases h
      rfl
  · intro h
    rw [List.mapM_cons, comparisonOf, h]
    rfl

end Names

section Trees

variable {r : Record} {ps : List Predicate}

theorem decided_single_all : (single Predicate.all ps).Decided r ↔ ∀ p ∈ ps, p.Decided r := by
  rcases single_eq_or Predicate.all ps with ⟨p, rfl, h⟩ | h
  · simp [h]
  · rw [h, Predicate.decided_all]

theorem decided_single_any : (single Predicate.any ps).Decided r ↔ ∀ p ∈ ps, p.Decided r := by
  rcases single_eq_or Predicate.any ps with ⟨p, rfl, h⟩ | h
  · simp [h]
  · rw [h, Predicate.decided_any]

theorem matches_single_all :
    (single Predicate.all ps).matches? r = .ok true ↔ ∀ p ∈ ps, p.matches? r = .ok true := by
  rcases single_eq_or Predicate.all ps with ⟨p, rfl, h⟩ | h
  · simp [h]
  · rw [h, Predicate.matches_all_iff]

theorem matches_single_any (hd : ∀ p ∈ ps, p.Decided r) :
    (single Predicate.any ps).matches? r = .ok true ↔ ∃ p ∈ ps, p.matches? r = .ok true := by
  rcases single_eq_or Predicate.any ps with ⟨p, rfl, h⟩ | h
  · simp [h]
  · rw [h, Predicate.matches_any_iff (Predicate.decided_any.mpr hd)]

theorem matches?_single_all : (single Predicate.all ps).matches? r = Predicate.matchesAll r ps := by
  rcases single_eq_or Predicate.all ps with ⟨p, rfl, h⟩ | h
  · rw [h, Predicate.matchesAll]
    match hp : p.matches? r with
    | .ok true => rfl
    | .ok false => rfl
    | .error f => rfl
  · rw [h, Predicate.matches?]

theorem matches?_single_any : (single Predicate.any ps).matches? r = Predicate.matchesAny r ps := by
  rcases single_eq_or Predicate.any ps with ⟨p, rfl, h⟩ | h
  · rw [h, Predicate.matchesAny]
    match hp : p.matches? r with
    | .ok true => rfl
    | .ok false => rfl
    | .error f => rfl
  · rw [h, Predicate.matches?]

/-- A composed tree, of whatever shape, asks the trees of its entries in order. -/
theorem exists_trees_of_ofEntries {es : List Entry} {p : Predicate}
    (h : memory.ofEntries table registry es = .ok p) :
    ∃ ps, es.mapM (memory.ofEntry table registry) = .ok ps ∧
      ∀ r, p.matches? r = Predicate.matchesAll r ps := by
  rcases ofEntries_eq_ok_iff.mp h with ⟨rfl, rfl⟩ | ⟨-, ps, hps, rfl⟩
  · exact ⟨[], rfl, fun r => rfl⟩
  · exact ⟨ps, hps, fun r => matches?_single_all⟩

end Trees

end RecordFilter.Backend
