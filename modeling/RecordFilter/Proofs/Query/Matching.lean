import Mathlib
import RecordFilter.Proofs.Number.Double
import RecordFilter.Proofs.Query.Backend
import RecordFilter.Proofs.Query.Comparison
import RecordFilter.Proofs.Text.Split
import RecordFilter.Proofs.Value.Instant
import RecordFilter.Query.Session

namespace RecordFilter

open Fallible

/-- The operators that compare what values show. -/
def Operator.onText : List Operator := [.contains, .startsWith, .endsWith]

theorem Operator.onText_or_comparing_or_set (o : Operator) :
    o ∈ Operator.onText ∨ o ∈ Operator.comparing ∨ o = .isIn ∨ o = .notIn := by
  cases o <;> decide

section Failing

variable [DateReader]

/-- The record value is beyond what a type reads, and with which fault: an integer that no double comes near
to, a moment or the text of one that is out of reach. -/
def PropertyType.OutOfRange (type : PropertyType) (a : Value) (f : Fault) : Prop :=
  match type with
  | .double => f = .overflow ∧ ∃ n, a = .int n ∧ Double.overflowBound ≤ n.natAbs
  | .date => Instant.OutOfReach a f
  | _ => False

/-- Comparing a record value with match values of a type ends in a fault: operators on text need a value
that can be written, the others one that is within the range of the type. -/
def Operator.FailsOn (o : Operator) (type : PropertyType) (a : Value) (f : Fault) : Prop :=
  if o ∈ Operator.onText then f = .unreadable "" ∧ a.isWritable = false else type.OutOfRange a f

/-- A comparison of the entry fails on the record, and those before it do not hold. -/
def Entry.FailsOn (table : RestrictionTable) (types : TypeRegistry) (e : Entry) (r : Record) (f : Fault) :
    Prop :=
  ∃ o, table.resolve e.criterion.kind = .ok o ∧
    Reaches
      (fun name => ∃ v, Coercion.matchValue e.criterion.type e.matchText name o types = .ok v ∧
        (Predicate.compare o name v).matches? r = .ok false)
      (fun name => ∃ a, Predicate.present? r name = some a ∧ o.FailsOn e.criterion.type a f)
      e.criterion.names

end Failing

namespace Predicate

variable {type : PropertyType} {a v : Value} {f : Fault} {o : Operator}

theorem unreadableAsNone_eq_error_iff {α : Type} {x : Except Fault α} :
    unreadableAsNone x = .error f ↔ x = .error f ∧ f.Persists := by
  unfold unreadableAsNone Fault.Persists
  cases x with
  | ok a => simp
  | error g =>
    simp only [Except.error.injEq]
    split_ifs with h
    · simp only [Bool.or_eq_true, beq_iff_eq] at h
      constructor
      · simp
      · rintro ⟨rfl, hv, hk⟩
        simp [hv, hk] at h
    · simp only [Bool.or_eq_true, beq_iff_eq, not_or, Bool.not_eq_true] at h
      constructor
      · intro hg
        obtain rfl := Except.error.inj hg
        exact ⟨rfl, h⟩
      · rintro ⟨rfl, -⟩
        rfl

theorem unreadableAsNone_written?_ne_error : unreadableAsNone a.written? ≠ .error f := by
  intro h
  obtain ⟨hw, hf⟩ := unreadableAsNone_eq_error_iff.mp h
  obtain rfl := Value.written?_eq_error hw
  cases hf.1

theorem asDouble?_eq_error_iff :
    asDouble? a = .error f ↔ f = .overflow ∧ ∃ n, a = .int n ∧ Double.overflowBound ≤ n.natAbs := by
  cases a with
  | int n =>
    rw [asDouble?, map_eq_error, inRange_eq_error_iff, Double.ofInt?_eq_none_iff, and_comm]
    simp
  | _ => simp [asDouble?]

theorem comparesText_eq_error_iff {holds : List Char → List Char → Bool} (hv : v.isWritable = true) :
    comparesText holds a v = .error f ↔ f = .unreadable "" ∧ a.isWritable = false := by
  rw [comparesText, Value.written?_of_isWritable hv, bind_eq_error]
  simp only [Value.written?]
  cases a.isWritable <;> simp [bind, Except.bind, pure, Except.pure, eq_comm]

theorem isWritable_int {n : Int} (h : n.natAbs < 0x10000000000000000) : (Value.int n).isWritable = true := by
  have hlong : 0x10000000000000000 < Nat.pow 10 Numeral.maxDigits := by decide +kernel
  rw [Value.isWritable]
  exact decide_eq_true (h.trans hlong)

/-- Match values are short enough to be written. -/
theorem isWritable_of_admits (hv : type.Admits v) : v.isWritable = true := by
  cases type with
  | string =>
    obtain ⟨s, rfl⟩ := hv
    simp [Value.isWritable]
  | integer =>
    obtain ⟨n, rfl, hlow, hhigh⟩ := hv
    exact isWritable_int (by omega)
  | long =>
    obtain ⟨n, rfl, hlow, hhigh⟩ := hv
    exact isWritable_int (by omega)
  | double =>
    obtain ⟨s, u, rfl⟩ := hv
    simp [Value.isWritable]
  | date =>
    obtain ⟨t, rfl⟩ := hv
    simp [Value.isWritable]
  | boolean =>
    obtain ⟨b, rfl⟩ := hv
    simp [Value.isWritable]

section Reading

variable [DateReader]

/-- Reading a record value fails exactly when it is out of range. -/
theorem normalize_eq_error_iff (hv : type.Admits v) :
    normalize a v = .error f ↔ type.OutOfRange a f := by
  cases type with
  | string =>
    obtain ⟨s, rfl⟩ := hv
    simp [normalize, PropertyType.OutOfRange, map_eq_error, unreadableAsNone_written?_ne_error]
  | integer =>
    obtain ⟨n, rfl, -⟩ := hv
    simp [normalize, PropertyType.OutOfRange]
  | long =>
    obtain ⟨n, rfl, -⟩ := hv
    simp [normalize, PropertyType.OutOfRange]
  | double =>
    obtain ⟨s, u, rfl⟩ := hv
    exact asDouble?_eq_error_iff
  | date =>
    obtain ⟨t, rfl⟩ := hv
    rw [normalize, map_eq_error, unreadableAsNone_eq_error_iff]
    exact Instant.ofValue_persists_iff
  | boolean =>
    obtain ⟨b, rfl⟩ := hv
    cases a with
    | bool b => simp [normalize, PropertyType.OutOfRange]
    | _ => simp [normalize, PropertyType.OutOfRange, map_eq_error, unreadableAsNone_written?_ne_error]

/-- Among alternatives of one type, the first one already fails if any does. -/
theorem sameAsOne_eq_error_iff {vs : List Value} (hne : vs ≠ []) (hvs : ∀ v ∈ vs, type.Admits v) :
    sameAsOne a vs = .error f ↔ type.OutOfRange a f := by
  have hsame : ∀ v ∈ vs, (sameAs a v = .error f ↔ type.OutOfRange a f) := by
    intro v hv
    rw [sameAs, map_eq_error, normalize_eq_error_iff (hvs v hv)]
  clear hvs
  induction vs with
  | nil => exact absurd rfl hne
  | cons v vs ih =>
    rw [sameAsOne, bind_eq_error, hsame v (by simp)]
    constructor
    · intro hh
      rcases hh with h | ⟨b, -, h⟩
      · exact h
      · cases vs with
        | nil => cases b <;> cases h
        | cons w ws =>
          cases b with
          | true => cases h
          | false => exact (ih (by simp) fun u hu => hsame u (by simp [hu])).mp h
    · exact .inl

section Entries

open Coercion (matchValue coerceAs)

variable {types : TypeRegistry} {table : RestrictionTable} {text name : String} {e : Entry} {r : Record}

theorem admits_of_coerceAs {raw : String} (h : coerceAs types (.known type) raw = .ok v) :
    type.Admits v := by
  unfold Coercion.coerceAs at h
  split_ifs at h
  exact Coercion.admits_of_coerce h

/-- The match value of an operator is one of its type, or a list of some. -/
theorem admits_of_matchValue (h : matchValue type text name o types = .ok v) :
    if o.takesSet then ∃ vs, v = .list vs ∧ vs ≠ [] ∧ ∀ w ∈ vs, type.Admits w else type.Admits v := by
  simp only [matchValue, mapError_eq_ok] at h
  split_ifs at h ⊢
  · obtain ⟨vs, hvs, rfl⟩ := map_eq_ok.mp h
    refine ⟨vs, rfl, ?_, ?_⟩
    · rintro rfl
      obtain ⟨piece, hpiece⟩ := List.exists_mem_of_ne_nil _ (Text.pieces_ne_nil ',' text)
      obtain ⟨w, hw⟩ := exists_of_mapM hvs hpiece
      have hnil : w ∈ ([] : List Value) := (mem_mapM_iff hvs w).mpr ⟨piece, hpiece, hw⟩
      cases hnil
    · intro w hw
      obtain ⟨piece, -, hpiece⟩ := (mem_mapM_iff hvs w).mp hw
      exact admits_of_coerceAs hpiece
  · exact admits_of_coerceAs h

theorem test_eq_error_iff (hv : matchValue type text name o types = .ok v) :
    test o a v = .error f ↔ o.FailsOn type a f := by
  have hv := admits_of_matchValue hv
  have htext : ∀ o ∈ Operator.onText, o.takesSet = false := by decide
  have hone : ∀ o ∈ Operator.comparing, o.takesSet = false ∧ o ∉ Operator.onText := by decide
  rw [Operator.FailsOn]
  rcases o.onText_or_comparing_or_set with ho | ho | rfl | rfl
  · rw [htext o ho] at hv
    have hw := isWritable_of_admits hv
    rw [if_pos ho]
    simp only [Operator.onText, List.mem_cons, List.not_mem_nil, or_false] at ho
    rcases ho with rfl | rfl | rfl <;> exact comparesText_eq_error_iff hw
  · rw [(hone o ho).1] at hv
    rw [if_neg (hone o ho).2, test_of_comparing ho, map_eq_error]
    exact normalize_eq_error_iff hv
  · obtain ⟨vs, rfl, hne, hvs⟩ := hv
    rw [if_neg (by decide), test_isIn]
    exact sameAsOne_eq_error_iff hne hvs
  · obtain ⟨vs, rfl, hne, hvs⟩ := hv
    rw [if_neg (by decide), test_notIn, map_eq_error]
    exact sameAsOne_eq_error_iff hne hvs

theorem compares_eq_error_iff (hv : matchValue type text name o types = .ok v) :
    compares o name v r = .error f ↔ ∃ a, present? r name = some a ∧ o.FailsOn type a f := by
  rw [compares]
  cases present? r name with
  | none => simp
  | some a => simp [test_eq_error_iff hv]

theorem entry_eq_error_iff {q : Predicate} (hq : Backend.memory.ofEntry table types e = .ok q) :
    q.matches? r = .error f ↔ e.FailsOn table types r f := by
  obtain ⟨o, ps, ho, hps, rfl⟩ := Backend.ofEntry_eq_ok_iff.mp hq
  have ho : table.resolve e.criterion.kind = .ok o := (Backend.operatorOf_eq_ok_iff.mp ho).1
  have hany : (Backend.single Backend.memory.any ps).matches? r = matchesAny r ps :=
    Backend.matches?_single_any
  have hleaf : ∀ name ∈ e.criterion.names,
      ((∃ q, Backend.memory.comparisonOf types e o name = .ok q ∧ q.matches? r = .error f) ↔
        ∃ a, present? r name = some a ∧ o.FailsOn e.criterion.type a f) := by
    intro name hname
    obtain ⟨q, hq⟩ := exists_of_mapM hps hname
    obtain ⟨v, hv, rfl⟩ := map_eq_ok.mp hq
    rw [← compares_eq_error_iff hv]
    simp [Backend.comparisonOf, hv, Except.map, Backend.memory, Backend.trees, matches?]
  have hpass : ∀ name, (∃ q, Backend.memory.comparisonOf types e o name = .ok q ∧ q.matches? r = .ok false) ↔
      ∃ v, matchValue e.criterion.type e.matchText name o types = .ok v ∧
        (Predicate.compare o name v).matches? r = .ok false := by
    intro name
    simp [Backend.comparisonOf, map_eq_ok, Backend.memory, Backend.trees]
  rw [hany, matchesAny_eq_error_iff, reaches_mapM_iff hps, reaches_congr hleaf]
  simp only [hpass]
  constructor
  · exact fun h => ⟨o, ho, h⟩
  · intro hh
    obtain ⟨o', ho', h⟩ := hh
    obtain rfl : o = o' := Except.ok.inj (ho.symm.trans ho')
    exact h

theorem composed_eq_error_iff {es : List Entry} {p : Predicate}
    (hp : Backend.memory.ofEntries table types es = .ok p) :
    p.matches? r = .error f ↔
      Reaches (fun e => ∃ q, Backend.memory.ofEntry table types e = .ok q ∧ q.matches? r = .ok true)
        (fun e => e.FailsOn table types r f) es := by
  rcases Backend.ofEntries_eq_ok_iff.mp hp with ⟨rfl, rfl⟩ | ⟨-, ps, hps, rfl⟩
  · have hmatches : Backend.memory.always.matches? r = .ok true := rfl
    simp [hmatches]
  · have hall : (Backend.single Backend.memory.all ps).matches? r = matchesAll r ps :=
      Backend.matches?_single_all
    have hentry : ∀ e ∈ es, ((∃ q, Backend.memory.ofEntry table types e = .ok q ∧
        q.matches? r = .error f) ↔ e.FailsOn table types r f) := by
      intro e he
      obtain ⟨q, hq⟩ := exists_of_mapM hps he
      rw [← entry_eq_error_iff hq]
      simp [hq]
    rw [hall, matchesAll_eq_error_iff, reaches_mapM_iff hps, reaches_congr hentry]

end Entries

end Reading

/-- Whatever the library for dates does, reading a record value fails with a fault just where it is out of
range of the type of the match value with that fault. A composed tree fails on a record exactly when, past
entries that hold, it comes to one with a comparison that fails; on other records it answers, and filtering
stops at the first record on which the tree fails. -/
theorem fails_only_out_of_range [DateReader] (table : RestrictionTable) (types : TypeRegistry) (es : List Entry)
    (p : Predicate) (hp : Session.composeOn ⟨Backend.memory, false⟩ table types es = .ok p) :
    (∀ type raw v a f, Coercion.coerce type raw = .ok v →
      (normalize a v = .error f ↔ type.OutOfRange a f)) ∧
    (∀ r f, p.matches? r = .error f ↔
      Reaches (fun e => ∃ q, Backend.memory.ofEntry table types e = .ok q ∧ q.matches? r = .ok true)
        (fun e => e.FailsOn table types r f) es) ∧
    (∀ r, (∀ e ∈ es, ∀ name ∈ e.criterion.names, ∀ a, present? r name = some a →
        a.isWritable = true ∧ ∀ f, ¬ e.criterion.type.OutOfRange a f) →
      ∃ b, p.matches? r = .ok b) ∧
    ∀ records f, p.filter records = .error f ↔
      Reaches (fun r => ∃ b, p.matches? r = .ok b) (fun r => p.matches? r = .error f) records := by
  have hp : Backend.memory.ofEntries table types es = .ok p := hp
  refine ⟨fun type raw v a f hv => normalize_eq_error_iff (Coercion.admits_of_coerce hv),
    fun r f => composed_eq_error_iff hp, fun r hr => ?_, fun records f => filter_eq_error_iff⟩
  cases hm : p.matches? r with
  | ok b => exact ⟨b, rfl⟩
  | error f =>
    obtain ⟨e, he, o, -, hreach⟩ := ((composed_eq_error_iff hp).mp hm).exists
    obtain ⟨name, hname, a, ha, hfails⟩ := hreach.exists
    obtain ⟨hwritable, hrange⟩ := hr e he name hname a ha
    unfold Operator.FailsOn at hfails
    split_ifs at hfails
    · exact absurd hfails.2 (by simp [hwritable])
    · exact absurd hfails (hrange f)

theorem fails_only_out_of_range_size :
    let es : List Entry := [⟨⟨"GT", .double, ["size"]⟩, "0"⟩]
    let p : Predicate := .compare .greaterThan "size" (.float .zero)
    let huge : Value := .int (-Double.overflowBound)
    Session.composeOn ⟨Backend.memory, false⟩ .standard .standard es = .ok p ∧
    PropertyType.double.OutOfRange huge .overflow ∧
    p.matches? [(.text "size", huge)] = .error .overflow ∧
    ∃ b, p.matches? [(.text "size", .text "huge")] = .ok b := by
  intro es p huge
  have hp : Session.composeOn ⟨Backend.memory, false⟩ .standard .standard es = .ok p := by rfl
  have hrange : PropertyType.double.OutOfRange huge .overflow :=
    ⟨rfl, _, rfl, by rw [Int.natAbs_neg, Int.natAbs_natCast]⟩
  obtain ⟨-, hmatches, hanswers, -⟩ := fails_only_out_of_range .standard .standard es p hp
  refine ⟨hp, hrange, (hmatches _ _).mpr (.here ⟨.greaterThan, rfl, .here ⟨huge, ?_, ?_⟩⟩), ?_⟩
  · exact present?_of_resolve (resolve_single "size" huge) (by simp [huge])
  · exact hrange
  · refine hanswers _ fun e he name hname a ha => ?_
    obtain rfl := List.mem_singleton.mp he
    obtain rfl := List.mem_singleton.mp hname
    rw [present?_of_resolve (resolve_single "size" (.text "huge")) (by simp)] at ha
    obtain rfl := Option.some.inj ha
    simp [Value.isWritable, PropertyType.OutOfRange]

/-- A record with the first integer that no double comes near to gets no answer, and keeps the ones after
it from being asked. -/
theorem huge_integer_fails :
    let p : Predicate := .compare .equals "age" (.float .zero)
    let huge : Record := [(.text "age", .int Double.overflowBound)]
    let other : Record := [(.text "age", .float .zero)]
    Session.composeOn ⟨Backend.memory, false⟩ .standard .standard [⟨⟨"EQ", .double, ["age"]⟩, "0"⟩]
      = .ok p ∧
    p.matches? huge = .error .overflow ∧ p.filter [other] = .ok [other] ∧
    p.filter [huge, other] = .error .overflow := by
  intro p huge other
  have hhuge : p.matches? huge = .error .overflow := by
    have ha := resolve_single "age" (.int Double.overflowBound)
    have hread : normalize (.int Double.overflowBound) (.float .zero) = .error .overflow := by
      rw [normalize, asDouble?, Double.ofInt?_overflowBound]
      rfl
    rw [matches?, compares_of_resolve ha (by simp), test_of_comparing (by decide), hread]
    rfl
  have hother : p.filter [other] = .ok [other] := by cbv
  refine ⟨by rfl, hhuge, hother, ?_⟩
  rw [filter, hhuge]
  rfl

end Predicate

end RecordFilter
