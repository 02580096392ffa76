import Mathlib.Data.List.Infix
import RecordFilter.Proofs.Fallible
import RecordFilter.Query.Predicate

namespace RecordFilter.Predicate

mutual

/-- The comparisons of a tree, from left to right. -/
def leaves : Predicate → List Predicate
  | .always => []
  | .compare o property value => [.compare o property value]
  | .compareBy word property value => [.compareBy word property value]
  | .all ps => leavesAmong ps
  | .any ps => leavesAmong ps

def leavesAmong : List Predicate → List Predicate
  | [] => []
  | p :: ps => leaves p ++ leavesAmong ps

end

theorem leavesAmong_eq_flatMap (ps : List Predicate) : leavesAmong ps = ps.flatMap leaves := by
  induction ps with
  | nil => rfl
  | cons p ps ih => rw [leavesAmong, ih, List.flatMap_cons]

variable [DateReader]

/-- No comparison of the tree fails on the record. -/
def Decided (p : Predicate) (r : Record) : Prop := ∀ q ∈ p.leaves, ∃ b, q.matches? r = .ok b

variable {r : Record} {p : Predicate} {ps : List Predicate}

theorem decided_all : (Predicate.all ps).Decided r ↔ ∀ p ∈ ps, p.Decided r := by
  simp only [Decided, leaves, leavesAmong_eq_flatMap, List.forall_mem_flatMap]

theorem decided_any : (Predicate.any ps).Decided r ↔ ∀ p ∈ ps, p.Decided r := by
  simp only [Decided, leaves, leavesAmong_eq_flatMap, List.forall_mem_flatMap]

theorem matchesAll_eq_true_iff :
    matchesAll r ps = .ok true ↔ ∀ p ∈ ps, p.matches? r = .ok true := by
  induction ps with
  | nil => simp [matchesAll]
  | cons p ps ih =>
    rw [matchesAll, List.forall_mem_cons]
    match hp : p.matches? r with
    | .ok true => simp [ih]
    | .ok false => simp
    | .error f => simp

theorem matchesAny_eq_true_iff (h : ∀ p ∈ ps, ∃ b, p.matches? r = .ok b) :
    matchesAny r ps = .ok true ↔ ∃ p ∈ ps, p.matches? r = .ok true := by
  induction ps with
  | nil => simp [matchesAny]
  | cons p ps ih =>
    obtain ⟨b, hb⟩ := h p (by simp)
    have ih := ih fun q hq => h q (by simp [hq])
    rw [matchesAny, hb]
    cases b <;> simp [hb, ih]

mutual

/-- A tree answers on every record on which its leaves do. -/
theorem exists_matches (r : Record) (p : Predicate) (h : p.Decided r) :
    ∃ b, p.matches? r = .ok b := by
  match p with
  | .always => exact ⟨true, rfl⟩
  | .compare o property value => exact h _ (by simp [leaves])
  | .compareBy word property value => exact h _ (by simp [leaves])
  | .all ps => exact exists_matchesAll r ps (decided_all.mp h)
  | .any ps => exact exists_matchesAny r ps (decided_any.mp h)

theorem exists_matchesAll (r : Record) (ps : List Predicate) (h : ∀ p ∈ ps, p.Decided r) :
    ∃ b, matchesAll r ps = .ok b := by
  match ps with
  | [] => exact ⟨true, rfl⟩
  | p :: ps =>
    obtain ⟨b, hb⟩ := exists_matches r p (h p (by simp))
    obtain ⟨c, hc⟩ := exists_matchesAll r ps fun q hq => h q (by simp [hq])
    rw [matchesAll, hb]
    cases b with
    | true => exact ⟨c, hc⟩
    | false => exact ⟨false, rfl⟩

theorem exists_matchesAny (r : Record) (ps : List Predicate) (h : ∀ p ∈ ps, p.Decided r) :
    ∃ b, matchesAny r ps = .ok b := by
  match ps with
  | [] => exact ⟨false, rfl⟩
  | p :: ps =>
    obtain ⟨b, hb⟩ := exists_matches r p (h p (by simp))
    obtain ⟨c, hc⟩ := exists_matchesAny r ps fun q hq => h q (by simp [hq])
    rw [matchesAny, hb]
    cases b with
    | true => exact ⟨true, rfl⟩
    | false => exact ⟨c, hc⟩

end

theorem matches_all_iff :
    (Predicate.all ps).matches? r = .ok true ↔ ∀ p ∈ ps, p.matches? r = .ok true := by
  rw [matches?, matchesAll_eq_true_iff]

theorem matches_any_iff (h : (Predicate.any ps).Decided r) :
    (Predicate.any ps).matches? r = .ok true ↔ ∃ p ∈ ps, p.matches? r = .ok true := by
  rw [matches?, matchesAny_eq_true_iff fun p hp => exists_matches r p (decided_any.mp h p hp)]

/-- Whether a record passes. One on which the tree fails does not. -/
def passes (p : Predicate) (r : Record) : Bool := (p.matches? r).toOption.getD false

theorem passes_iff : p.passes r = true ↔ p.matches? r = .ok true := by
  rw [passes]
  match p.matches? r with
  | .ok b => simp [Except.toOption]
  | .error f => simp [Except.toOption]

/-- Filtering needs an answer on every record, and keeps those that pass, as often and in the order in
which they occur. -/
theorem filter_eq_ok_iff {records kept : List Record} :
    p.filter records = .ok kept ↔
      (∀ r ∈ records, ∃ b, p.matches? r = .ok b) ∧ kept = records.filter p.passes := by
  induction records generalizing kept with
  | nil => simp [filter, eq_comm]
  | cons r rest ih =>
    rw [filter, Fallible.bind_eq_ok, List.forall_mem_cons, and_assoc, ← exists_and_right]
    refine exists_congr fun b => and_congr_right fun hb => ?_
    have hpasses : p.passes r = b := by rw [passes, hb]; rfl
    rw [Fallible.bind_eq_ok, List.filter_cons, hpasses]
    constructor
    · intro hh
      obtain ⟨others, hothers, h⟩ := hh
      obtain ⟨hanswers, rfl⟩ := ih.mp hothers
      exact ⟨hanswers, (Except.ok.inj h).symm⟩
    · intro hh
      obtain ⟨hanswers, rfl⟩ := hh
      exact ⟨_, ih.mpr ⟨hanswers, rfl⟩, rfl⟩

open Classical in
theorem filter_eq (p : Predicate) (records : List Record) (h : ∀ r ∈ records, p.Decided r) :
    p.filter records = .ok (records.filter fun r => p.matches? r = .ok true) := by
  refine filter_eq_ok_iff.mpr ⟨fun r hr => exists_matches r p (h r hr), List.filter_congr fun r _ => ?_⟩
  rw [Bool.eq_iff_iff, passes_iff, decide_eq_true_iff]

/-- A conjunction in two parts asks the second where the first holds. -/
theorem matchesAll_append (r : Record) (ps qs : List Predicate) :
    matchesAll r (ps ++ qs) = matchesAll r ps >>= fun b => if b then matchesAll r qs else .ok false := by
  induction ps with
  | nil => rfl
  | cons p ps ih =>
    rw [List.cons_append, matchesAll, matchesAll]
    match p.matches? r with
    | .ok true => exact ih
    | .ok false => rfl
    | .error f => rfl

section Failing

open Fallible (Reaches)

variable {f : Fault}

theorem matchesAll_eq_error_iff :
    matchesAll r ps = .error f ↔ Reaches (·.matches? r = .ok true) (·.matches? r = .error f) ps := by
  induction ps with
  | nil => simp [matchesAll]
  | cons p ps ih =>
    rw [matchesAll, Fallible.reaches_cons_iff]
    match hp : p.matches? r with
    | .ok true => simp [ih]
    | .ok false => simp
    | .error f => simp

theorem matchesAny_eq_error_iff :
    matchesAny r ps = .error f ↔ Reaches (·.matches? r = .ok false) (·.matches? r = .error f) ps := by
  induction ps with
  | nil => simp [matchesAny]
  | cons p ps ih =>
    rw [matchesAny, Fallible.reaches_cons_iff]
    match hp : p.matches? r with
    | .ok true => simp
    | .ok false => simp [ih]
    | .error f => simp

/-- Filtering stops at the first record on which the tree fails. -/
theorem filter_eq_error_iff {records : List Record} :
    p.filter records = .error f ↔
      Reaches (fun r => ∃ b, p.matches? r = .ok b) (fun r => p.matches? r = .error f) records := by
  induction records with
  | nil => simp [filter]
  | cons r rest ih =>
    rw [filter, Fallible.bind_eq_error, Fallible.reaches_cons_iff, ← ih]
    refine or_congr_right ?_
    rw [← exists_and_right]
    refine exists_congr fun b => and_congr_right fun _ => ?_
    rw [Fallible.bind_eq_error]
    simp [pure, Except.pure]

end Failing

end RecordFilter.Predicate
