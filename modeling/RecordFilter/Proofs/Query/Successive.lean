import Mathlib
import RecordFilter.Proofs.Number.Double
import RecordFilter.Proofs.Query.Backend
import RecordFilter.Proofs.Query.Comparison
import RecordFilter.Query.Session

namespace RecordFilter

open Fallible

namespace Predicate

variable {p p₁ p₂ : Predicate} {records kept : List Record}

/-- A tree that asks a second one on the records that a first one accepts. -/
def AsksInTurn (p p₁ p₂ : Predicate) : Prop :=
  ∀ r, p.matches? r = p₁.matches? r >>= fun b => if b then p₂.matches? r else .ok false

theorem AsksInTurn.exists_matches_iff (h : p.AsksInTurn p₁ p₂) (r : Record) :
    (∃ b, p.matches? r = .ok b) ↔
      (∃ b, p₁.matches? r = .ok b) ∧ (p₁.passes r = true → ∃ b, p₂.matches? r = .ok b) := by
  rw [h r, passes_iff]
  match p₁.matches? r with
  | .ok true => simp [bind, Except.bind]
  | .ok false => simp [bind, Except.bind]
  | .error f => simp [bind, Except.bind]

theorem AsksInTurn.passes_eq (h : p.AsksInTurn p₁ p₂) (r : Record) :
    p.passes r = (p₁.passes r && p₂.passes r) := by
  rw [Bool.eq_iff_iff, Bool.and_eq_true, passes_iff, passes_iff, passes_iff, h r, bind_eq_ok]
  constructor
  · intro hh
    obtain ⟨b, hb, ht⟩ := hh
    cases b with
    | true => exact ⟨hb, ht⟩
    | false => cases ht
  · intro hh
    exact ⟨true, hh.1, hh.2⟩

/-- Filtering by the one is filtering by the two, one after the other. -/
theorem AsksInTurn.filter_eq_ok_iff (h : p.AsksInTurn p₁ p₂) :
    p.filter records = .ok kept ↔ p₁.filter records >>= p₂.filter = .ok kept := by
  have hall : (∀ r ∈ records, ∃ b, p.matches? r = .ok b) ↔
      (∀ r ∈ records, ∃ b, p₁.matches? r = .ok b) ∧
        ∀ r ∈ records.filter p₁.passes, ∃ b, p₂.matches? r = .ok b := by
    simp only [h.exists_matches_iff, List.mem_filter, and_imp, forall_and]
  have hkept : records.filter p.passes = (records.filter p₁.passes).filter p₂.passes := by
    rw [List.filter_filter]
    exact List.filter_congr fun r _ => by rw [h.passes_eq, Bool.and_comm]
  rw [Predicate.filter_eq_ok_iff, hall, hkept, bind_eq_ok]
  simp only [Predicate.filter_eq_ok_iff]
  constructor
  · intro hh
    obtain ⟨⟨h₁, h₂⟩, rfl⟩ := hh
    exact ⟨_, ⟨h₁, rfl⟩, h₂, rfl⟩
  · intro hh
    obtain ⟨between, ⟨h₁, rfl⟩, h₂, rfl⟩ := hh
    exact ⟨⟨h₁, h₂⟩, rfl⟩

end Predicate

namespace Selection

open Backend (exists_trees_of_ofEntries exists_ofEntries_iff ofEntries_eq_error_iff)

variable {table : RestrictionTable} {types : TypeRegistry} {es fs : List Entry} {p p₁ p₂ q : Predicate}

/-- Composes entries in a session on a fresh context that evaluates trees on records. -/
def compose (table : RestrictionTable) (types : TypeRegistry) (es : List Entry) : Except Fault Predicate :=
  Session.composeOn ⟨Backend.memory, false⟩ table types es

theorem compose_eq (table : RestrictionTable) (types : TypeRegistry) (es : List Entry) :
    compose table types es = Backend.memory.ofEntries table types es := rfl

theorem asksInTurn_of_compose (h : compose table types (es ++ fs) = .ok p)
    (h₁ : compose table types es = .ok p₁) (h₂ : compose table types fs = .ok p₂) :
    p.AsksInTurn p₁ p₂ := by
  obtain ⟨trees, htrees, hp⟩ := exists_trees_of_ofEntries h
  obtain ⟨trees₁, htrees₁, hp₁⟩ := exists_trees_of_ofEntries h₁
  obtain ⟨trees₂, htrees₂, hp₂⟩ := exists_trees_of_ofEntries h₂
  have happend : trees = trees₁ ++ trees₂ :=
    Except.ok.inj (htrees.symm.trans (mapM_append_eq_ok.mpr ⟨_, _, htrees₁, htrees₂, rfl⟩))
  intro r
  rw [hp, hp₁, hp₂, happend, Predicate.matchesAll_append]

/-- A record that passes a tree passes one for some of the entries. -/
theorem passes_of_subset (hsub : es ⊆ fs) (h : compose table types es = .ok p)
    (hq : compose table types fs = .ok q) {r : Record} (hr : q.passes r = true) : p.passes r = true := by
  obtain ⟨trees, htrees, hp⟩ := exists_trees_of_ofEntries h
  obtain ⟨more, hmore, hq⟩ := exists_trees_of_ofEntries hq
  rw [Predicate.passes_iff, hq, Predicate.matchesAll_eq_true_iff] at hr
  rw [Predicate.passes_iff, hp, Predicate.matchesAll_eq_true_iff]
  intro t ht
  obtain ⟨e, he, htree⟩ := (mem_mapM_iff htrees t).mp ht
  exact hr t ((mem_mapM_iff hmore t).mpr ⟨e, hsub he, htree⟩)

/-- Two lists of entries compose together exactly when each does, and fail as the first of them that
fails. Their tree then filters as those of the two do in turn: it gives the same records or, like them,
fails. What a tree keeps are records in their order, and more entries keep no other ones. -/
theorem compose_append (table : RestrictionTable) (types : TypeRegistry) (es fs : List Entry) :
    ((∃ p, compose table types (es ++ fs) = .ok p) ↔
      (∃ p, compose table types es = .ok p) ∧ ∃ p, compose table types fs = .ok p) ∧
    (∀ f, compose table types (es ++ fs) = .error f ↔
      compose table types es = .error f ∨
        (∃ p, compose table types es = .ok p) ∧ compose table types fs = .error f) ∧
    (∀ p p₁ p₂ records, compose table types (es ++ fs) = .ok p → compose table types es = .ok p₁ →
      compose table types fs = .ok p₂ →
      ((∃ f, p.filter records = .error f) ↔ ∃ f, p₁.filter records >>= p₂.filter = .error f) ∧
      ∀ kept, p.filter records = .ok kept ↔ p₁.filter records >>= p₂.filter = .ok kept) ∧
    ∀ p records kept, compose table types es = .ok p → p.filter records = .ok kept →
      kept.Sublist records ∧
      ∀ more q fewer, es ⊆ more → compose table types more = .ok q → q.filter records = .ok fewer →
        fewer.Sublist kept := by
  refine ⟨?_, fun f => ?_, ?_, ?_⟩
  · simp only [compose_eq, exists_ofEntries_iff, mapM_append_eq_ok]
    constructor
    · intro hh
      obtain ⟨-, ps, qs, hps, hqs, -⟩ := hh
      exact ⟨⟨ps, hps⟩, qs, hqs⟩
    · intro hh
      obtain ⟨⟨ps, hps⟩, qs, hqs⟩ := hh
      exact ⟨_, ps, qs, hps, hqs, rfl⟩
  · simp only [compose_eq, exists_ofEntries_iff, ofEntries_eq_error_iff, mapM_append_eq_error]
  · intro p p₁ p₂ records h h₁ h₂
    have hsame : ∀ kept, p.filter records = .ok kept ↔ p₁.filter records >>= p₂.filter = .ok kept :=
      fun kept => (asksInTurn_of_compose h h₁ h₂).filter_eq_ok_iff
    exact ⟨exists_error_iff_of_ok_iff hsame, hsame⟩
  · intro p records kept h hkept
    obtain ⟨-, rfl⟩ := Predicate.filter_eq_ok_iff.mp hkept
    refine ⟨List.filter_sublist, fun more q fewer hsub hq hfewer => ?_⟩
    obtain ⟨-, rfl⟩ := Predicate.filter_eq_ok_iff.mp hfewer
    exact List.monotone_filter_right records fun r hr => passes_of_subset hsub h hq hr

/-- The entry on sizes fails on a record that the one on names drops; together they keep the other. -/
theorem compose_append_dropped :
    let es : List Entry := [⟨⟨"EQ", .string, ["name"]⟩, "root"⟩]
    let fs : List Entry := [⟨⟨"GT", .double, ["size"]⟩, "0"⟩]
    let p₁ : Predicate := .compare .equals "name" (.text "root")
    let p₂ : Predicate := .compare .greaterThan "size" (.float .zero)
    let root : Record := [(.text "name", .text "root"), (.text "size", .float (.finite false 1))]
    let guest : Record := [(.text "name", .text "guest"), (.text "size", .int Double.overflowBound)]
    compose .standard .standard es = .ok p₁ ∧ compose .standard .standard fs = .ok p₂ ∧
    p₂.matches? guest = .error .overflow ∧
    ∃ p, compose .standard .standard (es ++ fs) = .ok p ∧ p.filter [guest, root] = .ok [root] ∧
      ¬ ∃ f, p.filter [guest, root] = .error f := by
  intro es fs p₁ p₂ root guest
  have h₁ : compose .standard .standard es = .ok p₁ := by rfl
  have h₂ : compose .standard .standard fs = .ok p₂ := by rfl
  have hguest : p₂.matches? guest = .error .overflow := by
    have hsize : ∀ n, Path.resolve [(.text "name", .text "guest"), (.text "size", .int n)] "size" =
        some (.int n) := by
      intro n
      cbv
    have hread : Predicate.normalize (.int Double.overflowBound) (.float .zero) = .error .overflow := by
      rw [Predicate.normalize, Predicate.asDouble?, Double.ofInt?_overflowBound]
      rfl
    rw [Predicate.matches?, Predicate.compares_of_resolve (hsize _) (by simp),
      Predicate.test_of_comparing (by decide), hread]
    rfl
  have hdrops : ∀ n,
      p₁.filter [[(.text "name", .text "guest"), (.text "size", .int n)], root] = .ok [root] := by
    intro n
    cbv
  have hkeeps : p₂.filter [root] = .ok [root] := by cbv
  have hturn : p₁.filter [guest, root] >>= p₂.filter = .ok [root] := bind_eq_ok.mpr ⟨_, hdrops _, hkeeps⟩
  obtain ⟨hok, -, hfilters, -⟩ := compose_append .standard .standard es fs
  obtain ⟨p, hp⟩ := hok.mpr ⟨⟨p₁, h₁⟩, p₂, h₂⟩
  obtain ⟨hfails, hgives⟩ := hfilters p p₁ p₂ [guest, root] hp h₁ h₂
  refine ⟨h₁, h₂, hguest, p, hp, (hgives _).mpr hturn, fun hf => ?_⟩
  obtain ⟨f, hf⟩ := hfails.mp hf
  cases hturn.symm.trans hf

end Selection

end RecordFilter
