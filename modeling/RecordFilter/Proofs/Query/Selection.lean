import Mathlib
import RecordFilter.Proofs.Query.Backend
import RecordFilter.Proofs.Query.Parameters
import RecordFilter.Query.Session

namespace RecordFilter

open Fallible

/-- One of the properties of the entry compares with its match value as its kind asks. -/
def Entry.Passes (table : RestrictionTable) (types : TypeRegistry) (e : Entry) (r : Record) : Prop :=
  ∃ o, table.resolve e.criterion.kind = .ok o ∧
    ∃ name ∈ e.criterion.names, ∃ v,
      Coercion.matchValue e.criterion.type e.matchText name o types = .ok v ∧
        (Predicate.compare o name v).matches? r = .ok true

/-- The expression is read and the value written, and one of the properties compares with it as the kind asks. -/
def Parameters.Passes (table : RestrictionTable) (codes types : TypeRegistry) (expression : String)
    (value : Value) (r : Record) : Prop :=
  ∃ e, entryOf codes (expression, value) = .ok e ∧ Entry.Passes table types e r

namespace Selection

variable {table : RestrictionTable} {types : TypeRegistry} {r : Record}

theorem entry_matches_iff {e : Entry} {p : Predicate}
    (hp : Backend.memory.ofEntry table types e = .ok p) (hd : p.Decided r) :
    p.matches? r = .ok true ↔ e.Passes table types r := by
  obtain ⟨o, ps, ho, hps, rfl⟩ := Backend.ofEntry_eq_ok_iff.mp hp
  have hds : ∀ p ∈ ps, p.Decided r := Backend.decided_single_any.mp hd
  have ho : table.resolve e.criterion.kind = .ok o := (Backend.operatorOf_eq_ok_iff.mp ho).1
  have hany : (Backend.single Backend.memory.any ps).matches? r = .ok true ↔
      ∃ p ∈ ps, p.matches? r = .ok true := Backend.matches_single_any hds
  rw [hany]
  constructor
  · intro hh
    obtain ⟨p, hm, ht⟩ := hh
    obtain ⟨name, hn, hc⟩ := (mem_mapM_iff hps p).mp hm
    obtain ⟨v, hv, rfl⟩ := map_eq_ok.mp hc
    exact ⟨o, ho, name, hn, v, hv, ht⟩
  · intro hh
    obtain ⟨o', ho', name, hn, v, hv, ht⟩ := hh
    obtain rfl : o = o' := Except.ok.inj (ho.symm.trans ho')
    exact ⟨_, (mem_mapM_iff hps _).mpr ⟨name, hn, map_eq_ok.mpr ⟨v, hv, rfl⟩⟩, ht⟩

/-- A composed tree accepts the records that pass every entry, whatever shape the tree has. -/
theorem composed_matches_iff {es : List Entry} {p : Predicate}
    (hp : Backend.memory.ofEntries table types es = .ok p) (hd : p.Decided r) :
    p.matches? r = .ok true ↔ ∀ e ∈ es, e.Passes table types r := by
  rcases Backend.ofEntries_eq_ok_iff.mp hp with ⟨rfl, rfl⟩ | ⟨_, ps, hps, rfl⟩
  · have ht : Backend.memory.always.matches? r = .ok true := rfl
    simp [ht]
  · have hds : ∀ p ∈ ps, p.Decided r := Backend.decided_single_all.mp hd
    have hall : (Backend.single Backend.memory.all ps).matches? r = .ok true ↔
        ∀ p ∈ ps, p.matches? r = .ok true := Backend.matches_single_all
    rw [hall]
    constructor
    · intro h e he
      obtain ⟨p, hpe⟩ := exists_of_mapM hps he
      have hm : p ∈ ps := (mem_mapM_iff hps p).mpr ⟨e, he, hpe⟩
      exact (entry_matches_iff hpe (hds p hm)).mp (h p hm)
    · intro h p hm
      obtain ⟨e, he, hpe⟩ := (mem_mapM_iff hps p).mp hm
      exact (entry_matches_iff hpe (hds p hm)).mpr (h e he)

theorem entries_pass_iff {leading : Value} {params : Parameters} {ignoreEmpty : Bool}
    {codes : TypeRegistry} {es : List Entry}
    (hes : params.selectedEntries leading ignoreEmpty codes = .ok es) :
    (∀ e ∈ es, e.Passes table types r) ↔
      ∀ expression value, Parameters.Counts leading params ignoreEmpty expression value →
        Parameters.Passes table codes types expression value r := by
  constructor
  · intro h expression value hc
    obtain ⟨e, hm, hentry⟩ := Parameters.exists_entryOf hes hc
    exact ⟨e, hentry, h e hm⟩
  · intro h e he
    obtain ⟨expression, value, hc, hentry⟩ := (Parameters.mem_selectedEntries_iff hes e).mp he
    obtain ⟨e', hentry', hpass⟩ := h expression value hc
    obtain rfl := Except.ok.inj (hentry.symm.trans hentry')
    exact hpass

open Classical in
/-- Selecting by parameters keeps the records that pass each parameter that counts, in their order and as
often as they occur; without such a parameter it keeps them all. -/
theorem filter_composed (leading : Value) (params : Parameters) (ignoreEmpty : Bool)
    (codes types : TypeRegistry) (table : RestrictionTable) (es : List Entry) (p : Predicate)
    (records : List Record)
    (hes : Parameters.selectedEntries leading params ignoreEmpty codes = .ok es)
    (hp : Session.composeOn ⟨Backend.memory, false⟩ table types es = .ok p)
    (hd : ∀ r ∈ records, ∀ q ∈ p.leaves, ∃ b, q.matches? r = .ok b) :
    p.filter records = .ok (records.filter fun r =>
      ∀ expression value, Parameters.Counts leading params ignoreEmpty expression value →
        Parameters.Passes table codes types expression value r) ∧
    ((∀ expression value, ¬ Parameters.Counts leading params ignoreEmpty expression value) →
      p.filter records = .ok records) := by
  have hp : Backend.memory.ofEntries table types es = .ok p := hp
  have hfilter : p.filter records = .ok (records.filter fun r =>
      ∀ expression value, Parameters.Counts leading params ignoreEmpty expression value →
        Parameters.Passes table codes types expression value r) := by
    rw [Predicate.filter_eq p records hd]
    congr 1
    refine List.filter_congr fun r hr => ?_
    rw [decide_eq_decide, composed_matches_iff hp (hd r hr), entries_pass_iff hes]
  refine ⟨hfilter, fun hnone => ?_⟩
  rw [hfilter, List.filter_eq_self.mpr]
  intro r _
  rw [decide_eq_true_eq]
  exact fun expression value hc => absurd hc (hnone expression value)

open Classical in
/-- Of the records called `root` by either name, the one that is not in Lyon is kept; a parameter of
another prefix and one without a value have no say. -/
theorem filter_composed_root :
    let params : Parameters := [("filter_EQS_name_OR_nickname", .list [.text "root"]),
      ("page", .text "2"), ("filter_NES_city", .text "lyon"), ("filter_GTI_age", .text "")]
    let es : List Entry :=
      [⟨⟨"EQ", .string, ["name", "nickname"]⟩, "root"⟩, ⟨⟨"NE", .string, ["city"]⟩, "lyon"⟩]
    let p : Predicate := .all [.any [.compare .equals "name" (.text "root"),
      .compare .equals "nickname" (.text "root")], .compare .notEquals "city" (.text "lyon")]
    let records : List Record := [[(.text "nickname", .text "root"), (.text "city", .text "paris")],
      [(.text "name", .text "root"), (.text "city", .text "lyon")]]
    Parameters.selectedEntries (.text "filter") params true .standard = .ok es ∧
    Session.composeOn ⟨Backend.memory, false⟩ .standard .standard es = .ok p ∧
    (∀ r ∈ records, ∀ q ∈ p.leaves, ∃ b, q.matches? r = .ok b) ∧
    p.filter records = .ok (records.filter fun r =>
      ∀ expression value, Parameters.Counts (.text "filter") params true expression value →
        Parameters.Passes .standard .standard .standard expression value r) ∧
    p.filter records = .ok [[(.text "nickname", .text "root"), (.text "city", .text "paris")]] := by
  intro params es p records
  have hchosen : Parameters.selected (.text "filter") params = .ok [("EQS_name_OR_nickname", .text "root"),
      ("NES_city", .text "lyon"), ("GTI_age", .text "")] := by rfl
  have hes : Parameters.selectedEntries (.text "filter") params true .standard = .ok es :=
    Parameters.selectedEntries_eq_ok_iff.mpr ⟨_, hchosen, by rfl⟩
  have hp : Session.composeOn ⟨Backend.memory, false⟩ .standard .standard es = .ok p := by rfl
  have hd : ∀ r ∈ records, ∀ q ∈ p.leaves, ∃ b, q.matches? r = .ok b := by
    simp only [records, p, Predicate.leaves, Predicate.leavesAmong, List.append_nil, List.cons_append,
      List.nil_append, List.forall_mem_cons]
    exact ⟨⟨⟨false, by cbv⟩, ⟨true, by cbv⟩, ⟨true, by cbv⟩, by simp⟩,
      ⟨⟨true, by cbv⟩, ⟨false, by cbv⟩, ⟨false, by cbv⟩, by simp⟩, by simp⟩
  exact ⟨hes, hp, hd, (filter_composed (.text "filter") params true .standard .standard .standard es p
    records hes hp hd).1, by cbv⟩

end Selection

end RecordFilter
