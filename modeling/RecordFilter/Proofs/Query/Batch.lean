import Mathlib
import RecordFilter.Proofs.Query.Parameters

namespace RecordFilter.Parameters

open Fallible

variable {start name : String} {lead : List Char} {params : Parameters} {ignoreEmpty : Bool}
  {registry : TypeRegistry}

/-- What stands in front of the expression in the names that count. -/
def front (start : String) : List Char := if start = "" then [] else start.toList ++ ['_']

/-- The name starts so and goes on after it. -/
abbrev Continues (start name : String) : Prop := front start <+: name.toList ∧ name.toList ≠ front start

def remainder (start name : String) : String := String.ofList (name.toList.drop (front start).length)

/-- Expressions and match texts, from going through the parameters in order. -/
def projection (start : String) (ignoreEmpty : Bool) : Parameters → List (String × String)
  | [] => []
  | (name, value) :: params =>
    if Continues start name ∧ ¬ (ignoreEmpty = true ∧ joined (given value) = "") then
      (remainder start name, joined (given value)) :: projection start ignoreEmpty params
    else projection start ignoreEmpty params

section Selecting

theorem leadOf_text (start : String) : leadOf (.text start) = .ok (front start) := by
  have htruthy : (Value.text start).isTruthy = true ↔ start ≠ "" := by
    simp [Value.isTruthy]
  rw [leadOf, front]
  by_cases h : start = ""
  · rw [if_neg (mt htruthy.mp (not_not.mpr h)), if_pos h]
  · rw [if_pos (htruthy.mpr h), if_neg h, Value.written?_text]
    rfl

theorem after?_front (start name : String) :
    after? (front start) name = if Continues start name then some (remainder start name) else none :=
  after?_eq_ite _ _

theorem named_filter (start : String) (params : Parameters) :
    named (front start) (params.filter fun p => Continues start p.1) = named (front start) params := by
  rw [named, named, List.filterMap_filter]
  congr 1
  funext p
  rw [after?_front]
  by_cases h : Continues start p.1 <;> simp [h]

/-- Names that leave the same expression are the same, so no two named parameters share theirs. -/
theorem nodup_named (lead : List Char) (h : (params.map (·.1)).Nodup) :
    ((named lead params).map (·.1)).Nodup := by
  have hkeys : (named lead params).map (·.1) = (params.map (·.1)).filterMap (after? lead) := by
    rw [named, List.map_filterMap, List.filterMap_map]
    congr 1
    funext p
    simp [Option.map_map, Function.comp_def]
  rw [hkeys]
  refine h.filterMap fun name name' e he he' => ?_
  have hname := (after?_eq_some_iff.mp he).2
  have hname' := (after?_eq_some_iff.mp he').2
  exact String.toList_inj.mp (hname.trans hname'.symm)

theorem map_fst_of_flattened {chosen : Parameters} (h : params.mapM flattened = .ok chosen) :
    chosen.map (·.1) = params.map (·.1) := by
  induction params generalizing chosen with
  | nil =>
    obtain rfl := Except.ok.inj h
    rfl
  | cons p params ih =>
    obtain ⟨q, others, hq, hothers, rfl⟩ := mapM_cons_eq_ok.mp h
    rw [List.map_cons, List.map_cons, ih hothers, (flattened_eq_ok_iff.mp hq).2]

theorem nodup_select (leading : Value) (h : (params.map (·.1)).Nodup) :
    ((select leading params).map (·.1)).Nodup := by
  rw [select]
  cases hs : selected leading params with
  | error f => exact List.nodup_nil
  | ok chosen =>
    obtain ⟨lead, -, hm⟩ := selected_eq_ok_iff.mp hs
    have hkeys := map_fst_of_flattened hm
    exact hkeys ▸ nodup_named lead h

end Selecting

section Gathering

/-- Sets the value of a name, in its place when it is there. -/
def put (params : Parameters) (name : String) (value : Value) : Parameters :=
  if params.any (·.1 == name) then params.map fun p => if p.1 == name then (name, value) else p
  else params ++ [(name, value)]

/-- The selected parameters, set one after the other. -/
def gathered (leading : Value) (params : Parameters) : Except Fault Parameters := do
  (named (← leadOf leading) params).foldlM (fun kept p => do return put kept p.1 (← flatten p.2)) []

theorem put_of_not_mem {value : Value} (h : name ∉ params.map (·.1)) :
    put params name value = params ++ [(name, value)] := by
  have hnot : ¬ (params.any (·.1 == name)) = true := by
    rw [List.any_eq_true]
    rintro ⟨p, hp, hname⟩
    exact h (List.mem_map.mpr ⟨p, hp, beq_iff_eq.mp hname⟩)
  rw [put, if_neg hnot]

theorem foldlM_put (kept params : Parameters) (h : ((kept ++ params).map (·.1)).Nodup) :
    params.foldlM (fun kept p => do return put kept p.1 (← flatten p.2)) kept =
      (params.mapM flattened).map (kept ++ ·) := by
  induction params generalizing kept with
  | nil => simp [pure, Except.pure, Except.map]
  | cons p params ih =>
    have hnew : p.1 ∉ kept.map (·.1) := by
      rw [List.map_append, List.nodup_append] at h
      intro hp
      exact h.2.2 _ hp p.1 (by simp) rfl
    rw [List.foldlM_cons, List.mapM_cons, flattened]
    cases hv : flatten p.2 with
    | error f => rfl
    | ok v =>
      have hnext : ((kept ++ [(p.1, v)] ++ params).map (·.1)).Nodup := by simpa using h
      have hstep : (do return put kept p.1 (← .ok v) : Except Fault Parameters) = .ok (kept ++ [(p.1, v)]) :=
        congrArg Except.ok (put_of_not_mem hnew)
      have hrest := ih (kept ++ [(p.1, v)]) hnext
      rw [hstep]
      change List.foldlM _ (kept ++ [(p.1, v)]) params = _
      rw [hrest]
      cases params.mapM flattened <;> simp [bind, Except.bind, pure, Except.pure, Except.map]

theorem gathered_eq_selected (leading : Value) (h : (params.map (·.1)).Nodup) :
    gathered leading params = selected leading params := by
  rw [gathered, selected]
  congr 1
  funext lead
  rw [foldlM_put [] (named lead params) (nodup_named lead h)]
  cases (named lead params).mapM flattened <;> rfl

end Gathering

section Batches

/-- The match text of a pair is not left out. -/
def keepsText (ignoreEmpty : Bool) (q : String × String) : Bool := !(ignoreEmpty && q.2 == "")

theorem keepsText_iff (q : String × String) :
    keepsText ignoreEmpty q = true ↔ ¬ (ignoreEmpty = true ∧ q.2 = "") := by
  rw [keepsText, Bool.not_eq_true', ← Bool.not_eq_true, Bool.and_eq_true, beq_iff_eq]

theorem parseAll_eq_mapM (pairs : List (String × String)) (registry : TypeRegistry) :
    Expression.parseAll (pairs.map fun q => some q.1) (pairs.map (·.2)) registry =
      pairs.mapM fun q => (Expression.parse q.1 registry).map fun c => ⟨c, q.2⟩ := by
  rw [Expression.parseAll, if_neg (by simp), List.zip_map', List.mapM_map]
  rfl

/-- The projection is what is named, with the match texts of the values, and not left out. -/
theorem projection_eq (start : String) (ignoreEmpty : Bool) (params : Parameters) :
    projection start ignoreEmpty params =
      ((named (front start) params).map fun p => (p.1, joined (given p.2))).filter (keepsText ignoreEmpty) := by
  induction params with
  | nil => rfl
  | cons p params ih =>
    obtain ⟨name, value⟩ := p
    rw [projection, ih]
    by_cases hname : Continues start name
    · have hafter : after? (front start) name = some (remainder start name) := by rw [after?_front, if_pos hname]
      rw [named_cons_of_some hafter, List.map_cons]
      by_cases hkept : ignoreEmpty = true ∧ joined (given value) = ""
      · rw [if_neg (fun h => h.2 hkept), List.filter_cons_of_neg (mt (keepsText_iff _).mp (not_not.mpr hkept))]
      · rw [if_pos ⟨hname, hkept⟩, List.filter_cons_of_pos ((keepsText_iff _).mpr hkept)]
    · have hafter : after? (front start) name = none := by rw [after?_front, if_neg hname]
      rw [if_neg (fun h => hname h.1), named_cons_of_none hafter]

/-- A parameter and the pair of its expression and its match text. -/
def Shows (p : String × Value) (q : String × String) : Prop := p.1 = q.1 ∧ matchTextOf p.2 = .ok q.2

/-- Parameters that are shown by pairs are read as these. -/
theorem entries_of_shows {pairs : List (String × String)} (h : List.Forall₂ Shows params pairs) :
    params.entries ignoreEmpty registry =
      (pairs.filter (keepsText ignoreEmpty)).mapM fun q =>
        (Expression.parse q.1 registry).map fun c => ⟨c, q.2⟩ := by
  induction h with
  | nil => rfl
  | @cons p q params pairs hp _ ih =>
    obtain ⟨hname, htext⟩ := hp
    rw [entries_cons, leavesOut_of_text htext]
    cases hk : ignoreEmpty && q.2 == "" with
    | true =>
      have hskip : ¬ keepsText ignoreEmpty q = true := by simp [keepsText, hk]
      rw [List.filter_cons_of_neg hskip, ← ih]
      rfl
    | false =>
      have hkeep : keepsText ignoreEmpty q = true := by rw [keepsText, hk, Bool.not_false]
      rw [List.filter_cons_of_pos hkeep, List.mapM_cons, ← ih, entryOf, hname, htext]
      cases Expression.parse q.1 registry <;> rfl

theorem exists_flattened (h : ∀ p ∈ params, ∀ v ∈ given p.2, v.isWritable = true) :
    ∃ chosen, params.mapM flattened = .ok chosen ∧
      List.Forall₂ Shows chosen (params.map fun p => (p.1, joined (given p.2))) := by
  induction params with
  | nil => exact ⟨[], rfl, .nil⟩
  | cons p params ih =>
    obtain ⟨v, hv, htext⟩ := exists_flatten (h p (by simp))
    obtain ⟨chosen, hchosen, hshows⟩ := ih fun q hq => h q (by simp [hq])
    have hone : flattened p = .ok (p.1, v) := flattened_eq_ok_iff.mpr ⟨hv, rfl⟩
    exact ⟨(p.1, v) :: chosen, mapM_cons_eq_ok.mpr ⟨_, _, hone, hchosen, rfl⟩, .cons ⟨rfl, htext⟩ hshows⟩

end Batches

/-- Selecting parameters and reading their entries is reading a batch, if their values can be written: the
expressions and match texts that the parameters project to, with the same entries or the same fault. Of parameters
with different names no two leave the same expression, and those that do not start with the prefix have no part in
it. -/
theorem selectedEntries_eq_parseAll (start : String) (params : Parameters) (ignoreEmpty : Bool)
    (registry : TypeRegistry) :
    ((∀ p ∈ params, Continues start p.1 → ∀ v ∈ given p.2, v.isWritable = true) →
      selectedEntries (.text start) params ignoreEmpty registry =
        Expression.parseAll ((projection start ignoreEmpty params).map fun q => some q.1)
          ((projection start ignoreEmpty params).map (·.2)) registry) ∧
    ((params.map (·.1)).Nodup →
      gathered (.text start) params = selected (.text start) params ∧
      ((select (.text start) params).map (·.1)).Nodup) ∧
    ∀ others : Parameters,
      (others.filter fun p => Continues start p.1) = params.filter (fun p => Continues start p.1) →
      selectedEntries (.text start) others ignoreEmpty registry =
        selectedEntries (.text start) params ignoreEmpty registry := by
  refine ⟨fun hw => ?_, fun h => ⟨gathered_eq_selected _ h, nodup_select _ h⟩, fun others h => ?_⟩
  · have hnamed : ∀ p ∈ named (front start) params, ∀ v ∈ given p.2, v.isWritable = true := by
      intro q hq
      obtain ⟨p, hp, he, hvalue⟩ := mem_named_iff.mp hq
      have hcontinues : Continues start p.1 := isSome_after?_iff.mp (by rw [he, Option.isSome_some])
      exact hvalue ▸ hw p hp hcontinues
    obtain ⟨chosen, hchosen, hshows⟩ := exists_flattened hnamed
    rw [parseAll_eq_mapM, projection_eq, ← entries_of_shows hshows, selectedEntries,
      selected_of_lead (leadOf_text start), hchosen]
    rfl
  · rw [selectedEntries, selectedEntries, selected_of_lead (leadOf_text start), selected_of_lead (leadOf_text start),
      ← named_filter start others, h, named_filter]

/-- A value of two items, an empty one for an expression that cannot be read, and names that do not count. -/
theorem selectedEntries_eq_parseAll_skipped :
    let params : Parameters := [("page", .int 2), ("filter_EQS_name", .list [.text "vincent"]),
      ("filter_", .text "x"), ("filter_EQX", .text ""), ("filter_INI_age_OR_size", .tuple [.int 1, .null]),
      ("filterEQS_a", .text "b")]
    let others : Parameters := [("filter_EQS_name", .list [.text "vincent"]), ("page", .null),
      ("filter_EQX", .text ""), ("filter_INI_age_OR_size", .tuple [.int 1, .null])]
    let name : Entry := ⟨⟨"EQ", .string, ["name"]⟩, "vincent"⟩
    let sizes : Entry := ⟨⟨"IN", .integer, ["age", "size"]⟩, "1,None"⟩
    (∀ p ∈ params, Continues "filter" p.1 → ∀ v ∈ given p.2, v.isWritable = true) ∧
    projection "filter" true params = [("EQS_name", "vincent"), ("INI_age_OR_size", "1,None")] ∧
    selectedEntries (.text "filter") params true = .ok [name, sizes] ∧
    selectedEntries (.text "filter") params false =
      .error (.filter (.malformedExpression "EQX" .noPropertyName)) ∧
    gathered (.text "filter") params = selected (.text "filter") params ∧
    selectedEntries (.text "filter") others true = .ok [name, sizes] := by
  intro params others name sizes
  have hwritable : ∀ p ∈ params, Continues "filter" p.1 → ∀ v ∈ given p.2, v.isWritable = true := by
    decide +kernel
  have hprojection : projection "filter" true params =
      [("EQS_name", "vincent"), ("INI_age_OR_size", "1,None")] := by
    rfl
  obtain ⟨hbatch, hnames, hothers⟩ := selectedEntries_eq_parseAll "filter" params true .standard
  have hentries : selectedEntries (.text "filter") params true = .ok [name, sizes] := by
    rw [hbatch hwritable, hprojection]
    rfl
  obtain ⟨hall, -⟩ := selectedEntries_eq_parseAll "filter" params false .standard
  refine ⟨hwritable, hprojection, hentries, ?_, (hnames (by decide)).1, (hothers others (by rfl)).trans hentries⟩
  rw [hall hwritable]
  rfl

end RecordFilter.Parameters
