import RecordFilter.Proofs.Fallible
import RecordFilter.Proofs.Text.Split
import RecordFilter.Proofs.Value.Text
import RecordFilter.Query.Parameters

namespace RecordFilter.Parameters

open Fallible

/-- A parameter that is selected and not left out, by its expression and its one value. -/
structure Counts (leading : Value) (params : Parameters) (ignoreEmpty : Bool) (expression : String)
    (value : Value) : Prop where
  expression_ne : expression ≠ ""
  given : ∃ lead, leadOf leading = .ok lead ∧
    ∃ p ∈ params, p.1.toList = lead ++ expression.toList ∧ flatten p.2 = .ok value
  kept : ¬ (ignoreEmpty = true ∧ isEmptyValue value = .ok true)

variable {leading : Value} {lead : List Char} {params : Parameters} {ignoreEmpty : Bool}
  {registry : TypeRegistry} {expression name : String} {value : Value}

section Naming

theorem after?_eq_some_iff :
    after? lead name = some expression ↔ expression ≠ "" ∧ name.toList = lead ++ expression.toList := by
  rw [after?, ← Text.dropLead?_eq_some_iff]
  cases Text.dropLead? lead name.toList with
  | none => simp
  | some left =>
    cases left with
    | nil =>
      constructor
      · intro h
        cases h
      · intro hh
        obtain ⟨hne, h⟩ := hh
        exact absurd (String.toList_eq_nil_iff.mp (Option.some.inj h).symm) hne
    | cons c rest =>
      constructor
      · intro h
        obtain rfl := Option.some.inj h
        exact ⟨by simp, by rw [String.toList_ofList]⟩
      · intro hh
        exact congrArg some (by rw [Option.some.inj hh.2, String.ofList_toList])

/-- A name counts when it starts so and goes on after it. -/
theorem after?_eq_ite (lead : List Char) (name : String) :
    after? lead name =
      if lead <+: name.toList ∧ name.toList ≠ lead then some (String.ofList (name.toList.drop lead.length))
      else none := by
  split_ifs with h
  · obtain ⟨⟨rest, hrest⟩, hne⟩ := h
    have hdrop : name.toList.drop lead.length = rest := by
      rw [← hrest, List.drop_left]
    rw [hdrop, after?_eq_some_iff, String.toList_ofList]
    refine ⟨fun hempty => hne ?_, hrest.symm⟩
    rw [← hrest, String.ofList_eq_empty_iff.mp hempty, List.append_nil]
  · rw [Option.eq_none_iff_forall_ne_some]
    intro expression he
    obtain ⟨hne, hname⟩ := after?_eq_some_iff.mp he
    refine h ⟨⟨_, hname.symm⟩, fun hsame => hne ?_⟩
    exact String.toList_eq_nil_iff.mp (by simpa [hname] using hsame)

theorem isSome_after?_iff : (after? lead name).isSome = true ↔ lead <+: name.toList ∧ name.toList ≠ lead := by
  rw [after?_eq_ite]
  split_ifs with h <;> simp [h]

theorem named_cons_of_some {p : String × Value} (h : after? lead p.1 = some expression) (params : Parameters) :
    named lead (p :: params) = (expression, p.2) :: named lead params :=
  List.filterMap_cons_some (by rw [h, Option.map_some])

theorem named_cons_of_none {p : String × Value} (h : after? lead p.1 = none) (params : Parameters) :
    named lead (p :: params) = named lead params :=
  List.filterMap_cons_none (by rw [h, Option.map_none])

theorem mem_named_iff :
    (expression, value) ∈ named lead params ↔
      ∃ p ∈ params, after? lead p.1 = some expression ∧ p.2 = value := by
  simp only [named, List.mem_filterMap, Option.map_eq_some_iff, Prod.mk.injEq]
  constructor
  · intro hh
    obtain ⟨p, hp, _, he, rfl, hv⟩ := hh
    exact ⟨p, hp, he, hv⟩
  · intro hh
    obtain ⟨p, hp, he, hv⟩ := hh
    exact ⟨p, hp, _, he, rfl, hv⟩

end Naming

section Selecting

theorem flattened_eq_ok_iff {p q : String × Value} :
    flattened p = .ok q ↔ flatten p.2 = .ok q.2 ∧ p.1 = q.1 := by
  rw [flattened, bind_eq_ok]
  simp [pure, Except.pure, Prod.ext_iff, and_comm]

theorem selected_of_lead (h : leadOf leading = .ok lead) (params : Parameters) :
    selected leading params = (named lead params).mapM flattened := by
  rw [selected, h]
  rfl

theorem selected_eq_ok_iff {chosen : Parameters} :
    selected leading params = .ok chosen ↔
      ∃ lead, leadOf leading = .ok lead ∧ (named lead params).mapM flattened = .ok chosen :=
  bind_eq_ok

theorem selectedEntries_eq_ok_iff {es : List Entry} :
    selectedEntries leading params ignoreEmpty registry = .ok es ↔
      ∃ chosen, selected leading params = .ok chosen ∧ chosen.entries ignoreEmpty registry = .ok es :=
  bind_eq_ok

theorem mem_selected_iff {chosen : Parameters} (h : selected leading params = .ok chosen) :
    (expression, value) ∈ chosen ↔
      expression ≠ "" ∧ ∃ lead, leadOf leading = .ok lead ∧
        ∃ p ∈ params, p.1.toList = lead ++ expression.toList ∧ flatten p.2 = .ok value := by
  obtain ⟨lead, hlead, hm⟩ := selected_eq_ok_iff.mp h
  rw [mem_mapM_iff hm]
  constructor
  · intro hh
    obtain ⟨⟨name, v⟩, hnamed, hflat⟩ := hh
    obtain ⟨hv, rfl⟩ := flattened_eq_ok_iff.mp hflat
    obtain ⟨p, hp, he, rfl⟩ := mem_named_iff.mp hnamed
    obtain ⟨hne, hname⟩ := after?_eq_some_iff.mp he
    exact ⟨hne, lead, hlead, p, hp, hname, hv⟩
  · intro hh
    obtain ⟨hne, lead', hlead', p, hp, hname, hv⟩ := hh
    obtain rfl := Except.ok.inj (hlead.symm.trans hlead')
    exact ⟨(expression, p.2), mem_named_iff.mpr ⟨p, hp, after?_eq_some_iff.mpr ⟨hne, hname⟩, rfl⟩,
      flattened_eq_ok_iff.mpr ⟨hv, rfl⟩⟩

end Selecting

section Joining

/-- The values that are given for a parameter: the items of a sequence, else the value itself. -/
def given : Value → List Value
  | .list vs | .tuple vs => vs
  | v => [v]

/-- Values in one text: nothing for null alone, else their texts with commas between them. -/
def joined : List Value → String
  | [.null] => ""
  | values => Text.join "," (values.map Value.render)

theorem flatten_of_given_nil (h : given value = []) : flatten value = .ok .null := by
  cases value with
  | list vs | tuple vs =>
    obtain rfl : vs = [] := h
    rfl
  | _ => cases h

theorem flatten_of_given_single {v : Value} (h : given value = [v]) : flatten value = .ok v := by
  cases value with
  | list vs | tuple vs =>
    obtain rfl : vs = [v] := h
    rfl
  | _ =>
    obtain rfl := List.singleton_inj.mp h
    rfl

theorem flatten_of_given_several {first second : Value} {others : List Value}
    (h : given value = first :: second :: others) :
    flatten value = (given value).mapM Value.written? >>= fun texts => .ok (.text (Text.join "," texts)) := by
  cases value with
  | list vs | tuple vs =>
    obtain rfl : vs = first :: second :: others := h
    rfl
  | _ => cases h

theorem matchTextOf_of_isWritable (h : value.isWritable = true) : matchTextOf value = .ok (joined [value]) := by
  cases value with
  | null => rfl
  | _ =>
    rw [matchTextOf, Value.written?_of_isWritable h]
    · simp [joined, Text.join]
    · simp

/-- However writable values of a parameter are given, its match text is that of all of them. -/
theorem exists_flatten (h : ∀ v ∈ given value, v.isWritable = true) :
    ∃ v, flatten value = .ok v ∧ matchTextOf v = .ok (joined (given value)) := by
  match hg : given value with
  | [] => exact ⟨.null, flatten_of_given_nil hg, rfl⟩
  | [v] => exact ⟨v, flatten_of_given_single hg, matchTextOf_of_isWritable (h v (by simp [hg]))⟩
  | first :: second :: others =>
    have htexts := Value.mapM_written?_of_isWritable h
    refine ⟨.text (joined (given value)), ?_, ?_⟩
    · rw [flatten_of_given_several hg, htexts, hg]
      simp [joined, bind, Except.bind]
    · rw [hg]
      exact Value.written?_text _

theorem joined_texts (texts : List String) : joined (texts.map .text) = Text.join "," texts := by
  have hsame : (texts.map Value.text).map Value.render = texts := by
    rw [List.map_map]
    exact List.map_id _
  rw [joined, hsame]
  cases texts <;> simp

end Joining

section Reading

theorem entryOf_eq_ok_iff {p : String × Value} {e : Entry} :
    entryOf registry p = .ok e ↔
      Expression.parse p.1 registry = .ok e.criterion ∧ matchTextOf p.2 = .ok e.matchText := by
  cases e with
  | mk c text =>
    simp only [entryOf, bind_eq_ok, pure, Except.pure, Except.ok.injEq, Entry.mk.injEq]
    constructor
    · intro hh
      obtain ⟨_, hc, _, ht, rfl, rfl⟩ := hh
      exact ⟨hc, ht⟩
    · intro hh
      exact ⟨c, hh.1, text, hh.2, rfl, rfl⟩

theorem isEmptyValue_eq_true_iff : isEmptyValue value = .ok true ↔ matchTextOf value = .ok "" := by
  rw [isEmptyValue, bind_eq_ok]
  simp [pure, Except.pure]

theorem leavesOut_eq_true_iff :
    leavesOut ignoreEmpty value = .ok true ↔ ignoreEmpty = true ∧ isEmptyValue value = .ok true := by
  cases ignoreEmpty <;> simp [leavesOut]

/-- A value with a text is left out or not. -/
theorem leavesOut_of_text {text : String} (h : matchTextOf value = .ok text) :
    leavesOut ignoreEmpty value = .ok (ignoreEmpty && text == "") := by
  cases ignoreEmpty with
  | false => rfl
  | true =>
    rw [leavesOut, if_pos rfl, isEmptyValue, h]
    rfl

theorem entries_cons (p : String × Value) (params : Parameters) (ignoreEmpty : Bool)
    (registry : TypeRegistry) :
    entries (p :: params) ignoreEmpty registry = leavesOut ignoreEmpty p.2 >>= fun b =>
      if b then entries params ignoreEmpty registry
      else do
        let e ← entryOf registry p
        return e :: (← entries params ignoreEmpty registry) := by
  rw [entries]

/-- What the entries of a parameter and those behind it are: these alone where it is left out, else its own first. -/
theorem entries_cons_eq_ok_iff {p : String × Value} {es : List Entry} :
    entries (p :: params) ignoreEmpty registry = .ok es ↔
      (leavesOut ignoreEmpty p.2 = .ok true ∧ entries params ignoreEmpty registry = .ok es) ∨
      (leavesOut ignoreEmpty p.2 = .ok false ∧ ∃ e rest, entryOf registry p = .ok e ∧
        entries params ignoreEmpty registry = .ok rest ∧ es = e :: rest) := by
  rw [entries_cons, bind_eq_ok]
  constructor
  · intro hh
    obtain ⟨b, hb, h⟩ := hh
    cases b with
    | true => exact .inl ⟨hb, h⟩
    | false =>
      obtain ⟨e, he, h⟩ := bind_eq_ok.mp h
      obtain ⟨rest, hrest, h⟩ := bind_eq_ok.mp h
      exact .inr ⟨hb, e, rest, he, hrest, (Except.ok.inj h).symm⟩
  · intro hh
    rcases hh with ⟨hb, h⟩ | ⟨hb, e, rest, he, hrest, rfl⟩
    · exact ⟨true, hb, h⟩
    · exact ⟨false, hb, bind_eq_ok.mpr ⟨e, he, bind_eq_ok.mpr ⟨rest, hrest, rfl⟩⟩⟩

theorem mem_entries_iff {es : List Entry} (h : entries params ignoreEmpty registry = .ok es) (e : Entry) :
    e ∈ es ↔ ∃ p ∈ params, ¬ (ignoreEmpty = true ∧ isEmptyValue p.2 = .ok true) ∧
      entryOf registry p = .ok e := by
  induction params generalizing es with
  | nil =>
    obtain rfl := Except.ok.inj h
    simp
  | cons p params ih =>
    rw [List.exists_mem_cons_iff, ← leavesOut_eq_true_iff]
    rcases entries_cons_eq_ok_iff.mp h with ⟨hb, hes⟩ | ⟨hb, e', rest, he', hrest, rfl⟩
    · simpa [hb] using ih hes
    · rw [List.mem_cons, ih hrest, he', hb]
      simp [eq_comm]

theorem counts_iff {chosen : Parameters} (h : selected leading params = .ok chosen) :
    Counts leading params ignoreEmpty expression value ↔
      (expression, value) ∈ chosen ∧ ¬ (ignoreEmpty = true ∧ isEmptyValue value = .ok true) := by
  rw [mem_selected_iff h]
  constructor
  · intro hh
    obtain ⟨hne, hg, hk⟩ := hh
    exact ⟨⟨hne, hg⟩, hk⟩
  · intro hh
    obtain ⟨⟨hne, hg⟩, hk⟩ := hh
    exact ⟨hne, hg, hk⟩

/-- The entries of a selection are those of the parameters that count. -/
theorem mem_selectedEntries_iff {es : List Entry}
    (h : selectedEntries leading params ignoreEmpty registry = .ok es) (e : Entry) :
    e ∈ es ↔ ∃ expression value, Counts leading params ignoreEmpty expression value ∧
      entryOf registry (expression, value) = .ok e := by
  obtain ⟨chosen, hchosen, hes⟩ := selectedEntries_eq_ok_iff.mp h
  rw [mem_entries_iff hes, Prod.exists]
  simp only [counts_iff hchosen, and_assoc]

/-- No parameter that is kept is without an entry. -/
theorem exists_entryOf_of_mem {es : List Entry} (h : entries params ignoreEmpty registry = .ok es)
    (hmem : (expression, value) ∈ params) (hkept : ¬ (ignoreEmpty = true ∧ isEmptyValue value = .ok true)) :
    ∃ e ∈ es, entryOf registry (expression, value) = .ok e := by
  induction params generalizing es with
  | nil => cases hmem
  | cons p params ih =>
    rcases entries_cons_eq_ok_iff.mp h with ⟨hb, hes⟩ | ⟨hb, e, rest, he, hrest, rfl⟩
    · rcases List.mem_cons.mp hmem with rfl | hmem
      · exact absurd (leavesOut_eq_true_iff.mp hb) hkept
      · exact ih hes hmem
    · rcases List.mem_cons.mp hmem with rfl | hmem
      · exact ⟨e, by simp, he⟩
      · obtain ⟨e', he', hread⟩ := ih hrest hmem
        exact ⟨e', by simp [he'], hread⟩

theorem exists_entryOf {es : List Entry}
    (h : selectedEntries leading params ignoreEmpty registry = .ok es)
    (hc : Counts leading params ignoreEmpty expression value) :
    ∃ e ∈ es, entryOf registry (expression, value) = .ok e := by
  obtain ⟨chosen, hchosen, hes⟩ := selectedEntries_eq_ok_iff.mp h
  obtain ⟨hmem, hkept⟩ := (counts_iff hchosen).mp hc
  exact exists_entryOf_of_mem hes hmem hkept

end Reading

end RecordFilter.Parameters
