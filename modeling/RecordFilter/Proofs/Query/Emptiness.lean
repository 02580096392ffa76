import Mathlib
import RecordFilter.Proofs.Query.Batch
import RecordFilter.Proofs.Query.Repeated
import RecordFilter.Proofs.Query.Successive

namespace RecordFilter

open Fallible

namespace Parameters

variable {leading value : Value} {lead : List Char} {params before after : Parameters} {codes : TypeRegistry}
  {expression name : String} {c : Criterion}

section Joined

def commas (n : Nat) : String := String.ofList (List.replicate n ',')

/-- Several texts have a comma between them. -/
theorem join_ne_empty (first second : String) (others : List String) :
    Text.join "," (first :: second :: others) ≠ "" := by
  intro h
  have hletters := congrArg String.toList h
  simp [Text.toList_join, List.intercalate_cons_cons] at hletters

theorem commas_ne_empty {n : Nat} (h : 0 < n) : commas n ≠ "" := by
  rw [commas, ne_eq, String.ofList_eq_empty_iff, List.replicate_eq_nil_iff]
  omega

theorem joined_replicate (n : Nat) : joined (List.replicate n (.text "")) = commas (n - 1) := by
  have hletters : ∀ m, [','].intercalate (List.replicate (m + 1) []) = List.replicate m ',' := by
    intro m
    induction m with
    | zero => rfl
    | succ m ih =>
      rw [List.replicate_succ, List.intercalate_cons_of_ne_nil (by simp), ih]
      rfl
  have htexts : List.replicate n (Value.text "") = (List.replicate n "").map .text := by
    rw [List.map_replicate]
  rw [htexts, joined_texts, Text.join, commas, List.map_replicate]
  cases n with
  | zero => rfl
  | succ m => exact congrArg String.ofList (hletters m)

end Joined

section LeavingOut

/-- Nothing is given under the name, or a single value that is empty. -/
def LacksValue (value : Value) : Prop :=
  given value = [] ∨ ∃ v, given value = [v] ∧ matchTextOf v = .ok ""

/-- A value of so many empty texts. -/
def empties (n : Nat) : Value := .list (List.replicate n (.text ""))

theorem lacksValue_empties_iff (n : Nat) : LacksValue (empties n) ↔ n ≤ 1 := by
  match n with
  | 0 => simp [LacksValue, empties, given]
  | 1 => simp [LacksValue, empties, given, matchTextOf, Value.written?_text]
  | n + 2 => simp [LacksValue, empties, given, List.replicate_succ]

theorem exists_flatten_empties (n : Nat) :
    ∃ v, flatten (empties n) = .ok v ∧ matchTextOf v = .ok (commas (n - 1)) := by
  have hwritable : ∀ v ∈ given (empties n), v.isWritable = true := by
    intro v hv
    obtain rfl := List.eq_of_mem_replicate hv
    rfl
  obtain ⟨v, hv, htext⟩ := exists_flatten hwritable
  refine ⟨v, hv, ?_⟩
  rw [htext]
  exact congrArg Except.ok (joined_replicate n)

/-- What lacks a value is flattened to something empty, and nothing else is. -/
theorem lacksValue_iff : LacksValue value ↔ flatten value >>= isEmptyValue = .ok true := by
  rw [bind_eq_ok, LacksValue]
  match hg : given value with
  | [] =>
    have hempty : isEmptyValue .null = .ok true := rfl
    simp [flatten_of_given_nil hg, hempty]
  | [v] => simp [flatten_of_given_single hg, isEmptyValue_eq_true_iff]
  | first :: second :: others =>
    rw [flatten_of_given_several hg, hg]
    constructor
    · intro h
      rcases h with h | ⟨v, h, -⟩ <;> cases h
    · intro hh
      obtain ⟨v, hv, hempty⟩ := hh
      obtain ⟨texts, htexts, hv⟩ := bind_eq_ok.mp hv
      obtain ⟨t₁, rest, -, hrest, rfl⟩ := mapM_cons_eq_ok.mp htexts
      obtain ⟨t₂, rest, -, -, rfl⟩ := mapM_cons_eq_ok.mp hrest
      obtain rfl := Except.ok.inj hv
      rw [isEmptyValue_eq_true_iff, matchTextOf, Value.written?_text] at hempty
      · exact absurd (Except.ok.inj hempty) (join_ne_empty t₁ t₂ rest)
      · simp

def hasValue (p : String × Value) : Bool := (flatten p.2 >>= isEmptyValue).toOption != some true

def hasText (p : String × Value) : Bool := (isEmptyValue p.2).toOption != some true

theorem hasValue_iff {p : String × Value} : hasValue p = true ↔ ¬ LacksValue p.2 := by
  rw [hasValue, bne_iff_ne, ne_eq, toOption_eq_some_iff, lacksValue_iff]

theorem hasText_iff {p : String × Value} : hasText p = true ↔ ¬ isEmptyValue p.2 = .ok true := by
  rw [hasText, bne_iff_ne, ne_eq, toOption_eq_some_iff]

theorem hasText_of_flattened {p q : String × Value} (h : flattened p = .ok q) : hasText q = hasValue p := by
  rw [hasText, hasValue, (flattened_eq_ok_iff.mp h).1]
  rfl

theorem named_filter_hasValue (lead : List Char) (params : Parameters) :
    named lead (params.filter hasValue) = (named lead params).filter hasValue := by
  rw [named, named, List.filterMap_filter, List.filter_filterMap]
  congr 1
  funext p
  cases after? lead p.1 with
  | none => simp
  | some expression =>
    have hsame : hasValue (expression, p.2) = hasValue p := rfl
    rw [Option.map_some, Option.filter_some, hsame]

/-- Parameters that lack a value are written without a fault, so selecting without them leaves just them out. -/
theorem selected_filter (leading : Value) (params : Parameters) :
    selected leading (params.filter hasValue) = (selected leading params).map (List.filter hasText) := by
  rw [selected, selected]
  cases leadOf leading with
  | error f => rfl
  | ok lead =>
    change (named lead (params.filter hasValue)).mapM flattened = ((named lead params).mapM flattened).map _
    rw [named_filter_hasValue]
    refine mapM_filter (fun p hp => ?_) (fun p q hq => hasText_of_flattened hq) (named lead params)
    have hlacks : LacksValue p.2 := not_not.mp (mt hasValue_iff.mpr (by simp [hp]))
    obtain ⟨v, hv, -⟩ := bind_eq_ok.mp (lacksValue_iff.mp hlacks)
    exact ⟨(p.1, v), flattened_eq_ok_iff.mpr ⟨hv, rfl⟩⟩

theorem entries_filter (params : Parameters) (codes : TypeRegistry) :
    entries (params.filter hasText) true codes = entries params true codes := by
  induction params with
  | nil => rfl
  | cons p params ih =>
    by_cases hp : hasText p = true
    · rw [List.filter_cons_of_pos hp, entries_cons, ih, ← entries_cons]
    · have hempty : leavesOut true p.2 = .ok true := not_not.mp (mt hasText_iff.mpr hp)
      rw [List.filter_cons_of_neg hp, ih, entries_cons, hempty]
      rfl

/-- Parameters that lack a value have no part in a selection. -/
theorem selectedEntries_filter (params : Parameters) :
    selectedEntries leading (params.filter hasValue) true codes = selectedEntries leading params true codes := by
  rw [selectedEntries, selectedEntries, selected_filter]
  cases selected leading params with
  | error f => rfl
  | ok chosen => exact entries_filter chosen codes

theorem selectedEntries_of_filter {others : Parameters} (h : params.filter hasValue = others.filter hasValue) :
    selectedEntries leading params true codes = selectedEntries leading others true codes := by
  rw [← selectedEntries_filter params, h, selectedEntries_filter]

theorem selectedEntries_of_lacksValue (h : LacksValue value) :
    selectedEntries leading (before ++ (name, value) :: after) true codes =
      selectedEntries leading (before ++ after) true codes := by
  have hnot : ¬ hasValue (name, value) = true := by
    rw [hasValue_iff]
    exact not_not.mpr h
  apply selectedEntries_of_filter
  rw [List.filter_append, List.filter_cons_of_neg hnot, List.filter_append]

theorem entries_append {ignoreEmpty : Bool} {es₁ es₂ : List Entry}
    (h₁ : entries before ignoreEmpty codes = .ok es₁) (h₂ : entries after ignoreEmpty codes = .ok es₂) :
    entries (before ++ after) ignoreEmpty codes = .ok (es₁ ++ es₂) := by
  induction before generalizing es₁ with
  | nil =>
    obtain rfl := Except.ok.inj h₁
    exact h₂
  | cons p before ih =>
    rw [List.cons_append, entries_cons_eq_ok_iff]
    rcases entries_cons_eq_ok_iff.mp h₁ with ⟨hb, hes⟩ | ⟨hb, e, rest, he, hrest, rfl⟩
    · exact .inl ⟨hb, ih hes⟩
    · exact .inr ⟨hb, e, rest ++ es₂, he, ih hrest, rfl⟩

/-- A parameter whose text is not empty stands in the selection where it is given. -/
theorem selectedEntries_of_text {es₁ es₂ : List Entry} {v : Value} {text : String}
    (hlead : leadOf leading = .ok lead) (hname : after? lead name = some expression)
    (hparse : Expression.parse expression codes = .ok c) (hv : flatten value = .ok v)
    (htext : matchTextOf v = .ok text) (hne : text ≠ "")
    (h₁ : selectedEntries leading before true codes = .ok es₁)
    (h₂ : selectedEntries leading after true codes = .ok es₂) :
    selectedEntries leading (before ++ (name, value) :: after) true codes =
      .ok (es₁ ++ ⟨c, text⟩ :: es₂) := by
  obtain ⟨chosen₁, hchosen₁, hes₁⟩ := selectedEntries_eq_ok_iff.mp h₁
  obtain ⟨chosen₂, hchosen₂, hes₂⟩ := selectedEntries_eq_ok_iff.mp h₂
  rw [selected_of_lead hlead] at hchosen₁ hchosen₂
  have hone : flattened (expression, value) = .ok (expression, v) := flattened_eq_ok_iff.mpr ⟨hv, rfl⟩
  have hselected : selected leading (before ++ (name, value) :: after) =
      .ok (chosen₁ ++ (expression, v) :: chosen₂) := by
    rw [selected_of_lead hlead, named, List.filterMap_append, ← named, ← named, named_cons_of_some hname,
      mapM_append_eq_ok]
    exact ⟨chosen₁, _, hchosen₁, mapM_cons_eq_ok.mpr ⟨_, _, hone, hchosen₂, rfl⟩, rfl⟩
  have hentry : entryOf codes (expression, v) = .ok ⟨c, text⟩ := entryOf_eq_ok_iff.mpr ⟨hparse, htext⟩
  have hkept : leavesOut true v = .ok false := by
    rw [leavesOut_of_text htext]
    simp [hne]
  have hrest : entries ((expression, v) :: chosen₂) true codes = .ok (⟨c, text⟩ :: es₂) :=
    entries_cons_eq_ok_iff.mpr (.inr ⟨hkept, _, _, hentry, hes₂, rfl⟩)
  exact selectedEntries_eq_ok_iff.mpr ⟨_, hselected, entries_append hes₁ hrest⟩

theorem entries_single_eq_nil_iff :
    entries [(expression, value)] true codes = .ok [] ↔ isEmptyValue value = .ok true := by
  rw [entries_cons_eq_ok_iff, leavesOut_eq_true_iff]
  simp [entries]

theorem selectedEntries_single_iff (hlead : leadOf leading = .ok lead) (hname : after? lead name = some expression) :
    selectedEntries leading [(name, value)] true codes = .ok [] ↔ LacksValue value := by
  rw [selectedEntries_eq_ok_iff, selected_of_lead hlead, named_cons_of_some hname, lacksValue_iff, bind_eq_ok]
  constructor
  · intro hh
    obtain ⟨chosen, hchosen, h⟩ := hh
    obtain ⟨⟨_, v⟩, rest, hq, hrest, rfl⟩ := mapM_cons_eq_ok.mp hchosen
    obtain rfl := Except.ok.inj hrest
    obtain ⟨hv, rfl⟩ := flattened_eq_ok_iff.mp hq
    exact ⟨v, hv, entries_single_eq_nil_iff.mp h⟩
  · intro hh
    obtain ⟨v, hv, h⟩ := hh
    have hone : flattened (expression, value) = .ok (expression, v) := flattened_eq_ok_iff.mpr ⟨hv, rfl⟩
    exact ⟨[(expression, v)], mapM_cons_eq_ok.mpr ⟨_, [], hone, rfl, rfl⟩, entries_single_eq_nil_iff.mpr h⟩

end LeavingOut

section CommandLine

variable {pairs : List (String × String)}

theorem valuesOf_filter (keep : String → Bool) (pairs : List (String × String)) {key : String}
    (h : keep key = true) : valuesOf (pairs.filter (keep ·.1)) key = valuesOf pairs key := by
  rw [valuesOf, valuesOf, List.filter_filter]
  congr 1
  refine List.filter_congr fun p _ => ?_
  by_cases hp : p.1 = key
  · simp [hp, h]
  · simp [hp]

theorem keysOf_filter (keep : String → Bool) (pairs : List (String × String)) :
    keysOf (pairs.filter (keep ·.1)) = (keysOf pairs).filter keep := by
  -- From the end, where a key is added just if it is new; among the kept texts it is new when it is among all.
  induction pairs using List.reverseRecOn with
  | nil => rfl
  | append_singleton pairs p ih =>
    rw [keysOf_concat, List.filter_append, List.filter_append]
    by_cases hp : keep p.1 = true
    · have hkept : [p].filter (keep ·.1) = [p] := List.filter_cons_of_pos hp
      have hmem : p.1 ∈ keysOf (pairs.filter (keep ·.1)) ↔ p.1 ∈ keysOf pairs := by
        rw [ih, List.mem_filter]
        exact and_iff_left hp
      rw [hkept, keysOf_concat, ih]
      simp only [← ih, hmem]
      split_ifs <;> simp [ih, hp]
    · have hdropped : [p].filter (keep ·.1) = [] := List.filter_cons_of_neg hp
      have hnothing : (if p.1 ∈ keysOf pairs then [] else [p.1]).filter keep = [] := by
        split_ifs <;> simp [hp]
      rw [hdropped, List.append_nil, ih, hnothing, List.append_nil]

/-- Without the texts of some keys, the groups are those of the other keys. -/
theorem grouped_filter (keep : String → Bool) (pairs : List (String × String)) :
    grouped (pairs.filter (keep ·.1)) = (grouped pairs).filter (keep ·.1) := by
  rw [grouped, keysOf_filter, grouped, List.filter_map]
  refine List.map_congr_left fun key hkey => ?_
  rw [valuesOf_filter keep pairs (List.mem_filter.mp hkey).2]

theorem ofGroups_filter (keep : String → Bool) (groups : List (String × List String)) :
    ofGroups (groups.filter (keep ·.1)) = (ofGroups groups).filter (keep ·.1) := by
  rw [ofGroups, ofGroups, List.filter_map]
  rfl

/-- Where each of its values is empty, a key holds a list of empty texts. -/
theorem gatheredOf_of_empty (h : ∀ value ∈ valuesOf pairs name, value = "") :
    gatheredOf pairs name = empties (valuesOf pairs name).length := by
  have hall : valuesOf pairs name = List.replicate (valuesOf pairs name).length "" :=
    List.eq_replicate_iff.mpr ⟨rfl, h⟩
  rw [gatheredOf, empties]
  conv_lhs => rw [hall]
  rw [List.map_replicate]

/-- A key that is given once, without a value, counts for as little as one that is not given. -/
theorem selectedEntries_of_given_once (h : ∀ value ∈ valuesOf pairs name, value = "")
    (honce : (valuesOf pairs name).length ≤ 1) :
    selectedEntries leading (ofGroups (grouped pairs)) true codes =
      selectedEntries leading (ofGroups (grouped (pairs.filter (·.1 != name)))) true codes := by
  apply selectedEntries_of_filter
  rw [grouped_filter (· != name), ofGroups_filter (· != name), List.filter_filter]
  refine List.filter_congr fun p hp => ?_
  by_cases hname : p.1 = name
  · have hlacks : LacksValue p.2 := by
      obtain ⟨group, hgroup, rfl⟩ := List.mem_map.mp hp
      obtain ⟨key, -, rfl⟩ := List.mem_map.mp hgroup
      obtain rfl : key = name := hname
      change LacksValue (gatheredOf pairs key)
      rw [gatheredOf_of_empty h]
      exact (lacksValue_empties_iff _).mpr honce
    have hnot : hasValue p = false := by
      rw [Bool.eq_false_iff, ne_eq, hasValue_iff]
      exact not_not.mpr hlacks
    simp [hnot]
  · simp [hname]

/-- A key that is given several times without a value has an entry whose match text is commas. -/
theorem mem_selectedEntries_of_given_again {es : List Entry} (hlead : leadOf leading = .ok lead)
    (hname : after? lead name = some expression) (hparse : Expression.parse expression codes = .ok c)
    (h : ∀ value ∈ valuesOf pairs name, value = "") (hagain : 2 ≤ (valuesOf pairs name).length)
    (hes : selectedEntries leading (ofGroups (grouped pairs)) true codes = .ok es) :
    ⟨c, commas ((valuesOf pairs name).length - 1)⟩ ∈ es := by
  have hkey : name ∈ keysOf pairs := by
    rw [← valuesOf_ne_nil_iff, ← List.length_pos_iff]
    omega
  have hgiven : (name, gatheredOf pairs name) ∈ ofGroups (grouped pairs) :=
    List.mem_map.mpr ⟨(name, valuesOf pairs name), List.mem_map.mpr ⟨name, hkey, rfl⟩, rfl⟩
  obtain ⟨v, hv, htext⟩ := exists_flatten_empties (valuesOf pairs name).length
  rw [← gatheredOf_of_empty h] at hv
  have hcounts : Counts leading (ofGroups (grouped pairs)) true expression v := by
    obtain ⟨hne, hletters⟩ := after?_eq_some_iff.mp hname
    refine ⟨hne, ⟨lead, hlead, _, hgiven, hletters, hv⟩, fun hh => ?_⟩
    have hlacks : LacksValue (gatheredOf pairs name) := lacksValue_iff.mpr (bind_eq_ok.mpr ⟨v, hv, hh.2⟩)
    rw [gatheredOf_of_empty h, lacksValue_empties_iff] at hlacks
    omega
  obtain ⟨⟨c', text⟩, hmem, he⟩ := exists_entryOf hes hcounts
  obtain ⟨hparse', htext'⟩ := entryOf_eq_ok_iff.mp he
  obtain rfl := Except.ok.inj (hparse.symm.trans hparse')
  obtain rfl := Except.ok.inj (htext.symm.trans htext')
  exact hmem

end CommandLine

end Parameters

namespace Selection

open Parameters

/-- What a selection by parameters keeps of records, or the first fault on the way. -/
def filtered (table : RestrictionTable) (types codes : TypeRegistry) (leading : Value) (params : Parameters)
    (ignoreEmpty : Bool) (records : List Record) : Except Fault (List Record) := do
  let es ← selectedEntries leading params ignoreEmpty codes
  let p ← compose table types es
  p.filter records

section Filtered

variable {table : RestrictionTable} {types codes : TypeRegistry} {leading : Value} {params : Parameters}
  {ignoreEmpty : Bool} {es : List Entry}

theorem filtered_of_selected (h : selectedEntries leading params ignoreEmpty codes = .ok es)
    (records : List Record) :
    filtered table types codes leading params ignoreEmpty records =
      compose table types es >>= fun p => p.filter records := by
  rw [filtered, h]
  rfl

theorem filtered_of_compose {p : Predicate} (h : selectedEntries leading params ignoreEmpty codes = .ok es)
    (hp : compose table types es = .ok p) (records : List Record) :
    filtered table types codes leading params ignoreEmpty records = p.filter records := by
  rw [filtered_of_selected h, hp]
  rfl

end Filtered

/-- What becomes of a parameter where empty values are left out. Lacking a value it has no entry, and beside any others
it changes nothing of what is kept. No other one is left out: several empty texts have an entry between those of the
other parameters, which asks for the commas that join them. -/
structure LeftOutOnce (table : RestrictionTable) (types codes : TypeRegistry) (leading : Value)
    (before after : Parameters) (name : String) (c : Criterion) : Prop where
  lacks : ∀ n, LacksValue (empties n) ↔ n ≤ 1
  alone : ∀ value, selectedEntries leading [(name, value)] true codes = .ok [] ↔ LacksValue value
  beside : ∀ value records, LacksValue value →
    filtered table types codes leading (before ++ (name, value) :: after) true records =
      filtered table types codes leading (before ++ after) true records
  several : ∀ n records es₁ es₂, 2 ≤ n → selectedEntries leading before true codes = .ok es₁ →
    selectedEntries leading after true codes = .ok es₂ →
    filtered table types codes leading (before ++ (name, empties n) :: after) true records =
      compose table types (es₁ ++ ⟨c, commas (n - 1)⟩ :: es₂) >>= fun p => p.filter records

/-- What becomes of a key of a command line, none of whose texts has a value: it counts for nothing while it is given
once, and has an entry that asks for commas when it is given again. -/
structure TextLeftOutOnce (table : RestrictionTable) (types codes : TypeRegistry) (leading : Value)
    (pairs : List (String × String)) (name : String) (c : Criterion) : Prop where
  once : (valuesOf pairs name).length ≤ 1 → ∀ records,
    filtered table types codes leading (ofGroups (grouped pairs)) true records =
      filtered table types codes leading (ofGroups (grouped (pairs.filter (·.1 != name)))) true records
  again : 2 ≤ (valuesOf pairs name).length → ∀ es,
    selectedEntries leading (ofGroups (grouped pairs)) true codes = .ok es →
    ⟨c, commas ((valuesOf pairs name).length - 1)⟩ ∈ es

theorem leftOutOnce (table : RestrictionTable) (types codes : TypeRegistry) (leading : Value)
    (before after : Parameters) {lead : List Char} {expression name : String} {c : Criterion}
    (hlead : leadOf leading = .ok lead) (hname : after? lead name = some expression)
    (hparse : Expression.parse expression codes = .ok c) :
    LeftOutOnce table types codes leading before after name c where
  lacks := lacksValue_empties_iff
  alone _ := selectedEntries_single_iff hlead hname
  beside value records h := by rw [filtered, selectedEntries_of_lacksValue h, filtered]
  several n records es₁ es₂ hn h₁ h₂ := by
    obtain ⟨v, hv, htext⟩ := exists_flatten_empties n
    exact filtered_of_selected
      (selectedEntries_of_text hlead hname hparse hv htext (commas_ne_empty (by omega)) h₁ h₂) records

/-- A parameter without a value, or with a single empty one, is left out, and no other one is, whether it is given as
a value or by texts of a command line. -/
theorem single_empty_left_out (table : RestrictionTable) (types codes : TypeRegistry) (leading : Value)
    (before after : Parameters) (lead : List Char) (expression name : String) (c : Criterion)
    (hlead : leadOf leading = .ok lead) (hname : after? lead name = some expression)
    (hparse : Expression.parse expression codes = .ok c) :
    LeftOutOnce table types codes leading before after name c ∧
    ∀ texts pairs, List.Forall₂ Assigns texts pairs → (∀ value ∈ valuesOf pairs name, value = "") →
      ofTexts texts = .ok (grouped pairs) ∧ TextLeftOutOnce table types codes leading pairs name c := by
  refine ⟨leftOutOnce table types codes leading before after hlead hname hparse, ?_⟩
  intro texts pairs hpairs hempty
  refine ⟨ofTexts_of_assigns hpairs, fun honce records => ?_, fun hagain es hes => ?_⟩
  · rw [filtered, selectedEntries_of_given_once hempty honce, filtered]
  · exact mem_selectedEntries_of_given_again hlead hname hparse hempty hagain hes

/-- A value of nothing, then three empty ones, and on a command line two. -/
theorem single_empty_left_out_between :
    let kept := filtered .standard .standard .standard (.text "filter")
    let before : Parameters := [("filter_GTI_age", .text "20")]
    let after : Parameters := [("page", .text "2")]
    let ages : Entry := ⟨⟨"GT", .integer, ["age"]⟩, "20"⟩
    let name : Criterion := ⟨"EQ", .string, ["name"]⟩
    let texts := ["filter_EQS_name=", "page=2", " filter_EQS_name="]
    let pairs := [("filter_EQS_name", ""), ("page", "2"), ("filter_EQS_name", "")]
    leadOf (.text "filter") = .ok "filter_".toList ∧ after? "filter_".toList "filter_EQS_name" = some "EQS_name" ∧
    Expression.parse "EQS_name" = .ok name ∧
    (∀ records, kept (before ++ ("filter_EQS_name", .tuple [.null]) :: after) true records =
      kept (before ++ after) true records) ∧
    (∀ records, kept (before ++ ("filter_EQS_name", .list [.text "", .text "", .text ""]) :: after) true records =
      compose .standard .standard [ages, ⟨name, ",,"⟩] >>= fun p => p.filter records) ∧
    ofTexts texts = .ok (grouped pairs) ∧
    selectedEntries (.text "filter") (ofGroups (grouped pairs)) true = .ok [⟨name, ","⟩] ∧
    commas ((valuesOf pairs "filter_EQS_name").length - 1) = "," := by
  intro kept before after ages name texts pairs
  have hlead : leadOf (.text "filter") = .ok "filter_".toList := by rfl
  have hname : after? "filter_".toList "filter_EQS_name" = some "EQS_name" := by decide
  have hparse : Expression.parse "EQS_name" = .ok name := by rfl
  have hages : selectedEntries (.text "filter") before true = .ok [ages] := by
    have hchosen : selected (.text "filter") before = .ok [("GTI_age", .text "20")] := by rfl
    exact selectedEntries_eq_ok_iff.mpr ⟨_, hchosen, by rfl⟩
  have hpage : selectedEntries (.text "filter") after true = .ok [] := by
    have hchosen : selected (.text "filter") after = .ok [] := by rfl
    exact selectedEntries_eq_ok_iff.mpr ⟨_, hchosen, by rfl⟩
  have hassigns : List.Forall₂ Assigns texts pairs :=
    .cons ⟨"filter_EQS_name".toList, [], by decide, by decide, by decide, by decide⟩ <|
    .cons ⟨"page".toList, "2".toList, by decide, by decide, by decide, by decide⟩ <|
    .cons ⟨" filter_EQS_name".toList, [], by decide, by decide, by decide, by decide⟩ .nil
  have hempty : ∀ value ∈ valuesOf pairs "filter_EQS_name", value = "" := by decide
  have hgrouped : grouped pairs = [("filter_EQS_name", ["", ""]), ("page", ["2"])] := by rfl
  have hentries : selectedEntries (.text "filter") (ofGroups (grouped pairs)) true = .ok [⟨name, ","⟩] := by
    have hchosen : selected (.text "filter") (ofGroups (grouped pairs)) = .ok [("EQS_name", .text ",")] := by
      rw [hgrouped]
      rfl
    exact selectedEntries_eq_ok_iff.mpr ⟨_, hchosen, by rfl⟩
  obtain ⟨hout, htexts⟩ := single_empty_left_out .standard .standard .standard (.text "filter") before after
    "filter_".toList "EQS_name" "filter_EQS_name" name hlead hname hparse
  obtain ⟨hread, hrepeated⟩ := htexts texts pairs hassigns hempty
  have hmem := hrepeated.again (by decide) _ hentries
  have hcommas := congrArg Entry.matchText (List.mem_singleton.mp hmem)
  refine ⟨hlead, hname, hparse, fun records => ?_, fun records => ?_, hread, hentries, hcommas⟩
  · exact hout.beside (.tuple [.null]) records (.inr ⟨.null, rfl, rfl⟩)
  · have hthree : commas 2 = ",," := by decide
    rw [← hthree]
    exact hout.several 3 records [ages] [] (by decide) hages hpage

/-- Two empty values of one name hide a record that is kept with a single one and without any. -/
theorem repeated_empty_hides_record :
    let kept := filtered .standard .standard .standard (.text "filter")
    let vincent : Record := [(.text "name", .text "vincent")]
    kept [("filter_EQS_name", .list [.text "", .text ""])] true [vincent] = .ok [] ∧
    kept [("filter_EQS_name", .list [.text ""])] true [vincent] = .ok [vincent] ∧
    kept [] true [vincent] = .ok [vincent] := by
  intro kept vincent
  have hcomma : (Predicate.compare .equals "name" (.text ",")).filter [vincent] = .ok [] := by cbv
  have hall : Predicate.always.filter [vincent] = .ok [vincent] := by rfl
  have hseveral : selected (.text "filter") [("filter_EQS_name", .list [.text "", .text ""])] =
      .ok [("EQS_name", .text ",")] := by rfl
  have hsingle : selected (.text "filter") [("filter_EQS_name", .list [.text ""])] = .ok [("EQS_name", .text "")] := by
    rfl
  refine ⟨?_, ?_, ?_⟩
  · exact (filtered_of_compose (selectedEntries_eq_ok_iff.mpr ⟨_, hseveral, by rfl⟩) (by rfl) _).trans hcomma
  · exact (filtered_of_compose (selectedEntries_eq_ok_iff.mpr ⟨_, hsingle, by rfl⟩) (by rfl) _).trans hall
  · exact (filtered_of_compose (by rfl) (by rfl) _).trans hall

end Selection

end RecordFilter
