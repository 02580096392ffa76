import Mathlib
import RecordFilter.Command.Program
import RecordFilter.Proofs.Query.Parameters
import RecordFilter.Proofs.Text.Blank

namespace RecordFilter.Parameters

open Fallible
open Text (trim isBlank pieces cutAt_append cutAt_of_not_mem)

variable {text key : String} {texts : List String} {p : String × String} {pairs : List (String × String)}
  {leading : Value} {codes : TypeRegistry}

section Reading

/-- The text gives a value to a key: what precedes the first `=`, without the blanks at its ends. -/
def Assigns (text : String) (p : String × String) : Prop :=
  ∃ lead rest, text.toList = lead ++ '=' :: rest ∧ '=' ∉ lead ∧ trim lead ≠ [] ∧
    p = (String.ofList (trim lead), String.ofList rest)

/-- The text has no `=`, or nothing but blanks in front of one. -/
def Malformed (text : String) : Prop :=
  '=' ∉ text.toList ∨ ∃ lead rest, text.toList = lead ++ '=' :: rest ∧ ∀ c ∈ lead, isBlank c = true

theorem assignment?_of_assigns (h : Assigns text p) : assignment? text = some p := by
  obtain ⟨lead, rest, ht, hlead, hkey, rfl⟩ := h
  rw [assignment?, ht, cutAt_append '=' lead rest hlead]
  simp [hkey]

theorem trim_eq_nil_iff_forall {s : List Char} : trim s = [] ↔ ∀ c ∈ s, isBlank c = true := by
  rw [Text.trim_eq_nil_iff, Text.allBlank, List.all_eq_true]

theorem assignment?_of_malformed (h : Malformed text) : assignment? text = none := by
  rcases h with h | ⟨lead, rest, ht, hblank⟩
  · rw [assignment?, cutAt_of_not_mem '=' _ h]
  · have hlead : '=' ∉ lead := fun hm => absurd (hblank _ hm) (by decide)
    rw [assignment?, ht, cutAt_append '=' lead rest hlead]
    simp [trim_eq_nil_iff_forall.mpr hblank]

theorem malformed_or_assigns (text : String) : Malformed text ∨ ∃ p, Assigns text p := by
  by_cases h : '=' ∈ text.toList
  · obtain ⟨lead, rest, ht, hlead⟩ := List.eq_append_cons_of_mem h
    by_cases hkey : trim lead = []
    · exact .inl (.inr ⟨lead, rest, ht, trim_eq_nil_iff_forall.mp hkey⟩)
    · exact .inr ⟨_, lead, rest, ht, hlead, hkey, rfl⟩
  · exact .inl (.inl h)

theorem not_malformed_of_assigns (h : Assigns text p) : ¬ Malformed text := by
  intro hm
  cases (assignment?_of_assigns h).symm.trans (assignment?_of_malformed hm)

theorem rightUnique_assigns : Relator.RightUnique Assigns := by
  intro text p q hp hq
  exact Option.some.inj ((assignment?_of_assigns hp).symm.trans (assignment?_of_assigns hq))

theorem exists_assigns_iff :
    (∃ pairs, List.Forall₂ Assigns texts pairs) ↔ ∀ text ∈ texts, ¬ Malformed text := by
  constructor
  · intro hh
    obtain ⟨pairs, hpairs⟩ := hh
    induction hpairs with
    | nil => simp
    | cons hp _ ih => exact List.forall_mem_cons.mpr ⟨not_malformed_of_assigns hp, ih⟩
  · intro h
    induction texts with
    | nil => exact ⟨[], .nil⟩
    | cons text texts ih =>
      obtain ⟨htext, htexts⟩ := List.forall_mem_cons.mp h
      obtain ⟨p, hp⟩ := (malformed_or_assigns text).resolve_left htext
      obtain ⟨pairs, hpairs⟩ := ih htexts
      exact ⟨p :: pairs, .cons hp hpairs⟩

end Reading

section Gathering

def gather (groups : List (String × List String)) (text : String) :
    Except String (List (String × List String)) :=
  match assignment? text with
  | some (key, value) => .ok (collect groups key value)
  | none => .error text

theorem ofTexts_eq (texts : List String) : ofTexts texts = texts.foldlM gather [] := rfl

theorem foldlM_gather_of_assigns (h : List.Forall₂ Assigns texts pairs)
    (groups : List (String × List String)) :
    texts.foldlM gather groups = .ok (pairs.foldl (fun gs p => collect gs p.1 p.2) groups) := by
  induction h generalizing groups with
  | nil => rfl
  | cons hp _ ih =>
    rw [List.foldlM_cons, gather, assignment?_of_assigns hp]
    exact ih _

/-- Gathering stops at the first malformed text. -/
theorem foldlM_gather_eq_error_iff (groups : List (String × List String)) :
    texts.foldlM gather groups = .error text ↔
      Reaches (¬ Malformed ·) (fun s => s = text ∧ Malformed s) texts := by
  induction texts generalizing groups with
  | nil => simp [pure, Except.pure]
  | cons s texts ih =>
    rw [List.foldlM_cons, reaches_cons_iff]
    rcases malformed_or_assigns s with hs | ⟨p, hp⟩
    · rw [gather, assignment?_of_malformed hs]
      simp [bind, Except.bind, hs]
    · rw [gather, assignment?_of_assigns hp, ← ih (collect groups p.1 p.2)]
      simp [bind, Except.bind, not_malformed_of_assigns hp]

/-- The keys, in the order in which they first appear. -/
def keysOf (pairs : List (String × String)) : List String :=
  (pairs.map (·.1)).eraseDups

/-- The values of a key, in the order in which they are given. -/
def valuesOf (pairs : List (String × String)) (key : String) : List String :=
  (pairs.filter (·.1 == key)).map (·.2)

theorem mem_keysOf_iff : key ∈ keysOf pairs ↔ ∃ value, (key, value) ∈ pairs := by
  rw [keysOf, List.mem_eraseDups]
  simp

theorem valuesOf_ne_nil_iff : valuesOf pairs key ≠ [] ↔ key ∈ keysOf pairs := by
  rw [mem_keysOf_iff, valuesOf, ne_eq, List.map_eq_nil_iff, List.filter_eq_nil_iff]
  simp

/-- Each key once, where it comes first, with all of its values. -/
def grouped (pairs : List (String × String)) : List (String × List String) :=
  (keysOf pairs).map fun key => (key, valuesOf pairs key)

theorem keysOf_concat (pairs : List (String × String)) (p : String × String) :
    keysOf (pairs ++ [p]) = keysOf pairs ++ if p.1 ∈ keysOf pairs then [] else [p.1] := by
  have hmem : p.1 ∈ keysOf pairs ↔ p.1 ∈ pairs.map (·.1) := by rw [keysOf, List.mem_eraseDups]
  rw [keysOf, List.map_append, List.eraseDups_append, ← keysOf]
  simp only [hmem]
  split_ifs with h <;> simp [List.removeAll, List.eraseDups_cons, h]

theorem valuesOf_concat (pairs : List (String × String)) (p : String × String) (key : String) :
    valuesOf (pairs ++ [p]) key = valuesOf pairs key ++ if p.1 = key then [p.2] else [] := by
  rw [valuesOf, List.filter_append, List.map_append, ← valuesOf]
  split_ifs with h <;> simp [h]

/-- One more value joins those of its key, or starts a group when the key is new. -/
theorem collect_of_grouped (keys : List String) (values : String → List String) (p : String × String) :
    collect (keys.map fun key => (key, values key)) p.1 p.2 =
      if p.1 ∈ keys then keys.map fun key => (key, values key ++ if p.1 = key then [p.2] else [])
      else (keys.map fun key => (key, values key)) ++ [(p.1, [p.2])] := by
  have hany : (keys.map fun key => (key, values key)).any (·.1 == p.1) = true ↔ p.1 ∈ keys := by simp
  rw [collect]
  simp only [hany, List.map_map]
  congr 1
  refine List.map_congr_left fun key _ => ?_
  by_cases hkey : key = p.1
  · simp [hkey]
  · simp [hkey, Ne.symm hkey]

theorem foldl_collect (pairs : List (String × String)) :
    pairs.foldl (fun gs p => collect gs p.1 p.2) [] = grouped pairs := by
  induction pairs using List.reverseRecOn with
  | nil => rfl
  | append_singleton pairs p ih =>
    rw [List.foldl_append, ih, List.foldl_cons, List.foldl_nil, grouped, collect_of_grouped, grouped,
      keysOf_concat]
    simp only [valuesOf_concat]
    split_ifs with h
    · rw [List.append_nil]
    · have hnil : valuesOf pairs p.1 = [] := not_not.mp (mt valuesOf_ne_nil_iff.mp h)
      have hold : ∀ key ∈ keysOf pairs, (key, valuesOf pairs key) =
          (key, valuesOf pairs key ++ if p.1 = key then [p.2] else []) := by
        intro key hkey
        have hne : p.1 ≠ key := fun heq => h (heq ▸ hkey)
        rw [if_neg hne, List.append_nil]
      rw [List.map_append, List.map_congr_left hold, List.map_singleton, if_pos rfl, hnil, List.nil_append]

theorem ofTexts_of_assigns (h : List.Forall₂ Assigns texts pairs) :
    ofTexts texts = .ok (grouped pairs) := by
  rw [ofTexts_eq, foldlM_gather_of_assigns h, foldl_collect]

end Gathering

section Selecting

/-- The keys that start with the prefix and `_` and go on after them, in the order in which they first
appear. -/
def selectedKeys (leading : Value) (pairs : List (String × String)) : List String :=
  match leadOf leading with
  | .ok lead => (keysOf pairs).filter fun key => lead <+: key.toList ∧ key.toList ≠ lead
  | .error _ => []

/-- The texts of a key, as one value. -/
def gatheredOf (pairs : List (String × String)) (key : String) : Value :=
  .list ((valuesOf pairs key).map .text)

theorem named_ofGroups (lead : List Char) (pairs : List (String × String)) :
    named lead (ofGroups (grouped pairs)) =
      (keysOf pairs).filterMap fun key => (after? lead key).map fun expression =>
        (expression, gatheredOf pairs key) := by
  rw [named, ofGroups, grouped, List.map_map, List.filterMap_map]
  rfl

theorem selectedKeys_eq {lead : List Char} (h : leadOf leading = .ok lead) (pairs : List (String × String)) :
    selectedKeys leading pairs = (keysOf pairs).filter fun key => (after? lead key).isSome := by
  rw [selectedKeys, h]
  refine List.filter_congr fun key _ => ?_
  rw [Bool.eq_iff_iff, isSome_after?_iff, decide_eq_true_eq]

/-- Where nothing is left out, each parameter has its entry. -/
theorem entries_eq_mapM (params : Parameters) (codes : TypeRegistry) :
    params.entries false codes = params.mapM (entryOf codes) := by
  induction params with
  | nil => rfl
  | cons p params ih =>
    rw [entries_cons, ih, List.mapM_cons]
    rfl

/-- The raw pieces of a key: those of each of its values, in the order in which these are given. -/
def piecesOf (pairs : List (String × String)) (key : String) : List String :=
  (valuesOf pairs key).flatMap (pieces ',')

/-- The entry of a selected key: its expression, and a match text that is cut into the pieces of the key.
An operator that takes alternatives has them coerced one by one. -/
structure Merges (leading : Value) (codes types : TypeRegistry) (pairs : List (String × String))
    (key : String) (e : Entry) : Prop where
  reads : ∃ lead expression, leadOf leading = .ok lead ∧ key.toList = lead ++ expression.toList ∧
    Expression.parse expression codes = .ok e.criterion
  cuts : pieces ',' e.matchText = piecesOf pairs key
  coerces : ∀ o, o.takesSet = true → ∀ name,
    Coercion.matchValue e.criterion.type e.matchText name o types =
      (((piecesOf pairs key).mapM (Coercion.coerceAs types (.known e.criterion.type))).map
        Value.list).mapError (Coercion.forProperty name)

/-- Values that are texts are shown joined by commas, whatever their number. -/
theorem matchTextOf_of_flattened {v : Value} (h : flatten (gatheredOf pairs key) = .ok v) :
    matchTextOf v = .ok (Text.join "," (valuesOf pairs key)) := by
  have hgiven : given (gatheredOf pairs key) = (valuesOf pairs key).map .text := rfl
  have hwritable : ∀ v ∈ given (gatheredOf pairs key), v.isWritable = true := by
    intro v hv
    obtain ⟨text, -, rfl⟩ := List.mem_map.mp hv
    rfl
  obtain ⟨v', hv', htext⟩ := exists_flatten hwritable
  obtain rfl := Except.ok.inj (h.symm.trans hv')
  rw [htext, hgiven, joined_texts]

theorem merges_of_entryOf {lead : List Char} {expression : String} {v : Value} {e : Entry}
    (types : TypeRegistry) (hlead : leadOf leading = .ok lead) (hkey : key ∈ keysOf pairs)
    (hexpression : after? lead key = some expression) (hv : flatten (gatheredOf pairs key) = .ok v)
    (he : entryOf codes (expression, v) = .ok e) : Merges leading codes types pairs key e := by
  obtain ⟨hparse, htext⟩ := entryOf_eq_ok_iff.mp he
  have hpieces : pieces ',' e.matchText = piecesOf pairs key := by
    rw [← Except.ok.inj ((matchTextOf_of_flattened hv).symm.trans htext),
      Text.pieces_join (valuesOf_ne_nil_iff.mpr hkey), piecesOf]
  have hname : key.toList = lead ++ expression.toList := (after?_eq_some_iff.mp hexpression).2
  refine ⟨⟨lead, expression, hlead, hname, hparse⟩, hpieces, fun o ho name => ?_⟩
  rw [Coercion.matchValue, if_pos ho, hpieces]

/-- What stands for the picks from a list stands for the elements that something is picked from. -/
theorem forall₂_filterMap {α β γ : Type} {f : α → Option β} {R : β → γ → Prop} {xs : List α}
    {ys : List γ} (h : List.Forall₂ R (xs.filterMap f) ys) :
    List.Forall₂ (fun x y => ∃ b, f x = some b ∧ R b y) (xs.filter fun x => (f x).isSome) ys := by
  induction xs generalizing ys with
  | nil => simpa using h
  | cons x xs ih =>
    cases hx : f x with
    | none =>
      rw [List.filterMap_cons_none hx] at h
      rw [List.filter_cons_of_neg (by simp [hx])]
      exact ih h
    | some b =>
      rw [List.filterMap_cons_some hx] at h
      rw [List.filter_cons_of_pos (by simp [hx])]
      cases h with
      | cons hb hrest => exact .cons ⟨b, hx, hb⟩ (ih hrest)

/-- Of the gathered keys, each selected one has an entry, in the order of the keys. -/
theorem merges_of_selectedEntries {es : List Entry} (types : TypeRegistry)
    (h : selectedEntries leading (ofGroups (grouped pairs)) false codes = .ok es) :
    List.Forall₂ (Merges leading codes types pairs) (selectedKeys leading pairs) es := by
  obtain ⟨chosen, hchosen, hes⟩ := selectedEntries_eq_ok_iff.mp h
  obtain ⟨lead, hlead, hflat⟩ := selected_eq_ok_iff.mp hchosen
  rw [entries_eq_mapM] at hes
  rw [named_ofGroups] at hflat
  have hentries := forall₂_filterMap (forall₂_of_mapM_mapM hflat hes)
  simp only [Option.isSome_map] at hentries
  rw [← selectedKeys_eq hlead] at hentries
  have hmem : ∀ key ∈ selectedKeys leading pairs, key ∈ keysOf pairs := by
    intro key hkey
    rw [selectedKeys_eq hlead] at hkey
    exact (List.mem_filter.mp hkey).1
  refine ((List.forall₂_and_left _ _).mpr ⟨hmem, hentries⟩).imp fun key e hh => ?_
  obtain ⟨hkey, p, hp, ⟨_, v⟩, hq, he⟩ := hh
  obtain ⟨expression, hexpression, rfl⟩ := Option.map_eq_some_iff.mp hp
  obtain ⟨hv, rfl⟩ := flattened_eq_ok_iff.mp hq
  exact merges_of_entryOf types hlead hkey hexpression hv he

end Selecting

/-- Groups the texts of parameters, or refuses the first one that is no assignment. -/
def read (texts : List String) : Except Command.Refusal (List (String × List String)) :=
  (ofTexts texts).mapError fun text => .badValue none (refusal text)

/-- Parameters are refused when one of them is malformed, and the first such one is quoted. Otherwise the
selected keys have an entry each, in the order in which the keys first appear; what is cut from its match
text, and coerced one by one for an operator that takes alternatives, are the pieces of each value of that
key, in the order in which the values are given. -/
theorem repeated_values_merge (texts : List String) (leading : Value) (codes types : TypeRegistry) :
    (∀ r, read texts = .error r ↔
      ∃ front text back, texts = front ++ text :: back ∧ (∀ s ∈ front, ¬ Malformed s) ∧ Malformed text ∧
        r = .badValue none ("Parameters must look like KEY=VALUE, got " ++ Text.quote text)) ∧
    ((∀ text ∈ texts, ¬ Malformed text) →
      ∃ pairs, List.Forall₂ Assigns texts pairs ∧ read texts = .ok (grouped pairs) ∧
        ∀ es, selectedEntries leading (ofGroups (grouped pairs)) false codes = .ok es →
          List.Forall₂ (Merges leading codes types pairs) (selectedKeys leading pairs) es) := by
  constructor
  · intro r
    rw [read, mapError_eq_error]
    constructor
    · intro hh
      obtain ⟨text, h, rfl⟩ := hh
      rw [ofTexts_eq, foldlM_gather_eq_error_iff, reaches_iff_append] at h
      obtain ⟨front, _, back, rfl, hfront, rfl, hbad⟩ := h
      exact ⟨front, _, back, rfl, hfront, hbad, rfl⟩
    · intro hh
      obtain ⟨front, text, back, rfl, hfront, hbad, rfl⟩ := hh
      refine ⟨text, ?_, rfl⟩
      rw [ofTexts_eq, foldlM_gather_eq_error_iff, reaches_iff_append]
      exact ⟨front, text, back, rfl, hfront, rfl, hbad⟩
  · intro hgood
    obtain ⟨pairs, hpairs⟩ := exists_assigns_iff.mpr hgood
    have hread : read texts = .ok (grouped pairs) := mapError_eq_ok.mpr (ofTexts_of_assigns hpairs)
    exact ⟨pairs, hpairs, hread, fun es => merges_of_selectedEntries types⟩

/-- Three values of one key, among them an empty one and one with `=`, between parameters of other keys. -/
theorem repeated_values_merge_between :
    let texts := [" filter_INS_name =a,b", "filter_EQI_age=3", "filter_INS_name=", "page=2",
      "filter_INS_name=c=d"]
    let pairs := [("filter_INS_name", "a,b"), ("filter_EQI_age", "3"), ("filter_INS_name", ""),
      ("page", "2"), ("filter_INS_name", "c=d")]
    let names : Entry := ⟨⟨"IN", .string, ["name"]⟩, "a,b,,c=d"⟩
    let ages : Entry := ⟨⟨"EQ", .integer, ["age"]⟩, "3"⟩
    read texts = .ok (grouped pairs) ∧
    selectedEntries (.text "filter") (ofGroups (grouped pairs)) false .standard = .ok [names, ages] ∧
    Merges (.text "filter") .standard .standard pairs "filter_INS_name" names ∧
    piecesOf pairs "filter_INS_name" = ["a", "b", "", "c=d"] ∧
    read (texts ++ ["page", " =1"]) =
      .error (.badValue none "Parameters must look like KEY=VALUE, got 'page'") := by
  intro texts pairs names ages
  have hassigns : List.Forall₂ Assigns texts pairs :=
    .cons ⟨" filter_INS_name ".toList, "a,b".toList, by decide, by decide, by decide, by decide⟩ <|
    .cons ⟨"filter_EQI_age".toList, "3".toList, by decide, by decide, by decide, by decide⟩ <|
    .cons ⟨"filter_INS_name".toList, [], by decide, by decide, by decide, by decide⟩ <|
    .cons ⟨"page".toList, "2".toList, by decide, by decide, by decide, by decide⟩ <|
    .cons ⟨"filter_INS_name".toList, "c=d".toList, by decide, by decide, by decide, by decide⟩ .nil
  have htexts : ∀ text ∈ texts, ¬ Malformed text := exists_assigns_iff.mp ⟨pairs, hassigns⟩
  have hgrouped : grouped pairs =
      [("filter_INS_name", ["a,b", "", "c=d"]), ("filter_EQI_age", ["3"]), ("page", ["2"])] := by
    rfl
  have hentries : selectedEntries (.text "filter") (ofGroups (grouped pairs)) false .standard =
      .ok [names, ages] := by
    have hchosen : selected (.text "filter") (ofGroups (grouped pairs)) =
        .ok [("INS_name", .text "a,b,,c=d"), ("EQI_age", .text "3")] := by
      rw [hgrouped]
      rfl
    exact selectedEntries_eq_ok_iff.mpr ⟨_, hchosen, by rfl⟩
  have hkeys : selectedKeys (.text "filter") pairs = ["filter_INS_name", "filter_EQI_age"] := by rfl
  obtain ⟨-, hgood⟩ := repeated_values_merge texts (.text "filter") .standard .standard
  obtain ⟨pairs', hpairs', hread, hmerges⟩ := hgood htexts
  obtain rfl : pairs' = pairs := rightUnique_assigns.forall₂ hpairs' hassigns
  have hboth := hmerges _ hentries
  rw [hkeys] at hboth
  obtain ⟨hnames, -⟩ := List.forall₂_cons.mp hboth
  refine ⟨hread, hentries, hnames, by decide, ?_⟩
  obtain ⟨hbad, -⟩ := repeated_values_merge (texts ++ ["page", " =1"]) (.text "filter") .standard .standard
  exact (hbad _).mpr ⟨texts, "page", [" =1"], rfl, htexts, .inl (by decide), by rfl⟩

end RecordFilter.Parameters
