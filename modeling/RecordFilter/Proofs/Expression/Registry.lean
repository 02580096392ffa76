import Mathlib.Data.Finset.Card
import Mathlib.Data.List.Infix
import RecordFilter.Proofs.Fallible
import RecordFilter.Query.Coercion

namespace RecordFilter

theorem PropertyType.code_injective {t u : PropertyType} (h : t.code = u.code) : t = u := by
  have hs : PropertyType.ofCode? t.code = PropertyType.ofCode? u.code := by rw [h]
  rw [ofCode?_code, ofCode?_code] at hs
  exact Option.some.inj hs

namespace TypeRegistry

open Fallible (foldlM_concat_eq_ok foldlM_eq_error_iff)

variable {types others before : List TypeEntry} {t u : TypeEntry} {r r' s : TypeRegistry} {c : String}

section Adding

/-- A type is taken if its code is one character that no other type holds. -/
theorem exists_add_iff (r : TypeRegistry) (t : TypeEntry) :
    (∃ r', r.add t = .ok r') ↔ t.code.length = 1 ∧ ∀ u, r.find? t.code = some u → u = t := by
  by_cases hl : t.code.length = 1
  · cases hf : r.find? t.code with
    | none => simp [add, hl, hf]
    | some u =>
      by_cases hu : u = t
      · simp [add, hl, hf, hu]
      · simp [add, hl, hf, hu]
  · simp [add, hl]

/-- A type that is taken is new under its code, or it is there already and nothing changes. -/
theorem add_cases (h : r.add t = .ok r') :
    r.find? t.code = none ∧ r' = ⟨r.entries ++ [(t.code, t)]⟩ ∨ r.find? t.code = some t ∧ r' = r := by
  obtain ⟨hl, hu⟩ := (exists_add_iff r t).mp ⟨r', h⟩
  cases hf : r.find? t.code with
  | none => exact .inl ⟨rfl, by simpa [add, hl, hf, eq_comm] using h⟩
  | some v =>
    obtain rfl : v = t := hu v hf
    exact .inr ⟨rfl, by simpa [add, hl, hf, eq_comm] using h⟩

/-- Adding a type changes what is found under its own code only. -/
theorem find?_add (h : r.add t = .ok r') (c : String) (u : TypeEntry) :
    r'.find? c = some u ↔ r.find? c = some u ∨ (u = t ∧ t.code = c) := by
  rcases add_cases h with ⟨hf, rfl⟩ | ⟨hf, rfl⟩
  · rw [find?] at hf ⊢
    rw [List.lookup_append, find?]
    by_cases hc : t.code = c
    · subst hc
      simp [hf, eq_comm]
    · have hne : (c == t.code) = false := by simpa using Ne.symm hc
      simp [List.lookup_cons, hne, hc]
  · constructor
    · exact .inl
    · intro hh
      rcases hh with h' | ⟨rfl, rfl⟩
      · exact h'
      · exact hf

end Adding

section Building

/-- A registry finds the types it was built from, each under its own code, and no others. -/
theorem find?_ofList (h : ofList types = .ok r) (c : String) (u : TypeEntry) :
    r.find? c = some u ↔ u ∈ types ∧ u.code = c := by
  induction types using List.reverseRecOn generalizing r with
  | nil =>
    obtain rfl := Except.ok.inj h
    simp [find?]
  | append_singleton types t ih =>
    obtain ⟨s, hs, ha⟩ := foldlM_concat_eq_ok.mp h
    rw [find?_add ha, ih hs, List.mem_append, List.mem_singleton, or_and_right]
    have hcode : u = t ∧ t.code = c ↔ u = t ∧ u.code = c := and_congr_right fun heq => by rw [heq]
    rw [hcode]

/-- Codes are one character each, and no two types have the same one. -/
structure CodesApart (types : List TypeEntry) : Prop where
  single : ∀ t ∈ types, t.code.length = 1
  apart : ∀ t ∈ types, ∀ u ∈ types, t.code = u.code → t = u

theorem CodesApart.of_subset (h : CodesApart types) (hsub : others ⊆ types) : CodesApart others :=
  ⟨fun t ht => h.single t (hsub ht), fun t ht u hu => h.apart t (hsub ht) u (hsub hu)⟩

theorem codesApart_concat_iff :
    CodesApart (types ++ [t]) ↔
      CodesApart types ∧ t.code.length = 1 ∧ ∀ u ∈ types, u.code = t.code → u = t := by
  constructor
  · intro h
    exact ⟨h.of_subset (List.subset_append_left _ _), h.single t (by simp),
      fun u hu => h.apart u (by simp [hu]) t (by simp)⟩
  · intro h
    obtain ⟨⟨hsingle, hapart⟩, hl, hu⟩ := h
    constructor
    · simp only [List.mem_append, List.mem_singleton]
      rintro u (hmem | rfl)
      · exact hsingle u hmem
      · exact hl
    · simp only [List.mem_append, List.mem_singleton]
      rintro u (hmem | rfl) v (hmem' | rfl) hc
      · exact hapart u hmem v hmem' hc
      · exact hu u hmem hc
      · exact (hu v hmem' hc.symm).symm
      · rfl

theorem exists_ofList_iff (types : List TypeEntry) : (∃ r, ofList types = .ok r) ↔ CodesApart types := by
  induction types using List.reverseRecOn with
  | nil => exact ⟨fun _ => ⟨by simp, by simp⟩, fun _ => ⟨⟨[]⟩, rfl⟩⟩
  | append_singleton types t ih =>
    rw [codesApart_concat_iff, ← ih]
    constructor
    · intro h
      obtain ⟨r', h⟩ := h
      obtain ⟨r, hr, ha⟩ := foldlM_concat_eq_ok.mp h
      obtain ⟨hl, hu⟩ := (exists_add_iff r t).mp ⟨r', ha⟩
      exact ⟨⟨r, hr⟩, hl, fun u hmem hc => hu u ((find?_ofList hr _ u).mpr ⟨hmem, hc⟩)⟩
    · intro h
      obtain ⟨⟨r, hr⟩, hl, hu⟩ := h
      have hfound : ∀ u, r.find? t.code = some u → u = t := by
        intro u hf
        obtain ⟨hmem, hc⟩ := (find?_ofList hr _ u).mp hf
        exact hu u hmem hc
      obtain ⟨r', ha⟩ := (exists_add_iff r t).mpr ⟨hl, hfound⟩
      exact ⟨r', foldlM_concat_eq_ok.mpr ⟨r, hr, ha⟩⟩

/-- Property types never stand in each other's way. -/
theorem exists_ofList_known (types : List PropertyType) :
    ∃ r, ofList (types.map .known) = .ok r := by
  rw [exists_ofList_iff]
  constructor
  · intro t ht
    obtain ⟨p, _, rfl⟩ := List.mem_map.mp ht
    exact String.length_singleton
  · intro t ht u hu hc
    obtain ⟨p, _, rfl⟩ := List.mem_map.mp ht
    obtain ⟨q, _, rfl⟩ := List.mem_map.mp hu
    have hpq : p.code = q.code := by simpa [TypeEntry.code] using hc
    rw [PropertyType.code_injective hpq]

/-- The rule that a type breaks behind others: its code is not one character, or one of them has it. -/
inductive Breaks (before : List TypeEntry) (t : TypeEntry) : Violation → Prop
  | codeLength (h : t.code.length ≠ 1) : Breaks before t (.codeLength t.code)
  | codeClash {u : TypeEntry} (hu : u ∈ before) (hcode : u.code = t.code) (hne : u ≠ t) :
    Breaks before t (.codeClash t.code u.name t.name)

theorem add_eq_error_iff (h : ofList before = .ok r) {v : Violation} :
    r.add t = .error v ↔ Breaks before t v := by
  constructor
  · intro ha
    by_cases hl : t.code.length = 1
    · cases hf : r.find? t.code with
      | none => simp [add, hl, hf] at ha
      | some u =>
        obtain ⟨hu, hcode⟩ := (find?_ofList h _ u).mp hf
        have hne : u ≠ t := by
          intro heq
          simp [add, hl, hf, heq] at ha
        obtain rfl : Violation.codeClash t.code u.name t.name = v := by simpa [add, hl, hf, hne] using ha
        exact .codeClash hu hcode hne
    · obtain rfl : Violation.codeLength t.code = v := by simpa [add, hl] using ha
      exact .codeLength hl
  · intro hb
    cases hb with
    | codeLength hl => simp [add, hl]
    | codeClash hu hcode hne =>
      have hl : t.code.length = 1 := hcode ▸ ((exists_ofList_iff before).mp ⟨r, h⟩).single _ hu
      have hf := (find?_ofList h t.code _).mpr ⟨hu, hcode⟩
      simp [add, hl, hf, hne]

/-- A list is refused for its first type that breaks a rule. -/
theorem ofList_eq_error_iff {v : Violation} :
    ofList types = .error v ↔
      ∃ before t after, types = before ++ t :: after ∧ CodesApart before ∧ Breaks before t v := by
  rw [ofList, foldlM_eq_error_iff]
  constructor
  · intro h
    obtain ⟨before, t, after, r, heq, hr, ha⟩ := h
    exact ⟨before, t, after, heq, (exists_ofList_iff before).mp ⟨r, hr⟩, (add_eq_error_iff hr).mp ha⟩
  · intro h
    obtain ⟨before, t, after, heq, hbefore, hb⟩ := h
    obtain ⟨r, hr⟩ := (exists_ofList_iff before).mpr hbefore
    exact ⟨before, t, after, r, heq, hr, (add_eq_error_iff hr).mpr hb⟩

theorem exists_ofList_error_iff :
    (∃ v, ofList types = .error v) ↔
      (∃ t ∈ types, t.code.length ≠ 1) ∨ ∃ t ∈ types, ∃ u ∈ types, t ≠ u ∧ t.code = u.code := by
  have hnot : (∃ v, ofList types = .error v) ↔ ¬ CodesApart types := by
    rw [← exists_ofList_iff]
    cases ofList types <;> simp
  rw [hnot]
  constructor
  · intro h
    by_contra hnone
    obtain ⟨hlength, hclash⟩ := not_or.mp hnone
    push Not at hlength hclash
    exact h ⟨hlength, fun t ht u hu hc => by_contra fun hne => hclash t ht u hu hne hc⟩
  · intro h hapart
    rcases h with ⟨t, ht, hl⟩ | ⟨t, ht, u, hu, hne, hc⟩
    · exact hl (hapart.single t ht)
    · exact hne (hapart.apart t ht u hu hc)

end Building

section Asking

theorem resolve_eq_ok_iff (h : ofList types = .ok r) : r.resolve c = .ok t ↔ t ∈ types ∧ t.code = c := by
  rw [← find?_ofList h, resolve]
  cases r.find? c <;> simp

theorem resolve_eq_error_iff (h : ofList types = .ok r) {e : FilterError} :
    r.resolve c = .error e ↔ (∀ t ∈ types, t.code ≠ c) ∧ e = .unknownTypeCode c none := by
  have hnone : r.find? c = none ↔ ∀ t ∈ types, t.code ≠ c := by
    simp only [Option.eq_none_iff_forall_ne_some, ne_eq, find?_ofList h, not_and]
  rw [← hnone, resolve]
  cases r.find? c <;> simp [eq_comm]

theorem containsValue_eq_ok_true_iff {v : Value} :
    r.containsValue v = .ok true ↔ ∃ c t, v = .text c ∧ r.resolve c = .ok t := by
  cases v with
  | text c =>
    simp only [containsValue, contains, resolve, Except.ok.injEq, Value.text.injEq, exists_and_left, exists_eq_left']
    cases r.find? c <;> simp
  | _ =>
    simp only [containsValue]
    split <;> simp

theorem size_ofList (h : ofList types = .ok r) : r.size = types.toFinset.card := by
  induction types using List.reverseRecOn generalizing r with
  | nil =>
    obtain rfl := Except.ok.inj h
    rfl
  | append_singleton types t ih =>
    obtain ⟨s, hs, ha⟩ := foldlM_concat_eq_ok.mp h
    have hseen : s.find? t.code = some t ↔ t ∈ types := by simp [find?_ofList hs]
    rw [List.toFinset_append, List.toFinset_cons, List.toFinset_nil, insert_empty_eq, Finset.union_comm,
      ← Finset.insert_eq]
    rcases add_cases ha with ⟨hf, rfl⟩ | ⟨hf, rfl⟩
    · have hnew : t ∉ types.toFinset := by
        rw [List.mem_toFinset, ← hseen, hf]
        simp
      rw [Finset.card_insert_of_notMem hnew, ← ih hs]
      simp [size]
    · have hold : t ∈ types.toFinset := List.mem_toFinset.mpr (hseen.mp hf)
      rw [Finset.insert_eq_of_mem hold, ih hs]

/-- Two registries answer alike, whatever they are asked. -/
structure SameAnswers (r s : TypeRegistry) : Prop where
  resolve : ∀ c, r.resolve c = s.resolve c
  containsValue : ∀ v, r.containsValue v = s.containsValue v
  coerceAs : ∀ t raw, Coercion.coerceAs r t raw = Coercion.coerceAs s t raw
  size : r.size = s.size

theorem sameAnswers_of_mem_iff (hr : ofList others = .ok r) (hs : ofList types = .ok s)
    (h : ∀ t, t ∈ others ↔ t ∈ types) : SameAnswers r s := by
  have hfind : r.find? = s.find? := by
    funext c
    refine Option.ext fun t => ?_
    rw [find?_ofList hr, find?_ofList hs, h]
  have hcontains : r.contains = s.contains := by
    funext c
    rw [contains, contains, hfind]
  have hsets : others.toFinset = types.toFinset := by
    ext t
    rw [List.mem_toFinset, List.mem_toFinset, h]
  refine ⟨fun c => ?_, fun v => ?_, fun t raw => ?_, ?_⟩
  · rw [TypeRegistry.resolve, TypeRegistry.resolve, hfind]
  · cases v <;> simp only [TypeRegistry.containsValue, hcontains]
  · cases t <;> simp only [Coercion.coerceAs, hcontains]
  · rw [size_ofList hr, size_ofList hs, hsets]

end Asking

/-- A list of types is refused just when a code is not one character or two types share one, and then for the first
type that breaks a rule behind others that break none. The registry of any other list finds each of its types under
the code of the type and no type under any other code, has as many types as differ in the list, and answers like that
of any list with the same types. -/
theorem registers_each_code_once (types : List TypeEntry) :
    ((∃ v, ofList types = .error v) ↔
      (∃ t ∈ types, t.code.length ≠ 1) ∨ ∃ t ∈ types, ∃ u ∈ types, t ≠ u ∧ t.code = u.code) ∧
    (∀ v, ofList types = .error v ↔
      ∃ before t after, types = before ++ t :: after ∧ CodesApart before ∧ Breaks before t v) ∧
    ∀ r, ofList types = .ok r →
      (∀ c t, r.resolve c = .ok t ↔ t ∈ types ∧ t.code = c) ∧
      (∀ c e, r.resolve c = .error e ↔ (∀ t ∈ types, t.code ≠ c) ∧ e = .unknownTypeCode c none) ∧
      (∀ v, r.containsValue v = .ok true ↔ ∃ c t, v = .text c ∧ r.resolve c = .ok t) ∧
      r.size = types.toFinset.card ∧
      ∀ others, (∀ t, t ∈ others ↔ t ∈ types) → ∃ s, ofList others = .ok s ∧ SameAnswers s r := by
  refine ⟨exists_ofList_error_iff, fun v => ofList_eq_error_iff, fun r hr => ?_⟩
  refine ⟨fun c t => resolve_eq_ok_iff hr, fun c e => resolve_eq_error_iff hr,
    fun v => containsValue_eq_ok_true_iff, size_ofList hr, fun others hsame => ?_⟩
  have hapart := (exists_ofList_iff types).mp ⟨r, hr⟩
  obtain ⟨s, hs⟩ := (exists_ofList_iff others).mpr (hapart.of_subset fun t => (hsame t).mp)
  exact ⟨s, hs, sameAnswers_of_mem_iff hs hr hsame⟩

/-- Types that come twice, and behind them one with a code that is taken and one with a code of two characters. -/
theorem registers_each_code_once_repeated :
    let money : TypeEntry := .foreign 0 "MONEY" "M"
    let types : List TypeEntry := [.known .string, money, .known .string, money]
    let others : List TypeEntry := [money, .known .string]
    let refused : List TypeEntry := types ++ [.foreign 1 "MONEY" "M", .foreign 2 "WIDE" "MM"]
    (∃ r, ofList types = .ok r ∧ r.resolve "M" = .ok money ∧
      r.resolve "I" = .error (.unknownTypeCode "I" none) ∧ r.containsValue (.text "S") = .ok true ∧ r.size = 2 ∧
      ∃ s, ofList others = .ok s ∧ SameAnswers s r) ∧
    ofList refused = .error (.codeClash "M" "MONEY" "MONEY") := by
  intro money types others refused
  have hapart : CodesApart types := ⟨by decide, by decide⟩
  obtain ⟨r, hr⟩ := (exists_ofList_iff types).mpr hapart
  obtain ⟨-, -, hasked⟩ := registers_each_code_once types
  obtain ⟨hfound, hmissing, hmember, hsize, hsame⟩ := hasked r hr
  obtain ⟨-, hfirst, -⟩ := registers_each_code_once refused
  have hsizes : types.toFinset.card = 2 := by decide
  have hothers : ∀ t, t ∈ others ↔ t ∈ types := by
    intro t
    simp [others, types]
    tauto
  refine ⟨⟨r, hr, (hfound "M" money).mpr ⟨by decide, by decide⟩, (hmissing "I" _).mpr ⟨by decide, rfl⟩, ?_,
    hsize.trans hsizes, hsame others hothers⟩, (hfirst _).mpr ?_⟩
  · exact (hmember _).mpr ⟨"S", .known .string, rfl, (hfound "S" _).mpr ⟨by decide, by decide⟩⟩
  · exact ⟨types, .foreign 1 "MONEY" "M", [.foreign 2 "WIDE" "MM"], rfl, hapart,
      .codeClash (by decide : money ∈ types) (by decide) (by decide)⟩

end TypeRegistry

end RecordFilter
