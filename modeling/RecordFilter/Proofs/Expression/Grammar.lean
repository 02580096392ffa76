import RecordFilter.Proofs.Expression.Pieces
import RecordFilter.Proofs.Expression.Registry
import RecordFilter.Proofs.Text.Split

namespace RecordFilter.Expression

open Text

/-- An expression in three parts: kind and code before the first `_`, and what comes after it. -/
structure Parts (expression : String) (kind : List Char) (code : Char) (rest : List Char) :
    Prop where
  text : expression.toList = kind ++ code :: '_' :: rest
  kind_ne_nil : kind ≠ []
  first : '_' ∉ kind ++ [code]

def IsBlankText (expression : String) : Prop := ∀ c ∈ expression.toList, isBlank c = true

namespace Parts

variable {expression : String} {kind rest : List Char} {code : Char}

theorem mem (h : Parts expression kind code rest) : '_' ∈ expression.toList := by
  simp [h.text]

theorem afterLast_eq (h : Parts expression kind code rest) (hu : '_' ∉ rest) :
    afterLast '_' expression.toList = rest := by
  rw [h.text, ← List.singleton_append, ← List.append_assoc]
  exact afterLast_append '_' _ rest hu

end Parts

/-- How the reading of an expression ends when its types are the given ones. -/
inductive Outcome (types : List PropertyType) (expression : String) : Except Fault Criterion → Prop
  | blank (h : IsBlankText expression) :
      Outcome types expression (.error (.filter (.emptyExpression (some expression))))
  | noSeparator (hb : ¬ IsBlankText expression) (h : '_' ∉ expression.toList) :
      Outcome types expression (.error (.filter (.malformedExpression expression .noPropertyName)))
  /-- The first `_` is the first or second character. -/
  | noKind (lead rest : List Char) (ht : expression.toList = lead ++ '_' :: rest) (h : '_' ∉ lead)
      (hl : lead.length ≤ 1) :
      Outcome types expression (.error (.filter (.malformedExpression expression .noRestrictionKind)))
  | unknownCode (kind : List Char) (code : Char) (rest : List Char)
      (h : Parts expression kind code rest) (hc : ∀ t ∈ types, t.code ≠ code) :
      Outcome types expression
        (.error (.filter (.unknownTypeCode (String.singleton code) (some expression))))
  | emptyAlternative (kind : List Char) (t : PropertyType) (rest : List Char)
      (pieces : List (List Char)) (h : Parts expression kind t.code rest) (ht : t ∈ types)
      (hr : orMark <:+: rest)
      (hp : LeftmostSplit orMark rest pieces) (he : [] ∈ pieces) :
      Outcome types expression (.error (.filter (.malformedExpression expression .emptyAlternative)))
  | noName (kind : List Char) (t : PropertyType) (rest : List Char)
      (h : Parts expression kind t.code rest) (ht : t ∈ types) (hr : ¬ orMark <:+: rest)
      (he : rest = [] ∨ ['_'] <:+ rest) :
      Outcome types expression (.error (.filter (.malformedExpression expression .noPropertyName)))
  | alternatives (kind : List Char) (t : PropertyType) (rest : List Char)
      (pieces : List (List Char)) (h : Parts expression kind t.code rest) (ht : t ∈ types)
      (hr : orMark <:+: rest)
      (hp : LeftmostSplit orMark rest pieces) (he : [] ∉ pieces) :
      Outcome types expression (.ok ⟨String.ofList kind, t, pieces.map String.ofList⟩)
  /-- A single name is what comes after the last `_` of the whole expression. -/
  | single (kind : List Char) (t : PropertyType) (rest lead name : List Char)
      (h : Parts expression kind t.code rest) (ht : t ∈ types) (hr : ¬ orMark <:+: rest)
      (hn : expression.toList = lead ++ '_' :: name) (hl : '_' ∉ name) (he : name ≠ []) :
      Outcome types expression (.ok ⟨String.ofList kind, t, [String.ofList name]⟩)

theorem map_ofList_eq_iff (pieces : List (List Char)) (names : List String) :
    pieces.map String.ofList = names ↔ pieces = names.map String.toList := by
  constructor
  · intro h
    subst h
    simp [List.map_map, Function.comp_def]
  · intro h
    subst h
    simp [List.map_map, Function.comp_def]

section Names

variable {expression : String} {rest : List Char}

theorem namesOf_pieces (h : orMark <:+: rest) :
    namesOf expression rest =
      if [] ∈ splitOr rest then .error (.malformedExpression expression .emptyAlternative)
      else .ok ((splitOr rest).map String.ofList) := by
  have hl := (splitOr_leftmost rest).one_lt_length h
  have hany : (splitOr rest).any (·.isEmpty) = decide ([] ∈ splitOr rest) := by
    rw [Bool.eq_iff_iff]
    simp
  match hs : splitOr rest with
  | [] => simp [hs] at hl
  | [p] => simp [hs] at hl
  | p :: q :: ps =>
    rw [hs] at hany
    simp only [namesOf, hs, hany, decide_eq_true_eq]

theorem namesOf_single (h : ¬ orMark <:+: rest) :
    namesOf expression rest =
      if afterLast '_' expression.toList = [] then
        .error (.malformedExpression expression .noPropertyName)
      else .ok [String.ofList (afterLast '_' expression.toList)] := by
  have hs : splitOr rest = [rest] := (splitOr_leftmost rest).singleton_iff.mpr h
  simp [namesOf, hs]

theorem namesOf_pieces_iff (hr : orMark <:+: rest) {names : List String} :
    namesOf expression rest = .ok names ↔
      [] ∉ splitOr rest ∧ splitOr rest = names.map String.toList := by
  rw [namesOf_pieces hr]
  split_ifs with he
  · simp [he]
  · simp [he, map_ofList_eq_iff]

theorem namesOf_single_iff (hr : ¬ orMark <:+: rest) {names : List String} :
    namesOf expression rest = .ok names ↔
      afterLast '_' expression.toList ≠ [] ∧
        names = [String.ofList (afterLast '_' expression.toList)] := by
  rw [namesOf_single hr]
  split_ifs with he
  · simp [he]
  · simp [he, eq_comm]

/-- Whatever is read has names, none of them empty. -/
theorem nonempty_of_namesOf {names : List String} (h : namesOf expression rest = .ok names) :
    names ≠ [] ∧ ∀ name ∈ names, name ≠ "" := by
  by_cases hr : orMark <:+: rest
  · obtain ⟨he, hs⟩ := (namesOf_pieces_iff hr).mp h
    have hne := (splitOr_leftmost rest).ne_nil
    rw [hs] at he hne
    refine ⟨by simpa using hne, ?_⟩
    intro name hm hname
    subst hname
    exact he (List.mem_map.mpr ⟨"", hm, by simp⟩)
  · obtain ⟨he, rfl⟩ := (namesOf_single_iff hr).mp h
    simpa using he

end Names

section Reading

variable {expression : String} {registry : TypeRegistry} {kind rest : List Char} {code : Char}

theorem allBlank_iff : allBlank expression.toList = true ↔ IsBlankText expression := by
  simp [allBlank, IsBlankText]

theorem not_isBlankText_of_mem (h : '_' ∈ expression.toList) : ¬ IsBlankText expression := by
  intro hb
  have hu : isBlank '_' = true := hb '_' h
  simp [isBlank, blankPoints] at hu

theorem parse_of_blank (h : IsBlankText expression) :
    parse expression registry = .error (.filter (.emptyExpression (some expression))) := by
  rw [parse, if_pos (allBlank_iff.mpr h)]

theorem parse_of_not_mem (hb : ¬ IsBlankText expression) (h : '_' ∉ expression.toList) :
    parse expression registry =
      .error (.filter (.malformedExpression expression .noPropertyName)) := by
  rw [parse, if_neg (mt allBlank_iff.mp hb), cutAt_of_not_mem '_' _ h]

theorem parse_of_short_lead {lead : List Char} (ht : expression.toList = lead ++ '_' :: rest)
    (h : '_' ∉ lead) (hl : lead.length ≤ 1) :
    parse expression registry =
      .error (.filter (.malformedExpression expression .noRestrictionKind)) := by
  have hb : ¬ IsBlankText expression := not_isBlankText_of_mem (by simp [ht])
  have hc : cutAt '_' expression.toList = (lead, some rest) := ht ▸ cutAt_append '_' lead rest h
  rw [parse, if_neg (mt allBlank_iff.mp hb), hc]
  match lead with
  | [] => rfl
  | [c] => rfl
  | _ :: _ :: _ => simp at hl

/-- What an expression in three parts is read as: its code is looked up, and then its names are read. -/
def readParts (expression : String) (registry : TypeRegistry) (kind : List Char) (code : Char)
    (rest : List Char) : Except Fault Criterion :=
  match registry.find? (String.singleton code) with
  | none => .error (.filter (.unknownTypeCode (String.singleton code) (some expression)))
  | some type =>
    match namesOf expression rest with
    | .error e => .error (.filter e)
    | .ok names =>
      match type with
      | .known t => .ok ⟨String.ofList kind, t, names⟩
      | .foreign _ name _ => .error (.violation (.notPropertyType name))

theorem parse_of_parts (h : Parts expression kind code rest) :
    parse expression registry = readParts expression registry kind code rest := by
  have hb : ¬ IsBlankText expression := not_isBlankText_of_mem h.mem
  have hc : cutAt '_' expression.toList = (kind ++ [code], some rest) := by
    rw [h.text, ← cutAt_append '_' (kind ++ [code]) rest h.first, List.append_assoc,
      List.singleton_append]
  rw [parse, if_neg (mt allBlank_iff.mp hb), hc]
  have hk : (kind ++ [code]).reverse = code :: kind.reverse := by simp
  simp only [hk]
  match hr : kind.reverse with
  | [] => exact absurd (List.reverse_eq_nil_iff.mp hr) h.kind_ne_nil
  | d :: ds =>
    have hd : (d :: ds).reverse = kind := by rw [← hr, List.reverse_reverse]
    subst hd
    rfl

/-- Every text is blank, or lacks a `_`, or has one too early, or is in three parts. -/
theorem blank_or_parts (expression : String) :
    IsBlankText expression ∨ (¬ IsBlankText expression ∧ '_' ∉ expression.toList) ∨
      (∃ lead rest, expression.toList = lead ++ '_' :: rest ∧ '_' ∉ lead ∧ lead.length ≤ 1) ∨
      ∃ kind code rest, Parts expression kind code rest := by
  by_cases hm : '_' ∈ expression.toList
  · right; right
    obtain ⟨lead, rest, ht, hl⟩ := List.eq_append_cons_of_mem hm
    rcases List.eq_nil_or_concat' lead with rfl | ⟨kind, code, rfl⟩
    · exact .inl ⟨[], rest, ht, hl, by simp⟩
    · by_cases hk : kind = []
      · exact .inl ⟨_, rest, ht, hl, by simp [hk]⟩
      · exact .inr ⟨kind, code, rest, by simp [ht], hk, hl⟩
  · by_cases hb : IsBlankText expression
    · exact .inl hb
    · exact .inr (.inl ⟨hb, hm⟩)

/-- An expression is read exactly when it is in three parts, its code is that of a property type, and
its names are read. -/
theorem parse_eq_ok_iff {c : Criterion} :
    parse expression registry = .ok c ↔
      ∃ code rest, Parts expression c.kind.toList code rest ∧
        registry.find? (String.singleton code) = some (.known c.type) ∧
        namesOf expression rest = .ok c.names := by
  constructor
  · intro hp
    rcases blank_or_parts expression with
      hb | ⟨hb, hm⟩ | ⟨lead, rest, ht, h, hl⟩ | ⟨kind, code, rest, h⟩
    · simp [parse_of_blank hb] at hp
    · simp [parse_of_not_mem hb hm] at hp
    · simp [parse_of_short_lead ht h hl] at hp
    · rw [parse_of_parts h, readParts] at hp
      cases hf : registry.find? (String.singleton code) with
      | none => simp [hf] at hp
      | some u =>
        cases hn : namesOf expression rest with
        | error e => simp [hf, hn] at hp
        | ok names =>
          cases u with
          | foreign serial name code => simp [hf, hn] at hp
          | known t =>
            simp only [hf, hn, Except.ok.injEq] at hp
            subst hp
            exact ⟨code, rest, by simpa using h, hf, hn⟩
  · intro hh
    obtain ⟨code, rest, h, hf, hn⟩ := hh
    rw [parse_of_parts h, readParts, hf]
    simp [hn]

variable {t : PropertyType}

theorem parse_unknown (h : Parts expression kind code rest)
    (hf : registry.find? (String.singleton code) = none) :
    parse expression registry =
      .error (.filter (.unknownTypeCode (String.singleton code) (some expression))) := by
  rw [parse_of_parts h, readParts, hf]

theorem parse_known (h : Parts expression kind t.code rest)
    (hf : registry.find? (String.singleton t.code) = some (.known t)) :
    parse expression registry =
      ((namesOf expression rest).mapError Fault.filter).map (Criterion.mk (String.ofList kind) t) := by
  rw [parse_of_parts h, readParts, hf]
  cases namesOf expression rest <;> rfl

end Reading

section Outcomes

variable {types : List PropertyType} {expression : String} {registry : TypeRegistry}

/-- The text after the last `_` is empty when nothing follows the first one, or a `_` ends it all. -/
theorem afterLast_eq_nil_iff {kind rest : List Char} {code : Char}
    (h : Parts expression kind code rest) :
    afterLast '_' expression.toList = [] ↔ rest = [] ∨ ['_'] <:+ rest := by
  constructor
  · intro he
    obtain ⟨lead, hl, _⟩ := exists_append_afterLast '_' _ h.mem
    rw [he] at hl
    rcases List.eq_nil_or_concat' rest with hr | ⟨init, c, hr⟩
    · exact .inl hr
    · have hlast : (kind ++ code :: '_' :: init) ++ [c] = lead ++ ['_'] := by
        rw [← hl, h.text, hr, List.append_assoc, List.cons_append, List.cons_append]
      have hc : [c] = ['_'] := List.append_inj_right' hlast rfl
      exact .inr ⟨init, by rw [hr, hc]⟩
  · intro hh
    rcases hh with rfl | ⟨init, rfl⟩
    · exact h.afterLast_eq (by simp)
    · have ht : expression.toList = (kind ++ code :: '_' :: init) ++ '_' :: [] := by simp [h.text]
      rw [ht]
      exact afterLast_append '_' _ [] (by simp)

theorem find?_known (hr : TypeRegistry.ofList (types.map .known) = .ok registry) {t : PropertyType}
    (ht : t ∈ types) : registry.find? (String.singleton t.code) = some (.known t) :=
  (TypeRegistry.find?_ofList hr _ _).mpr ⟨List.mem_map_of_mem ht, rfl⟩

theorem find?_eq_none (hr : TypeRegistry.ofList (types.map .known) = .ok registry) {code : Char}
    (hc : ∀ t ∈ types, t.code ≠ code) : registry.find? (String.singleton code) = none := by
  rw [Option.eq_none_iff_forall_ne_some]
  intro u hu
  obtain ⟨hm, hcode⟩ := (TypeRegistry.find?_ofList hr _ u).mp hu
  obtain ⟨t, ht, rfl⟩ := List.mem_map.mp hm
  exact hc t ht (by simpa [TypeEntry.code] using hcode)

theorem Outcome.parse_eq (hr : TypeRegistry.ofList (types.map .known) = .ok registry)
    {result : Except Fault Criterion} (h : Outcome types expression result) :
    parse expression registry = result := by
  cases h with
  | blank h => exact parse_of_blank h
  | noSeparator hb h => exact parse_of_not_mem hb h
  | noKind lead rest ht h hl => exact parse_of_short_lead ht h hl
  | unknownCode kind code rest h hc => exact parse_unknown h (find?_eq_none hr hc)
  | emptyAlternative kind t rest pieces h ht hm hp he =>
    have hs : splitOr rest = pieces := (splitOr_eq_iff rest pieces).mpr hp
    rw [parse_known h (find?_known hr ht), namesOf_pieces hm, hs, if_pos he]
    rfl
  | noName kind t rest h ht hm he =>
    have ha : afterLast '_' expression.toList = [] := (afterLast_eq_nil_iff h).mpr he
    rw [parse_known h (find?_known hr ht), namesOf_single hm, if_pos ha]
    rfl
  | alternatives kind t rest pieces h ht hm hp he =>
    have hs : splitOr rest = pieces := (splitOr_eq_iff rest pieces).mpr hp
    rw [parse_known h (find?_known hr ht), namesOf_pieces hm, hs, if_neg he]
    rfl
  | single kind t rest lead name h ht hm hn hl he =>
    have ha : afterLast '_' expression.toList = name := hn ▸ afterLast_append '_' lead name hl
    rw [parse_known h (find?_known hr ht), namesOf_single hm, ha, if_neg he]
    rfl

/-- An expression with a known code ends in one of the four ways its names can be read. -/
theorem exists_outcome_of_parts {kind rest : List Char} {t : PropertyType}
    (h : Parts expression kind t.code rest) (ht : t ∈ types) :
    ∃ result, Outcome types expression result := by
  by_cases hm : orMark <:+: rest
  · by_cases he : [] ∈ splitOr rest
    · exact ⟨_, .emptyAlternative kind t rest _ h ht hm (splitOr_leftmost rest) he⟩
    · exact ⟨_, .alternatives kind t rest _ h ht hm (splitOr_leftmost rest) he⟩
  · by_cases he : afterLast '_' expression.toList = []
    · exact ⟨_, .noName kind t rest h ht hm ((afterLast_eq_nil_iff h).mp he)⟩
    · obtain ⟨lead, hl, hn⟩ := exists_append_afterLast '_' expression.toList h.mem
      exact ⟨_, .single kind t rest lead _ h ht hm hl hn he⟩

theorem exists_outcome (types : List PropertyType) (expression : String) :
    ∃ result, Outcome types expression result := by
  rcases blank_or_parts expression with
    hb | ⟨hb, hm⟩ | ⟨lead, rest, ht, h, hl⟩ | ⟨kind, code, rest, h⟩
  · exact ⟨_, .blank hb⟩
  · exact ⟨_, .noSeparator hb hm⟩
  · exact ⟨_, .noKind lead rest ht h hl⟩
  · by_cases hc : ∃ t ∈ types, t.code = code
    · obtain ⟨t, ht, rfl⟩ := hc
      exact exists_outcome_of_parts h ht
    · exact ⟨_, .unknownCode kind code rest h (fun t ht he => hc ⟨t, ht, he⟩)⟩

theorem make_of_nonempty {c : Criterion} (hk : c.kind ≠ "") (hn : c.names ≠ [])
    (he : ∀ name ∈ c.names, name ≠ "") : Criterion.make c.kind (.ok c.type) c.names = .ok c := by
  have hany : c.names.any (·.isEmpty) = false := by
    rw [List.any_eq_false]
    intro name hm
    simpa using he name hm
  simp [Criterion.make, hk, hn, hany]

/-- The reader ends as the grammar says and in no other way, and what it returns passes the checks
of a criterion. -/
theorem parse_eq_iff_outcome (types : List PropertyType) :
    ∃ registry, TypeRegistry.ofList (types.map .known) = .ok registry ∧
      ∀ expression : String,
        (∀ result, parse expression registry = result ↔ Outcome types expression result) ∧
        ∀ c, parse expression registry = .ok c →
          c.kind ≠ "" ∧ c.names ≠ [] ∧ (∀ name ∈ c.names, name ≠ "") ∧
            Criterion.make c.kind (.ok c.type) c.names = .ok c := by
  obtain ⟨registry, hr⟩ := TypeRegistry.exists_ofList_known types
  refine ⟨registry, hr, fun expression => ?_⟩
  have hiff : ∀ result, parse expression registry = result ↔ Outcome types expression result := by
    intro result
    constructor
    · intro hp
      obtain ⟨result', ho⟩ := exists_outcome types expression
      rw [← hp, ho.parse_eq hr]
      exact ho
    · exact fun ho => ho.parse_eq hr
  refine ⟨hiff, fun c hc => ?_⟩
  obtain ⟨code, rest, hp, _, hnames⟩ := parse_eq_ok_iff.mp hc
  have hk : c.kind ≠ "" := by simpa using hp.kind_ne_nil
  obtain ⟨hn, he⟩ := nonempty_of_namesOf hnames
  exact ⟨hk, hn, he, make_of_nonempty hk hn he⟩

end Outcomes

end RecordFilter.Expression
