import RecordFilter.Proofs.Expression.Grammar

namespace RecordFilter.Expression

open Text

/-- Names that come out of their joined text as they went in. -/
def Separable (names : List String) : Prop :=
  (∃ name, names = [name] ∧ '_' ∉ name.toList) ∨
    (2 ≤ names.length ∧ (∀ name ∈ names, ¬ orMark <:+: name.toList) ∧
      ∀ name ∈ names.dropLast, ¬ ['_', 'O', 'R'] <:+ name.toList)

/-- The text that the names of a criterion are written as. -/
def joined (names : List String) : List Char := orMark.intercalate (names.map String.toList)

theorem toList_render (c : Criterion) :
    (render c).toList = c.kind.toList ++ c.type.code :: '_' :: joined c.names := by
  have hm : "_OR_".toList = orMark := by decide
  simp [render, toList_join, joined, hm]

theorem parts_render {c : Criterion} (hk : c.kind ≠ "") (hu : '_' ∉ c.kind.toList) :
    Parts (render c) c.kind.toList c.type.code (joined c.names) where
  text := toList_render c
  kind_ne_nil := by simpa using hk
  first := by
    have hc : c.type.code ≠ '_' := by cases c.type <;> decide
    simp [hu, hc.symm]

section Names

variable {expression : String} {kind rest : List Char} {code : Char} {names : List String}

/-- A single name is read back when nothing in it is taken for what comes before the name. -/
theorem namesOf_joined_single {name : String} (h : Parts expression kind code (joined [name]))
    (he : name ≠ "") : namesOf expression (joined [name]) = .ok [name] ↔ '_' ∉ name.toList := by
  have hj : joined [name] = name.toList := List.intercalate_singleton
  rw [hj] at h ⊢
  by_cases hr : orMark <:+: name.toList
  · have hu : '_' ∈ name.toList := hr.subset (by decide)
    have hl := (splitOr_leftmost name.toList).one_lt_length hr
    rw [namesOf_pieces_iff hr]
    constructor
    · intro hh
      obtain ⟨_, hs⟩ := hh
      simp [hs] at hl
    · exact fun h => absurd hu h
  · rw [namesOf_single_iff hr]
    constructor
    · intro hh
      obtain ⟨_, hn⟩ := hh
      have ha : name.toList = afterLast '_' expression.toList := by
        simpa using congrArg String.toList (List.singleton_inj.mp hn)
      obtain ⟨_, _, hm⟩ := exists_append_afterLast '_' expression.toList h.mem
      rwa [ha]
    · intro hu
      simp [h.afterLast_eq hu, he]

theorem orMark_infix_joined (h : 2 ≤ names.length) : orMark <:+: joined names := by
  match names with
  | [] => simp at h
  | [_] => simp at h
  | a :: b :: rest =>
    rw [joined, List.map_cons, List.map_cons, List.intercalate_cons_cons]
    exact List.infix_append a.toList orMark _

theorem splitOr_joined_iff (h : names ≠ []) :
    splitOr (joined names) = names.map String.toList ↔
      (∀ name ∈ names, ¬ orMark <:+: name.toList) ∧
        ∀ name ∈ names.dropLast, ¬ ['_', 'O', 'R'] <:+ name.toList := by
  rw [joined, splitOr_intercalate_iff _ (by simpa using h), ← List.map_dropLast]
  simp only [List.forall_mem_map]

/-- Joined names are read back exactly when they can be told apart. -/
theorem namesOf_joined_iff (h : Parts expression kind code (joined names)) (hn : names ≠ [])
    (he : ∀ name ∈ names, name ≠ "") :
    namesOf expression (joined names) = .ok names ↔ Separable names := by
  match names with
  | [] => exact absurd rfl hn
  | [name] =>
    rw [namesOf_joined_single h (he name (by simp))]
    simp [Separable]
  | a :: b :: rest =>
    have hl : 2 ≤ (a :: b :: rest).length := by simp
    have hne : [] ∉ (a :: b :: rest).map String.toList := by
      intro hm
      obtain ⟨name, hmem, hnil⟩ := List.mem_map.mp hm
      exact he name hmem (by simpa using hnil)
    rw [namesOf_pieces_iff (orMark_infix_joined hl)]
    constructor
    · intro hh
      obtain ⟨_, hs⟩ := hh
      exact .inr ⟨hl, (splitOr_joined_iff hn).mp hs⟩
    · intro hh
      rcases hh with ⟨name, hname, _⟩ | ⟨_, hs⟩
      · simp at hname
      · have hsplit := (splitOr_joined_iff hn).mpr hs
        exact ⟨hsplit ▸ hne, hsplit⟩

/-- Names that were read can be told apart, and are written as they stood when the text after the
first `_` is all theirs. -/
theorem separable_of_namesOf (h : Parts expression kind code rest)
    (hn : namesOf expression rest = .ok names) :
    Separable names ∧ (orMark <:+: rest ∨ '_' ∉ rest → joined names = rest) := by
  by_cases hr : orMark <:+: rest
  · obtain ⟨_, hs⟩ := (namesOf_pieces_iff hr).mp hn
    have hsplit := splitOr_leftmost rest
    have hj : joined names = rest := by rw [joined, ← hs, hsplit.intercalate_eq]
    have hlen : 2 ≤ names.length := by
      have hl := hsplit.one_lt_length hr
      rwa [hs, List.length_map] at hl
    have hne : names ≠ [] := by
      intro h
      subst h
      simp at hlen
    exact ⟨.inr ⟨hlen, (splitOr_joined_iff hne).mp (hj ▸ hs)⟩, fun _ => hj⟩
  · obtain ⟨_, rfl⟩ := (namesOf_single_iff hr).mp hn
    obtain ⟨_, _, hm⟩ := exists_append_afterLast '_' expression.toList h.mem
    refine ⟨.inl ⟨_, rfl, by simpa using hm⟩, ?_⟩
    intro hh
    rcases hh with hr' | hu
    · exact absurd hr' hr
    · simp [joined, h.afterLast_eq hu]

end Names

/-- What a criterion is written as is read as that criterion exactly when its names can be told apart. -/
theorem parse_render_eq_iff {types : List TypeEntry} {registry : TypeRegistry}
    (hr : TypeRegistry.ofList types = .ok registry) {c : Criterion} (hk : c.kind ≠ "")
    (hu : '_' ∉ c.kind.toList) (ht : .known c.type ∈ types) (hn : c.names ≠ [])
    (he : ∀ name ∈ c.names, name ≠ "") :
    parse (render c) registry = .ok c ↔ Separable c.names := by
  have hp : Parts (render c) c.kind.toList c.type.code (joined c.names) := parts_render hk hu
  have hf : registry.find? (String.singleton c.type.code) = some (.known c.type) :=
    (TypeRegistry.find?_ofList hr _ _).mpr ⟨ht, rfl⟩
  rw [parse_known hp hf, ← namesOf_joined_iff hp hn he, String.ofList_toList]
  cases namesOf (render c) (joined c.names) with
  | error e => simp [Except.mapError, Except.map]
  | ok names =>
    simp only [Except.mapError, Except.map, Except.ok.injEq]
    constructor
    · exact fun h => congrArg Criterion.names h
    · intro h
      subst h
      rfl

/-- Writing is undone by reading, within what joined names can tell; what was read is read again
from its written form, and that form is the text it was read from unless something stood before a
single name. -/
theorem render_roundTrip (types : List TypeEntry) (registry : TypeRegistry)
    (hr : TypeRegistry.ofList types = .ok registry) :
    (∀ c : Criterion, (render c).toList =
      c.kind.toList ++ c.type.code :: '_' :: orMark.intercalate (c.names.map String.toList)) ∧
    (∀ c : Criterion, c.kind ≠ "" → '_' ∉ c.kind.toList → .known c.type ∈ types → c.names ≠ [] →
      (∀ name ∈ c.names, name ≠ "") → (parse (render c) registry = .ok c ↔ Separable c.names)) ∧
    ∀ expression c, parse expression registry = .ok c →
      parse (render c) registry = .ok c ∧
      ∀ lead rest, expression.toList = lead ++ '_' :: rest → '_' ∉ lead →
        orMark <:+: rest ∨ '_' ∉ rest → render c = expression := by
  refine ⟨toList_render, fun c hk hu ht hn he => parse_render_eq_iff hr hk hu ht hn he, ?_⟩
  intro expression c hc
  obtain ⟨code, rest, hp, hf, hnames⟩ := parse_eq_ok_iff.mp hc
  obtain ⟨hmem, hcode⟩ := (TypeRegistry.find?_ofList hr _ _).mp hf
  have hcode : c.type.code = code := by simpa [TypeEntry.code] using hcode
  subst hcode
  obtain ⟨hsep, hjoined⟩ := separable_of_namesOf hp hnames
  obtain ⟨hne, hall⟩ := nonempty_of_namesOf hnames
  have hk : c.kind ≠ "" := by simpa using hp.kind_ne_nil
  have hu : '_' ∉ c.kind.toList := fun h => hp.first (List.mem_append_left _ h)
  refine ⟨(parse_render_eq_iff hr hk hu hmem hne hall).mpr hsep, ?_⟩
  intro lead rest' ht hl hrest
  have hcut : (c.kind.toList ++ [c.type.code], some rest) = (lead, some rest') := by
    rw [← cutAt_append '_' _ rest hp.first, ← cutAt_append '_' lead rest' hl, ← ht, hp.text]
    simp
  obtain ⟨_, rfl⟩ : _ ∧ rest = rest' := by simpa using hcut
  rw [← String.toList_inj, toList_render, hjoined hrest, hp.text]

/-- A name may share letters with the mark, but one that ends in most of it takes the start of the
next name with it. -/
theorem render_roundTrip_near_mark :
    TypeRegistry.ofList (PropertyType.all.map .known) = .ok .standard ∧
    parse (render ⟨"NE", .integer, ["a_O", "R_b"]⟩) .standard = .ok ⟨"NE", .integer, ["a_O", "R_b"]⟩ ∧
    parse (render ⟨"NE", .integer, ["a_OR", "b"]⟩) .standard ≠ .ok ⟨"NE", .integer, ["a_OR", "b"]⟩ := by
  have hr : TypeRegistry.ofList (PropertyType.all.map .known) = .ok .standard := rfl
  have hrt := (render_roundTrip (PropertyType.all.map .known) .standard hr).2.1
  have hnear : Separable ["a_O", "R_b"] := .inr (by decide)
  have htaken : ¬ Separable ["a_OR", "b"] := by
    intro h
    rcases h with ⟨name, hname, _⟩ | ⟨_, _, hs⟩
    · simp at hname
    · exact hs "a_OR" (by decide) (by decide)
  refine ⟨hr, ?_, ?_⟩
  · exact (hrt ⟨"NE", .integer, ["a_O", "R_b"]⟩ (by decide) (by decide) (by decide) (by decide)
      (by decide)).mpr hnear
  · exact mt (hrt ⟨"NE", .integer, ["a_OR", "b"]⟩ (by decide) (by decide) (by decide) (by decide)
      (by decide)).mp htaken

end RecordFilter.Expression
