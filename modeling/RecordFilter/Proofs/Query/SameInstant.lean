import Mathlib
import RecordFilter.Proofs.Calendar.Reading
import RecordFilter.Proofs.Query.Matching
import RecordFilter.Proofs.Query.Parameters
import RecordFilter.Proofs.Query.Refusal

namespace RecordFilter

open Calendar

namespace Value

/-- A date, or a date and time without an offset or with one of whole minutes. -/
def IsMoment : Value → Prop
  | .date _ | .dateTime _ none => True
  | .dateTime _ (some offset) | .zoned _ offset => Reading.IsWholeMinutes offset
  | _ => False

variable {w : Value}

theorem IsMoment.shape (hw : w.IsMoment) :
    (∃ d, w = .date d) ∨ ∃ t offset, (∀ o ∈ offset, Reading.IsWholeMinutes o) ∧
      (w = .dateTime t offset ∨ ∃ o, offset = some o ∧ w = .zoned t o) := by
  cases w with
  | date d => exact .inl ⟨d, rfl⟩
  | dateTime t offset =>
    refine .inr ⟨t, offset, ?_, .inl rfl⟩
    rintro o rfl
    exact hw
  | zoned t offset =>
    refine .inr ⟨t, some offset, ?_, .inr ⟨offset, rfl, rfl⟩⟩
    rintro o ⟨⟩
    exact hw
  | _ => exact hw.elim

theorem IsMoment.exists_reading (hw : w.IsMoment) :
    ∃ reading, Reading.ofText (Text.trim w.render.toList) = .ok reading := by
  rcases hw.shape with ⟨d, rfl⟩ | ⟨t, offset, hminutes, rfl | ⟨o, rfl, rfl⟩⟩
  · exact ⟨_, Reading.ofText_date d⟩
  · exact ⟨_, Reading.ofText_textWith t hminutes⟩
  · exact ⟨_, Reading.ofText_textWith t hminutes⟩

theorem IsMoment.not_allBlank (hw : w.IsMoment) : ¬ Text.allBlank w.render.toList = true := by
  intro hb
  obtain ⟨reading, hreading⟩ := hw.exists_reading
  rw [Text.trim_eq_nil_iff.mpr hb] at hreading
  cases hreading

/-- No character of what shows a date or a time divides match texts. -/
theorem IsMoment.not_comma_mem (hw : w.IsMoment) : ',' ∉ w.render.toList := by
  have hmarks : ∀ c ∈ w.render.toList, Reading.isMomentMark c = true := by
    rcases hw.shape with ⟨d, rfl⟩ | ⟨t, offset, hminutes, rfl | ⟨o, rfl, rfl⟩⟩
    · exact Reading.isMomentMark_text_date d
    · exact Reading.isMomentMark_textWith t hminutes
    · exact Reading.isMomentMark_textWith t hminutes
  intro hmem
  exact absurd (hmarks ',' hmem) (by decide)

theorem IsMoment.ne_null (hw : w.IsMoment) : w ≠ .null := by
  rintro rfl
  exact hw

theorem IsMoment.exists_instant? (hw : w.IsMoment) : ∃ n, w.instant? = some n := by
  rcases hw.shape with ⟨d, rfl⟩ | ⟨t, offset, -, rfl | ⟨o, rfl, rfl⟩⟩
  · exact ⟨_, rfl⟩
  · cases offset <;> exact ⟨_, rfl⟩
  · exact ⟨_, rfl⟩

end Value

namespace Instant

variable {w : Value}

/-- The text that shows a date or a time denotes the same instant. -/
theorem ofText_render (hw : w.IsMoment) : ofText w.render = ofValue w := by
  rcases hw.shape with ⟨d, rfl⟩ | ⟨t, offset, hminutes, rfl | ⟨o, rfl, rfl⟩⟩
  · rw [ofText, read_eq, Value.render, Reading.ofText_date]
    rfl
  · rw [ofText, read_eq, Value.render, Reading.ofText_textWith t hminutes]
    cases offset <;> rfl
  · rw [ofText, read_eq, Value.render, Reading.ofText_textWith t hminutes]
    rfl

theorem eq_overflow_of_ofValue (hw : w.IsMoment) {f : Fault} (h : ofValue w = .error f) :
    f = .overflow := by
  obtain ⟨n, hn⟩ := hw.exists_instant?
  exact ((ofValue_eq_error_iff hn).mp h).2

end Instant

namespace Predicate

variable {a a' v : Value} {vs : List Value} {r r' : Record} {path : String} {o : Operator}

/-- Beside a date, a record value is read as the instant that it denotes. -/
theorem normalize_of_date (hv : PropertyType.date.Admits v) (h : Instant.ofValue a = Instant.ofValue a') :
    normalize a v = normalize a' v := by
  obtain ⟨t, rfl⟩ := hv
  rw [normalize, normalize, h]

theorem sameAsOne_of_dates (hvs : ∀ v ∈ vs, PropertyType.date.Admits v)
    (h : Instant.ofValue a = Instant.ofValue a') : sameAsOne a vs = sameAsOne a' vs := by
  induction vs with
  | nil => rfl
  | cons v vs ih =>
    have hv : sameAs a v = sameAs a' v := by
      rw [sameAs, sameAs, normalize_of_date (hvs v (by simp)) h]
    have hrest : sameAsOne a vs = sameAsOne a' vs := ih fun u hu => hvs u (by simp [hu])
    rw [sameAsOne, sameAsOne, hv, hrest]

/-- An operator that does not compare texts tells two values of one instant not apart. -/
theorem test_of_dates {types : TypeRegistry} {text name : String} (ho : o ∉ Operator.onText)
    (hv : Coercion.matchValue .date text name o types = .ok v)
    (h : Instant.ofValue a = Instant.ofValue a') : test o a v = test o a' v := by
  have hone : ∀ o ∈ Operator.comparing, o.takesSet = false := by decide
  have hv := admits_of_matchValue hv
  rcases o.onText_or_comparing_or_set with htext | hcomparing | rfl | rfl
  · exact absurd htext ho
  · rw [hone o hcomparing] at hv
    rw [test_of_comparing hcomparing, test_of_comparing hcomparing, normalize_of_date hv h]
  · obtain ⟨vs, rfl, -, hvs⟩ := hv
    rw [test_isIn, test_isIn, sameAsOne_of_dates hvs h]
  · obtain ⟨vs, rfl, -, hvs⟩ := hv
    rw [test_notIn, test_notIn, sameAsOne_of_dates hvs h]

end Predicate

namespace Coercion

variable {w : Value} {types : TypeRegistry}

/-- The text that shows a date or a time is a match text of its instant. -/
theorem coerce_render (hw : w.IsMoment) :
    coerce .date w.render = (Instant.ofValue w).map fun t => .zoned t 0 := by
  have htext := Instant.ofText_render hw
  rw [coerce, toDate, if_neg hw.not_allBlank, htext]
  cases h : Instant.ofValue w with
  | ok t => rfl
  | error f =>
    obtain rfl := Instant.eq_overflow_of_ofValue hw h
    rfl

/-- So it is for every operator: with one value to choose from, where the operator takes several. -/
theorem matchValue_render (hw : w.IsMoment) (o : Operator) (name : String)
    (htypes : types.contains (TypeEntry.known .date).code = true) :
    matchValue .date w.render name o types =
      (Instant.ofValue w).map fun t => if o.takesSet then .list [.zoned t 0] else .zoned t 0 := by
  have hcoerce : coerceAs types (.known .date) w.render = (Instant.ofValue w).map fun t => .zoned t 0 := by
    rw [coerceAs_of_contains htypes, coerce_render hw]
  have hpiece : Text.pieces ',' w.render = [w.render] := Text.pieces_of_not_mem ',' _ hw.not_comma_mem
  rw [matchValue]
  simp only [hpiece, hcoerce, List.mapM_cons, List.mapM_nil]
  cases h : Instant.ofValue w with
  | ok t => cases o <;> rfl
  | error f =>
    obtain rfl := Instant.eq_overflow_of_ofValue hw h
    cases o <;> rfl

end Coercion

namespace Parameters

variable {params : Parameters} {ignoreEmpty : Bool} {registry : TypeRegistry} {expression : String} {w : Value}

/-- A date or a time given for an expression becomes an entry with the text that shows it. -/
theorem exists_entry_of_isMoment {es : List Entry} (hw : w.IsMoment)
    (h : params.entries ignoreEmpty registry = .ok es) (hp : (expression, w) ∈ params) :
    ∃ c, Expression.parse expression registry = .ok c ∧ ⟨c, w.render⟩ ∈ es := by
  have htext : matchTextOf w = .ok w.render := by
    rcases hw.shape with ⟨d, rfl⟩ | ⟨t, offset, -, rfl | ⟨o, rfl, rfl⟩⟩
    · rfl
    · rfl
    · rfl
  have hkept : ¬ (ignoreEmpty = true ∧ isEmptyValue w = .ok true) := by
    intro hh
    have hempty := Except.ok.inj (htext.symm.trans (isEmptyValue_eq_true_iff.mp hh.2))
    exact hw.not_allBlank (by rw [hempty]; rfl)
  obtain ⟨⟨c, text⟩, hmem, he⟩ := exists_entryOf_of_mem h hp hkept
  obtain ⟨hc, htext'⟩ := entryOf_eq_ok_iff.mp he
  obtain rfl := Except.ok.inj (htext.symm.trans htext')
  exact ⟨c, hc, hmem⟩

end Parameters

namespace Predicate

/-- A date or a time denotes one instant, by itself and by the text that shows it, unless that leaves the
calendar. Records that hold it, its text, or the same instant with another offset, shown or written in any
form, compare alike with match values that are dates, and as a parameter it is read as that instant. -/
theorem compares_by_instant (w : Value) (hw : w.IsMoment) :
    ∃ n, w.instant? = some n ∧
      (∀ t, Instant.ofValue w = .ok t ↔ (t.micros : Int) = n) ∧
      (∀ f, Instant.ofValue w = .error f ↔ (n < 0 ∨ (DateTime.span : Int) ≤ n) ∧ f = .overflow) ∧
      Instant.ofValue (.text w.render) = Instant.ofValue w ∧
      (∀ w', w'.IsMoment → w'.instant? = some n → ∀ s, Instant.ofText s = Instant.ofValue w →
        ∀ a ∈ [w, .text w.render, w', .text w'.render, .text s],
          ∀ r r' path, Path.resolve r path = some w → Path.resolve r' path = some a →
            ∀ o ∉ Operator.onText, ∀ text name types v,
              Coercion.matchValue .date text name o types = .ok v →
                compares o path v r = compares o path v r') ∧
      ∀ params ignoreEmpty registry es expression,
        Parameters.entries params ignoreEmpty registry = .ok es → (expression, w) ∈ params →
          ∃ c, Expression.parse expression registry = .ok c ∧ ⟨c, w.render⟩ ∈ es ∧
            ∀ o name types, types.contains (TypeEntry.known .date).code = true →
              Coercion.matchValue .date w.render name o types =
                (Instant.ofValue w).map fun t => if o.takesSet then .list [.zoned t 0] else .zoned t 0 := by
  obtain ⟨n, hn⟩ := hw.exists_instant?
  have htext : ∀ u : Value, u.IsMoment → Instant.ofValue (.text u.render) = Instant.ofValue u := by
    intro u hu
    rw [Instant.ofValue_text, Instant.ofText_render hu]
  refine ⟨n, hn, fun t => Instant.ofValue_eq_ok_iff hn, fun f => Instant.ofValue_eq_error_iff hn, htext w hw,
    ?_, ?_⟩
  · intro w' hw' hn' s hs a ha r r' path hr hr' o ho text name types v hv
    have hsame : Instant.ofValue w' = Instant.ofValue w := by
      rw [Instant.ofValue_of_instant? hn, Instant.ofValue_of_instant? hn']
    have hinstant : Instant.ofValue w = Instant.ofValue a ∧ a ≠ .null := by
      simp only [List.mem_cons, List.not_mem_nil, or_false] at ha
      rcases ha with rfl | rfl | rfl | rfl | rfl
      · exact ⟨rfl, hw.ne_null⟩
      · exact ⟨(htext w hw).symm, by simp⟩
      · exact ⟨hsame.symm, hw'.ne_null⟩
      · exact ⟨by rw [htext w' hw', hsame], by simp⟩
      · exact ⟨by rw [Instant.ofValue_text, hs], by simp⟩
    rw [compares_of_resolve hr hw.ne_null, compares_of_resolve hr' hinstant.2]
    exact test_of_dates ho hv hinstant.1
  · intro params ignoreEmpty registry es expression hes hp
    obtain ⟨c, hc, he⟩ := Parameters.exists_entry_of_isMoment hw hes hp
    exact ⟨c, hc, he, fun o name types htypes => Coercion.matchValue_render hw o name htypes⟩

/-- Half past ten on New Year's Eve, an hour and a half behind UTC, is next year already; so is a quarter
to six in the morning where it is that much ahead. -/
theorem compares_by_instant_new_year :
    let w : Value := .dateTime ⟨⟨2024, 12, 31, rfl⟩, ⟨22, 30, 0, 500, rfl⟩⟩ (some (-5400))
    let w' : Value := .zoned ⟨⟨2025, 1, 1, rfl⟩, ⟨5, 45, 0, 500, rfl⟩⟩ 20700
    let v : Value := .zoned ⟨⟨2025, 1, 1, rfl⟩, .midnight⟩ 0
    w.IsMoment ∧ w'.IsMoment ∧ w'.instant? = w.instant? ∧
    w'.render = "2025-01-01 05:45:00.000500+05:45" ∧
    Instant.ofText "20250101T000000,0005Z" = Instant.ofValue w ∧
    Coercion.matchValue .date "2025" "born" .greaterThan = .ok v ∧
    compares .greaterThan "born" v [(.text "born", .text w'.render)] = .ok true ∧
    compares .greaterThan "born" v [(.text "born", .text "20250101T000000,0005Z")] = .ok true ∧
    compares .greaterThan "born" v [(.text "born", w)] = .ok true := by
  intro w w' v
  have hw : w.IsMoment := ⟨by decide, by decide⟩
  have hw' : w'.IsMoment := ⟨by decide, by decide⟩
  have hsame : w'.instant? = w.instant? := by decide +kernel
  have hshown : w'.render = "2025-01-01 05:45:00.000500+05:45" := by decide +kernel
  have hv : Coercion.matchValue .date "2025" "born" .greaterThan = .ok v := by rfl
  have hgreater : compares .greaterThan "born" v [(.text "born", w)] = .ok true := by cbv
  have hcompact : Instant.ofText "20250101T000000,0005Z" = Instant.ofValue w := by
    have hread : Reading.ofText "20250101T000000,0005Z".toList =
        .ok (.dateTime ⟨⟨2025, 1, 1, rfl⟩, ⟨0, 0, 0, 500, rfl⟩⟩ (some 0)) := by rfl
    rw [Instant.ofText, Instant.read_eq]
    change Reading.ofText "20250101T000000,0005Z".toList >>= _ = _
    rw [hread]
    rfl
  obtain ⟨n, hn, -, -, -, halike, -⟩ := compares_by_instant w hw
  have hrecord : ∀ a ∈ [w, .text w.render, w', .text w'.render, .text "20250101T000000,0005Z"],
      compares .greaterThan "born" v [(.text "born", a)] = .ok true := by
    intro a ha
    rw [← hgreater]
    exact (halike w' hw' (hsame.trans hn) _ hcompact a ha _ _ "born" (resolve_single "born" w)
      (resolve_single "born" a) .greaterThan (by decide) "2025" "born" .standard v hv).symm
  exact ⟨hw, hw', hsame, hshown, hcompact, hv, hrecord _ (by simp), hrecord _ (by simp), hgreater⟩

end Predicate

end RecordFilter
