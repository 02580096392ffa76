import Mathlib
import RecordFilter.Proofs.Calendar.Reading
import RecordFilter.Proofs.Number.Shortest
import RecordFilter.Proofs.Query.Matching
import RecordFilter.Proofs.Query.RecordText
import RecordFilter.Proofs.Text.Occurrence

namespace RecordFilter

open Calendar Fallible
open Numeral (isMark)

namespace Value

variable {a v : Value} {k m : Int} {x : Double} {negative sign : Bool} {units amount : Nat}

/-- What the match value shows stands at both ends of what the record value shows. -/
def Flanks (v a : Value) : Prop := v.render.toList <+: a.render.toList ∧ v.render.toList <:+ a.render.toList

/-- The record value is of the kind of the match value: integers, doubles of one sign, truth values, or moments
in UTC. A text shows what any value equal to it shows. -/
inductive Alike : Value → Value → Prop
  | text (s : String) (a : Value) : Alike (.text s) a
  | int (k m : Int) : Alike (.int k) (.int m)
  | float (sign : Bool) (units amount : Nat) : Alike (.float (.finite sign units)) (.float (.finite sign amount))
  | bool (b c : Bool) : Alike (.bool b) (.bool c)
  | zoned (t u : DateTime) : Alike (.zoned t 0) (.zoned u 0)
  | dateTime (t u : DateTime) : Alike (.zoned t 0) (.dateTime u (some 0))

theorem flanks_of_render_eq (h : a.render = v.render) : v.Flanks a := by
  rw [Flanks, h]
  exact ⟨List.prefix_rfl, List.suffix_rfl⟩

section Equal

theorem eq_of_equal_int (h : (Value.int m).equal (.int k) = true) : m = k := by
  rw [equal_of_number (number?_int m) (number?_int k)] at h
  simpa [Place.ofInt_inj] using h

theorem exists_finite_of_place {p : Int} (h : Place.ofDouble? x = some (.at p)) :
    ∃ negative units, x = .finite negative units ∧ Double.signedUnits negative units = p := by
  cases x with
  | finite negative units => exact ⟨negative, units, rfl, Place.at.inj (Option.some.inj h)⟩
  | infinite negative => cases negative <;> cases h
  | nan => cases h

/-- What equals a number of units is a finite double. -/
theorem exists_finite_of_equal {p : Int} (hv : v.number? = some (some (.at p)))
    (h : (Value.float x).equal v = true) :
    ∃ negative units, x = .finite negative units ∧ Double.signedUnits negative units = p := by
  have hx : (Value.float x).number? = some (Place.ofDouble? x) := rfl
  rw [equal_of_number hx hv, Bool.and_eq_true, beq_iff_eq] at h
  exact exists_finite_of_place h.2

theorem eq_of_equal_bool {b c : Bool} (h : (Value.bool c).equal (.bool b) = true) : c = b := by
  have hplace : ∀ b : Bool, (Value.bool b).number? = some (some (.ofInt (if b then 1 else 0))) := fun _ => rfl
  rw [equal_of_number (hplace c) (hplace b)] at h
  cases b <;> cases c <;> simp_all [Place.ofInt_inj]

theorem eq_of_equal_zoned {t u : DateTime} (h : (Value.zoned u 0).equal (.zoned t 0) = true) : u = t := by
  have hmicros : u.micros = t.micros := by
    simpa [equal, equalLeaf, number?, moment?] using h
  have hsame := DateTime.ofMicros?_micros u
  rw [hmicros, DateTime.ofMicros?_micros] at hsame
  exact (Option.some.inj hsame).symm

theorem eq_of_equal_text {s t : String} (h : (Value.text t).equal (.text s) = true) : t = s := by
  simpa [equal, equalLeaf, number?, moment?] using h

end Equal

section Numbers

theorem toList_render_int (k : Int) :
    (Value.int k).render.toList = (if k < 0 then ['-'] else []) ++ Nat.toDigits 10 k.natAbs := by
  have hrender : (Value.int k).render = k.repr := by simp [render, source]
  rw [hrender, Int.repr_eq_if]
  split_ifs with hsign hneg
  · omega
  · have hnat : k.toNat = k.natAbs := by omega
    rw [Nat.toList_repr, hnat, List.nil_append]
  · have hnat : (-k).toNat = k.natAbs := by omega
    rw [String.toList_append, Nat.toList_repr, hnat]
    rfl
  · omega

theorem toList_render_float (negative : Bool) (units : Nat) :
    (Value.float (.finite negative units)).render.toList =
      (if negative then ['-'] else []) ++ Double.unsignedText Double.plain units := by
  rw [render, source, Double.text, String.toList_ofList]
  · cases negative <;> rfl
  all_goals simp

theorem isMark_of_mem_sign (b : Bool) : ∀ c ∈ (if b then ['-'] else []), isMark c = true := by
  cases b <;> simp [isMark]

theorem isMark_of_mem_render_int (k : Int) : ∀ c ∈ (Value.int k).render.toList, isMark c = true := by
  have hdigits : ∀ c ∈ Nat.toDigits 10 k.natAbs, isMark c = true := fun c hc =>
    Double.isMark_of_isDigit (Nat.isDigit_of_mem_toDigits (by decide) (by decide) hc)
  rw [toList_render_int, List.forall_mem_append]
  exact ⟨by simpa using isMark_of_mem_sign (k < 0), hdigits⟩

theorem isMark_of_mem_render_float (negative : Bool) (units : Nat) :
    ∀ c ∈ (Value.float (.finite negative units)).render.toList, isMark c = true := by
  rw [toList_render_float, List.forall_mem_append]
  exact ⟨isMark_of_mem_sign negative, Double.isMark_of_mem_unsignedText units⟩

theorem exists_onceMark_of_float (negative : Bool) (units : Nat) :
    ∃ c ∈ Numeral.onceMarks, c ∈ (Value.float (.finite negative units)).render.toList := by
  rw [toList_render_float]
  rcases Double.mem_unsignedText units with h | h
  · exact ⟨'.', by simp [Numeral.onceMarks], List.mem_append_right _ h⟩
  · exact ⟨'e', by simp [Numeral.onceMarks], List.mem_append_right _ h⟩

/-- Bytes are shown behind a letter that is in no numeral. -/
theorem not_flanks_bytes (bs : List UInt8) (hmark : ∀ c ∈ v.render.toList, isMark c = true)
    (hne : v.render.toList ≠ []) : ¬ v.Flanks (.bytes bs) := by
  have hletter : isMark 'b' = false := by decide +kernel
  obtain ⟨rest, hrest⟩ : ∃ rest, (Value.bytes bs).render.toList = 'b' :: rest := by
    simp [render, source, bytesSource]
  intro h
  obtain ⟨c, cs, hc⟩ := List.exists_cons_of_ne_nil hne
  have hstart := h.1
  rw [hrest, hc, List.cons_prefix_cons] at hstart
  rw [hc, hstart.1] at hmark
  exact absurd (hmark 'b' (by simp)) (by simp [hletter])

theorem not_flanks_int_of_float (m : Int) (negative : Bool) (units : Nat) :
    ¬ (Value.float (.finite negative units)).Flanks (.int m) := by
  intro h
  obtain ⟨c, hc, hmem⟩ := exists_onceMark_of_float negative units
  have hint := h.1.subset hmem
  obtain ⟨hdigit, -, -, hminus⟩ := Numeral.digitValue?_of_onceMarks hc
  rw [toList_render_int, List.mem_append] at hint
  rcases hint with hint | hint
  · split_ifs at hint
    · exact hminus (List.mem_singleton.mp hint)
    · cases hint
  · have hvalue := Numeral.digitValue?_of_isDigit
      (Nat.isDigit_of_mem_toDigits (by decide) (by decide) hint)
    cases hdigit.symm.trans hvalue

/-- A whole number of ones has the sign of the integer, and as many units. -/
theorem units_of_whole (hk : k ≠ 0) (h : Double.signedUnits negative units = k * Double.scale) :
    (negative = true ↔ k < 0) ∧ units = k.natAbs * Double.scale := by
  have hscale : 0 < (Double.scale : Int) := Int.natCast_pos.mpr (by decide +kernel)
  have habs : (Double.signedUnits negative units).natAbs = units := by
    cases negative <;> simp [Double.signedUnits]
  constructor
  · cases negative with
    | false =>
      have hnonneg : 0 ≤ k * Double.scale := h ▸ Int.natCast_nonneg units
      simpa using nonneg_of_mul_nonneg_left hnonneg hscale
    | true =>
      have hnonpos : k * Double.scale ≤ 0 := h ▸ Int.neg_nonpos_of_nonneg (Int.natCast_nonneg units)
      have hle : k ≤ 0 := nonpos_of_mul_nonpos_left hnonpos hscale
      simpa using lt_of_le_of_ne hle hk
  · rw [← habs, h, Int.natAbs_mul, Int.natAbs_natCast]

/-- A minus in front of both texts leaves the ends as they are. -/
theorem both_ends_of_sign {ds shown : List Char} {b : Bool} (hdash : '-' ∉ ds)
    (hstart : (if b then ['-'] else []) ++ ds <+: (if b then ['-'] else []) ++ shown)
    (hend : (if b then ['-'] else []) ++ ds <:+ (if b then ['-'] else []) ++ shown) :
    ds <+: shown ∧ ds <:+ shown := by
  refine ⟨(List.prefix_append_right_inj _).mp hstart, ?_⟩
  have hend := (List.suffix_append _ ds).trans hend
  cases b with
  | false => exact hend
  | true =>
    rcases List.suffix_cons_iff.mp hend with hall | hend
    · exact absurd (hall ▸ List.mem_cons_self) hdash
    · exact hend

theorem not_flanks_float_of_int (hk : k ≠ 0) (h : Double.signedUnits negative units = k * Double.scale) :
    ¬ (Value.int k).Flanks (.float (.finite negative units)) := by
  obtain ⟨hsign, hunits⟩ := units_of_whole hk h
  have hlead : (if k < 0 then ['-'] else []) = if negative then ['-'] else [] := by simp only [hsign]
  have hdash : '-' ∉ Nat.toDigits 10 k.natAbs := fun hmem =>
    absurd (Nat.isDigit_of_mem_toDigits (by decide) (by decide) hmem) (by decide)
  intro hflanks
  rw [Flanks, toList_render_int, toList_render_float, hlead, hunits] at hflanks
  obtain ⟨hstart, hend⟩ := both_ends_of_sign hdash hflanks.1 hflanks.2
  exact Double.not_both_ends_whole (Int.natAbs_ne_zero.mpr hk) hstart hend

/-- Of doubles in the same place only the zeros can be shown with different signs, and then the one does not
stand at both ends of the other. -/
theorem render_eq_of_units (h : Double.signedUnits sign amount = Double.signedUnits negative units)
    (hflanks : (Value.float (.finite negative units)).Flanks (.float (.finite sign amount))) :
    (Value.float (.finite sign amount)).render = (Value.float (.finite negative units)).render := by
  have hzero : Double.unsignedText Double.plain 0 = ['0', '.', '0'] := if_pos rfl
  rw [Flanks, toList_render_float, toList_render_float] at hflanks
  by_cases hsign : sign = negative
  · obtain rfl := hsign
    have hsame : amount = units := by
      cases sign <;> simpa [Double.signedUnits] using h
    rw [hsame]
  · have hboth : amount = 0 ∧ units = 0 := by
      cases sign <;> cases negative <;> simp_all [Double.signedUnits]
    rw [hboth.1, hboth.2, hzero] at hflanks
    cases sign <;> cases negative
    · exact absurd rfl hsign
    · exact absurd hflanks (by decide)
    · exact absurd hflanks (by decide)
    · exact absurd rfl hsign

end Numbers

end Value

namespace Coercion

/-- No word for a truth value is longer than the text that shows it. -/
theorem length_le_of_truthOf? {s : String} {b : Bool} (h : truthOf? s = some b) :
    (Text.trim s.toList).length ≤ (Value.bool b).render.toList.length := by
  have hwords : ∀ words : List String, ∀ bound, (∀ w ∈ words, w.toList.length ≤ bound) →
      words.contains (String.ofList (Text.lowerAscii (Text.trim s.toList))) = true →
      (Text.trim s.toList).length ≤ bound := by
    intro words bound hbound hmem
    have hlength := hbound _ (List.contains_iff_mem.mp hmem)
    rwa [String.toList_ofList, Text.lowerAscii, List.length_map] at hlength
  unfold truthOf? at h
  simp only at h
  split_ifs at h with htrue hfalse
  · obtain rfl := Option.some.inj h
    exact hwords trueWords 4 (by decide) htrue
  · obtain rfl := Option.some.inj h
    exact hwords falseWords 5 (by decide) hfalse

end Coercion

namespace Instant

/-- A text that is read as a date, and starts and ends with a moment in UTC, shows that moment. -/
theorem eq_of_ofText_of_both_ends {s : String} {t u : DateTime} (hread : ofText s = .ok u)
    (hstart : (t.textWith " " (some 0)).toList <+: s.toList)
    (hend : (t.textWith " " (some 0)).toList <:+ s.toList) : s.toList = (t.textWith " " (some 0)).toList := by
  have hutc : Reading.IsWholeMinutes 0 := ⟨rfl, by decide⟩
  obtain ⟨c, cs, hcs, hc, -⟩ := Reading.exists_text_eq_cons t.date
  obtain ⟨front, hfront⟩ := hend
  have hdigit : Reading.EndsWithDigit s.toList := by
    rw [← hfront]
    exact (Reading.endsWithDigit_textWith t (by simpa using hutc)).append front
  obtain ⟨rest, hrest⟩ := hstart
  have hcons : s.toList = c :: (cs ++ ' ' :: (t.clock.text.toList ++ Reading.offsetTail (some 0)) ++ rest) := by
    rw [← hrest, Reading.toList_textWith, hcs]
    simp
  have htrim := Reading.trim_eq_self hcons hc hdigit
  by_cases hmore : rest = []
  · rw [← hrest, hmore, List.append_nil]
  · rw [ofText, read_eq] at hread
    obtain ⟨r, hr, hread⟩ := Fallible.bind_eq_ok.mp hread
    rw [htrim, ← hrest] at hr
    obtain rfl := Reading.ofText_textWith_append t hutc hmore hr
    cases hread

end Instant

namespace Predicate

open Coercion (truthOf?)
open Value (Alike Flanks)

variable {type : PropertyType} {a n v : Value} {r : Record} {path : String} {o : Operator}

section Readings

theorem unreadableAsNone_eq_some_iff {α : Type} {x : Except Fault α} {y : α} :
    unreadableAsNone x = .ok (some y) ↔ x = .ok y := by
  unfold unreadableAsNone
  cases x with
  | ok a => simp
  | error f =>
    simp only
    split_ifs <;> simp

/-- A record value that is read as a text can be written, and is read as what it shows. -/
theorem read_text {s : String} (h : normalize a (.text s) = .ok (some n)) :
    a.isWritable = true ∧ n = .text a.render := by
  obtain ⟨m, hm, hn⟩ := map_eq_ok.mp h
  obtain ⟨t, rfl, rfl⟩ := Option.map_eq_some_iff.mp hn
  obtain ⟨hw, rfl⟩ := Value.written?_eq_ok_iff.mp (unreadableAsNone_eq_some_iff.mp hm)
  exact ⟨hw, rfl⟩

/-- A record value that is read as a truth value is one, or can be written as a word for it. -/
theorem read_bool {b : Bool} (h : normalize a (.bool b) = .ok (some n)) :
    (∃ c, a = .bool c ∧ n = .bool c) ∨
      ∃ c, n = .bool c ∧ a.isWritable = true ∧ truthOf? a.render = some c := by
  cases a with
  | bool c => exact .inl ⟨c, rfl, (Option.some.inj (Except.ok.inj h)).symm⟩
  | _ =>
    simp only [normalize, map_eq_ok, Option.map_eq_some_iff, Option.bind_eq_some_iff] at h
    obtain ⟨m, hm, c, ⟨s, rfl, hs⟩, rfl⟩ := h
    obtain ⟨hw, rfl⟩ := Value.written?_eq_ok_iff.mp (unreadableAsNone_eq_some_iff.mp hm)
    exact .inr ⟨c, rfl, hw, hs⟩

theorem read_date {t : DateTime} (h : normalize a (.zoned t 0) = .ok (some n)) :
    ∃ u, n = .zoned u 0 ∧ Instant.ofValue a = .ok u := by
  obtain ⟨m, hm, hn⟩ := map_eq_ok.mp h
  obtain ⟨u, rfl, rfl⟩ := Option.map_eq_some_iff.mp hn
  exact ⟨u, rfl, unreadableAsNone_eq_some_iff.mp hm⟩

end Readings

section Kinds

/-- The record value can be written. When the match value stands at both ends of it, it shows the same, unless the
match value is the integer zero. -/
structure ShownAs (v a : Value) : Prop where
  isWritable : a.isWritable = true
  render_eq : v ≠ .int 0 → v.Flanks a → a.render = v.render

theorem shownAs_text {s : String} (h : normalize a (.text s) = .ok (some n)) (heq : n.equal (.text s) = true) :
    ShownAs (.text s) a := by
  obtain ⟨hw, rfl⟩ := read_text h
  exact ⟨hw, fun _ _ => Value.eq_of_equal_text heq⟩

theorem shownAs_int {k : Int} (hk : (Value.int k).isWritable = true) (h : asInteger? a = some n)
    (heq : n.equal (.int k) = true) : ShownAs (.int k) a := by
  cases a <;> simp only [asInteger?, Option.map_eq_some_iff] at h
  case float x =>
    obtain rfl := Option.some.inj h
    obtain ⟨negative, units, rfl, hunits⟩ := Value.exists_finite_of_equal rfl heq
    refine ⟨by simp [Value.isWritable], fun hzero hflanks => ?_⟩
    have hne : k ≠ 0 := fun hk => hzero (congrArg Value.int hk)
    exact absurd hflanks (Value.not_flanks_float_of_int hne hunits)
  case int m =>
    obtain rfl := Option.some.inj h
    obtain rfl := Value.eq_of_equal_int heq
    exact ⟨hk, fun _ _ => rfl⟩
  case text s =>
    obtain ⟨m, hread, rfl⟩ := h
    obtain rfl := Value.eq_of_equal_int heq
    refine ⟨by simp [Value.isWritable], fun hzero hflanks => String.toList_injective ?_⟩
    have hne : m ≠ 0 := fun hm => hzero (congrArg Value.int hm)
    exact Numeral.eq_of_readInt?_of_both_ends (Coercion.denotes_render m) hne hread hflanks.1 hflanks.2
  case bytes bs =>
    have hne : (Value.int k).render.toList ≠ [] := by
      rw [Value.toList_render_int]
      exact List.append_ne_nil_of_right_ne_nil _ Nat.toDigits_ne_nil
    refine ⟨by simp [Value.isWritable], fun _ hflanks => ?_⟩
    exact absurd hflanks (Value.not_flanks_bytes bs (Value.isMark_of_mem_render_int k) hne)
  all_goals cases h

theorem isWritable_of_ofInt? {m : Int} {x : Double} (h : Double.ofInt? m = some x) :
    (Value.int m).isWritable = true := by
  have hlong : Double.overflowBound < Nat.pow 10 Numeral.maxDigits := by decide +kernel
  have hsmall : m.natAbs < Double.overflowBound := by
    by_contra hlarge
    rw [(Double.ofInt?_eq_none_iff m).mpr (Nat.not_lt.mp hlarge)] at h
    cases h
  rw [Value.isWritable]
  exact decide_eq_true (hsmall.trans hlong)

theorem shownAs_float {negative : Bool} {units : Nat} (h : asDouble? a = .ok (some n))
    (heq : n.equal (.float (.finite negative units)) = true) : ShownAs (.float (.finite negative units)) a := by
  obtain ⟨c, hc, hmem⟩ := Value.exists_onceMark_of_float negative units
  cases a <;> simp only [asDouble?, map_eq_ok, Except.ok.injEq, Option.map_eq_some_iff] at h
  case float x =>
    obtain rfl := Option.some.inj h
    obtain ⟨sign, amount, rfl, hunits⟩ := Value.exists_finite_of_equal rfl heq
    exact ⟨by simp [Value.isWritable], fun _ => Value.render_eq_of_units hunits⟩
  case int m =>
    obtain ⟨x, hx, -⟩ := h
    refine ⟨isWritable_of_ofInt? (inRange_eq_ok_iff.mp hx), fun _ hflanks => ?_⟩
    exact absurd hflanks (Value.not_flanks_int_of_float m negative units)
  case text s =>
    obtain ⟨x, hread, rfl⟩ := h
    obtain ⟨sign, amount, rfl, -⟩ := Value.exists_finite_of_equal rfl heq
    refine ⟨by simp [Value.isWritable], fun _ hflanks => String.toList_injective ?_⟩
    exact Text.eq_of_both_ends hflanks.1 hflanks.2 hmem (Numeral.count_of_readDouble? hc hread)
  case bytes bs =>
    refine ⟨by simp [Value.isWritable], fun _ hflanks => ?_⟩
    have hmarks := Value.isMark_of_mem_render_float negative units
    exact absurd hflanks (Value.not_flanks_bytes bs hmarks (List.ne_nil_of_mem hmem))
  all_goals cases h

theorem shownAs_date {t : DateTime} (h : normalize a (.zoned t 0) = .ok (some n)) : ShownAs (.zoned t 0) a := by
  obtain ⟨u, -, hu⟩ := read_date h
  have hplus : '+' ∈ (t.textWith " " (some 0)).toList := by
    have htail : Reading.offsetTail (some 0) = "+00:00".toList := by decide
    rw [Reading.toList_textWith, htail]
    simp
  have hcount : a.render.toList.count '+' ≤ 1 → (Value.zoned t 0).Flanks a →
      a.render = (Value.zoned t 0).render := fun hone hflanks =>
    String.toList_injective (Text.eq_of_both_ends hflanks.1 hflanks.2 hplus hone)
  cases a
  case date d =>
    exact ⟨by simp [Value.isWritable], fun _ => hcount ((Reading.count_plus_text_date d).le.trans (by decide))⟩
  case dateTime m offset =>
    exact ⟨by simp [Value.isWritable], fun _ => hcount (Reading.count_plus_textWith m offset)⟩
  case zoned m offset =>
    exact ⟨by simp [Value.isWritable], fun _ => hcount (Reading.count_plus_textWith m (some offset))⟩
  all_goals
    obtain ⟨s, hs, hread⟩ := bind_eq_ok.mp hu
    obtain ⟨hw, rfl⟩ := Value.written?_eq_ok_iff.mp hs
    exact ⟨hw, fun _ hflanks =>
      String.toList_injective (Instant.eq_of_ofText_of_both_ends hread hflanks.1 hflanks.2)⟩

theorem shownAs_bool {b : Bool} (h : normalize a (.bool b) = .ok (some n)) (heq : n.equal (.bool b) = true) :
    ShownAs (.bool b) a := by
  rcases read_bool h with ⟨c, rfl, rfl⟩ | ⟨c, rfl, hw, hword⟩
  · obtain rfl := Value.eq_of_equal_bool heq
    exact ⟨by simp [Value.isWritable], fun _ _ => rfl⟩
  · obtain rfl := Value.eq_of_equal_bool heq
    refine ⟨hw, fun _ hflanks => String.toList_injective ?_⟩
    have hlength := Coercion.length_le_of_truthOf? hword
    have hbare : Text.Bare Text.isBlank (Value.bool c).render.toList :=
      Text.bare_of_forall (by cases c <;> simp [Value.render, Value.source, Text.isBlank, Text.blankPoints])
    have htrim : Text.trim a.render.toList = a.render.toList :=
      Text.strip_of_bare (hbare.of_both_ends (by cases c <;> decide) hflanks.1 hflanks.2)
    rw [htrim] at hlength
    exact (hflanks.1.eq_of_length_le hlength).symm

/-- What equals a match value shows the same when the match value stands at both ends of it, zeros apart. -/
theorem shownAs_of_equal (hv : type.Admits v) (hread : normalize a v = .ok (some n)) (heq : n.equal v = true) :
    ShownAs v a := by
  have hwritable := isWritable_of_admits hv
  rcases hv.shape with ⟨s, rfl⟩ | ⟨k, rfl⟩ | ⟨negative, units, rfl⟩ | ⟨t, rfl⟩ | ⟨b, rfl⟩
  · exact shownAs_text hread heq
  · exact shownAs_int hwritable (Except.ok.inj hread) heq
  · exact shownAs_float hread heq
  · exact shownAs_date hread
  · exact shownAs_bool hread heq

/-- Equal values of one kind are shown alike. -/
theorem render_eq_of_alike (h : v.Alike a) (hread : normalize a v = .ok (some n)) (heq : n.equal v = true) :
    a.render = v.render := by
  cases h with
  | text s a =>
    obtain ⟨-, rfl⟩ := read_text hread
    exact Value.eq_of_equal_text heq
  | int k m =>
    obtain rfl := Option.some.inj (Except.ok.inj hread)
    rw [Value.eq_of_equal_int heq]
  | float sign units amount =>
    obtain rfl := Option.some.inj (Except.ok.inj hread)
    obtain ⟨negative, same, hx, hunits⟩ := Value.exists_finite_of_equal rfl heq
    obtain ⟨rfl, rfl⟩ := Double.finite.inj hx
    have hsame : amount = units := by
      cases sign <;> simpa [Double.signedUnits] using hunits
    rw [hsame]
  | bool b c =>
    obtain rfl := Option.some.inj (Except.ok.inj hread)
    rw [Value.eq_of_equal_bool heq]
  | zoned t u =>
    obtain ⟨w, rfl, hw⟩ := read_date hread
    obtain rfl : u = w := Except.ok.inj ((Instant.ofOffset_zero u).symm.trans hw)
    rw [Value.eq_of_equal_zoned heq]
  | dateTime t u =>
    obtain ⟨w, rfl, hw⟩ := read_date hread
    obtain rfl : u = w := Except.ok.inj ((Instant.ofOffset_zero u).symm.trans hw)
    rw [Value.eq_of_equal_zoned heq]
    rfl

end Kinds

section Operators

theorem comparesText_eq_ok_iff {holds : List Char → List Char → Bool} {b : Bool} :
    comparesText holds a v = .ok b ↔
      v.isWritable = true ∧ a.isWritable = true ∧ holds v.render.toList a.render.toList = b := by
  simp only [comparesText, bind_eq_ok, Value.written?_eq_ok_iff]
  constructor
  · rintro ⟨s, ⟨hv, rfl⟩, t, ⟨ha, rfl⟩, hb⟩
    exact ⟨hv, ha, Except.ok.inj hb⟩
  · rintro ⟨hv, ha, rfl⟩
    exact ⟨_, ⟨hv, rfl⟩, _, ⟨ha, rfl⟩, rfl⟩

/-- What stands at the start or at the end of a text is contained in it. -/
theorem test_contains (h : test .startsWith a v = .ok true ∨ test .endsWith a v = .ok true) :
    test .contains a v = .ok true := by
  simp only [test, comparesText_eq_ok_iff, Text.occursIn_iff, List.isPrefixOf_iff_prefix,
    List.isSuffixOf_iff_suffix] at h ⊢
  rcases h with ⟨hv, ha, hstart⟩ | ⟨hv, ha, hend⟩
  · exact ⟨hv, ha, hstart.isInfix⟩
  · exact ⟨hv, ha, hend.isInfix⟩

theorem test_onText_iff (hv : v.isWritable = true) (ha : a.isWritable = true) :
    (∀ o ∈ Operator.onText, test o a v = .ok true) ↔ v.Flanks a := by
  constructor
  · intro h
    have hstart := h .startsWith (by decide)
    have hend := h .endsWith (by decide)
    simp only [test, comparesText_eq_ok_iff, List.isPrefixOf_iff_prefix, List.isSuffixOf_iff_suffix]
      at hstart hend
    exact ⟨hstart.2.2, hend.2.2⟩
  · intro h
    have hstart : test .startsWith a v = .ok true :=
      comparesText_eq_ok_iff.mpr ⟨hv, ha, List.isPrefixOf_iff_prefix.mpr h.1⟩
    have hend : test .endsWith a v = .ok true :=
      comparesText_eq_ok_iff.mpr ⟨hv, ha, List.isSuffixOf_iff_suffix.mpr h.2⟩
    simp only [Operator.onText, List.forall_mem_cons]
    exact ⟨test_contains (.inl hstart), hstart, hend, by simp⟩

theorem exists_resolve_of_compares (h : compares o path v r = .ok true) :
    ∃ a, Path.resolve r path = some a ∧ a ≠ .null ∧ test o a v = .ok true := by
  by_cases hnone : Path.resolve r path = none ∨ Path.resolve r path = some .null
  · rw [compares_of_absent hnone] at h
    cases h
  · obtain ⟨hmissing, hnull⟩ := not_or.mp hnone
    obtain ⟨a, ha⟩ := Option.ne_none_iff_exists'.mp hmissing
    have hn : a ≠ .null := fun hn => hnull (hn ▸ ha)
    exact ⟨a, ha, hn, compares_of_resolve ha hn ▸ h⟩

end Operators

end Predicate

end RecordFilter
