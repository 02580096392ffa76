import Mathlib
import RecordFilter.Proofs.Query.Integer
import RecordFilter.Proofs.Query.Trichotomy

namespace RecordFilter

namespace Numeral

open Text

variable {s : List Char} {ds : List Nat} {n : Int}

/-- In a numeral, only records may hold it. -/
def IsRecordOnly (c : Char) : Prop := c = '_' ∨ c.isDigit = false ∧ (digitValue? c).isSome

theorem AsciiDigits.cons {c : Char} {d : Nat} (hc : c.isDigit = true) (hd : digitValue? c = some d)
    (h : ∀ c ∈ s, c.isDigit = true) (hds : ds = s.map digitOf) : AsciiDigits (c :: s) (d :: ds) := by
  have hvalue : digitOf c = d := Option.some.inj ((digitValue?_of_isDigit hc).symm.trans hd)
  refine ⟨List.cons_ne_nil _ _, List.forall_mem_cons.mpr ⟨hc, h⟩, ?_⟩
  rw [List.map_cons, hvalue, hds]

/-- Grouped digits without such characters are ASCII digits. -/
theorem Grouped.asciiDigits (h : Grouped s ds) (hplain : ∀ c ∈ s, ¬ IsRecordOnly c) : AsciiDigits s ds := by
  have hdigit : ∀ {c d}, digitValue? c = some d → ¬ IsRecordOnly c → c.isDigit = true := by
    intro c d hd hc
    by_contra hnot
    exact hc (.inr ⟨Bool.not_eq_true _ ▸ hnot, by rw [hd]; rfl⟩)
  induction h with
  | last hd => exact .cons (hdigit hd (hplain _ (by simp))) hd (by simp) rfl
  | next hd _ ih =>
    obtain ⟨hc, hrest⟩ := List.forall_mem_cons.mp hplain
    have hs := ih hrest
    exact .cons (hdigit hd hc) hd hs.isDigit hs.digits
  | apart => exact absurd (.inl rfl) (hplain '_' (by simp))

theorem Denotes.asciiDigits (h : Denotes Grouped s ds n) (hplain : ∀ c ∈ s, ¬ IsRecordOnly c) :
    Denotes AsciiDigits s ds n := by
  cases h with
  | unsigned h => exact .unsigned (h.asciiDigits hplain)
  | plus h => exact .plus (h.asciiDigits (List.forall_mem_cons.mp hplain).2)
  | minus h => exact .minus (h.asciiDigits (List.forall_mem_cons.mp hplain).2)

/-- A record text that denotes an integer denotes it as a match text too, unless it has such a character. -/
theorem exists_isRecordOnly (h : Denotes Grouped (trimSpacing s) ds n)
    (hnot : ¬ ∃ ds n, Denotes AsciiDigits (trim s) ds n) : ∃ c ∈ s, IsRecordOnly c := by
  by_contra hnone
  obtain ⟨lead, tail, hs, -⟩ := surrounds_strip isSpacing s
  have hplain : ∀ c ∈ trimSpacing s, ¬ IsRecordOnly c := by
    intro c hc hrecord
    have hmem : c ∈ lead ++ trimSpacing s ++ tail := by simp [hc]
    exact hnone ⟨c, hs.symm ▸ hmem, hrecord⟩
  have hd := h.asciiDigits hplain
  have htrim : trimSpacing s = trim s := trimSpacing_eq_trim (isBlank_of_denotes hd)
  exact hnot ⟨ds, n, htrim ▸ hd⟩

end Numeral

namespace Predicate

open Numeral (AsciiDigits Denotes Grouped IsRecordOnly maxDigits)
open Operator (comparing)
open Text

variable {r : Record} {path s : String} {n v : Int}

/-- A record text that is read as an integer is compared as it. -/
theorem comparesAs_of_readInt? (hs : Path.resolve r path = some (.text s))
    (h : Numeral.readInt? s.toList = some n) (v : Int) :
    ComparesAs r path (.int v) (n < v) (n = v) (v < n) := by
  have hread : normalize (.text s) (.int v) = .ok (some (.int n)) := by
    rw [normalize, asInteger?, h]
    rfl
  have hside := comparesAs_of_stands hs (by simp) hread (Value.stands_int n v)
  rcases lt_trichotomy n v with hlt | heq | hgt
  · simpa [compare_lt_iff_lt.mpr hlt, hlt, hlt.ne, hlt.not_gt] using hside
  · simpa [compare_eq_iff_eq.mpr heq, heq] using hside
  · simpa [compare_gt_iff_gt.mpr hgt, hgt, hgt.ne', hgt.not_gt] using hside

/-- A record text that is not read as an integer passes no comparison with one. -/
theorem compares_of_readInt?_eq_none (hs : Path.resolve r path = some (.text s))
    (h : Numeral.readInt? s.toList = none) (v : Int) :
    ∀ o ∈ comparing, compares o path (.int v) r = .ok false := by
  intro o ho
  have hread : normalize (.text s) (.int v) = .ok none := by
    rw [normalize, asInteger?, h]
    rfl
  rw [compares_of_resolve hs (by simp), test_of_unreadable ho hread]

/-- A record text that denotes no integer as a match text, and is refused as one, may denote one as a record
text. It then has a `_` or a digit that is not ASCII in it, and is compared as that integer. Otherwise, and
only then, it passes no comparison with an integer and is not the one alternative. -/
theorem text_compares_beyond_literals (r : Record) (path s : String)
    (hs : Path.resolve r path = some (.text s))
    (hnot : ¬ ∃ ds n, Denotes AsciiDigits (trim s.toList) ds n) (v : Int) :
    (∀ b ∈ Coercion.bounds, Coercion.coerce b.1 s = .error (.filter (.typeCoercion b.1.name s none))) ∧
    (∀ ds n, Denotes Grouped (trimSpacing s.toList) ds n → ds.length ≤ 4300 →
      (∃ c ∈ s.toList, IsRecordOnly c) ∧ ComparesAs r path (.int v) (n < v) (n = v) (v < n) ∧
      compares .isIn path (.list [.int v]) r = .ok (n = v : Bool)) ∧
    ((∀ o ∈ comparing, compares o path (.int v) r = .ok false) ∧
        compares .isIn path (.list [.int v]) r = .ok false ↔
      ∀ ds n, Denotes Grouped (trimSpacing s.toList) ds n → 4300 < ds.length) := by
  rw [compares_isIn_single]
  refine ⟨fun b hb => ?_, fun ds n hd hlen => ?_, ?_⟩
  · rw [Coercion.coerce_of_bounds hb, Coercion.toInteger_of_not_denotes hnot]
    rfl
  · have hread : Numeral.readInt? s.toList = some n := Numeral.readInt?_eq_some_iff.mpr ⟨ds, hd, hlen⟩
    have hcompares := comparesAs_of_readInt? hs hread v
    exact ⟨Numeral.exists_isRecordOnly hd hnot, hcompares, hcompares.equals⟩
  · cases hread : Numeral.readInt? s.toList with
    | none =>
      have hfails := compares_of_readInt?_eq_none hs hread v
      have hlong := Numeral.readInt?_eq_none_iff.mp hread
      exact ⟨fun _ => hlong, fun _ => ⟨hfails, hfails _ (by decide)⟩⟩
    | some n =>
      have hcompares := comparesAs_of_readInt? hs hread v
      obtain ⟨ds, hd, hlen⟩ := Numeral.readInt?_eq_some_iff.mp hread
      constructor
      · intro hh
        obtain ⟨hfails, hequals⟩ := hh
        have hne := hfails .notEquals (by decide)
        rw [hcompares.equals] at hequals
        rw [hcompares.notEquals, Except.ok.inj hequals] at hne
        cases hne
      · intro hlong
        exact absurd (hlong ds n hd) (Nat.not_lt.mpr hlen)

/-- Arabic digits and a `_` in a record, which is then greater than -31. -/
theorem text_compares_beyond_literals_arabic :
    let r : Record := [(.text "age", .text "-\u0663_\u0660")]
    Path.resolve r "age" = some (.text "-\u0663_\u0660") ∧
    (¬ ∃ ds n, Denotes AsciiDigits (trim "-\u0663_\u0660".toList) ds n) ∧
    Coercion.coerce .long "-\u0663_\u0660" = .error (.filter (.typeCoercion "LONG" "-\u0663_\u0660" none)) ∧
    (∃ c ∈ "-\u0663_\u0660".toList, IsRecordOnly c) ∧
    ComparesAs r "age" (.int (-31)) false false true ∧
    compares .isIn "age" (.list [.int (-31)]) r = .ok false := by
  intro r
  have hs : Path.resolve r "age" = some (.text "-\u0663_\u0660") := resolve_single _ _
  have htrim : trim "-\u0663_\u0660".toList = ['-', '\u0663', '_', '\u0660'] := by decide +kernel
  have hspacing : trimSpacing "-\u0663_\u0660".toList = ['-', '\u0663', '_', '\u0660'] := by decide +kernel
  have hnot : ¬ ∃ ds n, Denotes AsciiDigits (trim "-\u0663_\u0660".toList) ds n := by
    intro hh
    obtain ⟨ds, n, hd⟩ := hh
    rw [htrim] at hd
    cases hd with
    | unsigned hd => exact absurd (hd.isDigit '_' (by simp)) (by decide)
    | minus hd => exact absurd (hd.isDigit '_' (by simp)) (by decide)
  have hd : Denotes Grouped (trimSpacing "-\u0663_\u0660".toList) [3, 0] (-30) := by
    rw [hspacing]
    exact .minus (.apart (by decide +kernel) (.last (by decide +kernel)))
  obtain ⟨hrefused, hreads, -⟩ := text_compares_beyond_literals r "age" "-\u0663_\u0660" hs hnot (-31)
  obtain ⟨hmark, hcompares, hin⟩ := hreads _ _ hd (by decide)
  exact ⟨hs, hnot, hrefused (.long, -2 ^ 63, 2 ^ 63 - 1) (by simp [Coercion.bounds]), hmark, hcompares, hin⟩

/-- The text `1_000` is refused as a match text, and equals 1000 in a record. -/
theorem refused_text_equals_integer :
    Coercion.coerce .integer "1_000" = .error (.filter (.typeCoercion "INTEGER" "1_000" none)) ∧
    Coercion.coerce .integer "1000" = .ok (.int 1000) ∧
    Path.resolve [(.text "age", .text "1_000")] "age" = some (.text "1_000") ∧
    compares .equals "age" (.int 1000) [(.text "age", .text "1_000")] = .ok true ∧
    compares .isIn "age" (.list [.int 1000]) [(.text "age", .text "1_000")] = .ok true := by
  have hs : Path.resolve [(.text "age", .text "1_000")] "age" = some (.text "1_000") := resolve_single _ _
  have hread : Numeral.readInt? "1_000".toList = some 1000 := by decide +kernel
  have hequals := (comparesAs_of_readInt? hs hread 1000).equals
  exact ⟨by rfl, by rfl, hs, hequals, (compares_isIn_single _).trans hequals⟩

end Predicate

end RecordFilter
