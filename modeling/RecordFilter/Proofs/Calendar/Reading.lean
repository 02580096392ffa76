import Mathlib
import RecordFilter.Calendar.Reading
import RecordFilter.Proofs.Calendar.DateTime
import RecordFilter.Proofs.Fallible
import RecordFilter.Proofs.Number.Numeral
import RecordFilter.Proofs.Text.Split
import RecordFilter.Value.Text

namespace RecordFilter.Calendar

open Text Fallible

section Padded

variable {width n : Nat}

theorem toList_padded (width n : Nat) : (padded width n).toList =
    List.replicate (width - (Nat.toDigits 10 n).length) '0' ++ Nat.toDigits 10 n := by
  rw [padded, String.toList_ofList]
  rfl

theorem isDigit_of_mem_padded (width n : Nat) : ∀ c ∈ (padded width n).toList, c.isDigit = true := by
  intro c h
  rw [toList_padded, List.mem_append] at h
  rcases h with h | h
  · have hc : c = '0' := List.eq_of_mem_replicate h
    subst hc
    rfl
  · exact Nat.isDigit_of_mem_toDigits (by decide) (by decide) h

theorem length_padded (hw : 0 < width) (hn : n < 10 ^ width) : (padded width n).toList.length = width := by
  have hlen : (Nat.toDigits 10 n).length ≤ width :=
    (Nat.length_toDigits_le_iff (by decide) hw).mpr hn
  rw [toList_padded, List.length_append, List.length_replicate]
  omega

/-- Zeros in front do not change the number. -/
theorem ofDigitChars_padded (width n : Nat) : Nat.ofDigitChars 10 (padded width n).toList 0 = n := by
  rw [toList_padded, Nat.ofDigitChars_append, Nat.ofDigitChars_replicate_zero, Nat.mul_zero,
    Nat.ofDigitChars_ten_toDigits]

end Padded

namespace Reading

variable {cs rest : List Char}

theorem number_map_digitOf (cs : List Char) : number (cs.map digitOf) = Nat.ofDigitChars 10 cs 0 := by
  rw [number, List.foldl_map]
  rfl

theorem takeDigits?_append (rest : List Char) (h : ∀ c ∈ cs, c.isDigit = true) :
    takeDigits? cs.length (cs ++ rest) = some (cs.map digitOf, rest) := by
  induction cs with
  | nil => rfl
  | cons c cs ih =>
    have hc : asciiDigit? c = some (digitOf c) := asciiDigit?_of_isDigit (h c (by simp))
    have htail : takeDigits? cs.length (cs ++ rest) = some (cs.map digitOf, rest) :=
      ih fun x hx => h x (by simp [hx])
    rw [List.length_cons, List.cons_append, takeDigits?, hc, htail]
    rfl

theorem takeNumber?_padded (width n : Nat) (rest : List Char) (hw : 0 < width) (hn : n < 10 ^ width) :
    takeNumber? width ((padded width n).toList ++ rest) = some (n, rest) := by
  have htake := takeDigits?_append rest (isDigit_of_mem_padded width n)
  rw [length_padded hw hn] at htake
  rw [takeNumber?, htake, Option.map_some, number_map_digitOf, ofDigitChars_padded]

theorem digitsOf_append (h : ∀ c ∈ cs, c.isDigit = true)
    (hr : ∀ c ∈ rest.head?, asciiDigit? c = none) :
    digitsOf (cs ++ rest) = (cs.map digitOf, rest) := by
  induction cs with
  | nil =>
    cases rest with
    | nil => rfl
    | cons c rest =>
      have hc : asciiDigit? c = none := hr c (by simp)
      rw [List.nil_append, digitsOf, hc]
      rfl
  | cons c cs ih =>
    have hc : asciiDigit? c = some (digitOf c) := asciiDigit?_of_isDigit (h c (by simp))
    have htail : digitsOf (cs ++ rest) = (cs.map digitOf, rest) := ih fun x hx => h x (by simp [hx])
    rw [List.cons_append, digitsOf, hc, htail]
    rfl

/-- A padded number starts with a digit, and so with no letter of the grammar. -/
theorem exists_padded_eq_cons (width n : Nat) (hw : 0 < width) (hn : n < 10 ^ width) :
    ∃ c cs, (padded width n).toList = c :: cs ∧ c.isDigit = true := by
  have hlen := length_padded hw hn
  cases hs : (padded width n).toList with
  | nil =>
    rw [hs, List.length_nil] at hlen
    omega
  | cons c cs =>
    have hmem : c ∈ (padded width n).toList := by rw [hs]; exact List.mem_cons_self
    exact ⟨c, cs, rfl, isDigit_of_mem_padded width n c hmem⟩

section Dates

theorem toList_text_date (d : Date) : d.text.toList =
    (padded 4 d.year).toList ++ '-' :: ((padded 2 d.month).toList ++ '-' :: (padded 2 d.day).toList) := by
  simp [Date.text]

theorem extendedDate?_append (d : Date) (rest : List Char) :
    extendedDate? d.year ((padded 2 d.month).toList ++ '-' :: ((padded 2 d.day).toList ++ rest)) =
      some (d, rest) := by
  obtain ⟨-, -, -, hm, -, hd⟩ := d.valid
  have hmax := daysInMonth_le d.year d.month
  have hmonth := takeNumber?_padded 2 d.month ('-' :: ((padded 2 d.day).toList ++ rest)) (by omega) (by omega)
  have hday := takeNumber?_padded 2 d.day rest (by omega) (by omega)
  rw [extendedDate?, hmonth, Option.bind_eq_bind, Option.bind_some]
  simp only [atTime]
  rw [hday]
  simp [Date.ofParts?_eq_some d.exists_day]

theorem datePart?_append (d : Date) (rest : List Char) :
    datePart? (d.text.toList ++ rest) = some (d, false, rest) := by
  obtain ⟨-, hy, -, hm, -, -⟩ := d.valid
  unfold lastYear at hy
  have hyear := takeNumber?_padded 4 d.year
    ('-' :: ((padded 2 d.month).toList ++ '-' :: ((padded 2 d.day).toList ++ rest))) (by omega) (by omega)
  have hdate := extendedDate?_append d rest
  obtain ⟨c, cs, hcs, hc⟩ := exists_padded_eq_cons 2 d.month (by omega) (by omega)
  have hw : c ≠ 'W' := by
    rintro rfl
    cases hc
  rw [hcs] at hyear hdate
  have hs : d.text.toList ++ rest =
      (padded 4 d.year).toList ++ '-' :: (c :: cs ++ '-' :: ((padded 2 d.day).toList ++ rest)) := by
    rw [toList_text_date, hcs]
    simp
  rw [hs, datePart?, hyear, Option.bind_eq_bind, Option.bind_some]
  simp only [atTime, List.cons_append] at hdate ⊢
  simp [hdate, hw]

end Dates

section Clocks

/-- What may stand after a time of day: nothing, or the mark of an offset. -/
theorem asciiDigit?_of_atOffset (h : atOffset rest = true) : ∀ c ∈ rest.head?, asciiDigit? c = none := by
  intro c hc
  cases rest with
  | nil => cases hc
  | cons x rest =>
    obtain rfl : x = c := Option.some.inj hc
    simp only [atOffset, Bool.or_eq_true, beq_iff_eq] at h
    rcases h with (rfl | rfl) | rfl <;> rfl

theorem microsOf_padded {n : Nat} (hn : n < 10 ^ 6) : microsOf ((padded 6 n).toList.map digitOf) = n := by
  have hlen : ((padded 6 n).toList.map digitOf).length = 6 := by
    rw [List.length_map, length_padded (by omega) hn]
  rw [microsOf, hlen, List.take_of_length_le (Nat.le_of_eq hlen), number_map_digitOf, ofDigitChars_padded]
  exact Nat.mul_one n

/-- The part of a second is written when there is any. -/
def fractionText (micro : Nat) : String := if micro = 0 then "" else "." ++ padded 6 micro

theorem fractionPart?_append (micro : Nat) (hm : micro < 10 ^ 6) (hr : atOffset rest = true) :
    fractionPart? ((fractionText micro).toList ++ rest) = some (micro, rest) := by
  unfold fractionText
  split_ifs with hzero
  · subst hzero
    cases rest with
    | nil => rfl
    | cons c rest =>
      have hc : ¬ (c = '.' ∨ c = ',') := by
        rintro (rfl | rfl) <;> cases hr
      exact if_neg hc
  · have hdigits := digitsOf_append (isDigit_of_mem_padded 6 micro) (asciiDigit?_of_atOffset hr)
    obtain ⟨c, cs, hcs, -⟩ := exists_padded_eq_cons 6 micro (by omega) hm
    have hne : ¬ ((padded 6 micro).toList.map digitOf).isEmpty = true := by simp [hcs]
    have hs : ("." ++ padded 6 micro).toList ++ rest = '.' :: ((padded 6 micro).toList ++ rest) := by simp
    rw [hs, fractionPart?, if_pos (.inl rfl), hdigits, if_neg hne, microsOf_padded hm]

theorem toList_text_clock (c : Clock) : c.text.toList =
    (padded 2 c.hour).toList ++ ':' :: ((padded 2 c.minute).toList ++ ':' :: ((padded 2 c.second).toList ++
      (fractionText c.micro).toList)) := by
  simp [Clock.text, fractionText]

theorem clockPart?_append (c : Clock) (hr : atOffset rest = true) :
    clockPart? false (c.text.toList ++ rest) = some (c, rest) := by
  obtain ⟨hh, hm, hs, hu⟩ := c.valid
  have hfraction := fractionPart?_append c.micro (by omega) hr
  have hsecond := takeNumber?_padded 2 c.second ((fractionText c.micro).toList ++ rest) (by omega) (by omega)
  have hminute := takeNumber?_padded 2 c.minute
    (':' :: ((padded 2 c.second).toList ++ ((fractionText c.micro).toList ++ rest))) (by omega) (by omega)
  have hhour := takeNumber?_padded 2 c.hour
    (':' :: ((padded 2 c.minute).toList ++ ':' :: ((padded 2 c.second).toList ++
      ((fractionText c.micro).toList ++ rest)))) (by omega) (by omega)
  have htext : c.text.toList ++ rest = (padded 2 c.hour).toList ++ ':' :: ((padded 2 c.minute).toList ++
      ':' :: ((padded 2 c.second).toList ++ ((fractionText c.micro).toList ++ rest))) := by
    rw [toList_text_clock]
    simp
  rw [htext, clockPart?, hhour]
  simp [atOffset, hminute, hsecond, hfraction, dropLead?, Clock.ofParts?_eq_some c.exists_time]

end Clocks

section Offsets

/-- An offset of whole minutes, less than a day to either side. -/
def IsWholeMinutes (offset : Int) : Prop := offset % 60 = 0 ∧ offset.natAbs < 86400

theorem toList_offsetText {offset : Int} (h : IsWholeMinutes offset) : (offsetText offset).toList =
    (if offset < 0 then '-' else '+') :: ((padded 2 (offset.natAbs / 3600)).toList ++
      ':' :: (padded 2 (offset.natAbs / 60 % 60)).toList) := by
  obtain ⟨hminutes, -⟩ := h
  have hseconds : offset.natAbs % 60 = 0 := by omega
  unfold offsetText
  split_ifs <;> simp_all

theorem offsetAmount?_padded (hours minutes : Nat) (hh : hours < 24) (hm : minutes < 60) :
    offsetAmount? ((padded 2 hours).toList ++ ':' :: (padded 2 minutes).toList) =
      some (((hours * 60 + minutes) * 60 : Nat) : Int) := by
  have hhours := takeNumber?_padded 2 hours (':' :: (padded 2 minutes).toList) (by omega) (by omega)
  have hminutes := takeNumber?_padded 2 minutes [] (by omega) (by omega)
  rw [List.append_nil] at hminutes
  have htotal : hours * 60 + minutes < 24 * 60 := by omega
  rw [offsetAmount?, hhours]
  simp [hminutes, htotal]

theorem offsetPart?_offsetText {offset : Int} (h : IsWholeMinutes offset) :
    offsetPart? (offsetText offset).toList = some (some offset) := by
  rw [toList_offsetText h]
  obtain ⟨hminutes, hday⟩ := h
  have hamount := offsetAmount?_padded (offset.natAbs / 3600) (offset.natAbs / 60 % 60) (by omega) (by omega)
  have hseconds : (offset.natAbs / 3600 * 60 + offset.natAbs / 60 % 60) * 60 = offset.natAbs := by omega
  rw [hseconds] at hamount
  split_ifs with hneg
  · have hback : -(offset.natAbs : Int) = offset := by omega
    rw [offsetPart?, hamount, Option.map_some, hback]
  · have hback : (offset.natAbs : Int) = offset := by omega
    rw [offsetPart?, hamount, Option.map_some, hback]

theorem atOffset_offsetText {offset : Int} (h : IsWholeMinutes offset) :
    atOffset (offsetText offset).toList = true := by
  rw [toList_offsetText h]
  split_ifs <;> rfl

end Offsets

section Whole

/-- An offset that may be absent, as it is written behind a time of day. -/
def offsetTail (offset : Option Int) : List Char := ((offset.map offsetText).getD "").toList

theorem offsetPart?_offsetTail {offset : Option Int} (h : ∀ o ∈ offset, IsWholeMinutes o) :
    offsetPart? (offsetTail offset) = some offset := by
  cases offset with
  | none => rfl
  | some o => exact offsetPart?_offsetText (h o rfl)

theorem atOffset_offsetTail {offset : Option Int} (h : ∀ o ∈ offset, IsWholeMinutes o) :
    atOffset (offsetTail offset) = true := by
  cases offset with
  | none => rfl
  | some o => exact atOffset_offsetText (h o rfl)

theorem toList_textWith (t : DateTime) (offset : Option Int) : (t.textWith " " offset).toList =
    t.date.text.toList ++ ' ' :: (t.clock.text.toList ++ offsetTail offset) := by
  simp [DateTime.textWith, offsetTail]

/-- A date starts with a digit, and so neither as a duration nor as a bare time. -/
theorem exists_text_eq_cons (d : Date) :
    ∃ c cs, d.text.toList = c :: cs ∧ c.isDigit = true ∧ c ≠ 'P' ∧ c ≠ 'T' := by
  obtain ⟨-, hy, -⟩ := d.valid
  unfold lastYear at hy
  obtain ⟨c, cs, hcs, hc⟩ := exists_padded_eq_cons 4 d.year (by omega) (by omega)
  refine ⟨c, _, by rw [toList_text_date, hcs, List.cons_append], hc, ?_, ?_⟩
  · rintro rfl
    exact absurd hc (by decide)
  · rintro rfl
    exact absurd hc (by decide)

theorem single?_text (d : Date) : single? d.text.toList = some (.date d) := by
  obtain ⟨c, cs, hcs, -, hp, ht⟩ := exists_text_eq_cons d
  have hdate := datePart?_append d []
  rw [List.append_nil, hcs] at hdate
  rw [hcs]
  simp [single?, hp, ht, hdate]

theorem single?_textWith (t : DateTime) {offset : Option Int} (h : ∀ o ∈ offset, IsWholeMinutes o) :
    single? (t.textWith " " offset).toList = some (.dateTime t offset) := by
  obtain ⟨c, cs, hcs, -, hp, ht⟩ := exists_text_eq_cons t.date
  have hdate := datePart?_append t.date (' ' :: (t.clock.text.toList ++ offsetTail offset))
  have hclock := clockPart?_append t.clock (atOffset_offsetTail h)
  rw [toList_textWith]
  rw [hcs, List.cons_append] at hdate ⊢
  simp [single?, hp, ht, hdate, hclock, offsetPart?_offsetTail h]

/-- The characters that dates and times are shown by. -/
def isMomentMark (c : Char) : Bool := c.isDigit || ['-', ':', '.', '+', ' '].contains c

theorem isMomentMark_padded {width n : Nat} : ∀ c ∈ (padded width n).toList, isMomentMark c = true := by
  intro c hc
  rw [isMomentMark, isDigit_of_mem_padded width n c hc, Bool.true_or]

theorem isMomentMark_text_date (d : Date) : ∀ c ∈ d.text.toList, isMomentMark c = true := by
  rw [toList_text_date]
  simp only [List.forall_mem_append, List.forall_mem_cons]
  exact ⟨isMomentMark_padded, rfl, isMomentMark_padded, rfl, isMomentMark_padded⟩

theorem isMomentMark_text_clock (c : Clock) : ∀ x ∈ c.text.toList, isMomentMark x = true := by
  have hfraction : ∀ x ∈ (fractionText c.micro).toList, isMomentMark x = true := by
    unfold fractionText
    split_ifs
    · simp
    · simp only [String.toList_append, List.forall_mem_append]
      exact ⟨by simp [isMomentMark], isMomentMark_padded⟩
  rw [toList_text_clock]
  simp only [List.forall_mem_append, List.forall_mem_cons]
  exact ⟨isMomentMark_padded, rfl, isMomentMark_padded, rfl, isMomentMark_padded, hfraction⟩

theorem isMomentMark_offsetTail {offset : Option Int} (h : ∀ o ∈ offset, IsWholeMinutes o) :
    ∀ c ∈ offsetTail offset, isMomentMark c = true := by
  cases offset with
  | none => simp [offsetTail]
  | some o =>
    have hsign : isMomentMark (if o < 0 then '-' else '+') = true := by split_ifs <;> rfl
    have htext : offsetTail (some o) = (offsetText o).toList := rfl
    rw [htext, toList_offsetText (h o rfl)]
    simp only [List.forall_mem_append, List.forall_mem_cons]
    exact ⟨hsign, isMomentMark_padded, rfl, isMomentMark_padded⟩

theorem isMomentMark_textWith (t : DateTime) {offset : Option Int} (h : ∀ o ∈ offset, IsWholeMinutes o) :
    ∀ c ∈ (t.textWith " " offset).toList, isMomentMark c = true := by
  rw [toList_textWith]
  simp only [List.forall_mem_append, List.forall_mem_cons]
  exact ⟨isMomentMark_text_date _, rfl, isMomentMark_text_clock _, isMomentMark_offsetTail h⟩

/-- What shows a date or a time ends with a digit. -/
def EndsWithDigit (s : List Char) : Prop := ∃ front c, s = front ++ [c] ∧ c.isDigit = true

theorem EndsWithDigit.append {s : List Char} (h : EndsWithDigit s) (front : List Char) :
    EndsWithDigit (front ++ s) := by
  obtain ⟨lead, c, rfl, hc⟩ := h
  exact ⟨front ++ lead, c, by simp, hc⟩

theorem EndsWithDigit.cons {s : List Char} (h : EndsWithDigit s) (c : Char) : EndsWithDigit (c :: s) :=
  h.append [c]

theorem endsWithDigit_padded {width n : Nat} (hw : 0 < width) (hn : n < 10 ^ width) :
    EndsWithDigit (padded width n).toList := by
  obtain ⟨c, cs, hcs, -⟩ := exists_padded_eq_cons width n hw hn
  have hne : (padded width n).toList ≠ [] := by simp [hcs]
  refine ⟨_, (padded width n).toList.getLast hne, (List.dropLast_append_getLast hne).symm, ?_⟩
  exact isDigit_of_mem_padded width n _ (List.getLast_mem hne)

theorem endsWithDigit_text_date (d : Date) : EndsWithDigit d.text.toList := by
  obtain ⟨-, -, -, -, -, hd⟩ := d.valid
  have hmax := daysInMonth_le d.year d.month
  rw [toList_text_date]
  apply EndsWithDigit.append
  apply EndsWithDigit.cons
  apply EndsWithDigit.append
  apply EndsWithDigit.cons
  exact endsWithDigit_padded (by omega) (by omega)

theorem endsWithDigit_text_clock (c : Clock) : EndsWithDigit c.text.toList := by
  obtain ⟨-, -, hs, hu⟩ := c.valid
  rw [toList_text_clock]
  apply EndsWithDigit.append
  apply EndsWithDigit.cons
  apply EndsWithDigit.append
  apply EndsWithDigit.cons
  unfold fractionText
  split_ifs
  · rw [String.toList_empty, List.append_nil]
    exact endsWithDigit_padded (by omega) (by omega)
  · apply EndsWithDigit.append
    rw [String.toList_append]
    apply EndsWithDigit.append
    exact endsWithDigit_padded (by omega) (by omega)

theorem endsWithDigit_textWith (t : DateTime) {offset : Option Int}
    (h : ∀ o ∈ offset, IsWholeMinutes o) : EndsWithDigit (t.textWith " " offset).toList := by
  rw [toList_textWith]
  apply EndsWithDigit.append
  apply EndsWithDigit.cons
  cases offset with
  | none =>
    have htail : offsetTail none = [] := rfl
    rw [htail, List.append_nil]
    exact endsWithDigit_text_clock t.clock
  | some o =>
    have htail : offsetTail (some o) = (offsetText o).toList := rfl
    rw [htail, toList_offsetText (h o rfl)]
    apply EndsWithDigit.append
    apply EndsWithDigit.cons
    apply EndsWithDigit.append
    apply EndsWithDigit.cons
    exact endsWithDigit_padded (by omega) (by omega)

/-- A text between digits has no blanks to drop. -/
theorem trim_eq_self {c : Char} {cs s : List Char} (hs : s = c :: cs) (hc : c.isDigit = true)
    (h : EndsWithDigit s) : trim s = s := by
  obtain ⟨front, e, he, hdigit⟩ := h
  have hbare : Bare isBlank s := by
    constructor
    · intro x hx
      rw [hs] at hx
      obtain rfl : c = x := Option.some.inj hx
      exact isBlank_of_isDigit hc
    · intro x hx
      rw [he, List.getLast?_concat] at hx
      obtain rfl : e = x := Option.some.inj hx
      exact isBlank_of_isDigit hdigit
  exact strip_of_bare hbare

/-- A text without a `/` that has a strict form is read in it. -/
theorem ofText_of_single? {s : List Char} {r : Reading} (hs : ∀ c ∈ s, isMomentMark c = true)
    (h : single? s = some r) : ofText s = .ok r := by
  have hslash : '/' ∉ s := fun hmem => absurd (hs '/' hmem) (by decide)
  rw [ofText, cutAt_of_not_mem '/' s hslash, h]
  rfl

theorem ofText_date (d : Date) : ofText (trim d.text.toList) = .ok (.date d) := by
  obtain ⟨c, cs, hcs, hc, -⟩ := exists_text_eq_cons d
  rw [trim_eq_self hcs hc (endsWithDigit_text_date d)]
  exact ofText_of_single? (isMomentMark_text_date d) (single?_text d)

theorem ofText_textWith (t : DateTime) {offset : Option Int} (h : ∀ o ∈ offset, IsWholeMinutes o) :
    ofText (trim (t.textWith " " offset).toList) = .ok (.dateTime t offset) := by
  obtain ⟨c, cs, hcs, hc, -⟩ := exists_text_eq_cons t.date
  have hcons : (t.textWith " " offset).toList =
      c :: (cs ++ ' ' :: (t.clock.text.toList ++ offsetTail offset)) := by
    rw [toList_textWith, hcs, List.cons_append]
  rw [trim_eq_self hcons hc (endsWithDigit_textWith t h)]
  exact ofText_of_single? (isMomentMark_textWith t h) (single?_textWith t h)

end Whole

section Behind

variable {offset : Int}

/-- There is nothing to read behind the minutes of an offset. -/
theorem offsetPart?_offsetText_append (h : IsWholeMinutes offset) (hr : rest ≠ []) :
    offsetPart? ((offsetText offset).toList ++ rest) = none := by
  have hhours := takeNumber?_padded 2 (offset.natAbs / 3600)
    (':' :: ((padded 2 (offset.natAbs / 60 % 60)).toList ++ rest)) (by omega) (by have := h.2; omega)
  have hminutes := takeNumber?_padded 2 (offset.natAbs / 60 % 60) rest (by omega) (by omega)
  have hamount : offsetAmount? ((padded 2 (offset.natAbs / 3600)).toList ++
      ':' :: ((padded 2 (offset.natAbs / 60 % 60)).toList ++ rest)) = none := by
    rw [offsetAmount?, hhours]
    simp [hminutes, hr]
  rw [toList_offsetText h, List.cons_append, List.append_assoc, List.cons_append]
  split_ifs
  · rw [offsetPart?, hamount, Option.map_none]
  · rw [offsetPart?, hamount, Option.map_none]

theorem single?_textWith_append (t : DateTime) (h : IsWholeMinutes offset) (hr : rest ≠ []) :
    single? ((t.textWith " " (some offset)).toList ++ rest) = none := by
  obtain ⟨c, cs, hcs, -, hp, ht⟩ := exists_text_eq_cons t.date
  have hsome : offsetTail (some offset) = (offsetText offset).toList := rfl
  have hmark : atOffset ((offsetText offset).toList ++ rest) = true := by
    rw [toList_offsetText h]
    split_ifs <;> rfl
  have hdate := datePart?_append t.date (' ' :: (t.clock.text.toList ++ ((offsetText offset).toList ++ rest)))
  have hclock := clockPart?_append t.clock hmark
  rw [toList_textWith, hsome, List.append_assoc, List.cons_append, List.append_assoc]
  rw [hcs, List.cons_append] at hdate ⊢
  simp [single?, hp, ht, hdate, hclock, offsetPart?_offsetText_append h hr]

/-- A year and a dash start neither a date of the loose form nor a time. -/
theorem loose_year (y : Nat) (hy : y < 10 ^ 4) (rest : List Char) :
    loose ((padded 4 y).toList ++ '-' :: rest) = .error (.unreadable "") := by
  have hyear := takeNumber?_padded 4 y ('-' :: rest) (by omega) hy
  have hdash : ∀ n, takeNumber? (n + 1) ('-' :: rest) = none := fun _ => rfl
  have hshort : takeShort? ('-' :: rest) = none := rfl
  have hlen := length_padded (by omega) hy
  have hdigit := isDigit_of_mem_padded 4 y
  generalize (padded 4 y).toList = digits at hyear hlen hdigit ⊢
  obtain ⟨a, b, c, d, rfl⟩ := List.length_eq_four.mp hlen
  have hspace : a ≠ ' ' := by
    rintro rfl
    exact absurd (hdigit ' ' (by simp)) (by decide)
  have hcolon : ':' ≠ c := by
    rintro rfl
    exact absurd (hdigit ':' (by simp)) (by decide)
  have htwo : ∀ x ∈ [a, b], x.isDigit = true := fun x hx => hdigit x (by simp at hx ⊢; tauto)
  have htake := takeDigits?_append (c :: d :: '-' :: rest) htwo
  have hfirst : takeShort? (a :: b :: c :: d :: '-' :: rest) =
      some (number [digitOf a, digitOf b], c :: d :: '-' :: rest) := by
    rw [takeShort?, takeNumber?]
    simp only [List.length_cons, List.length_nil, List.cons_append, List.nil_append] at htake
    rw [htake]
    rfl
  have htime : looseTime? (a :: b :: c :: d :: '-' :: rest) = none := by
    simp [looseTime?, hspace, hfirst, dropLead?, hcolon]
  have hlate : looseTime? ('-' :: rest) = none := by
    simp [looseTime?, hshort]
  simp only [List.cons_append, List.nil_append] at hyear ⊢
  simp [loose, looseDate?, hyear, dropMark, hdash, hlate, htime]

theorem eq_interval_of_moments {t t' : DateTime} {o o' : Int} {r : Reading} (h : moments t t' o o' = .ok r) :
    r = .interval := by
  unfold moments at h
  split_ifs at h
  · obtain ⟨_, -, h⟩ := bind_eq_ok.mp h
    obtain ⟨_, -, h⟩ := bind_eq_ok.mp h
    exact (Except.ok.inj h).symm
  · exact (Except.ok.inj h).symm

theorem eq_interval_of_between {a b r : Reading} (h : between a b = .ok r) : r = .interval := by
  unfold between at h
  split at h
  · exact (Except.ok.inj h).symm
  · exact eq_interval_of_moments h
  · obtain ⟨_, -, h⟩ := bind_eq_ok.mp h
    exact eq_interval_of_moments h
  · obtain ⟨_, -, h⟩ := bind_eq_ok.mp h
    exact eq_interval_of_moments h
  all_goals cases h

theorem eq_interval_of_interval? {first last : List Char} {r : Reading} (h : interval? first last = some (.ok r)) :
    r = .interval := by
  unfold interval? at h
  split_ifs at h
  · cases h
  · simp only [Option.bind_eq_bind, Option.bind_eq_some_iff] at h
    obtain ⟨a, -, b, -, h⟩ := h
    exact eq_interval_of_between (Option.some.inj h)

/-- A text outside the strict forms and the loose one is an interval at best. -/
theorem eq_interval_of_ofText {s : List Char} {r : Reading} (hsingle : single? s = none)
    (hloose : loose s = .error (.unreadable "")) (h : ofText s = .ok r) : r = .interval := by
  rw [ofText, hloose] at h
  cases hcut : (cutAt '/' s).2 with
  | none =>
    have hwhole : cutAt '/' s = (s, none) := Prod.ext (fst_cutAt_of_none hcut) hcut
    rw [hwhole, hsingle] at h
    cases h
  | some last =>
    have hboth : cutAt '/' s = ((cutAt '/' s).1, some last) := Prod.ext rfl hcut
    rw [hboth] at h
    rcases Option.getD_eq_iff.mp h with hinterval | ⟨-, hfail⟩
    · exact eq_interval_of_interval? hinterval
    · cases hfail

/-- Behind a moment and its offset nothing more can stand in the text of a date. -/
theorem ofText_textWith_append (t : DateTime) (h : IsWholeMinutes offset) (hr : rest ≠ []) {r : Reading}
    (hread : ofText ((t.textWith " " (some offset)).toList ++ rest) = .ok r) : r = .interval := by
  have hloose : loose ((t.textWith " " (some offset)).toList ++ rest) = .error (.unreadable "") := by
    obtain ⟨-, hy, -⟩ := t.date.valid
    unfold lastYear at hy
    rw [toList_textWith, toList_text_date, List.append_assoc, List.append_assoc, List.cons_append]
    exact loose_year t.date.year (by omega) _
  exact eq_interval_of_ofText (single?_textWith_append t h hr) hloose hread

theorem count_plus_padded (width n : Nat) : (padded width n).toList.count '+' = 0 :=
  List.count_eq_zero.mpr fun hmem => absurd (isDigit_of_mem_padded width n '+' hmem) (by decide)

theorem count_plus_text_date (d : Date) : d.text.toList.count '+' = 0 := by
  simp [toList_text_date, count_plus_padded]

theorem count_plus_text_clock (c : Clock) : c.text.toList.count '+' = 0 := by
  have hfraction : (fractionText c.micro).toList.count '+' = 0 := by
    unfold fractionText
    split_ifs <;> simp [count_plus_padded]
  simp [toList_text_clock, count_plus_padded, hfraction]

/-- Only the sign of an offset may be a plus. -/
theorem count_plus_textWith (t : DateTime) (offset : Option Int) :
    (t.textWith " " offset).toList.count '+' ≤ 1 := by
  have htail : (offsetTail offset).count '+' ≤ 1 := by
    cases offset with
    | none => exact Nat.zero_le _
    | some o =>
      have htext : offsetTail (some o) = (offsetText o).toList := rfl
      rw [htext, offsetText]
      split_ifs <;> simp [count_plus_padded]
  rw [toList_textWith, List.count_append, List.count_cons_of_ne (by decide), List.count_append,
    count_plus_text_date, count_plus_text_clock]
  omega

end Behind

end Reading

end RecordFilter.Calendar
