import Mathlib
import RecordFilter.Number.Shortest
import RecordFilter.Proofs.Number.Numeral

namespace RecordFilter

namespace Decimal

variable {n m low high : Nat} {e : Int} {closed : Bool} {d : Decimal}

/-- On a grid that is fine enough, a whole number lies on the grid. -/
theorem below_whole (n m : Nat) : below (n * Double.scale) (-m) = ⟨n * Nat.pow 10 m, -m⟩ := by
  have hscale : 0 < Double.scale := by decide +kernel
  have hup : (-(-(m : Int))).toNat = m := by omega
  have hdown : (-(m : Int)).toNat = 0 := by omega
  have hone : Nat.pow 10 0 = 1 := rfl
  rw [below, hup, hdown, hone, Nat.mul_one, Nat.mul_right_comm, Nat.mul_div_cancel _ hscale]

theorem exponent_of_neighbour? {units : Nat} (h : neighbour? units e low high closed = some d) :
    d.exponent = e := by
  simp only [neighbour?] at h
  split at h
  · cases h
  · obtain rfl := Option.some.inj h
    rfl
  · obtain rfl := Option.some.inj h
    rfl
  · split_ifs at h <;> obtain rfl := Option.some.inj h <;> rfl

/-- The neighbour of a whole number on its grid is the number itself. -/
theorem neighbour?_whole (hlow : low < 4 * (n * Double.scale)) (hhigh : 4 * (n * Double.scale) < high)
    (h : neighbour? (n * Double.scale) (-m) low high closed = some d) : d = ⟨n * Nat.pow 10 m, -m⟩ := by
  have hscale : 0 < Double.scale := by decide +kernel
  have hup : (-(-(m : Int))).toNat = m := by omega
  have hdown : (-(m : Int)).toNat = 0 := by omega
  have hone : Nat.pow 10 0 = 1 := rfl
  have hten : 0 < Nat.pow 10 m := Nat.pow_pos (by decide)
  have hplace : n * Nat.pow 10 m * 1 * (4 * Double.scale) = 4 * (n * Double.scale) * Nat.pow 10 m := by
    generalize Nat.pow 10 m = ten
    ring
  have hwithin : (⟨n * Nat.pow 10 m, -m⟩ : Decimal).within low high closed = true := by
    simp only [within, hup, hdown, hone, hplace]
    split_ifs
    · simp [hlow.le, hhigh.le]
    · simp [hlow, hhigh]
  have hexact : (⟨n * Nat.pow 10 m, -m⟩ : Decimal).distance (n * Double.scale) = 0 := by
    simp only [distance, hup, hdown, hone, hplace]
    simp
  have hfar : 0 < (⟨n * Nat.pow 10 m + 1, -m⟩ : Decimal).distance (n * Double.scale) := by
    simp only [distance, hup, hdown, hone]
    have hnext : (n * Nat.pow 10 m + 1) * 1 * (4 * Double.scale) =
        4 * (n * Double.scale) * Nat.pow 10 m + 4 * Double.scale := by
      rw [← hplace]
      ring
    omega
  simp only [neighbour?, below_whole, hwithin, hexact, hfar, if_true] at h
  split at h
  · next hfalse _ => cases hfalse
  · exact (Option.some.inj h).symm
  · next hfalse _ => cases hfalse
  · exact (Option.some.inj h).symm

/-- The digits that read back are those of a neighbour on some grid, between bounds around the number. -/
theorem shortest_cases {units : Nat} (hu : 0 < units) :
    ∃ e low high closed, low < 4 * units ∧ 4 * units < high ∧
      (neighbour? units e low high closed = some (shortest units) ∨ shortest units = below units e) := by
  have hstep : 0 < Nat.pow 2 (Double.excess units) := Nat.pow_pos (by decide)
  unfold shortest
  generalize Nat.pow 2 (Double.excess units) = step at hstep
  simp only
  generalize hlow : 4 * units - (if units / step = Nat.pow 2 52 ∧ 1 < step then step else 2 * step) = low
  generalize hclosed : decide (units / step % 2 = 0) = closed
  generalize hgrids : (List.range 17).filterMap (fun k : Nat =>
    neighbour? units (magnitude units - (k + 1)) low (4 * units + 2 * step) closed) = candidates
  have hbelow : low < 4 * units := by
    rw [← hlow]
    split_ifs <;> omega
  cases candidates with
  | nil => exact ⟨magnitude units - 17, low, 4 * units + 2 * step, closed, hbelow, by omega, .inr rfl⟩
  | cons d rest =>
    have hd : d ∈ d :: rest := List.mem_cons_self
    rw [← hgrids, List.mem_filterMap] at hd
    obtain ⟨k, -, hk⟩ := hd
    exact ⟨magnitude units - (k + 1), low, 4 * units + 2 * step, closed, hbelow, by omega, .inl hk⟩

/-- The fewest digits that read back as a whole number make a multiple of ten, or the number itself with zeros
behind the point. -/
theorem shortest_whole (hn : n ≠ 0) :
    0 ≤ (shortest (n * Double.scale)).exponent ∨
      ∃ m : Nat, shortest (n * Double.scale) = ⟨n * Nat.pow 10 m, -m⟩ := by
  have hscale : 0 < Double.scale := by decide +kernel
  obtain ⟨e, low, high, closed, hlow, hhigh, hshortest⟩ :=
    shortest_cases (Nat.mul_pos (Nat.pos_of_ne_zero hn) hscale)
  have hexponent : (shortest (n * Double.scale)).exponent = e := by
    rcases hshortest with h | h
    · exact exponent_of_neighbour? h
    · rw [h, below]
  rcases le_or_gt 0 e with he | he
  · exact .inl (hexponent ▸ he)
  · obtain ⟨m, rfl⟩ : ∃ m : Nat, e = -m := ⟨(-e).toNat, by omega⟩
    rcases hshortest with h | h
    · exact .inr ⟨m, neighbour?_whole hlow hhigh h⟩
    · exact .inr ⟨m, h.trans (below_whole n m)⟩

end Decimal

namespace Double

variable {n : Nat} {ds : List Char} {point : Int}

theorem toDigits_mul_pow (hn : 0 < n) (m : Nat) :
    Nat.toDigits 10 (n * Nat.pow 10 m) = Nat.toDigits 10 n ++ List.replicate m '0' := by
  induction m with
  | zero => simp
  | succ m ih =>
    have hpos : 0 < n * Nat.pow 10 m := Nat.mul_pos hn (Nat.pow_pos (by decide))
    have hnext : n * Nat.pow 10 (m + 1) = 10 * (n * Nat.pow 10 m) + 0 := by
      have hpow : Nat.pow 10 (m + 1) = Nat.pow 10 m * 10 := rfl
      rw [hpow, Nat.add_zero, ← Nat.mul_assoc, Nat.mul_comm]
    rw [hnext, ← Nat.toDigits_append_toDigits (by decide) hpos (by decide), ih, Nat.toDigits_zero,
      List.append_assoc, List.replicate_succ']

theorem significant_append_zeros (ds : List Char) (m : Nat) :
    significant (ds ++ List.replicate m '0') = significant ds := by
  rw [significant, significant, List.reverse_append, List.reverse_replicate, List.dropWhile_append_of_pos]
  intro c hc
  rw [List.eq_of_mem_replicate hc]
  rfl

theorem length_significant_le (hds : ds ≠ []) : (significant ds).length ≤ ds.length := by
  have hlen : (ds.reverse.dropWhile (· == '0')).reverse.length ≤ ds.length := by
    simpa using List.length_dropWhile_le (· == '0') ds.reverse
  unfold significant
  split
  · exact List.length_pos_iff.mpr hds
  · exact hlen

theorem significant_ne_nil (ds : List Char) : significant ds ≠ [] := by
  unfold significant
  split
  · exact List.cons_ne_nil _ _
  · next h => exact h

/-- The digits of a whole number end before the point, not counting the zeros. -/
theorem length_significant_whole {d : Decimal} (hn : n ≠ 0)
    (h : 0 ≤ d.exponent ∨ ∃ m : Nat, d = ⟨n * Nat.pow 10 m, -m⟩) :
    ((significant (digitsOf d.digits)).length : Int) ≤ (digitsOf d.digits).length + d.exponent := by
  rcases h with h | ⟨m, rfl⟩
  · have hlen : (significant (digitsOf d.digits)).length ≤ (digitsOf d.digits).length :=
      length_significant_le Nat.toDigits_ne_nil
    omega
  · have hdigits : digitsOf (n * Nat.pow 10 m) = digitsOf n ++ List.replicate m '0' :=
      toDigits_mul_pow (Nat.pos_of_ne_zero hn) m
    have hlen : (significant (digitsOf n)).length ≤ (digitsOf n).length :=
      length_significant_le Nat.toDigits_ne_nil
    simp only [hdigits, significant_append_zeros, List.length_append, List.length_replicate]
    omega

/-- Digits that are used up before the point have a zero behind it. -/
theorem positional_whole (hpoint : 0 < point) (hlen : ds.length ≤ point.toNat) :
    ∃ front, positional ds point = front ++ ['.', '0'] := by
  have hrest : (ds.drop point.toNat).isEmpty = true := by simpa using hlen
  refine ⟨ds.take point.toNat ++ List.replicate (point.toNat - ds.length) '0', ?_⟩
  rw [positional, if_neg (Int.not_le.mpr hpoint)]
  simp only [hrest, if_true]

/-- A whole number is written out with a zero behind the point, or one digit stands before the point or the
exponent. -/
theorem unsignedText_whole (hn : n ≠ 0) :
    (∃ front, unsignedText plain (n * scale) = front ++ ['.', '0']) ∨
      ∃ c x rest, unsignedText plain (n * scale) = c :: x :: rest ∧ x.isDigit = false := by
  have hscale : 0 < scale := by decide +kernel
  have hunits : n * scale ≠ 0 := (Nat.mul_pos (Nat.pos_of_ne_zero hn) hscale).ne'
  have hfit := length_significant_whole hn (Decimal.shortest_whole hn)
  rw [unsignedText, if_neg hunits]
  generalize Decimal.shortest (n * scale) = d at hfit
  have hsome := List.length_pos_iff.mpr (significant_ne_nil (digitsOf d.digits))
  simp only
  split_ifs with hplace
  · exact .inl (positional_whole (by omega) (by omega))
  · refine .inr ?_
    cases hs : significant (digitsOf d.digits) with
    | nil => exact absurd hs (significant_ne_nil _)
    | cons c rest =>
      cases rest with
      | nil => exact ⟨c, 'e', _, rfl, rfl⟩
      | cons x rest => exact ⟨c, '.', _, rfl, rfl⟩

/-- Only one zero is all digits at the end of a text that ends with a zero behind a point. -/
theorem eq_zero_of_suffix {front : List Char} (hds : ∀ c ∈ ds, c.isDigit = true) (hne : ds ≠ [])
    (hend : ds <:+ front ++ ['.', '0']) : ds = ['0'] := by
  obtain ⟨lead, hlead⟩ := hend
  obtain ⟨init, c, rfl⟩ := (List.eq_nil_or_concat ds).resolve_left hne
  have hsplit : (lead ++ init) ++ [c] = (front ++ ['.']) ++ ['0'] := by simpa using hlead
  obtain ⟨hinit, hc⟩ := List.append_inj' hsplit rfl
  obtain rfl := List.singleton_inj.mp hc
  rcases List.eq_nil_or_concat init with rfl | ⟨more, x, rfl⟩
  · rfl
  · have hpoint : (lead ++ more) ++ [x] = front ++ ['.'] := by simpa using hinit
    obtain rfl := List.singleton_inj.mp (List.append_inj' hpoint rfl).2
    exact absurd (hds '.' (by simp)) (by decide)

/-- The digits of a whole number other than zero do not stand at both ends of the text that shows it as a
double. -/
theorem not_both_ends_whole (hn : n ≠ 0) (hstart : Nat.toDigits 10 n <+: unsignedText plain (n * scale)) :
    ¬ Nat.toDigits 10 n <:+ unsignedText plain (n * scale) := by
  have hdigit : ∀ c ∈ Nat.toDigits 10 n, c.isDigit = true :=
    fun c hc => Nat.isDigit_of_mem_toDigits (by decide) (by decide) hc
  have hsmall : ∀ k ∈ List.range 10, k ≠ 0 →
      unsignedText plain (k * scale) = Nat.toDigits 10 k ++ ['.', '0'] := by
    decide +kernel
  obtain ⟨front, hfront⟩ : ∃ front, unsignedText plain (n * scale) = front ++ ['.', '0'] := by
    rcases unsignedText_whole hn with h | ⟨c, x, rest, h, hx⟩
    · exact h
    · have hone : (Nat.toDigits 10 n).length ≤ 1 := by
        obtain ⟨tail, htail⟩ := hstart
        rw [h] at htail
        revert hdigit htail
        cases Nat.toDigits 10 n with
        | nil => simp
        | cons a ds =>
          cases ds with
          | nil => simp
          | cons b ds =>
            intro hdigit htail
            obtain rfl : b = x := (List.cons.inj (List.cons.inj htail).2).1
            rw [hdigit b (by simp)] at hx
            cases hx
      have hten : n < 10 ^ 1 := (Nat.length_toDigits_le_iff (by decide) (by decide)).mp hone
      exact ⟨_, hsmall n (List.mem_range.mpr hten) hn⟩
  intro hend
  rw [hfront] at hend
  have hzero := eq_zero_of_suffix hdigit Nat.toDigits_ne_nil hend
  have hvalue : Nat.ofDigitChars 10 (Nat.toDigits 10 n) 0 = n := Nat.ofDigitChars_ten_toDigits
  rw [hzero] at hvalue
  exact hn hvalue.symm

/-- The text that shows a finite double has a point or an exponent. -/
theorem mem_unsignedText (units : Nat) : '.' ∈ unsignedText plain units ∨ 'e' ∈ unsignedText plain units := by
  unfold unsignedText
  split_ifs with hzero
  · exact .inl (by simp)
  · simp only
    split_ifs
    · unfold positional
      split_ifs <;> simp
    · unfold scientific
      simp [plain]

theorem isDigit_of_mem_significant {s : List Char} (hs : ∀ c ∈ s, c.isDigit = true) :
    ∀ c ∈ significant s, c.isDigit = true := by
  have hsub : ∀ c ∈ (s.reverse.dropWhile (· == '0')).reverse, c.isDigit = true := by
    intro c hc
    rw [List.mem_reverse] at hc
    exact hs c (List.mem_reverse.mp ((List.dropWhile_suffix _).subset hc))
  unfold significant
  split
  · simp
  · exact hsub

open Numeral (isMark)

theorem isMark_of_isDigit {c : Char} (h : c.isDigit = true) : isMark c = true := by
  rw [isMark, Text.digitValue?_of_asciiDigit? (Text.asciiDigit?_of_isDigit h)]
  rfl

theorem isMark_of_mem_replicate {c : Char} {k : Nat} (h : c ∈ List.replicate k '0') : isMark c = true := by
  rw [List.eq_of_mem_replicate h]
  exact isMark_of_isDigit rfl

theorem isMark_of_mem_positional {s : List Char} (hs : ∀ c ∈ s, isMark c = true) (point : Int) :
    ∀ c ∈ positional s point, isMark c = true := by
  have hzero : isMark '0' = true := isMark_of_isDigit rfl
  have hpoint : isMark '.' = true := by simp [isMark]
  have htail : ∀ c ∈ (if (s.drop point.toNat).isEmpty then ['0'] else s.drop point.toNat), isMark c = true := by
    split_ifs
    · simpa using hzero
    · exact fun c hc => hs c (List.mem_of_mem_drop hc)
  unfold positional
  split_ifs
  · simp only [List.cons_append, List.forall_mem_cons, List.forall_mem_append]
    exact ⟨hzero, hpoint, fun c => isMark_of_mem_replicate, hs⟩
  · simp only [List.forall_mem_cons, List.forall_mem_append]
    exact ⟨⟨fun c hc => hs c (List.mem_of_mem_take hc), fun c => isMark_of_mem_replicate⟩, hpoint, htail⟩

theorem isMark_of_mem_scientific {s : List Char} (hs : ∀ c ∈ s, isMark c = true) (power : Int) :
    ∀ c ∈ scientific plain s power, isMark c = true := by
  have hpoint : isMark '.' = true := by simp [isMark]
  have hexponent : isMark plain.exponentMark = true := by simp [isMark, plain]
  have hsign : isMark (if power < 0 then '-' else '+') = true := by split_ifs <;> simp [isMark]
  have hpower : ∀ c ∈ padLeft plain.exponentDigits '0' (digitsOf power.natAbs), isMark c = true := by
    rw [padLeft, List.forall_mem_append]
    exact ⟨fun c => isMark_of_mem_replicate,
      fun c hc => isMark_of_isDigit (Nat.isDigit_of_mem_toDigits (by decide) (by decide) hc)⟩
  unfold scientific
  simp only [List.forall_mem_append, List.forall_mem_cons]
  refine ⟨?_, hexponent, hsign, hpower⟩
  split
  · simp
  · exact hs
  · simp only [List.forall_mem_cons] at hs ⊢
    exact ⟨hs.1, hpoint, hs.2⟩

/-- A finite double is shown by the characters of numerals. -/
theorem isMark_of_mem_unsignedText (units : Nat) : ∀ c ∈ unsignedText plain units, isMark c = true := by
  have hdigits : ∀ k, ∀ c ∈ significant (digitsOf k), isMark c = true := by
    intro k c hc
    have hdigit := isDigit_of_mem_significant (s := digitsOf k)
      fun x hx => Nat.isDigit_of_mem_toDigits (by decide) (by decide) hx
    exact isMark_of_isDigit (hdigit c hc)
  unfold unsignedText
  split_ifs with hzero
  · simp only [List.forall_mem_cons]
    exact ⟨isMark_of_isDigit rfl, by simp [isMark], isMark_of_isDigit rfl, by simp⟩
  · simp only
    split_ifs
    · exact isMark_of_mem_positional (hdigits _) _
    · exact isMark_of_mem_scientific (hdigits _) _

end Double

namespace Numeral

variable {c : Char} {s : List Char}

theorem count_digitRun (hc : Text.digitValue? c = none) (hmark : c ≠ '_') (afterDigit : Bool) (s : List Char) :
    (digitRun afterDigit s).2.count c = s.count c := by
  induction s generalizing afterDigit with
  | nil => rfl
  | cons x rest ih =>
    rw [digitRun]
    cases hx : Text.digitValue? x with
    | some d =>
      have hne : x ≠ c := by
        rintro rfl
        cases hc.symm.trans hx
      rw [List.count_cons_of_ne hne]
      exact ih true
    | none =>
      simp only
      split_ifs with hu
      · simp only [Bool.and_eq_true, decide_eq_true_eq] at hu
        rw [hu.1.2, List.count_cons_of_ne hmark.symm]
        exact ih false
      · rfl

theorem count_takeSign (hplus : c ≠ '+') (hminus : c ≠ '-') (s : List Char) :
    (takeSign s).2.count c = s.count c := by
  unfold takeSign
  split
  · rw [List.count_cons_of_ne hminus.symm]
  · rw [List.count_cons_of_ne hplus.symm]
  · rfl

/-- What may stand in a numeral once: the point, and the mark of the exponent. -/
def onceMarks : List Char := ['.', 'e']

theorem digitValue?_of_onceMarks (hc : c ∈ onceMarks) :
    Text.digitValue? c = none ∧ c ≠ '_' ∧ c ≠ '+' ∧ c ≠ '-' := by
  simp only [onceMarks, List.mem_cons, List.not_mem_nil, or_false] at hc
  rcases hc with rfl | rfl
  · exact ⟨by decide +kernel, by decide, by decide, by decide⟩
  · exact ⟨by decide +kernel, by decide, by decide, by decide⟩

theorem count_readFraction (hc : c ∈ onceMarks) (s : List Char) :
    s.count c ≤ (readFraction s).2.count c + if c = '.' then 1 else 0 := by
  obtain ⟨hdigit, hmark, -⟩ := digitValue?_of_onceMarks hc
  unfold readFraction
  split
  · rw [count_digitRun hdigit hmark]
    by_cases hdot : c = '.'
    · simp [hdot]
    · simp [List.count_cons_of_ne (Ne.symm hdot)]
  · exact Nat.le_add_right _ _

theorem count_of_readExponent? (hc : c ∈ onceMarks) {e : Int} (h : readExponent? s = some e) :
    s.count c ≤ if c = '.' then 0 else 1 := by
  obtain ⟨hdigit, hmark, hplus, hminus⟩ := digitValue?_of_onceMarks hc
  cases s with
  | nil => exact Nat.zero_le _
  | cons x rest =>
    simp only [readExponent?] at h
    split_ifs at h with hx hend
    have htail : (digitRun false (takeSign rest).2).2 = [] := by
      simp only [Bool.or_eq_true, Bool.not_eq_true', not_or, Bool.not_eq_false] at hend
      exact List.isEmpty_iff.mp hend.2
    have hrest : rest.count c = 0 := by
      rw [← count_takeSign hplus hminus, ← count_digitRun hdigit hmark false, htail]
      rfl
    rw [List.count_cons, hrest]
    rcases hx with rfl | rfl <;> split_ifs <;> simp_all

theorem count_of_readUnsigned? (hc : c ∈ onceMarks) {negative : Bool} {x : Double}
    (h : readUnsigned? negative s = some x) : s.count c ≤ 1 := by
  obtain ⟨hdigit, hmark, -⟩ := digitValue?_of_onceMarks hc
  simp only [readUnsigned?] at h
  split_ifs at h
  obtain ⟨e, he, -⟩ := Option.map_eq_some_iff.mp h
  have hwhole := count_digitRun hdigit hmark false s
  have hfraction := count_readFraction hc (digitRun false s).2
  have hexponent := count_of_readExponent? hc he
  split_ifs at hfraction hexponent <;> omega

/-- A text that is read as a finite double has one point at most, and one mark of an exponent. -/
theorem count_of_readDouble? (hc : c ∈ onceMarks) {negative : Bool} {units : Nat}
    (h : readDouble? s = some (.finite negative units)) : s.count c ≤ 1 := by
  obtain ⟨hdigit, hmark, hplus, hminus⟩ := digitValue?_of_onceMarks hc
  have hbody : (takeSign (Text.trimSpacing s)).2.count c ≤ 1 := by
    simp only [readDouble?] at h
    split_ifs at h
    · cases h
    · cases h
    · exact count_of_readUnsigned? hc h
  rw [count_takeSign hplus hminus] at hbody
  obtain ⟨lead, tail, hs, hspacing⟩ := Text.surrounds_strip Text.isSpacing s
  have hsolid : ∀ c ∈ onceMarks, Text.isSpacing c = false := by
    simp [onceMarks, Text.isSpacing, Text.isBlank, Text.blankPoints]
  have hnone : c ∉ lead ++ tail := fun hmem => absurd (hspacing c hmem) (by simp [hsolid c hc])
  have hcount : (lead ++ tail).count c = 0 := List.count_eq_zero.mpr hnone
  have htrim : Text.trimSpacing s = Text.strip Text.isSpacing s := rfl
  rw [htrim] at hbody
  rw [List.count_append] at hcount
  rw [hs, List.count_append, List.count_append]
  omega

end Numeral

end RecordFilter
