import Mathlib
import RecordFilter.Proofs.Number.Numeral

namespace RecordFilter.Numeral

open Text

variable {Digits : List Char → List Nat → Prop} {s : List Char} {ds : List Nat} {n : Int}

/-- The number that digits denote: the last one counts ones, and each other one ten times the next. -/
def value (ds : List Nat) : Nat := Nat.ofDigits 10 ds.reverse

/-- A sign or none in front of digits, however these may be written, and the integer that this denotes. -/
inductive Denotes (Digits : List Char → List Nat → Prop) : List Char → List Nat → Int → Prop
  | unsigned {s : List Char} {ds : List Nat} (h : Digits s ds) : Denotes Digits s ds (value ds)
  | plus {s : List Char} {ds : List Nat} (h : Digits s ds) : Denotes Digits ('+' :: s) ds (value ds)
  | minus {s : List Char} {ds : List Nat} (h : Digits s ds) : Denotes Digits ('-' :: s) ds (-value ds)

/-- One ASCII digit or more. -/
structure AsciiDigits (s : List Char) (ds : List Nat) : Prop where
  ne_nil : s ≠ []
  isDigit : ∀ c ∈ s, c.isDigit = true
  digits : ds = s.map digitOf

/-- One digit of any script or more, with a single `_` between two of them or without. -/
inductive Grouped : List Char → List Nat → Prop
  | last {c : Char} {d : Nat} (h : digitValue? c = some d) : Grouped [c] [d]
  | next {c : Char} {d : Nat} {s : List Char} {ds : List Nat} (h : digitValue? c = some d)
    (hs : Grouped s ds) : Grouped (c :: s) (d :: ds)
  | apart {c : Char} {d : Nat} {s : List Char} {ds : List Nat} (h : digitValue? c = some d)
    (hs : Grouped s ds) : Grouped (c :: '_' :: s) (d :: ds)

section Values

theorem value_concat (ds : List Nat) (d : Nat) : value (ds ++ [d]) = 10 * value ds + d := by
  rw [value, List.reverse_append, List.reverse_singleton, List.singleton_append, Nat.ofDigits_cons, value]
  exact Nat.add_comm _ _

theorem ofDigits_eq_value (ds : List Nat) : ofDigits ds = value ds := by
  induction ds using List.reverseRecOn with
  | nil => rfl
  | append_singleton ds d ih =>
    have hstep : ofDigits (ds ++ [d]) = 10 * ofDigits ds + d := by
      rw [ofDigits, List.foldl_append]
      rfl
    rw [hstep, ih, value_concat]

/-- Zeros in front of digits count nothing. -/
theorem value_zeros (zeros : Nat) (ds : List Nat) : value (List.replicate zeros 0 ++ ds) = value ds := by
  rw [value, List.reverse_append, List.reverse_replicate, Nat.ofDigits_append_replicate_zero, value]

theorem value_toDigits (n : Nat) : value ((Nat.toDigits 10 n).map digitOf) = n := by
  have hchars : ofDigits ((Nat.toDigits 10 n).map digitOf) = Nat.ofDigitChars 10 (Nat.toDigits 10 n) 0 := by
    rw [ofDigits, List.foldl_map]
    rfl
  rw [← ofDigits_eq_value, hchars, Nat.ofDigitChars_ten_toDigits]

end Values

section Signs

theorem takeSign_cons_of_digitValue? {c : Char} {d : Nat} (h : digitValue? c = some d) (s : List Char) :
    takeSign (c :: s) = (false, c :: s) := by
  have hsigns : digitValue? '+' = none ∧ digitValue? '-' = none := by decide +kernel
  unfold takeSign
  split
  · next heq =>
    obtain ⟨rfl, -⟩ := List.cons.inj heq
    cases h.symm.trans hsigns.2
  · next heq =>
    obtain ⟨rfl, -⟩ := List.cons.inj heq
    cases h.symm.trans hsigns.1
  · rfl

theorem digitValue?_of_isDigit {c : Char} (h : c.isDigit = true) : digitValue? c = some (digitOf c) :=
  digitValue?_of_asciiDigit? (asciiDigit?_of_isDigit h)

theorem AsciiDigits.takeSign (h : AsciiDigits s ds) : takeSign s = (false, s) := by
  cases s with
  | nil => exact absurd rfl h.ne_nil
  | cons c s => exact takeSign_cons_of_digitValue? (digitValue?_of_isDigit (h.isDigit c (by simp))) s

theorem Grouped.takeSign (h : Grouped s ds) : takeSign s = (false, s) := by
  cases h with
  | last hc => exact takeSign_cons_of_digitValue? hc _
  | next hc => exact takeSign_cons_of_digitValue? hc _
  | apart hc => exact takeSign_cons_of_digitValue? hc _

/-- Where no digits start with a sign, a text denotes what its digits denote after the sign is taken off. -/
theorem denotes_iff (hplain : ∀ s ds, Digits s ds → takeSign s = (false, s)) :
    Denotes Digits s ds n ↔ Digits (takeSign s).2 ds ∧ n = signed (takeSign s).1 (value ds) := by
  constructor
  · intro h
    cases h with
    | unsigned h =>
      rw [hplain _ _ h]
      exact ⟨h, rfl⟩
    | plus h => exact ⟨h, rfl⟩
    | minus h => exact ⟨h, rfl⟩
  · intro hh
    obtain ⟨h, rfl⟩ := hh
    revert h
    unfold takeSign
    split
    · exact .minus
    · exact .plus
    · exact .unsigned

theorem denotes_asciiDigits_iff :
    Denotes AsciiDigits s ds n ↔ AsciiDigits (takeSign s).2 ds ∧ n = signed (takeSign s).1 (value ds) :=
  denotes_iff fun _ _ => AsciiDigits.takeSign

theorem denotes_grouped_iff :
    Denotes Grouped s ds n ↔ Grouped (takeSign s).2 ds ∧ n = signed (takeSign s).1 (value ds) :=
  denotes_iff fun _ _ => Grouped.takeSign

end Signs

section Spellings

theorem isBlank_of_denotes (h : Denotes AsciiDigits s ds n) : ∀ c ∈ s, isBlank c = false := by
  have hdigits : ∀ {body : List Char}, AsciiDigits body ds → ∀ c ∈ body, isBlank c = false :=
    fun hb c hc => isBlank_of_isDigit (hb.isDigit c hc)
  cases h with
  | unsigned hb => exact hdigits hb
  | plus hb => exact List.forall_mem_cons.mpr ⟨by decide, hdigits hb⟩
  | minus hb => exact List.forall_mem_cons.mpr ⟨by decide, hdigits hb⟩

/-- Blanks around a numeral are dropped. -/
theorem trim_of_denotes (lead tail : List Char) (h : Denotes AsciiDigits s ds n)
    (hblank : ∀ c ∈ lead ++ tail, isBlank c = true) : trim (lead ++ s ++ tail) = s :=
  strip_eq_of_surrounds (bare_of_forall (isBlank_of_denotes h)) ⟨lead, tail, rfl, hblank⟩

theorem asciiDigits_toDigits (n : Nat) :
    AsciiDigits (Nat.toDigits 10 n) ((Nat.toDigits 10 n).map digitOf) where
  ne_nil := Nat.toDigits_ne_nil
  isDigit := fun _ hc => Nat.isDigit_of_mem_toDigits (by decide) (by decide) hc
  digits := rfl

theorem asciiDigits_zeros (zeros : Nat) (h : AsciiDigits s ds) :
    AsciiDigits (List.replicate zeros '0' ++ s) (List.replicate zeros 0 ++ ds) where
  ne_nil := by simp [h.ne_nil]
  isDigit := by
    intro c hc
    rcases List.mem_append.mp hc with hc | hc
    · rw [List.eq_of_mem_replicate hc]
      rfl
    · exact h.isDigit c hc
  digits := by
    rw [List.map_append, List.map_replicate, h.digits]
    rfl

/-- Each sign, with the shortest one that says the same. -/
def signs : List (String × String) := [("", ""), ("+", ""), ("-", "-")]

/-- Zeros behind the sign, and a `+` for none, do not change what is denoted. -/
theorem exists_denotes_of_signs {sign mark : String} (hsign : (sign, mark) ∈ signs) (zeros : Nat)
    (h : AsciiDigits s ds) :
    ∃ n, Denotes AsciiDigits (sign.toList ++ List.replicate zeros '0' ++ s) (List.replicate zeros 0 ++ ds) n ∧
      Denotes AsciiDigits (mark.toList ++ s) ds n := by
  have hzeros := asciiDigits_zeros zeros h
  have hvalue := value_zeros zeros ds
  simp only [signs, List.mem_cons, Prod.mk.injEq, List.not_mem_nil, or_false] at hsign
  rcases hsign with ⟨rfl, rfl⟩ | ⟨rfl, rfl⟩ | ⟨rfl, rfl⟩
  · exact ⟨value ds, hvalue ▸ .unsigned hzeros, .unsigned h⟩
  · exact ⟨value ds, hvalue ▸ .plus hzeros, .unsigned h⟩
  · exact ⟨-value ds, hvalue ▸ .minus hzeros, .minus h⟩

end Spellings

section Runs

theorem digitValue?_underscore : digitValue? '_' = none := by decide +kernel

theorem Grouped.ne_nil (h : Grouped s ds) : ds ≠ [] := by
  cases h <;> simp

theorem not_grouped_cons {c : Char} (hc : digitValue? c = none) : ¬ Grouped (c :: s) ds := by
  intro h
  cases h with
  | last h => cases hc.symm.trans h
  | next h => cases hc.symm.trans h
  | apart h => cases hc.symm.trans h

/-- What may stand behind a digit: nothing, digits, or a `_` and then digits. -/
def Follows (s : List Char) (ds : List Nat) : Prop :=
  s = [] ∧ ds = [] ∨ Grouped s ds ∨ ∃ tail, s = '_' :: tail ∧ Grouped tail ds

theorem grouped_cons_iff {c : Char} {d : Nat} (hc : digitValue? c = some d) :
    Grouped (c :: s) ds ↔ ∃ es, ds = d :: es ∧ Follows s es := by
  constructor
  · intro h
    cases h with
    | last h =>
      obtain rfl := Option.some.inj (hc.symm.trans h)
      exact ⟨[], rfl, .inl ⟨rfl, rfl⟩⟩
    | next h hs =>
      obtain rfl := Option.some.inj (hc.symm.trans h)
      exact ⟨_, rfl, .inr (.inl hs)⟩
    | apart h hs =>
      obtain rfl := Option.some.inj (hc.symm.trans h)
      exact ⟨_, rfl, .inr (.inr ⟨_, rfl, hs⟩)⟩
  · intro hh
    obtain ⟨es, rfl, ⟨rfl, rfl⟩ | hs | ⟨tail, rfl, hs⟩⟩ := hh
    · exact .last hc
    · exact .next hc hs
    · exact .apart hc hs

theorem digitRun_of_digit {c : Char} {d : Nat} (hc : digitValue? c = some d) (afterDigit : Bool)
    (s : List Char) :
    digitRun afterDigit (c :: s) = (d :: (digitRun true s).1, (digitRun true s).2) := by
  rw [digitRun, hc]

theorem digitRun_of_stop {c : Char} (hc : digitValue? c = none) (s : List Char) :
    digitRun false (c :: s) = ([], c :: s) := by
  simp [digitRun, hc]

/-- Behind a digit, a `_` is passed over when another digit comes next. -/
theorem digitRun_of_mark {c : Char} (hc : digitValue? c = none) (s : List Char) :
    digitRun true (c :: s) =
      if c = '_' ∧ (digitRun false s).1 ≠ [] then digitRun false s else ([], c :: s) := by
  rw [digitRun, hc]
  simp

/-- A run of digits takes the whole text exactly when this is grouped digits, or may stand behind a digit. -/
theorem digitRun_eq_iff (s : List Char) :
    (∀ ds, digitRun false s = (ds, []) ↔ s = [] ∧ ds = [] ∨ Grouped s ds) ∧
    ∀ ds, digitRun true s = (ds, []) ↔ Follows s ds := by
  -- Both at once: a digit leads on to a run behind a digit, and a `_` leads back to a first run.
  induction s with
  | nil =>
    have hnone : ∀ ds, ¬ Grouped [] ds := by
      intro ds h
      cases h
    simp [digitRun, Follows, hnone, eq_comm]
  | cons c rest ih =>
    obtain ⟨hfirst, hbehind⟩ := ih
    cases hc : digitValue? c with
    | some d =>
      have hmark : ∀ tail, c :: rest ≠ '_' :: tail := by
        intro tail h
        obtain ⟨rfl, -⟩ := List.cons.inj h
        cases hc.symm.trans digitValue?_underscore
      have hrun : ∀ afterDigit ds, digitRun afterDigit (c :: rest) = (ds, []) ↔ Grouped (c :: rest) ds := by
        intro afterDigit ds
        rw [digitRun_of_digit hc, grouped_cons_iff hc]
        simp only [← hbehind, Prod.ext_iff]
        constructor
        · intro hh
          obtain ⟨rfl, hend⟩ := hh
          exact ⟨_, rfl, rfl, hend⟩
        · intro hh
          obtain ⟨es, rfl, rfl, hend⟩ := hh
          exact ⟨rfl, hend⟩
      simp [hrun, Follows, hmark]
    | none =>
      have hnot : ∀ ds, ¬ Grouped (c :: rest) ds := fun ds => not_grouped_cons hc
      have htail : ∀ ds, Follows (c :: rest) ds ↔ c = '_' ∧ Grouped rest ds := by
        intro ds
        simp [Follows, hnot]
      refine ⟨fun ds => by simp [digitRun_of_stop hc, hnot], fun ds => ?_⟩
      rw [digitRun_of_mark hc, htail]
      split_ifs with hgoes
      · have hne : rest ≠ [] := by
          rintro rfl
          exact hgoes.2 rfl
        simp [hfirst, hgoes.1, hne]
      · constructor
        · intro h
          cases (Prod.mk.inj h).2
        · intro hh
          obtain ⟨hc', hrest⟩ := hh
          have hall : digitRun false rest = (ds, []) := (hfirst ds).mpr (.inr hrest)
          exact absurd ⟨hc', by rw [hall]; exact hrest.ne_nil⟩ hgoes

theorem grouped_iff : Grouped s ds ↔ digitRun false s = (ds, []) ∧ ds ≠ [] := by
  rw [(digitRun_eq_iff s).1]
  constructor
  · exact fun h => ⟨.inr h, h.ne_nil⟩
  · rintro ⟨⟨-, rfl⟩ | h, hne⟩
    · exact absurd rfl hne
    · exact h

end Runs

section Records

/-- A text is read as the integer that it denotes, without the spacing around it. -/
theorem readInt?_eq_some_iff {s : List Char} :
    readInt? s = some n ↔ ∃ ds, Denotes Grouped (trimSpacing s) ds n ∧ ds.length ≤ maxDigits := by
  simp only [denotes_grouped_iff, grouped_iff]
  have hread : readInt? s =
      let run := digitRun false (takeSign (trimSpacing s)).2
      if run.1 = [] ∨ run.2 ≠ [] ∨ maxDigits < run.1.length then none
      else some (signed (takeSign (trimSpacing s)).1 (ofDigits run.1)) := by
    rw [readInt?]
    simp [or_assoc]
  rw [hread]
  obtain ⟨es, left⟩ := digitRun false (takeSign (trimSpacing s)).2
  simp only [ofDigits_eq_value]
  constructor
  · intro h
    split_ifs at h with hout
    simp only [not_or, not_not, not_lt] at hout
    obtain ⟨hne, rfl, hlen⟩ := hout
    exact ⟨es, ⟨⟨rfl, hne⟩, (Option.some.inj h).symm⟩, hlen⟩
  · intro hh
    obtain ⟨ds, ⟨⟨hrun, hne⟩, rfl⟩, hlen⟩ := hh
    obtain ⟨rfl, rfl⟩ := Prod.mk.inj hrun
    rw [if_neg (by simp [hne, hlen])]

theorem readInt?_eq_none_iff {s : List Char} :
    readInt? s = none ↔ ∀ ds n, Denotes Grouped (trimSpacing s) ds n → maxDigits < ds.length := by
  rw [Option.eq_none_iff_forall_ne_some]
  constructor
  · intro h ds n hd
    by_contra hlen
    exact h n (readInt?_eq_some_iff.mpr ⟨ds, hd, Nat.not_lt.mp hlen⟩)
  · intro h n hn
    obtain ⟨ds, hd, hlen⟩ := readInt?_eq_some_iff.mp hn
    exact absurd (h ds n hd) (Nat.not_lt.mpr hlen)

theorem AsciiDigits.grouped (h : AsciiDigits s ds) : Grouped s ds := by
  obtain ⟨hne, hdigit, rfl⟩ := h
  induction s with
  | nil => exact absurd rfl hne
  | cons c s ih =>
    obtain ⟨hc, hs⟩ := List.forall_mem_cons.mp hdigit
    have hvalue := digitValue?_of_isDigit hc
    cases s with
    | nil => exact .last hvalue
    | cons c' s => exact .next hvalue (ih (List.cons_ne_nil c' s) hs)

/-- What a match text denotes is read in records. -/
theorem readInt?_of_denotes (h : Denotes AsciiDigits s ds n) (hlen : ds.length ≤ maxDigits) :
    readInt? s = some n := by
  have htrim : trimSpacing s = s :=
    strip_of_bare ((bare_of_forall (isBlank_of_denotes h)).weaken fun _ => isBlank_of_isSpacing)
  have hgrouped : Denotes Grouped s ds n := by
    cases h with
    | unsigned hb => exact .unsigned hb.grouped
    | plus hb => exact .plus hb.grouped
    | minus hb => exact .minus hb.grouped
  rw [readInt?_eq_some_iff, htrim]
  exact ⟨ds, hgrouped, hlen⟩

end Records

section Behind

variable {cs rest : List Char} {fs : List Nat}

theorem value_append (ds fs : List Nat) : value (ds ++ fs) = value fs + 10 ^ fs.length * value ds := by
  rw [value, List.reverse_append, Nat.ofDigits_append, List.length_reverse, value, value]

/-- Behind the first digits of a group stand the others, or a `_` and then the others. -/
theorem Grouped.exists_behind (hcs : ∀ c ∈ cs, c.isDigit = true) (hne : cs ≠ []) (h : Grouped (cs ++ rest) ds) :
    ∃ fs, ds = cs.map digitOf ++ fs ∧ Follows rest fs := by
  induction cs generalizing ds with
  | nil => exact absurd rfl hne
  | cons c cs ih =>
    obtain ⟨hc, hcs⟩ := List.forall_mem_cons.mp hcs
    obtain ⟨fs, rfl, hfs⟩ := (grouped_cons_iff (digitValue?_of_isDigit hc)).mp h
    cases cs with
    | nil => exact ⟨fs, rfl, hfs⟩
    | cons c' cs =>
      have hc' := digitValue?_of_isDigit (hcs c' (by simp))
      have hgrouped : Grouped (c' :: cs ++ rest) fs := by
        rcases hfs with ⟨hnil, -⟩ | hfs | ⟨tail, htail, -⟩
        · cases hnil
        · exact hfs
        · obtain ⟨rfl, -⟩ := List.cons.inj htail
          cases hc'.symm.trans digitValue?_underscore
      obtain ⟨gs, rfl, hgs⟩ := ih hcs (List.cons_ne_nil c' cs) hgrouped
      exact ⟨gs, rfl, hgs⟩

/-- More digits behind those of a number other than zero make it greater. -/
theorem AsciiDigits.eq_nil_of_append (hs : AsciiDigits s ds) (h : Grouped (s ++ rest) fs)
    (hvalue : value fs = value ds) (hpos : value ds ≠ 0) : rest = [] := by
  obtain ⟨gs, rfl, hgs⟩ := h.exists_behind hs.isDigit hs.ne_nil
  rw [← hs.digits, value_append] at hvalue
  have hnil : gs = [] := by
    by_contra hne
    have hten : 10 ≤ 10 ^ gs.length := Nat.le_self_pow (by simpa using hne) 10
    have hmore : 10 * value ds ≤ 10 ^ gs.length * value ds := Nat.mul_le_mul_right _ hten
    omega
  rcases hgs with ⟨hrest, -⟩ | hgs | ⟨tail, -, hgs⟩
  · exact hrest
  · exact absurd hnil hgs.ne_nil
  · exact absurd hnil hgs.ne_nil

/-- Nothing stands behind a numeral in another one of the same integer, unless this is zero. -/
theorem Denotes.eq_nil_of_append (hs : Denotes AsciiDigits s ds n) (h : Denotes Grouped (s ++ rest) fs n)
    (hn : n ≠ 0) : rest = [] := by
  rw [denotes_grouped_iff] at h
  cases hs with
  | @unsigned s ds hs =>
    have hsign : takeSign (s ++ rest) = (false, s ++ rest) := by
      cases s with
      | nil => exact absurd rfl hs.ne_nil
      | cons c s => exact takeSign_cons_of_digitValue? (digitValue?_of_isDigit (hs.isDigit c (by simp))) _
    rw [hsign] at h
    exact hs.eq_nil_of_append h.1 (Int.natCast_inj.mp h.2.symm) (Int.natCast_ne_zero.mp hn)
  | plus hs => exact hs.eq_nil_of_append h.1 (Int.natCast_inj.mp h.2.symm) (Int.natCast_ne_zero.mp hn)
  | minus hs =>
    exact hs.eq_nil_of_append h.1 (Int.natCast_inj.mp (neg_injective h.2).symm)
      (Int.natCast_ne_zero.mp (neg_ne_zero.mp hn))

/-- A text that starts and ends with a numeral of the integer that it is read as is that numeral, unless the
integer is zero. -/
theorem eq_of_readInt?_of_both_ends (hs : Denotes AsciiDigits cs ds n) (hn : n ≠ 0)
    (hread : readInt? s = some n) (hstart : cs <+: s) (hend : cs <:+ s) : s = cs := by
  have hne : cs ≠ [] := by
    rintro rfl
    cases hs with
    | unsigned h => exact h.ne_nil rfl
  have hbare : Bare isSpacing cs :=
    (bare_of_forall (isBlank_of_denotes hs)).weaken fun _ => isBlank_of_isSpacing
  obtain ⟨fs, hfs, -⟩ := readInt?_eq_some_iff.mp hread
  have htrim : trimSpacing s = s := strip_of_bare (hbare.of_both_ends hne hstart hend)
  rw [htrim] at hfs
  obtain ⟨rest, rfl⟩ := hstart
  rw [hs.eq_nil_of_append hfs hn, List.append_nil]

end Behind

end RecordFilter.Numeral
