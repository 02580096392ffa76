import Mathlib
import RecordFilter.Number.Numeral
import RecordFilter.Proofs.Text.Blank

namespace RecordFilter

namespace Text

/-- The digit that a character stands for. -/
def digitOf (c : Char) : Nat := c.toNat - 48

theorem asciiDigit?_of_isDigit {c : Char} (h : c.isDigit = true) : asciiDigit? c = some (digitOf c) := by
  have hc : 48 ≤ c.toNat ∧ c.toNat ≤ 57 := by
    simp only [Char.isDigit, Bool.and_eq_true, decide_eq_true_eq] at h
    exact h
  exact if_pos hc

theorem digitValue?_of_asciiDigit? {c : Char} {d : Nat} (h : asciiDigit? c = some d) :
    digitValue? c = some d := by
  unfold asciiDigit? at h
  split_ifs at h with hc
  have hfind : digitZeros.find? (fun z => z ≤ c.toNat && c.toNat < z + 10) = some 48 := by
    rw [digitZeros, List.find?_cons_of_pos]
    simp only [Bool.and_eq_true, decide_eq_true_eq]
    omega
  rw [digitValue?, hfind, ← h]
  rfl

theorem isBlank_of_digitValue? {c : Char} {d : Nat} (h : digitValue? c = some d) : isBlank c = false := by
  have hapart : ∀ z ∈ digitZeros, ∀ n ∈ blankPoints, ¬ (z ≤ n ∧ n < z + 10) := by decide +kernel
  obtain ⟨z, hz, -⟩ := Option.map_eq_some_iff.mp h
  have hr : z ≤ c.toNat ∧ c.toNat < z + 10 := by simpa using List.find?_some hz
  rw [isBlank, List.contains_eq_mem, decide_eq_false_iff_not]
  exact fun hb => hapart z (List.mem_of_find?_eq_some hz) c.toNat hb hr

theorem isBlank_of_isDigit {c : Char} (h : c.isDigit = true) : isBlank c = false :=
  isBlank_of_digitValue? (digitValue?_of_asciiDigit? (asciiDigit?_of_isDigit h))

/-- No capital letter is blank, so blanks have no lower case of their own. -/
theorem isBlank_toLower {c : Char} (h : isBlank c = true) : isBlank c.toLower = true := by
  have hsmall : ∀ n ∈ blankPoints, ¬ (65 ≤ n ∧ n ≤ 90) := by decide
  have hc : c.toNat ∈ blankPoints := by simpa [isBlank] using h
  have hnot : ¬ (c.val ≥ 'A'.val ∧ c.val ≤ 'Z'.val) := hsmall c.toNat hc
  rw [Char.toLower, dif_neg hnot]
  exact h

end Text

namespace Numeral

open Text

/-- The characters that a numeral is made of. -/
def isMark (c : Char) : Bool := (digitValue? c).isSome || ['_', '.', 'e', 'E', '+', '-'].contains c

theorem isBlank_of_isMark {c : Char} (h : isMark c = true) : isBlank c = false := by
  rw [isMark, Bool.or_eq_true] at h
  rcases h with h | h
  · obtain ⟨d, hd⟩ := Option.isSome_iff_exists.mp h
    exact isBlank_of_digitValue? hd
  · have hmarks : ∀ c ∈ ['_', '.', 'e', 'E', '+', '-'], isBlank c = false := by
      simp [isBlank, blankPoints]
    exact hmarks c (by simpa using h)

/-- A text that is some marks and then a rest. -/
def Leaves (s rest : List Char) : Prop := ∃ used, s = used ++ rest ∧ ∀ c ∈ used, isMark c = true

theorem Leaves.refl (s : List Char) : Leaves s s := ⟨[], rfl, by simp⟩

theorem Leaves.cons {c : Char} {s rest : List Char} (hc : isMark c = true) (h : Leaves s rest) :
    Leaves (c :: s) rest := by
  obtain ⟨used, rfl, hu⟩ := h
  exact ⟨c :: used, rfl, by simpa [hc] using hu⟩

theorem Leaves.trans {s rest tail : List Char} (h : Leaves s rest) (h' : Leaves rest tail) :
    Leaves s tail := by
  obtain ⟨used, rfl, hu⟩ := h
  obtain ⟨used', rfl, hu'⟩ := h'
  refine ⟨used ++ used', by simp, ?_⟩
  intro c hc
  rcases List.mem_append.mp hc with h | h
  · exact hu c h
  · exact hu' c h

theorem Leaves.forall {s : List Char} (h : Leaves s []) : ∀ c ∈ s, isMark c = true := by
  obtain ⟨used, rfl, hu⟩ := h
  simpa using hu

theorem leaves_takeSign (s : List Char) : Leaves s (takeSign s).2 := by
  unfold takeSign
  split
  · exact (Leaves.refl _).cons (by decide)
  · exact (Leaves.refl _).cons (by decide)
  · exact Leaves.refl _

theorem leaves_digitRun (afterDigit : Bool) (s : List Char) : Leaves s (digitRun afterDigit s).2 := by
  induction s generalizing afterDigit with
  | nil => exact Leaves.refl _
  | cons c rest ih =>
    rw [digitRun]
    cases hd : digitValue? c with
    | some d => exact (ih true).cons (by simp [isMark, hd])
    | none =>
      simp only
      split_ifs with hu
      · simp only [Bool.and_eq_true, decide_eq_true_eq] at hu
        obtain ⟨⟨-, rfl⟩, -⟩ := hu
        exact (ih false).cons (by simp [isMark])
      · exact Leaves.refl _

theorem leaves_readFraction (s : List Char) : Leaves s (readFraction s).2 := by
  unfold readFraction
  split
  · exact (leaves_digitRun false _).cons (by decide)
  · exact Leaves.refl _

theorem leaves_of_readExponent? {s : List Char} {e : Int} (h : readExponent? s = some e) :
    Leaves s [] := by
  cases s with
  | nil => exact Leaves.refl _
  | cons c rest =>
    simp only [readExponent?] at h
    split_ifs at h with he hend
    have htail : (digitRun false (takeSign rest).2).2 = [] := by
      simp only [Bool.or_eq_true, Bool.not_eq_true', not_or, Bool.not_eq_false] at hend
      exact List.isEmpty_iff.mp hend.2
    have hrest := (leaves_takeSign rest).trans (leaves_digitRun false (takeSign rest).2)
    rw [htail] at hrest
    rcases he with rfl | rfl
    · exact hrest.cons (by decide)
    · exact hrest.cons (by decide)

theorem isBlank_of_leaves {s : List Char} (h : Leaves s []) : ∀ c ∈ s, isBlank c = false :=
  fun c hc => isBlank_of_isMark (h.forall c hc)

theorem isBlank_of_readInt? {s : List Char} {n : Int} (h : readInt? s = some n) :
    ∀ c ∈ trimSpacing s, isBlank c = false := by
  simp only [readInt?] at h
  split_ifs at h with hend
  have htail : (digitRun false (takeSign (trimSpacing s)).2).2 = [] := by
    simp only [Bool.or_eq_true, Bool.not_eq_true', not_or, Bool.not_eq_false] at hend
    exact List.isEmpty_iff.mp hend.1.2
  have hl := (leaves_takeSign (trimSpacing s)).trans (leaves_digitRun false (takeSign (trimSpacing s)).2)
  rw [htail] at hl
  exact isBlank_of_leaves hl

theorem leaves_of_readUnsigned? {negative : Bool} {s : List Char} {x : Double}
    (h : readUnsigned? negative s = some x) : Leaves s [] := by
  simp only [readUnsigned?] at h
  split_ifs at h
  obtain ⟨e, he, -⟩ := Option.map_eq_some_iff.mp h
  exact ((leaves_digitRun false s).trans (leaves_readFraction _)).trans (leaves_of_readExponent? he)

/-- The names of the infinities and of the value that is no number hold no blank in any case. -/
theorem isBlank_of_lowerAscii {s : List Char} {name : String} (h : String.ofList (lowerAscii s) = name)
    (hn : ∀ c ∈ name.toList, isBlank c = false) : ∀ c ∈ s, isBlank c = false := by
  intro c hc
  cases hb : isBlank c with
  | false => rfl
  | true =>
    have hm : c.toLower ∈ name.toList := by
      rw [← h, String.toList_ofList]
      exact List.mem_map_of_mem hc
    have hlower : isBlank c.toLower = true := isBlank_toLower hb
    rw [hn _ hm] at hlower
    exact absurd hlower (by simp)

theorem isBlank_of_readDouble? {s : List Char} {x : Double} (h : readDouble? s = some x) :
    ∀ c ∈ trimSpacing s, isBlank c = false := by
  obtain ⟨sign, hs, hmarks⟩ := leaves_takeSign (trimSpacing s)
  have hbody : ∀ c ∈ (takeSign (trimSpacing s)).2, isBlank c = false := by
    simp only [readDouble?] at h
    split_ifs at h with hinf hnan
    · rw [Bool.or_eq_true, beq_iff_eq, beq_iff_eq] at hinf
      rcases hinf with hinf | hinf
      · exact isBlank_of_lowerAscii hinf (by simp [isBlank, blankPoints])
      · exact isBlank_of_lowerAscii hinf (by simp [isBlank, blankPoints])
    · exact isBlank_of_lowerAscii (beq_iff_eq.mp hnan) (by simp [isBlank, blankPoints])
    · exact isBlank_of_leaves (leaves_of_readUnsigned? h)
  intro c hc
  rw [hs] at hc
  rcases List.mem_append.mp hc with hc | hc
  · exact isBlank_of_isMark (hmarks c hc)
  · exact hbody c hc

/-- A reader that drops spacing, and finds no blank in what it reads, reads a text as it stands without
blanks at its ends, or not at all. -/
theorem read_eq_ite {α : Type} {read : List Char → Option α}
    (hsame : ∀ s t, trimSpacing s = trimSpacing t → read s = read t)
    (hsolid : ∀ s a, read s = some a → ∀ c ∈ trimSpacing s, isBlank c = false) (s : List Char) :
    read s = if trimSpacing s = trim s then read (trim s) else none := by
  split_ifs with h
  · exact hsame s (trim s) (by rw [h, trimSpacing_trim])
  · rw [Option.eq_none_iff_forall_ne_some]
    exact fun a ha => h (trimSpacing_eq_trim (hsolid s a ha))

theorem readInt?_eq (s : List Char) :
    readInt? s = if trimSpacing s = trim s then readInt? (trim s) else none :=
  read_eq_ite (fun s t h => by rw [readInt?, readInt?, h]) (fun _ _ => isBlank_of_readInt?) s

theorem readDouble?_eq (s : List Char) :
    readDouble? s = if trimSpacing s = trim s then readDouble? (trim s) else none :=
  read_eq_ite (fun s t h => by rw [readDouble?, readDouble?, h]) (fun _ _ => isBlank_of_readDouble?) s

end Numeral

end RecordFilter
